/-!
# Lists of keyed entries

Entries with texts as keys, looked up by the first match.  `Keyed.insert` puts an entry at its
place in key order, replacing the entry of that key; it keeps a list strictly increasing
(`Keyed.sorted_insert`), and strictly increasing lists with the same entries for every key are the
same (`Keyed.ext`).
-/

namespace Newswire

namespace Keyed

universe u

variable {α : Type u}

/-- The keys are strictly increasing. -/
def Sorted (xs : List (String × α)) : Prop := xs.Pairwise fun a b => a.1 < b.1

/-- The entries with one more put at its place; an entry with the same key is replaced. -/
def insert (key : String) (value : α) : List (String × α) → List (String × α)
  | [] => [(key, value)]
  | (k, v) :: rest =>
    if key < k then (key, value) :: (k, v) :: rest
    else if key = k then (key, value) :: rest
    else (k, v) :: insert key value rest

/-- The entries without those of a key. -/
def erase (key : String) (xs : List (String × α)) : List (String × α) :=
  xs.filter fun e => e.1 != key

theorem lookup_insert (key k : String) (value : α) (xs : List (String × α)) :
    (insert key value xs).lookup k = if k = key then some value else xs.lookup k := by
  induction xs with
  | nil => by_cases hk : k = key <;> simp [insert, hk]
  | cons e rest ih =>
    obtain ⟨k', v'⟩ := e
    simp only [insert]
    split
    · by_cases hk : k = key
      · subst hk; simp
      · have hb : (k == key) = false := by simpa using hk
        simp [List.lookup_cons, hk, hb]
    · split
      · next he =>
        subst he
        by_cases hk : k = key
        · subst hk; simp
        · have hb : (k == key) = false := by simpa using hk
          simp [List.lookup_cons, hk, hb]
      · next hne =>
        by_cases hk : k = k'
        · subst hk
          have : ¬k = key := fun h => hne h.symm
          simp [this]
        · have hb : (k == k') = false := by simpa using hk
          simp [List.lookup_cons, hb, ih]

theorem lookup_erase (key k : String) (xs : List (String × α)) :
    (erase key xs).lookup k = if k = key then none else xs.lookup k := by
  induction xs with
  | nil => simp [erase]
  | cons e rest ih =>
    obtain ⟨k', v'⟩ := e
    simp only [erase] at ih
    by_cases he : k' = key
    · subst he
      simp only [erase, List.filter_cons, bne_self_eq_false, Bool.false_eq_true, if_false]
      rw [ih]
      by_cases hk : k = k'
      · simp [hk]
      · have hb : (k == k') = false := by simpa using hk
        simp [List.lookup_cons, hk, hb]
    · have hkeep : (k' != key) = true := by simpa using he
      simp only [erase, List.filter_cons, hkeep, if_true]
      by_cases hk : k = k'
      · subst hk; simp [he]
      · have hb : (k == k') = false := by simpa using hk
        simp only [List.lookup_cons, hb]
        exact ih

theorem mem_insert {key : String} {value : α} {xs : List (String × α)} {e : String × α}
    (h : e ∈ insert key value xs) : e = (key, value) ∨ e ∈ xs := by
  induction xs with
  | nil => simpa [insert] using h
  | cons x rest ih =>
    simp only [insert] at h
    split at h
    · simpa using h
    · split at h
      · rcases List.mem_cons.1 h with h | h
        · exact Or.inl h
        · exact Or.inr (List.mem_cons_of_mem _ h)
      · rcases List.mem_cons.1 h with h | h
        · exact Or.inr (h ▸ List.mem_cons_self)
        · rcases ih h with h | h
          · exact Or.inl h
          · exact Or.inr (List.mem_cons_of_mem _ h)

theorem sorted_insert {key : String} {value : α} {xs : List (String × α)} (h : Sorted xs) :
    Sorted (insert key value xs) := by
  induction xs with
  | nil => simp [insert, Sorted]
  | cons x rest ih =>
    obtain ⟨hx, hrest⟩ := List.pairwise_cons.1 h
    simp only [insert]
    split
    · next hlt =>
      refine List.pairwise_cons.2 ⟨fun e he => ?_, h⟩
      rcases List.mem_cons.1 he with rfl | he
      · exact hlt
      · exact String.lt_trans hlt (hx e he)
    · next hge =>
      split
      · next he =>
        refine List.pairwise_cons.2 ⟨fun e h' => ?_, hrest⟩
        exact he ▸ hx e h'
      · next hne =>
        refine List.pairwise_cons.2 ⟨fun e he => ?_, ih hrest⟩
        rcases mem_insert he with rfl | he
        · have hle : x.1 ≤ key := String.not_lt.1 hge
          refine Decidable.byContradiction fun hcon => hne ?_
          exact String.le_antisymm (String.not_lt.1 hcon) hle
        · exact hx e he

theorem sorted_erase {key : String} {xs : List (String × α)} (h : Sorted xs) :
    Sorted (erase key xs) := h.filter _

theorem lookup_eq_none_of_lt {k : String} {xs : List (String × α)} (h : ∀ e ∈ xs, k < e.1) :
    xs.lookup k = none := by
  induction xs with
  | nil => rfl
  | cons x rest ih =>
    have hx := h x List.mem_cons_self
    have hb : (k == x.1) = false := by
      simp only [beq_eq_false_iff_ne]
      intro he
      exact String.lt_irrefl _ (he ▸ hx)
    rw [List.lookup_cons, hb]
    exact ih fun e he => h e (List.mem_cons_of_mem _ he)

theorem mem_of_lookup {k : String} {v : α} {xs : List (String × α)} (h : xs.lookup k = some v) :
    (k, v) ∈ xs := by
  induction xs with
  | nil => simp at h
  | cons x rest ih =>
    obtain ⟨k', v'⟩ := x
    rw [List.lookup_cons] at h
    split at h
    · next hb =>
      have : k = k' := by simpa using hb
      simp_all
    · exact List.mem_cons_of_mem _ (ih h)

theorem lookup_of_mem {k : String} {v : α} {xs : List (String × α)} (hs : Sorted xs)
    (h : (k, v) ∈ xs) : xs.lookup k = some v := by
  induction xs with
  | nil => simp at h
  | cons x rest ih =>
    obtain ⟨hx, hrest⟩ := List.pairwise_cons.1 hs
    rcases List.mem_cons.1 h with rfl | h
    · simp
    · have hlt := hx _ h
      have hb : (k == x.1) = false := by
        simp only [beq_eq_false_iff_ne]
        rintro rfl
        exact String.lt_irrefl _ hlt
      rw [List.lookup_cons, hb]
      exact ih hrest h

theorem ext {xs ys : List (String × α)} (hx : Sorted xs) (hy : Sorted ys)
    (h : ∀ k, xs.lookup k = ys.lookup k) : xs = ys := by
  induction xs generalizing ys with
  | nil =>
    cases ys with
    | nil => rfl
    | cons y ys =>
      have := (h y.1).symm
      simp at this
  | cons x xs ih =>
    obtain ⟨hx1, hx2⟩ := List.pairwise_cons.1 hx
    cases ys with
    | nil =>
      have := h x.1
      simp at this
    | cons y ys =>
      obtain ⟨hy1, hy2⟩ := List.pairwise_cons.1 hy
      have hkey : x.1 = y.1 := by
        refine String.le_antisymm (String.not_lt.1 fun hlt => ?_) (String.not_lt.1 fun hlt => ?_)
        · have hnone : (x :: xs).lookup y.1 = none := lookup_eq_none_of_lt fun e he => by
            rcases List.mem_cons.1 he with rfl | he
            · exact hlt
            · exact String.lt_trans hlt (hx1 e he)
          have := (h y.1).symm
          rw [hnone] at this
          simp at this
        · have hnone : (y :: ys).lookup x.1 = none := lookup_eq_none_of_lt fun e he => by
            rcases List.mem_cons.1 he with rfl | he
            · exact hlt
            · exact String.lt_trans hlt (hy1 e he)
          have := h x.1
          rw [hnone] at this
          simp at this
      have hval : x.2 = y.2 := by
        have := h x.1
        rw [List.lookup_cons, List.lookup_cons, hkey] at this
        simpa using this
      have hxy : x = y := Prod.ext hkey hval
      subst hxy
      refine congrArg _ (ih hx2 hy2 fun k => ?_)
      by_cases hk : k = x.1
      · subst hk
        rw [lookup_eq_none_of_lt hx1, lookup_eq_none_of_lt hy1]
      · have hb : (k == x.1) = false := by simpa using hk
        have := h k
        rwa [List.lookup_cons, List.lookup_cons, hb] at this

end Keyed

end Newswire
