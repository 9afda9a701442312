import Mathlib.Data.List.Forall2
import Newswire.Query.Matcher

/-!
# Decisions without faults

Evaluation and queries decide in steps that may fail, and stop at the first step that settles the
matter.  `Decides x P` says that the decision `x` does not fail and is positive exactly when `P`
holds; such decisions are put together like their propositions, since what is not reached any more
would not change the outcome.

* `decides_allM`, `decides_anyM`, `filterM_eq_ok` : decisions on the elements of a list.
* `Matcher.decides_all`, `Matcher.decides_any`, `Matcher.decides_not`, `Matcher.decides_onSome` :
  the combinations of queries.
* `Decides.agree` : decisions of the same proposition have the same outcome.
-/

namespace Newswire

section Failing

variable {ε : Type}

/-- The decision does not fail, and it is positive exactly when `P` holds. -/
def Decides (x : Except ε Bool) (P : Prop) : Prop := ∃ v, x = .ok v ∧ (v = true ↔ P)

variable {x y : Except ε Bool} {P Q : Prop}

theorem decides_ok (v : Bool) : Decides (.ok v : Except ε Bool) (v = true) := ⟨v, rfl, Iff.rfl⟩

theorem Decides.congr (h : Decides x P) (hPQ : P ↔ Q) : Decides x Q := by
  obtain ⟨v, hv, hP⟩ := h
  exact ⟨v, hv, hP.trans hPQ⟩

/-- Decisions of the same proposition have the same outcome, and it tells whether that holds. -/
theorem Decides.agree_iff (hx : Decides x P) (hy : Decides y P) :
    ∃ v, x = .ok v ∧ y = .ok v ∧ (v = true ↔ P) := by
  obtain ⟨v, hv, hP⟩ := hx
  obtain ⟨w, hw, hP'⟩ := hy
  have hvw : v = w := Bool.eq_iff_iff.2 (hP.trans hP'.symm)
  exact ⟨v, hv, hvw ▸ hw, hP⟩

/-- Decisions of the same proposition have the same outcome. -/
theorem Decides.agree (hx : Decides x P) (hy : Decides y P) : ∃ v, x = .ok v ∧ y = .ok v := by
  obtain ⟨v, hv, hw, -⟩ := hx.agree_iff hy
  exact ⟨v, hv, hw⟩

theorem Decides.map_not (h : Decides x P) : Decides ((!·) <$> x) ¬P := by
  obtain ⟨v, rfl, hP⟩ := h
  exact ⟨!v, rfl, by rw [← hP, Bool.not_eq_true', Bool.not_eq_true]⟩

theorem Decides.and (hx : Decides x P) (hy : Decides y Q) :
    Decides (do if ← x then y else return false) (P ∧ Q) := by
  obtain ⟨v, rfl, hP⟩ := hx
  cases v with
  | true => exact hy.congr ⟨fun h => ⟨hP.1 rfl, h⟩, And.right⟩
  | false => exact ⟨false, rfl, by simp [← hP]⟩

theorem Decides.or (hx : Decides x P) (hy : Decides y Q) :
    Decides (do if ← x then return true else y) (P ∨ Q) := by
  obtain ⟨v, rfl, hP⟩ := hx
  cases v with
  | true => exact ⟨true, rfl, by simp [← hP]⟩
  | false => exact hy.congr ⟨Or.inr, fun h => h.resolve_left fun hp => Bool.false_ne_true (hP.2 hp)⟩

theorem bind_eq_ok_iff {α β : Type} {x : Except ε α} {k : α → Except ε β} {z : β} :
    x >>= k = .ok z ↔ ∃ a, x = .ok a ∧ k a = .ok z := by
  cases x <;> simp [bind, Except.bind]

/-- Two continuations need to agree only on the value that is found. -/
theorem bind_congr_ok {α β : Type} {x : Except ε α} {k l : α → Except ε β}
    (h : ∀ a, x = .ok a → k a = l a) : x >>= k = x >>= l := by
  cases x with
  | error e => rfl
  | ok a => exact h a rfl

theorem map_eq_ok_iff {α β : Type} {x : Except ε α} {k : α → β} {z : β} :
    k <$> x = .ok z ↔ ∃ a, x = .ok a ∧ k a = z := by
  cases x <;> simp [Functor.map, Except.map]

theorem eq_ok_of_toOption {α : Type} {x : Except ε α} {a : α} (h : x.toOption = some a) :
    x = .ok a := by
  cases x with
  | error e => cases h
  | ok b => exact congrArg Except.ok (Option.some.inj h)

theorem exists_ok_of_isSome {α : Type} {x : Except ε α} (h : x.toOption.isSome = true) :
    ∃ a, x = .ok a := by
  obtain ⟨a, ha⟩ := Option.isSome_iff_exists.1 h
  exact ⟨a, eq_ok_of_toOption ha⟩

theorem exists_ok_of_bind {δ α β : Type} {x : Except ε α} {f : α → Except δ β} {b : β}
    (h : (x.toOption.bind fun a => (f a).toOption) = some b) : ∃ a, x = .ok a ∧ f a = .ok b := by
  obtain ⟨a, ha, hb⟩ := Option.bind_eq_some_iff.1 h
  exact ⟨a, eq_ok_of_toOption ha, eq_ok_of_toOption hb⟩

theorem check_eq_ok_iff {α : Type} {p : Prop} [Decidable p] {e : ε} {x : Except ε α} {z : α} :
    (if p then do throw e; x else x) = .ok z ↔ ¬p ∧ x = .ok z := by
  by_cases hp : p
  · simp [hp, throw, throwThe, MonadExceptOf.throw, bind, Except.bind]
  · simp [hp]

/-! ### Decisions on the elements of a list -/

variable {α : Type} {xs : List α} {f : α → Except ε Bool} {p : α → Prop}

theorem decides_anyM (h : ∀ a ∈ xs, Decides (f a) (p a)) :
    Decides (xs.anyM f) (∃ a ∈ xs, p a) := by
  induction xs with
  | nil => exact ⟨false, rfl, by simp⟩
  | cons a xs ih =>
    have hrest := ih fun b hb => h b (List.mem_cons_of_mem _ hb)
    have hstep := (h a List.mem_cons_self).or hrest
    have hunfold : (a :: xs).anyM f = (do if ← f a then return true else xs.anyM f) := by
      rw [List.anyM]
      congr 1
      funext b
      cases b <;> rfl
    rw [hunfold]
    exact hstep.congr (by simp)

theorem decides_allM (h : ∀ a ∈ xs, Decides (f a) (p a)) :
    Decides (xs.allM f) (∀ a ∈ xs, p a) := by
  induction xs with
  | nil => exact ⟨true, rfl, by simp⟩
  | cons a xs ih =>
    have hrest := ih fun b hb => h b (List.mem_cons_of_mem _ hb)
    have hstep := (h a List.mem_cons_self).and hrest
    have hunfold : (a :: xs).allM f = (do if ← f a then xs.allM f else return false) := by
      rw [List.allM]
      congr 1
      funext b
      cases b <;> rfl
    rw [hunfold]
    exact hstep.congr (by simp)

/-- Filtering by decisions that do not fail keeps the elements with a positive one. -/
theorem filterM_eq_ok {q : α → Bool} (h : ∀ a ∈ xs, f a = .ok (q a)) :
    xs.filterM f = .ok (xs.filter q) := by
  -- the library collects in reverse
  have haux : ∀ acc : List α, xs.filterAuxM f acc = .ok ((xs.filter q).reverse ++ acc) := by
    induction xs with
    | nil => intro acc; rfl
    | cons a xs ih =>
      intro acc
      have hrest := ih fun b hb => h b (List.mem_cons_of_mem _ hb)
      rw [List.filterAuxM, h a List.mem_cons_self]
      show xs.filterAuxM f (cond (q a) (a :: acc) acc) = _
      rw [hrest]
      cases hq : q a <;> simp [hq]
  rw [List.filterM, haux]
  show Except.ok _ = _
  simp

theorem forM_eq_ok_iff {g : α → Except ε Unit} :
    xs.forM g = .ok () ↔ ∀ a ∈ xs, g a = .ok () := by
  induction xs with
  | nil => exact iff_of_true rfl fun a ha => absurd ha List.not_mem_nil
  | cons a xs ih =>
    show (g a >>= fun _ => xs.forM g) = _ ↔ _
    rw [bind_eq_ok_iff, List.forall_mem_cons, ← ih]
    constructor
    · rintro ⟨_, ha, hxs⟩
      exact ⟨ha, hxs⟩
    · rintro ⟨ha, hxs⟩
      exact ⟨⟨⟩, ha, hxs⟩

theorem exists_of_forall₂ {β : Type} {R : α → β → Prop} {ys : List β} {a : α}
    (h : List.Forall₂ R xs ys) (ha : a ∈ xs) : ∃ y, R a y := by
  induction h with
  | nil => cases ha
  | @cons x y _ _ hR _ ih =>
    rcases List.mem_cons.1 ha with rfl | ha
    · exact ⟨y, hR⟩
    · exact ih ha

theorem exists_forall₂ {β : Type} {R : α → β → Prop} (h : ∀ a ∈ xs, ∃ y, R a y) :
    ∃ ys, List.Forall₂ R xs ys := by
  induction xs with
  | nil => exact ⟨[], .nil⟩
  | cons x xs ih =>
    obtain ⟨y, hy⟩ := h x List.mem_cons_self
    obtain ⟨ys, hys⟩ := ih fun a ha => h a (List.mem_cons_of_mem _ ha)
    exact ⟨y :: ys, .cons hy hys⟩

theorem forall₂_imp_mem {β : Type} {R S : α → β → Prop} {ys : List β}
    (h : List.Forall₂ R xs ys) (hRS : ∀ a ∈ xs, ∀ y, R a y → S a y) : List.Forall₂ S xs ys :=
  ((List.forall₂_and_left xs ys).2 ⟨fun _ ha => ha, h⟩).imp fun a y ha => hRS a ha.1 y ha.2

theorem mapM_congr_mem {β : Type} {g k : α → Except ε β} (h : ∀ a ∈ xs, g a = k a) :
    xs.mapM g = xs.mapM k := by
  induction xs with
  | nil => rfl
  | cons a xs ih =>
    rw [List.mapM_cons, List.mapM_cons, h a List.mem_cons_self,
      ih fun b hb => h b (List.mem_cons_of_mem _ hb)]

theorem mapM_eq_ok_iff {β : Type} {g : α → Except ε β} {ys : List β} :
    xs.mapM g = .ok ys ↔ List.Forall₂ (fun a b => g a = .ok b) xs ys := by
  induction xs generalizing ys with
  | nil =>
    rw [List.forall₂_nil_left_iff, List.mapM_nil]
    exact ⟨fun h => (Except.ok.inj h).symm, fun h => congrArg Except.ok h.symm⟩
  | cons a xs ih =>
    rw [List.forall₂_cons_left_iff, List.mapM_cons]
    cases ha : g a with
    | error e => simp [bind, Except.bind]
    | ok b =>
      cases hxs : xs.mapM g with
      | error e =>
        simp only [bind, Except.bind, reduceCtorEq, false_iff]
        rintro ⟨_, bs, -, hbs, -⟩
        rw [ih.2 hbs] at hxs
        cases hxs
      | ok bs =>
        simp only [bind, Except.bind, pure, Except.pure, Except.ok.injEq, ← ih, hxs]
        constructor
        · rintro rfl
          exact ⟨b, bs, rfl, rfl, rfl⟩
        · rintro ⟨_, _, rfl, rfl, rfl⟩
          rfl

/-- The decisions are all made before their outcomes are looked at. -/
theorem decides_mapM_any (h : ∀ a ∈ xs, Decides (f a) (p a)) :
    Decides (do let found ← xs.mapM f; return found.any id) (∃ a ∈ xs, p a) := by
  obtain ⟨found, hfound⟩ := exists_forall₂ h
  have hmap : xs.mapM f = .ok found := mapM_eq_ok_iff.2 (hfound.imp fun _ _ => And.left)
  rw [hmap]
  refine ⟨found.any id, rfl, ?_⟩
  clear hmap h
  induction hfound with
  | nil => simp
  | cons hhead _ ih => simp [ih, hhead.2]

end Failing

namespace Matcher

variable {doc : Json} {P : Prop}

theorem decides_test (p : Json → Bool) : Decides (test p doc) (p doc = true) := decides_ok _

theorem decides_not {m : Matcher} (h : Decides (m doc) P) : Decides (not m doc) ¬P := h.map_not

theorem all_singleton (m : Matcher) (doc : Json) : all [m] doc = m doc := by
  show (m doc >>= fun b => if b = true then .ok true else .ok false) = m doc
  cases m doc with
  | error e => rfl
  | ok b => cases b <;> rfl

theorem decides_all {α : Type} {xs : List α} {ms : List Matcher} {p : α → Prop}
    (h : List.Forall₂ (fun a m => Decides (m doc) (p a)) xs ms) :
    Decides (all ms doc) (∀ a ∈ xs, p a) := by
  induction h with
  | nil => exact ⟨true, rfl, by simp⟩
  | cons hm _ ih => exact (hm.and ih).congr (by simp)

theorem any_cons (m : Matcher) (ms : List Matcher) (doc : Json) :
    any (m :: ms) doc = (do if ← m doc then return true else any ms doc) := by
  cases ms <;> rfl

theorem decides_any {α : Type} {xs : List α} {ms : List Matcher} {p : α → Prop}
    (h : List.Forall₂ (fun a m => Decides (m doc) (p a)) xs ms) :
    Decides (any ms doc) (∃ a ∈ xs, p a) := by
  induction h with
  | nil => exact ⟨false, rfl, by simp⟩
  | cons hm _ ih =>
    rw [any_cons]
    exact (hm.or ih).congr (by simp)

theorem decides_onSome {m : Matcher} {p : Json → Prop} {vs : List Json}
    (h : ∀ v ∈ vs, Decides (m v) (p v)) : Decides (onSome m vs) (∃ v ∈ vs, p v) := by
  induction vs with
  | nil => exact ⟨false, rfl, by simp⟩
  | cons v vs ih =>
    have hrest := ih fun w hw => h w (List.mem_cons_of_mem _ hw)
    exact ((h v List.mem_cons_self).or hrest).congr (by simp)

end Matcher

end Newswire
