import Newswire.Json.Path

/-!
# Paths of one key and paths put together

* `Path.read_append` : the path of two texts with a dot between them is the one path followed by
  the other.
* `Json.valuesAt_rooted` : under a path at whose end a value was put, a further path finds what it
  finds in the value itself.
* `Json.valuesAt_key`, `Json.rawValuesAt_key`, `Json.fieldAt_key` : a text without a dot is a path
  of one key, and all readers of an object look that key up.
* `Json.rawValuesAt_eq_toList` : where no array stands on the way (`Json.isDirect`), reading with
  fan-out finds the one value there is.
-/

namespace Newswire

namespace Text

variable {sep : Char}

theorem pieces_append_sep (a b : List Char) :
    pieces sep (a ++ sep :: b) = pieces sep a ++ pieces sep b := by
  induction a with
  | nil => simp [pieces]
  | cons c a ih =>
    by_cases hc : c = sep
    · simp [pieces, hc, ih]
    · cases hp : pieces sep a with
      | nil => exact absurd hp (pieces_ne_nil a)
      | cons p ps => simp [pieces, hc, ih, hp]

theorem pieces_of_not_mem {s : List Char} (h : sep ∉ s) : pieces sep s = [s] := by
  induction s with
  | nil => rfl
  | cons c rest ih =>
    rw [List.mem_cons, not_or] at h
    simp [pieces, Ne.symm h.1, ih h.2]

theorem pieces_join {ps : List (List Char)} (hne : ps ≠ []) (h : ∀ p ∈ ps, sep ∉ p) :
    pieces sep (join sep ps) = ps := by
  match ps with
  | [] => exact absurd rfl hne
  | [p] => exact pieces_of_not_mem (h p List.mem_cons_self)
  | p :: q :: ps =>
    have hrest := pieces_join (List.cons_ne_nil q ps) fun x hx => h x (List.mem_cons_of_mem _ hx)
    rw [join, pieces_append_sep, pieces_of_not_mem (h p List.mem_cons_self), hrest]
    rfl

end Text

namespace Path

theorem read_append (a b : String) : read (a ++ "." ++ b) = read a ++ read b := by
  have htext : (a ++ "." ++ b).toList = a.toList ++ '.' :: b.toList := by simp
  simp only [read, Text.splitAt, htext, Text.pieces_append_sep, List.map_append]

theorem read_key {key : String} (h : '.' ∉ key.toList) : read key = [key] := by
  simp [read, Text.splitAt, Text.pieces_of_not_mem h]

/-- The part before the last dot is the path without its last segment. -/
theorem read_of_splitLast {path parent last : String}
    (h : Text.splitLast '.' path = some (parent, last)) : read path = read parent ++ [last] := by
  unfold Text.splitLast at h
  split at h
  · next final p ps hrev =>
    obtain ⟨rfl, rfl⟩ := Prod.mk.inj (Option.some.inj h)
    have hpieces : Text.pieces '.' path.toList = (p :: ps).reverse ++ [final] := by
      rw [← List.reverse_cons]
      exact List.reverse_eq_iff.1 hrev
    have hdotless : ∀ q ∈ (p :: ps).reverse, '.' ∉ q := by
      intro q hq
      refine Text.not_mem_of_mem_pieces (s := path.toList) ?_
      rw [hpieces]
      exact List.mem_append_left _ hq
    rw [read, read, Text.splitAt, Text.splitAt, hpieces, String.toList_ofList,
      Text.pieces_join (by simp) hdotless, List.map_append]
    rfl
  · cases h

theorem read_of_splitLast_eq_none {path : String} (h : Text.splitLast '.' path = none) :
    read path = [path] := by
  cases hrev : (Text.pieces '.' path.toList).reverse with
  | nil => exact absurd (List.reverse_eq_nil_iff.1 hrev) (Text.pieces_ne_nil _)
  | cons final before =>
    cases before with
    | nil =>
      have hpieces : Text.pieces '.' path.toList = [final] := List.reverse_eq_iff.1 hrev
      have hwhole : Text.join '.' [final] = path.toList := hpieces ▸ Text.join_pieces path.toList
      simp only [Text.join] at hwhole
      simp [read, Text.splitAt, hpieces, hwhole]
    | cons p ps =>
      rw [Text.splitLast, hrev] at h
      cases h

end Path

namespace Json

/-- The values that stand for a value at the end of a path: the items of an array, or itself. -/
def opened : Json → List Json
  | arr items => items
  | v => [v]

theorem walk_nil (v : Json) : walk [] v = v.opened := by
  cases v <;> rfl

theorem walk_append_rooted (p q : Path) (v : Json) :
    walk (p ++ q) (p.foldr (fun segment inner => obj [(segment, inner)]) v) = walk q v := by
  induction p with
  | nil => rfl
  | cons segment p ih => simpa [walk, step, get?] using ih

theorem valuesAt_rooted (path : String) {key : String} (hkey : key ≠ "") (v : Json) :
    (rooted path v).valuesAt (path ++ "." ++ key) = v.valuesAt key := by
  have hne : (path ++ "." ++ key).isEmpty = false := by simp
  have hk : key.isEmpty = false := by simpa using hkey
  simp only [valuesAt, hne, hk, Bool.false_eq_true, if_false, Path.read_append, rooted]
  exact walk_append_rooted _ _ v

/-! ### Paths of one key -/

variable {key : String} {members : List (String × Json)}

theorem valuesAt_key (hkey : key ≠ "") (hdot : '.' ∉ key.toList) :
    (obj members).valuesAt key = (members.lookup key).elim [] opened := by
  have hk : key.isEmpty = false := by simpa using hkey
  simp only [valuesAt, hk, Bool.false_eq_true, if_false, Path.read_key hdot, walk, step, get?]
  cases members.lookup key <;> simp [walk_nil]

theorem rawValuesAt_key (hdot : '.' ∉ key.toList) :
    (obj members).rawValuesAt key = (members.lookup key).toList := by
  have hlast : Text.splitLast '.' key = none := by
    simp [Text.splitLast, Text.pieces_of_not_mem hdot]
  simp only [rawValuesAt, hlast]
  cases h : members.lookup key <;> simp [valuesAt, walk, get?, h]

theorem fieldAt_key (hdot : '.' ∉ key.toList) :
    (obj members).fieldAt key = members.lookup key := by
  simp only [fieldAt, Path.read_key hdot, List.foldlM_cons, List.foldlM_nil, child?, get?]
  cases members.lookup key <;> rfl

/-! ### Paths without arrays on the way -/

/-- No array stands on the way along a path, except at its end. -/
def isDirect : Path → Json → Bool
  | [], _ => true
  | _ :: _, arr _ => false
  | segment :: rest, v => (v.get? segment).all (isDirect rest)

/-- Before an array there is at most one way on. -/
theorem isDirect_cons {segment : String} {rest : Path} {v : Json}
    (h : isDirect (segment :: rest) v = true) :
    (∀ items, v ≠ arr items) ∧ ∀ w, v.get? segment = some w → isDirect rest w = true := by
  cases v with
  | arr items => cases h
  | null | bool _ | num _ | str _ => simp [get?]
  | obj members =>
    refine ⟨by simp, fun w hw => ?_⟩
    have hall : ((obj members).get? segment).all (isDirect rest) = true := h
    rwa [hw] at hall

theorem child?_of_ne_arr {v : Json} (h : ∀ items, v ≠ arr items) (segment : String) :
    v.child? segment = v.get? segment := by
  cases v with
  | arr items => exact absurd rfl (h items)
  | null | bool _ | num _ | str _ | obj _ => rfl

theorem step_of_ne_arr {v : Json} (h : ∀ items, v ≠ arr items) (segment : String) :
    v.step segment = (v.get? segment).toList := by
  cases v with
  | arr items => exact absurd rfl (h items)
  | null | bool _ | num _ | str _ | obj _ => rfl

theorem opened_of_ne_arr {v : Json} (h : ∀ items, v ≠ arr items) : v.opened = [v] := by
  cases v with
  | arr items => exact absurd rfl (h items)
  | null | bool _ | num _ | str _ | obj _ => rfl

theorem filterMap_walk_of_isDirect {p : Path} {last : String} {v : Json}
    (h : isDirect (p ++ [last]) v = true) : (walk p v).filterMap (get? last) =
      ((p ++ [last]).foldlM (fun w segment => child? segment w) v).toList := by
  induction p generalizing v with
  | nil =>
    have hv := (isDirect_cons h).1
    rw [walk_nil, opened_of_ne_arr hv, List.nil_append, List.foldlM_cons, child?_of_ne_arr hv]
    cases hget : v.get? last <;> simp [hget]
  | cons segment p ih =>
    obtain ⟨hv, hrest⟩ := isDirect_cons h
    rw [walk, step_of_ne_arr hv, List.cons_append, List.foldlM_cons, child?_of_ne_arr hv]
    cases hget : v.get? segment with
    | none => rfl
    | some w => simpa using ih (hrest w hget)

/-- **Where no array stands on the way, reading with fan-out finds the one value there is.**  A path
with its only dot at the front is read from the document itself, and so is left out. -/
theorem rawValuesAt_eq_toList {path : String} {v : Json}
    (hfront : ∀ last, Path.read path ≠ ["", last]) (h : isDirect (Path.read path) v = true) :
    v.rawValuesAt path = (v.fieldAt path).toList := by
  unfold rawValuesAt fieldAt
  split
  · next parent last hsplit =>
    have hread := Path.read_of_splitLast hsplit
    have hparent : parent.isEmpty = false := by
      rw [← Bool.not_eq_true, String.isEmpty_iff]
      rintro rfl
      exact hfront last hread
    rw [hread] at h ⊢
    simp only [valuesAt, hparent, Bool.false_eq_true, if_false]
    exact filterMap_walk_of_isDirect h
  · next hsplit =>
    have hread := Path.read_of_splitLast_eq_none hsplit
    rw [hread] at h ⊢
    exact @filterMap_walk_of_isDirect [] path v h

end Json

end Newswire
