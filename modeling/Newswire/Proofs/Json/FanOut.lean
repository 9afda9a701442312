import Newswire.Proofs.Json.Path

/-!
# What fan-out adds

A path is followed to one place, or with fan-out.  The two come apart at an array only, and only at a
segment that is no position: there exact reading ends, and fan-out goes on in every object.

* `Json.fansOut` : a path comes to such an array.
* `Json.readers_agree` : **what is found at one place is found with fan-out, and nothing else**; fan-out
  adds values only where exact reading ends at such an array.
* `Json.rooted_shows_exactly` : **in a document with a value at the end of a path, further paths read
  the value itself**, and a path that goes elsewhere reads nothing.
-/

namespace Newswire

namespace Json

variable {segment : String} {p q : Path} {v : Json}

/-! ### Two readers of a path -/

/-- The segment is looked up in the objects of an array. -/
def spreads (segment : String) : Json → Bool
  | arr _ => (Path.position? segment).isNone
  | _ => false

/-- The path comes to an array with a segment that is no position. -/
def fansOut : Path → Json → Bool
  | [], _ => false
  | segment :: rest, v => v.spreads segment || (v.child? segment).any (fansOut rest)

theorem child?_of_spreads (h : v.spreads segment = true) : v.child? segment = none := by
  cases v with
  | arr items => rw [child?, Option.isNone_iff_eq_none.1 h, Option.bind_none]
  | null | bool _ | num _ | str _ | obj _ => cases h

/-- Without fan-out a segment leads to at most one value, the same for both readers. -/
theorem step_of_not_spreads (h : v.spreads segment = false) :
    v.step segment = (v.child? segment).toList := by
  cases v with
  | arr items =>
    obtain ⟨i, hi⟩ := Option.isSome_iff_exists.1 (Option.isNone_eq_false_iff.1 h)
    simp only [step, child?, hi, Option.bind_some]
  | null | bool _ | num _ | str _ | obj _ => rfl

theorem foldlM_child?_of_fansOut (h : fansOut p v = true) :
    p.foldlM (fun w segment => child? segment w) v = none := by
  induction p generalizing v with
  | nil => cases h
  | cons segment p ih =>
    rw [List.foldlM_cons]
    cases hchild : v.child? segment with
    | none => rfl
    | some w =>
      have hspreads : v.spreads segment ≠ true := fun hs => by
        rw [child?_of_spreads hs] at hchild
        cases hchild
      rw [fansOut, hchild, Bool.or_eq_true] at h
      exact ih (h.resolve_left hspreads)

theorem walk_of_not_fansOut (h : fansOut p v = false) :
    walk p v = (p.foldlM (fun w segment => child? segment w) v).elim [] opened := by
  induction p generalizing v with
  | nil => exact walk_nil v
  | cons segment p ih =>
    rw [fansOut, Bool.or_eq_false_iff] at h
    rw [walk, step_of_not_spreads h.1, List.foldlM_cons]
    cases hchild : v.child? segment with
    | none => rfl
    | some w =>
      rw [hchild] at h
      simpa using ih h.2

/-- **The two readers agree where exact reading comes to a place.**  Where it does not, fan-out finds
something only in the objects of an array on the way.  The empty path is left out: with fan-out it
leads to the document, and without to the member with the empty key. -/
theorem readers_agree {path : String} (hpath : path ≠ "") (v : Json) :
    (∀ w, v.fieldAt path = some w → v.valuesAt path = w.opened) ∧
    (v.fansOut (Path.read path) = true → v.fieldAt path = none) ∧
    (v.fansOut (Path.read path) = false → v.fieldAt path = none → v.valuesAt path = []) := by
  have hvalues : v.valuesAt path = walk (Path.read path) v := by simp [valuesAt, hpath]
  refine ⟨fun w hw => ?_, foldlM_child?_of_fansOut, fun hdirect hnone => ?_⟩
  · have hdirect : v.fansOut (Path.read path) = false := by
      rw [← Bool.not_eq_true]
      intro hfans
      cases (foldlM_child?_of_fansOut hfans).symm.trans hw
    rw [hvalues, walk_of_not_fansOut hdirect]
    exact congrArg (Option.elim · [] opened) hw
  · rw [hvalues, walk_of_not_fansOut hdirect]
    exact congrArg (Option.elim · [] opened) hnone

/-- An item with a code that is a list, in the second of its tags. -/
def listedCodes : Json :=
  .obj [("subject", .arr [.obj [("qcode", .str "sport")],
    .obj [("qcode", .arr [.str "rain", .str "snow"])]])]

theorem readers_agree_listedCodes :
    "subject.1.qcode" ≠ "" ∧
    listedCodes.fieldAt "subject.1.qcode" = some (.arr [.str "rain", .str "snow"]) ∧
    listedCodes.valuesAt "subject.1.qcode" = [.str "rain", .str "snow"] := by
  have hfield : listedCodes.fieldAt "subject.1.qcode" = some (.arr [.str "rain", .str "snow"]) := by
    rfl
  exact ⟨by decide, hfield, (readers_agree (by decide) listedCodes).1 _ hfield⟩

/-- Without a position there is no one place, and fan-out reads the codes of both tags. -/
example : listedCodes.fieldAt "subject.qcode" = none ∧
    listedCodes.valuesAt "subject.qcode" = [.str "sport", .str "rain", .str "snow"] := by
  constructor <;> rfl

/-! ### A value at the end of a path -/

theorem walk_rooted_elsewhere (hp : ¬p <+: q) (hq : ¬q <+: p) :
    walk q (p.foldr (fun segment inner => obj [(segment, inner)]) v) = [] := by
  induction p generalizing q with
  | nil => exact absurd List.nil_prefix hp
  | cons segment p ih =>
    cases q with
    | nil => exact absurd List.nil_prefix hq
    | cons key q =>
      rw [List.foldr_cons]
      by_cases hkey : key = segment
      · subst hkey
        simp only [List.cons_prefix_cons, true_and] at hp hq
        simpa [walk, step, get?] using ih hp hq
      · have hother : (key == segment) = false := beq_eq_false_iff_ne.2 hkey
        simp [walk, step, get?, List.lookup_cons, hother]

/-- **A document with a value at the end of a path shows the value and nothing else.**  A path that
goes on from there reads what it reads in the value, in the same order, and a path that goes elsewhere
reads nothing. -/
theorem rooted_shows_exactly (path : String) (v : Json) :
    (∀ key ≠ "", (rooted path v).valuesAt (path ++ "." ++ key) = v.valuesAt key) ∧
    ∀ other ≠ "", ¬Path.read path <+: Path.read other → ¬Path.read other <+: Path.read path →
      (rooted path v).valuesAt other = [] := by
  refine ⟨fun key hkey => valuesAt_rooted path hkey v, fun other hother hon hback => ?_⟩
  have hvalues : (rooted path v).valuesAt other = walk (Path.read other) (rooted path v) := by
    simp [valuesAt, hother]
  rw [hvalues]
  exact walk_rooted_elsewhere hon hback

/-- A tag whose codes stand deeper, in a list. -/
def deepTag : Json :=
  .obj [("codes", .arr [.obj [("0", .str "rain")], .str "snow", .obj [("0", .arr [.str "hail"])]])]

theorem rooted_shows_exactly_deepTag :
    "codes.2.0" ≠ "" ∧ (rooted "meta..tags" deepTag).valuesAt ("meta..tags" ++ "." ++ "codes.2.0") =
      deepTag.valuesAt "codes.2.0" ∧
    deepTag.valuesAt "codes.2.0" = [.str "hail"] ∧
    "meta.tags" ≠ "" ∧ ¬Path.read "meta..tags" <+: Path.read "meta.tags" ∧
    ¬Path.read "meta.tags" <+: Path.read "meta..tags" ∧
    (rooted "meta..tags" deepTag).valuesAt "meta.tags" = [] := by
  obtain ⟨hbelow, helsewhere⟩ := rooted_shows_exactly "meta..tags" deepTag
  have hon : ¬Path.read "meta..tags" <+: Path.read "meta.tags" := by decide +kernel
  have hback : ¬Path.read "meta.tags" <+: Path.read "meta..tags" := by decide +kernel
  exact ⟨by decide, hbelow "codes.2.0" (by decide), rfl, by decide, hon, hback,
    helsewhere "meta.tags" (by decide) hon hback⟩

end Json

end Newswire
