import Newswire.Proofs.Query.Decision
import Newswire.Wire.Decoder

/-!
# Reading documents that are complete

A document that is laid out (`Draft.ofJson`) has no faults, so whether a value is read from it depends
on what its members hold.

* `Draft.skip_ofJson` : nothing is in the way of passing over a document.
* `Decoder.ofJson_list` and the like : how the simple values are read.
* `Record.Gives` : the members that a record describes hold what is wanted, and together they make a
  value.  The rules follow the way in which records are put together (`Record.Gives.seq`).
* `Record.Gives.ofJson_obj` : **from an object with such members the value is read**, when no member comes
  twice, in whatever order and among whatever others.
-/

namespace Newswire

namespace Draft

theorem ofItems_eq (vs : List Json) : ofItems vs = vs.map ofJson := by
  induction vs with
  | nil => rfl
  | cons v rest ih => rw [ofItems, ih, List.map_cons]

theorem lookup_ofMembers (members : List (String × Json)) (key : String) :
    (ofMembers members).lookup (some key) = (members.lookup key).map ofJson := by
  induction members with
  | nil => rfl
  | cons e rest ih =>
    obtain ⟨k, v⟩ := e
    simp only [ofMembers, List.lookup_cons, Option.some_beq_some]
    cases key == k with
    | true => rfl
    | false => exact ih

mutual

/-- A document is passed over. -/
theorem skip_ofJson : ∀ v : Json, (ofJson v).skip = .ok ()
  | .null | .bool _ | .num _ | .str _ => rfl
  | .arr items => by
    simp only [ofJson, skip, skipItems_ofItems items]
    rfl
  | .obj members => by
    simp only [ofJson, skip, skipMembers_ofMembers members]
    rfl

theorem skipItems_ofItems : ∀ vs : List Json, skipItems (ofItems vs) = .ok ()
  | [] => rfl
  | v :: rest => by
    simp only [ofItems, skipItems, skip_ofJson v]
    exact skipItems_ofItems rest

theorem skipMembers_ofMembers :
    ∀ members : List (String × Json), skipMembers (ofMembers members) = .ok ()
  | [] => rfl
  | (_, v) :: rest => by
    simp only [ofMembers, skipMembers, skip_ofJson v]
    exact skipMembers_ofMembers rest

end

end Draft

namespace Decoder

variable {α : Type} {item : Decoder α} {v : Json} {a : α}

/-! ### Simple values -/

theorem ofJson_text (s : String) : text.ofJson (.str s) = .ok s := rfl

theorem ofJson_flag (b : Bool) : flag.ofJson (.bool b) = .ok b := rfl

theorem ofJson_count (n : Nat) : count.ofJson (.ofNat n) = .ok n := rfl

theorem ofJson_timestamp {t : Timestamp} (h : Timestamp.read? t.text = some t) :
    timestamp.ofJson (.str t.text) = .ok t := by
  simp only [ofJson, timestamp, Draft.ofJson, h]

theorem ofJson_identifier (s : String) : identifier.ofJson (.str s) = .ok s := rfl

theorem ofJson_optionalIdentifier (s : Option String) :
    optionalIdentifier.ofJson (.ofText? s) = .ok s := by
  cases s <;> rfl

theorem ofJson_optional_null : (optional item).ofJson .null = .ok none := rfl

theorem ofJson_optional (hv : v ≠ .null) (h : item.ofJson v = .ok a) :
    (optional item).ofJson v = .ok (some a) := by
  have hsome : (optional item).ofJson v = some <$> item.ofJson v := by
    cases v with
    | null => exact absurd rfl hv
    | bool | num | str | arr | obj => rfl
  rw [hsome, h]
  rfl

/-- A list is read if all its items are. -/
theorem ofJson_list {write : α → Json} {as : List α}
    (h : ∀ a ∈ as, item.ofJson (write a) = .ok a) :
    (list item).ofJson (.arr (as.map write)) = .ok as := by
  have hitems : (Draft.ofItems (as.map write)).mapM (item none) = .ok as := by
    rw [Draft.ofItems_eq, List.map_map, mapM_eq_ok_iff, List.forall₂_map_left_iff]
    exact List.forall₂_same.2 h
  show (do
    let values ← (Draft.ofItems (as.map write)).mapM (item none)
    ended none
    return values) = Except.ok as
  rw [hitems]
  rfl

theorem ofJson_identifiers (ids : List String) : identifiers.ofJson (.strings ids) = .ok ids := by
  have htexts : (list json).ofJson (.strings ids) = .ok (ids.map Json.str) := by
    have hread : ∀ v ∈ ids.map Json.str, json.ofJson (id v) = .ok v := by
      intro v hv
      obtain ⟨s, -, rfl⟩ := List.mem_map.1 hv
      rfl
    have hlist := ofJson_list hread
    rwa [List.map_id] at hlist
  show (do (← (list json).ofJson (.strings ids)).mapM identifierOf) = _
  rw [htexts]
  show (ids.map Json.str).mapM identifierOf = _
  rw [mapM_eq_ok_iff, List.forall₂_map_left_iff]
  exact List.forall₂_same.2 fun _ _ => rfl

end Decoder

namespace Record

variable {α β : Type} {members : List (String × Json)} {name : String} {v : Json} {a : α}

/-! ### Values with named members -/

/-- The members hold what the record describes, and together they make a value. -/
structure Gives (r : Record α) (members : List (String × Json)) (a : α) : Prop where
  /-- The value is made. -/
  build : r.build none (fun name => (Draft.ofMembers members).lookup (some name)) = .ok a
  /-- The members that are described can be read. -/
  checks : ∀ name check v, r.members.lookup name = some check → members.lookup name = some v →
    check none (Draft.ofJson v) = .ok ()

theorem gives_pure (a : α) : (pure a : Record α).Gives members a where
  build := rfl
  checks _ _ _ h := nomatch h

theorem Gives.seq {f : Record (α → β)} {x : Record α} {g : α → β} (hf : f.Gives members g)
    (hx : x.Gives members a) : (f <*> x).Gives members (g a) where
  build := by
    show (do
      let g ← f.build none fun name => (Draft.ofMembers members).lookup (some name)
      let a ← x.build none fun name => (Draft.ofMembers members).lookup (some name)
      return g a) = Except.ok (g a)
    rw [hf.build, hx.build]
    rfl
  checks name check v hcheck hv := by
    have happend : (f.members ++ x.members).lookup name = some check := hcheck
    rw [List.lookup_append] at happend
    cases hfirst : f.members.lookup name with
    | some check' =>
      rw [hfirst] at happend
      obtain rfl := Option.some.inj happend
      exact hf.checks name _ v hfirst hv
    | none =>
      rw [hfirst] at happend
      exact hx.checks name check v happend hv

theorem Gives.map {x : Record α} (hx : x.Gives members a) (g : α → β) :
    (g <$> x).Gives members (g a) :=
  (gives_pure g).seq hx

theorem lookup_single_eq_some_iff {k : String} {b c : β} :
    [(name, b)].lookup k = some c ↔ k = name ∧ b = c := by
  by_cases hk : k = name
  · simp [hk]
  · have hkey : (k == name) = false := by simpa using hk
    simp [List.lookup_cons, hkey, hk]

/-- The one member that is described can be read if it holds a value. -/
theorem checks_of_found {item : Decoder α} (hv : members.lookup name = some v)
    (h : item.ofJson v = .ok a) {k : String} {check : Decoder Unit} {w : Json}
    (hcheck : [(name, fun room d => discard (item room d))].lookup k = some check)
    (hw : members.lookup k = some w) : check none (Draft.ofJson w) = .ok () := by
  obtain ⟨rfl, rfl⟩ := lookup_single_eq_some_iff.1 hcheck
  obtain rfl := Option.some.inj (hv.symm.trans hw)
  show discard (item.ofJson v) = _
  rw [h]
  rfl

theorem gives_required {item : Decoder α} (hv : members.lookup name = some v)
    (h : item.ofJson v = .ok a) : (required name item).Gives members a where
  build := by
    simp only [required, Draft.lookup_ofMembers, hv, Option.map_some]
    exact h
  checks _ _ _ := checks_of_found hv h

theorem gives_withDefault {absent : α} {item : Decoder α} (hv : members.lookup name = some v)
    (h : item.ofJson v = .ok a) : (withDefault name absent item).Gives members a where
  build := by
    simp only [withDefault, Draft.lookup_ofMembers, hv, Option.map_some]
    exact h
  checks _ _ _ := checks_of_found hv h

theorem gives_absent {item : Decoder α} (hv : members.lookup name = none) :
    (withDefault name a item).Gives members a where
  build := by simp only [withDefault, Draft.lookup_ofMembers, hv, Option.map_none]
  checks _ _ _ hcheck hw := by
    obtain ⟨rfl, -⟩ := lookup_single_eq_some_iff.1 hcheck
    cases hv.symm.trans hw

theorem lookup_of_mem (hnodup : (members.map Prod.fst).Nodup) (h : (name, v) ∈ members) :
    members.lookup name = some v := by
  induction members with
  | nil => cases h
  | cons e rest ih =>
    obtain ⟨k, w⟩ := e
    obtain ⟨hnew, hrest⟩ := List.nodup_cons.1 hnodup
    rcases List.mem_cons.1 h with heq | htail
    · obtain ⟨rfl, rfl⟩ := Prod.mk.inj heq
      simp
    · have hne : (name == k) = false := by
        refine beq_false_of_ne ?_
        rintro rfl
        exact hnew (List.mem_map.2 ⟨_, htail, rfl⟩)
      rw [List.lookup_cons, hne]
      exact ih hrest htail

variable {r : Record α}

/-- The members of an object are gone through one by one, those that are described and the others. -/
theorem Gives.checkMembers (h : r.Gives members a) {rest : List (String × Json)}
    (hmembers : ∀ e ∈ rest, members.lookup e.1 = some e.2) (hnodup : (rest.map Prod.fst).Nodup)
    {seen : List String} (hseen : ∀ e ∈ rest, e.1 ∉ seen) :
    r.checkMembers none seen (Draft.ofMembers rest) = .ok () := by
  induction rest generalizing seen with
  | nil => rfl
  | cons e rest ih =>
    obtain ⟨name, v⟩ := e
    obtain ⟨hnew, hnodup⟩ := List.nodup_cons.1 hnodup
    have hrest : ∀ {seen : List String}, (∀ e ∈ rest, e.1 ∉ seen) →
        r.checkMembers none seen (Draft.ofMembers rest) = .ok () :=
      fun h => ih (fun e he => hmembers e (List.mem_cons_of_mem _ he)) hnodup h
    have hunseen : ∀ e ∈ rest, e.1 ∉ seen := fun e he => hseen e (List.mem_cons_of_mem _ he)
    rw [Draft.ofMembers, Record.checkMembers]
    cases hcheck : r.members.lookup name with
    | none =>
      simp only [Draft.skip_ofJson, Decoder.orBroken]
      exact hrest hunseen
    | some check =>
      have hread := h.checks name check v hcheck (hmembers _ List.mem_cons_self)
      have hname : name ∉ seen := hseen _ List.mem_cons_self
      simp only [hname, if_false, hread]
      refine hrest fun e he => ?_
      rw [List.mem_cons, not_or]
      refine ⟨?_, hunseen e he⟩
      rintro rfl
      exact hnew (List.mem_map.2 ⟨e, he, rfl⟩)

/-- **From an object whose members hold what the record describes the value is read.** -/
theorem Gives.ofJson_obj (h : r.Gives members a) (hnodup : (members.map Prod.fst).Nodup) :
    r.decoder.ofJson (.obj members) = .ok a := by
  have hchecked : r.checkMembers none [] (Draft.ofMembers members) = .ok () :=
    h.checkMembers (fun e he => lookup_of_mem hnodup he) hnodup fun _ _ => List.not_mem_nil
  show (do
    r.checkMembers none [] (Draft.ofMembers members)
    Decoder.ended none
    r.build none fun name => (Draft.ofMembers members).lookup (some name)) = Except.ok a
  rw [hchecked, h.build]
  rfl

end Record

end Newswire
