import Newswire.Proofs.Desk.Held
import Newswire.Proofs.Desk.Usage
import Newswire.Proofs.Query.Agreement

/-!
# Filtering many items

The items of a list are judged one after the other with a memory of their own, whatever the desk
remembers.  If a verdict on an item with the same identity is still remembered, an item gets that.

* `Item.isSame` : both items have an identity, and it is the same.
* `Desk.capacity` : how many verdicts on a rule are remembered for a list.
* `Desk.Sifted` : every item is kept or dropped by a verdict that it may get (`Desk.Allowed`).  If
  items of one identity get the same verdict, or nothing is remembered, these are the items that
  the rule selects (`Desk.Sifted.eq_filter`); if there is room for all items, each is judged as the
  first of its identity (`Desk.Sifted.eq_filter_firstLike`).
* `Desk.Recalls` : what is remembered after a part of the list; one item more is
  `Desk.Recalls.selects`.
* `Desk.filterItems_afterEvents` : **filtering a list sifts it in this way**, at any time and with
  any memory, and it does not fail.
* `Desk.later_edition_kept` : an item that the rule does not select is kept after another one of its
  identity.
-/

namespace Newswire

open Rulebook

namespace Item

variable {x y : Json}

/-- Both items have an identity, and it is the same. -/
def isSame (x y : Json) : Bool := (id? x).isSome && id? x == id? y

theorem isSame_iff : isSame x y = true ↔ ∃ i, id? x = some i ∧ id? y = some i := by
  unfold isSame
  rw [Bool.and_eq_true, beq_iff_eq, Option.isSome_iff_exists]
  constructor
  · rintro ⟨⟨i, hi⟩, h⟩
    exact ⟨i, hi, h.symm.trans hi⟩
  · rintro ⟨i, hx, hy⟩
    exact ⟨⟨i, hx⟩, hx.trans hy.symm⟩

/-- The first item of the list with the identity. -/
def firstWith (items : List Json) (i : String) : Option Json :=
  items.find? fun y => decide (id? y = some i)

theorem firstWith_append_cons (seen rest : List Json) (x : Json) (i : String) :
    firstWith (seen ++ x :: rest) i =
      (firstWith seen i).or (if id? x = some i then some x else firstWith rest i) := by
  unfold firstWith
  rw [List.find?_append, List.find?_cons]
  by_cases hx : id? x = some i <;> simp [hx]

/-- The first item of the list with the identity of an item, or this itself if there is none. -/
def firstLike (items : List Json) (x : Json) : Json := ((id? x).bind (firstWith items)).getD x

theorem firstLike_of_none (hx : id? x = none) (items : List Json) : firstLike items x = x := by
  rw [firstLike, hx]
  rfl

theorem firstLike_of_id? {i : String} (hx : id? x = some i) (items : List Json) :
    firstLike items x = (firstWith items i).getD x := by
  rw [firstLike, hx]
  rfl

theorem firstLike_append_cons (seen rest : List Json) (x : Json) :
    firstLike (seen ++ x :: rest) x = firstLike seen x := by
  cases hx : id? x with
  | none => rw [firstLike_of_none hx, firstLike_of_none hx]
  | some i =>
    rw [firstLike_of_id? hx, firstLike_of_id? hx, firstWith_append_cons, if_pos hx]
    cases firstWith seen i <;> rfl

end Item

namespace Desk

/-! ### Sifted lists -/

section Sifted

variable {holds : Json → Bool} {room : Nat} {seen items kept : List Json}

/-- A verdict that the item may get after others, if at most `room` verdicts are remembered. -/
structure Allowed (holds : Json → Bool) (room : Nat) (seen : List Json) (x : Json)
    (verdict : Bool) : Prop where
  /-- It is the verdict on the item, or on one before it with the same identity. -/
  own_or_earlier : verdict = holds x ∨
    (room ≠ 0 ∧ ∃ y ∈ seen, Item.isSame x y = true ∧ verdict = holds y)
  /-- As long as no verdict is forgotten, it is the one on the first item with the identity. -/
  first : seen.length < room → verdict = holds (Item.firstLike seen x)

/-- What is kept of the items that come after others, if at most `room` verdicts are remembered. -/
inductive Sifted (holds : Json → Bool) (room : Nat) : List Json → List Json → List Json → Prop
  /-- No more items come. -/
  | nil {seen : List Json} : Sifted holds room seen [] []
  /-- The next item is kept. -/
  | keep {seen items kept : List Json} {x : Json} : Allowed holds room seen x true →
      Sifted holds room (seen ++ [x]) items kept → Sifted holds room seen (x :: items) (x :: kept)
  /-- The next item is dropped. -/
  | drop {seen items kept : List Json} {x : Json} : Allowed holds room seen x false →
      Sifted holds room (seen ++ [x]) items kept → Sifted holds room seen (x :: items) kept

/-- If every item gets the verdict that a test finds for it, those that pass the test are kept. -/
theorem Sifted.eq_filter_of {test : Json → Bool} (h : Sifted holds room seen items kept)
    (htest : ∀ before x after verdict, seen ++ items = before ++ x :: after →
      Allowed holds room before x verdict → verdict = test x) : kept = items.filter test := by
  induction h with
  | nil => rfl
  | @keep seen items kept x hallowed _ ih =>
    have hx := htest seen x items true rfl hallowed
    rw [List.filter_cons_of_pos hx.symm]
    exact congrArg (x :: ·) (ih (by rwa [List.append_assoc]))
  | @drop seen items kept x hallowed _ ih =>
    have hx := htest seen x items false rfl hallowed
    rw [List.filter_cons_of_neg (hx ▸ Bool.false_ne_true)]
    exact ih (by rwa [List.append_assoc])

/-- **If nothing is remembered, or items of one identity get the same verdict, then the items are
kept that hold.** -/
theorem Sifted.eq_filter (h : Sifted holds room [] items kept)
    (hsame : room = 0 ∨ ∀ x ∈ items, ∀ y ∈ items, Item.isSame x y = true → holds x = holds y) :
    kept = items.filter holds := by
  refine h.eq_filter_of fun before x after verdict hsplit hallowed => ?_
  rcases hallowed.own_or_earlier with hown | ⟨hroom, y, hy, hxy, hverdict⟩
  · exact hown
  · have hitems := hsame.resolve_left hroom
    have hsplit : items = before ++ x :: after := hsplit
    rw [hverdict, hitems x (by simp [hsplit]) y (by simp [hsplit, hy]) hxy]

/-- **If there is room for all items, each is judged as the first one of its identity.** -/
theorem Sifted.eq_filter_firstLike (h : Sifted holds room [] items kept)
    (hroom : items.length ≤ room) :
    kept = items.filter fun x => holds (Item.firstLike items x) := by
  refine h.eq_filter_of fun before x after verdict hsplit hallowed => ?_
  have hsplit : items = before ++ x :: after := hsplit
  have hlength : before.length < room := by
    rw [hsplit, List.length_append, List.length_cons] at hroom
    omega
  rw [hsplit, Item.firstLike_append_cons]
  exact hallowed.first hlength

end Sifted

/-! ### The memory of a list -/

variable {d : Desk} {r : Rule} {seen items : List Json} {x : Json} {verdict : Bool} {v : Verdicts}

theorem holds_eq_evaluated (hb : d.book.WellFormed) {id : String}
    (hr : d.book.rules.get? id = some r) (x : Json) :
    d.book.holds d.schema x (some r) = .ok (d.evaluated (some r) x) := by
  obtain ⟨verdict, hverdict, -⟩ := hb.decides_holds hr d.schema x
  rw [evaluated, hverdict]
  rfl

/-- How many verdicts on the rule are remembered for a list; none on a rule without identifier. -/
def capacity (cache : CacheSettings) (r : Rule) : Nat := if r.id = "" then 0 else cache.maxEntries

/-- How many verdicts on the rule the desk remembers for a list. -/
def room (d : Desk) (r : Rule) : Nat := capacity d.verdicts.settings r

/-- The verdict of the rule that is remembered under an identity. -/
def remembered (r : Rule) (v : Verdicts) (i : String) : Option Bool := v.peek ⟨r.id, r.revision, i⟩

/-- What is remembered about the rule after the items in `seen`. -/
structure Recalls (d : Desk) (r : Rule) (seen : List Json) (v : Verdicts) : Prop where
  /-- The memory has the settings that it began with. -/
  settings : v.settings = d.scratch.settings
  /-- What is remembered was found for an item with the identity. -/
  honest : ∀ {i verdict}, remembered r v i = some verdict →
    d.room r ≠ 0 ∧ ∃ y ∈ seen, Item.id? y = some i ∧ verdict = d.evaluated (some r) y
  /-- There is at most one verdict for each item. -/
  size_le : seen.length ≤ d.room r → v.size ≤ seen.length
  /-- If there is room for all verdicts, the first one for each identity is remembered. -/
  first : seen.length ≤ d.room r → ∀ i,
    remembered r v i = (Item.firstWith seen i).map (d.evaluated (some r))

theorem recalls_scratch (d : Desk) (r : Rule) : d.Recalls r [] d.scratch where
  settings := rfl
  honest := fun h => nomatch h
  size_le _ := Nat.le_refl 0
  first _ _ := rfl

theorem Recalls.allowed_recalled (h : d.Recalls r seen v) {i : String} (hx : Item.id? x = some i)
    (hfound : remembered r v i = some verdict) :
    Allowed (d.evaluated (some r)) (d.room r) seen x verdict where
  own_or_earlier := by
    obtain ⟨hroom, y, hy, hyid, hverdict⟩ := h.honest hfound
    exact Or.inr ⟨hroom, y, hy, Item.isSame_iff.2 ⟨i, hx, hyid⟩, hverdict⟩
  first hlength := by
    have hfirst := h.first (Nat.le_of_lt hlength) i
    rw [hfound] at hfirst
    obtain ⟨y, hy, hverdict⟩ := Option.map_eq_some_iff.1 hfirst.symm
    rw [Item.firstLike_of_id? hx, hy]
    exact hverdict.symm

theorem Recalls.allowed_evaluated (h : d.Recalls r seen v)
    (hnone : ∀ i, Item.id? x = some i → d.room r ≠ 0 → remembered r v i = none) :
    Allowed (d.evaluated (some r)) (d.room r) seen x (d.evaluated (some r) x) where
  own_or_earlier := Or.inl rfl
  first hlength := by
    cases hx : Item.id? x with
    | none => rw [Item.firstLike_of_none hx]
    | some i =>
      have hfirst := h.first (Nat.le_of_lt hlength) i
      rw [hnone i hx (by omega)] at hfirst
      rw [Item.firstLike_of_id? hx, Option.map_eq_none_iff.1 hfirst.symm]
      rfl

theorem Recalls.of_entries (h : d.Recalls r seen v) {w : Verdicts}
    (hsettings : w.settings = v.settings) (hentries : w.entries = v.entries) :
    d.Recalls r seen w := by
  have hsame : remembered r w = remembered r v := by
    unfold remembered Verdicts.peek
    rw [hentries]
  have hsize : w.size = v.size := by rw [Verdicts.size, hentries]; rfl
  refine ⟨hsettings.trans h.settings, fun hfound => ?_, ?_, ?_⟩
  · rw [hsame] at hfound
    exact h.honest hfound
  · rw [hsize]
    exact h.size_le
  · rw [hsame]
    exact h.first

/-- Nothing has to be remembered of an item for which a verdict is remembered, or none can be. -/
theorem Recalls.append (h : d.Recalls r seen v)
    (hx : d.room r ≠ 0 → ∀ i, Item.id? x = some i → remembered r v i ≠ none) :
    d.Recalls r (seen ++ [x]) v where
  settings := h.settings
  honest hfound := by
    obtain ⟨hroom, y, hy, hrest⟩ := h.honest hfound
    exact ⟨hroom, y, List.mem_append_left _ hy, hrest⟩
  size_le hlength := by
    rw [List.length_append, List.length_singleton] at hlength ⊢
    have := h.size_le (by omega)
    omega
  first hlength i := by
    rw [List.length_append, List.length_singleton] at hlength
    have hfirst := h.first (by omega) i
    rw [Item.firstWith_append_cons, hfirst]
    by_cases hid : Item.id? x = some i
    · -- an item with this identity came before
      have hsome := hx (by omega) i hid
      rw [hfirst] at hsome
      cases hfound : Item.firstWith seen i with
      | none =>
        rw [hfound] at hsome
        exact absurd rfl hsome
      | some y => rfl
    · rw [if_neg hid]
      cases Item.firstWith seen i <;> rfl

theorem Recalls.put (h : d.Recalls r seen v) (hroom : d.room r ≠ 0) {i : String}
    (hx : Item.id? x = some i) (hnone : remembered r v i = none) :
    d.Recalls r (seen ++ [x])
      (v.put ⟨r.id, r.revision, i⟩ (d.evaluated (some r) x) v.generation) := by
  have hmax : v.settings.maxEntries = d.room r := by
    rw [h.settings, room, capacity, if_neg fun hid => hroom (if_pos hid)]
    rfl
  have htakes : v.TakesIn v.generation := ⟨by rw [h.settings]; rfl, hmax ▸ hroom, rfl⟩
  refine ⟨(Verdicts.settings_put ..).trans h.settings, fun {k found} hafter => ?_, ?_, ?_⟩
  · rcases Verdicts.peek_put_iff.1 hafter with ⟨hkey, hfound, -⟩ | ⟨-, hbefore⟩
    · obtain rfl : i = k := (VerdictKey.mk.inj hkey).2.2
      exact ⟨hroom, x, by simp, hx, hfound.symm⟩
    · obtain ⟨-, y, hy, hrest⟩ := h.honest hbefore
      exact ⟨hroom, y, List.mem_append_left _ hy, hrest⟩
  · intro hlength
    rw [List.length_append, List.length_singleton] at hlength ⊢
    have := h.size_le (by omega)
    have := Verdicts.size_put_le v ⟨r.id, r.revision, i⟩ (d.evaluated (some r) x) v.generation
    omega
  · intro hlength k
    rw [List.length_append, List.length_singleton] at hlength
    have hsize : v.size < v.settings.maxEntries := by
      have := h.size_le (by omega)
      omega
    have hfirst := h.first (by omega) k
    rw [Item.firstWith_append_cons, remembered, Verdicts.peek_put_of_lt htakes hsize]
    by_cases hk : i = k
    · subst hk
      rw [hnone] at hfirst
      rw [if_pos rfl, if_pos hx, Option.map_eq_none_iff.1 hfirst.symm]
      rfl
    · have hkey : (⟨r.id, r.revision, i⟩ : VerdictKey) ≠ ⟨r.id, r.revision, k⟩ :=
        fun heq => hk (VerdictKey.mk.inj heq).2.2
      have hother : Item.id? x ≠ some k := by simpa [hx] using hk
      rw [if_neg hkey, if_neg hother]
      refine hfirst.trans ?_
      cases Item.firstWith seen k <;> rfl

/-- An item without a key has no identity, if any verdicts are remembered. -/
theorem Recalls.id?_ne_of_unkeyed (h : d.Recalls r seen v)
    (hkey : verdictKey? v.settings r x = none) (hroom : d.room r ≠ 0) (i : String) :
    Item.id? x ≠ some i := by
  intro hx
  have hid : r.id ≠ "" := fun hid => hroom (if_pos hid)
  rw [verdictKey?_of_id hid (by rw [h.settings]; rfl) hx] at hkey
  cases hkey

theorem eq_of_verdictKey? {cache : CacheSettings} {key : VerdictKey}
    (h : verdictKey? cache r x = some key) :
    r.id ≠ "" ∧ ∃ i, Item.id? x = some i ∧ key = ⟨r.id, r.revision, i⟩ := by
  obtain ⟨hid, hrule, hrevision, hx⟩ := verdictKey?_eq_some h
  refine ⟨hid, key.item, hx, ?_⟩
  rw [← hrule, ← hrevision]

theorem Recalls.judge (h : d.Recalls r seen v)
    (hholds : d.book.holds d.schema x (some r) = .ok (d.evaluated (some r) x))
    (hnone : ∀ i, Item.id? x = some i → d.room r ≠ 0 → remembered r v i = none) :
    ∃ w, (d.judge r x).run v = (.ok (d.evaluated (some r) x), w) ∧ d.Recalls r (seen ++ [x]) w := by
  rw [run_judge, hholds]
  refine ⟨_, rfl, ?_⟩
  cases hkey : verdictKey? v.settings r x with
  | none => exact h.append fun hroom i hx => absurd hx (h.id?_ne_of_unkeyed hkey hroom i)
  | some key =>
    obtain ⟨hid, i, hx, rfl⟩ := eq_of_verdictKey? hkey
    by_cases hroom : d.room r = 0
    · have hfull : ¬v.TakesIn v.generation := by
        rintro ⟨-, hmax, -⟩
        rw [h.settings] at hmax
        exact hmax ((if_neg hid).symm.trans hroom)
      show d.Recalls r _ (v.put _ _ _)
      rw [Verdicts.put_of_not_takesIn hfull]
      exact h.append fun hne => absurd hroom hne
    · exact h.put hroom hx (hnone i hx hroom)

/-- **The next item gets a verdict that it may get**, and one item more is accounted for. -/
theorem Recalls.selects (h : d.Recalls r seen v)
    (hholds : d.book.holds d.schema x (some r) = .ok (d.evaluated (some r) x)) :
    ∃ verdict w, (d.selects (some r) x true).run v = (.ok verdict, w) ∧
      Allowed (d.evaluated (some r)) (d.room r) seen x verdict ∧ d.Recalls r (seen ++ [x]) w := by
  rw [run_selects]
  cases hkey : verdictKey? v.settings r x with
  | none =>
    have hnone : ∀ i, Item.id? x = some i → d.room r ≠ 0 → remembered r v i = none :=
      fun i hx hroom => absurd hx (h.id?_ne_of_unkeyed hkey hroom i)
    obtain ⟨w, hrun, hw⟩ := h.judge hholds hnone
    exact ⟨_, w, hrun, h.allowed_evaluated hnone, hw⟩
  | some key =>
    obtain ⟨hid, i, hx, rfl⟩ := eq_of_verdictKey? hkey
    have henabled : v.settings.enabled = true := by rw [h.settings]; rfl
    have hsame : ∀ k, Item.id? x = some k → k = i := fun k hk => Option.some.inj (hk.symm.trans hx)
    dsimp only
    cases hfound : remembered r v i with
    | some verdict =>
      rw [Verdicts.get_of_some henabled hfound]
      have hw : d.Recalls r (seen ++ [x]) v := h.append fun _ k hk => by
        rw [hsame k hk, hfound]
        exact Option.some_ne_none verdict
      exact ⟨verdict, _, rfl, h.allowed_recalled hx hfound, hw.of_entries rfl rfl⟩
    | none =>
      rw [Verdicts.get_of_none henabled hfound]
      have hnone : ∀ k, Item.id? x = some k → d.room r ≠ 0 → remembered r v k = none :=
        fun k hk _ => hsame k hk ▸ hfound
      have hmissed : d.Recalls r seen { v with misses := v.misses + 1 } := h.of_entries rfl rfl
      obtain ⟨w, hrun, hw⟩ := hmissed.judge hholds hnone
      exact ⟨_, w, hrun, h.allowed_evaluated hnone, hw⟩

/-! ### The whole list -/

/-- The items are sifted one after the other; those that are kept are collected in reverse. -/
theorem Recalls.filterAuxM (h : d.Recalls r seen v)
    (hholds : ∀ x, d.book.holds d.schema x (some r) = .ok (d.evaluated (some r) x))
    (items acc : List Json) :
    ∃ kept w, (items.filterAuxM (fun x => d.selects (some r) x true) acc).run v =
        (.ok (kept.reverse ++ acc), w) ∧
      Sifted (d.evaluated (some r)) (d.room r) seen items kept := by
  induction items generalizing seen v acc with
  | nil => exact ⟨[], v, rfl, .nil⟩
  | cons x items ih =>
    obtain ⟨verdict, w, hrun, hallowed, hw⟩ := h.selects (hholds x)
    rw [List.filterAuxM, run_bind, hrun]
    cases verdict with
    | true =>
      obtain ⟨kept, w', hrest, hsifted⟩ := ih hw (x :: acc)
      refine ⟨x :: kept, w', ?_, .keep hallowed hsifted⟩
      rw [List.reverse_cons, List.append_assoc]
      exact hrest
    | false =>
      obtain ⟨kept, w', hrest, hsifted⟩ := ih hw acc
      exact ⟨kept, w', hrest, .drop hallowed hsifted⟩

/-- **A saved rule sifts every list.** -/
theorem exists_sifted (hb : d.book.WellFormed) {id : String} (hr : d.book.rules.get? id = some r)
    (items : List Json) : ∃ kept, d.filterItems id items = .ok kept ∧
      Sifted (d.evaluated (some r)) (d.room r) [] items kept := by
  obtain ⟨kept, w, hrun, hsifted⟩ :=
    (recalls_scratch d r).filterAuxM (holds_eq_evaluated hb hr) items []
  refine ⟨kept, ?_, hsifted⟩
  have hfilter : (items.filterM fun x => d.selects (some r) x true : Judging (List Json)).run
      d.scratch = (.ok kept, w) := by
    rw [List.filterM, run_bind, hrun]
    show (Except.ok (kept.reverse ++ []).reverse, w) = _
    rw [List.append_nil, List.reverse_reverse]
  unfold filterItems
  rw [rule_eq_ok_iff.2 hr]
  exact congrArg Prod.fst hfilter

/-- What a saved rule keeps of a list, if at most `room` verdicts are remembered. -/
structure Filters (d : Desk) (id : String) (r : Rule) (room : Nat) (items : List Json) : Prop where
  /-- Evaluation of the rule does not fail. -/
  holds : ∀ x, d.book.holds d.schema x (some r) = .ok (d.evaluated (some r) x)
  /-- Every item is kept or dropped by the verdict on it, or on an item before it with the same
  identity, and the kept ones stay in order. -/
  sifted : ∃ kept, d.filterItems id items = .ok kept ∧
    Sifted (d.evaluated (some r)) room [] items kept
  /-- These are the items that the rule selects, if it selects all items of one identity or none, or
  if no verdict is remembered. -/
  plain : (room = 0 ∨ ∀ x ∈ items, ∀ y ∈ items, Item.isSame x y = true →
      d.evaluated (some r) x = d.evaluated (some r) y) →
    d.filterItems id items = .ok (items.filter (d.evaluated (some r)))
  /-- These are the items of whose identity the rule selects the first one, if there is room for
  all. -/
  firsts : items.length ≤ room → d.filterItems id items =
    .ok (items.filter fun x => d.evaluated (some r) (Item.firstLike items x))

theorem filters (hb : d.book.WellFormed) {id : String} (hr : d.book.rules.get? id = some r)
    (items : List Json) : d.Filters id r (d.room r) items := by
  obtain ⟨kept, hkept, hsifted⟩ := exists_sifted hb hr items
  refine ⟨holds_eq_evaluated hb hr, ⟨kept, hkept, hsifted⟩, fun hsame => ?_, fun hroom => ?_⟩
  · rw [hkept, hsifted.eq_filter hsame]
  · rw [hkept, hsifted.eq_filter_firstLike hroom]

/-- **Whatever happened to a desk, a saved rule filters every list**: an item is judged by itself or
as an item before it that has the same identity, and the rule keeps what it selects if this makes no
difference. -/
theorem filterItems_afterEvents (schema : Schema) (cache : CacheSettings) {events : List Event}
    {id : String}
    (hr : ((Desk.new schema cache).afterEvents events).book.rules.get? id = some r)
    (items : List Json) :
    ((Desk.new schema cache).afterEvents events).Filters id r (capacity cache r) items := by
  have horderly := orderly_afterEvents (orderly_new schema cache) events
  have hfilters := filters horderly.1.toWellFormed hr items
  rwa [room, settings_afterEvents] at hfilters

/-- Another edition of the item about a flood. -/
def dryItem : Json := .obj [("_id", .str "1"), ("headline", .str "No rain")]

/-- The rule for floods is saved. -/
def floodEvents : List Event := floodRun.map .request

theorem filterItems_afterEvents_floodEvents : ∃ r,
    ((Desk.new (.ofLayout {}) {}).afterEvents floodEvents).book.rules.get? "wire" = some r ∧
      ((Desk.new (.ofLayout {}) {}).afterEvents floodEvents).Filters "wire" r
        (capacity {} r) [dryItem, wetItem] := by
  obtain ⟨r, hr⟩ := Option.isSome_iff_exists.1
    (show (((Desk.new (.ofLayout {}) {}).afterEvents floodEvents).book.rules.get? "wire").isSome =
      true by decide +kernel)
  exact ⟨r, hr, filterItems_afterEvents (.ofLayout {}) {} hr [dryItem, wetItem]⟩

/-- **A later edition is kept because an earlier one is selected**, although the rule does not
select it. -/
theorem later_edition_kept : ∃ r,
    ((Desk.new (.ofLayout {}) {}).afterEvents floodEvents).book.rules.get? "wire" = some r ∧
      ((Desk.new (.ofLayout {}) {}).afterEvents floodEvents).filterItems "wire" [wetItem, dryItem] =
        .ok [wetItem, dryItem] ∧
      ((Desk.new (.ofLayout {}) {}).afterEvents floodEvents).book.holds (.ofLayout {}) dryItem
        (some r) = .ok false := by
  have horderly := orderly_afterEvents (orderly_new (.ofLayout {}) {}) floodEvents
  have hsettings := settings_afterEvents (.ofLayout {}) {} floodEvents
  have hdesk : (Desk.new (.ofLayout {}) {}).afterEvents floodEvents = heldDesk := rfl
  rw [hdesk] at horderly hsettings ⊢
  obtain ⟨r, hr, hfacts⟩ := Option.bind_eq_some_iff.1
    (show ((heldDesk.book.rules.get? "wire").bind fun r =>
      (heldDesk.book.holds (.ofLayout {}) dryItem (some r)).toOption.map fun v =>
        (v, heldDesk.evaluated (some r) wetItem, r.id)) = some (false, true, "wire") by
      decide +kernel)
  obtain ⟨verdict, hverdict, hparts⟩ := Option.map_eq_some_iff.1 hfacts
  obtain ⟨rfl, hwet, hid⟩ : verdict = false ∧ heldDesk.evaluated (some r) wetItem = true ∧
      r.id = "wire" := by simpa using hparts
  have hroom : [wetItem, dryItem].length ≤ heldDesk.room r := by
    rw [room, hsettings, capacity, hid]
    decide
  refine ⟨r, hr, ?_, eq_ok_of_toOption hverdict⟩
  rw [(filters horderly.1.toWellFormed hr _).firsts hroom]
  have hfirst : Item.firstWith [wetItem, dryItem] "1" = some wetItem :=
    List.find?_cons_of_pos (decide_eq_true rfl)
  refine congrArg Except.ok (List.filter_eq_self.2 fun x hx => ?_)
  have hx : Item.id? x = some "1" := by
    rcases List.mem_pair.1 hx with rfl | rfl <;> rfl
  rw [Item.firstLike_of_id? hx, hfirst]
  exact hwet

end Desk

end Newswire
