import Newswire.Proofs.Rulebook.Threading

/-!
# Circles that walks report

An error that reports a circle carries the identifiers that the walk came through.  They do name a
circle.

* `FailsOnly` : a computation fails with nothing but certain errors.
* `Rulebook.Reports` : an error that reports a circle is about rules that the walk came through,
  each a parent of the one before it, of which the last one had been entered already.
* `Rulebook.reports_holdsFrom`, `Rulebook.reports_compileFrom` : evaluation and compilation report
  nothing else.
* `Rulebook.Circle` : the same of a walk from the beginning, in terms of identifiers.
* `Rulebook.ends_with_circles` : **evaluation and compilation end on every rulebook with the path in
  balance, and report circles only where there are some.**
-/

namespace Newswire

section FailsOnly

variable {ε α β : Type} {E : ε → Prop}

/-- Every error that the computation fails with is of this sort. -/
def FailsOnly (E : ε → Prop) (x : Except ε α) : Prop := ∀ e, x = .error e → E e

variable {x : Except ε α}

theorem failsOnly_ok (a : α) : FailsOnly E (.ok a) := nofun

theorem failsOnly_error {e : ε} (h : E e) : FailsOnly E (.error e : Except ε α) := by
  intro e' he
  exact Except.error.inj he ▸ h

theorem FailsOnly.bind {k : α → Except ε β} (hx : FailsOnly E x)
    (hk : ∀ a, x = .ok a → FailsOnly E (k a)) : FailsOnly E (x >>= k) := by
  cases x with
  | ok a => exact hk a rfl
  | error e => exact failsOnly_error (hx e rfl)

theorem FailsOnly.map (h : FailsOnly E x) (k : α → β) : FailsOnly E (k <$> x) := by
  cases x with
  | ok a => exact failsOnly_ok (k a)
  | error e => exact failsOnly_error (h e rfl)

theorem composed_failsOnly (E : ε → Prop) :
    Composed fun α (x : Except ε α) (_ : Except ε α) => FailsOnly E x where
  ok := failsOnly_ok
  bind := FailsOnly.bind

theorem failsOnly_mapM {xs : List α} {f : α → Except ε β} (h : ∀ a ∈ xs, FailsOnly E (f a)) :
    FailsOnly E (xs.mapM f) :=
  (composed_failsOnly E).mapM (k := f) h

theorem failsOnly_allM {xs : List α} {f : α → Except ε Bool} (h : ∀ a ∈ xs, FailsOnly E (f a)) :
    FailsOnly E (xs.allM f) :=
  (composed_failsOnly E).allM (k := f) h

theorem failsOnly_anyM {xs : List α} {f : α → Except ε Bool} (h : ∀ a ∈ xs, FailsOnly E (f a)) :
    FailsOnly E (xs.anyM f) :=
  (composed_failsOnly E).anyM (k := f) h

end FailsOnly

theorem Condition.failsOnly_checkValue (c : Condition) (values : ValueKind) (kind : QueryKind) :
    FailsOnly (fun e => ∀ ids, e ≠ .cycle ids) (c.checkValue values kind) := by
  have hpattern : FailsOnly (fun e => ∀ ids, e ≠ .cycle ids) c.patternValue := by
    unfold patternValue
    split
    · exact failsOnly_error nofun
    · exact failsOnly_ok _
  have hentries : FailsOnly (fun e => ∀ ids, e ≠ .cycle ids) (c.entriesFor values kind) := by
    unfold entriesFor
    dsimp only
    split
    · exact failsOnly_error nofun
    · split
      · exact failsOnly_ok _
      · split
        · exact failsOnly_error nofun
        · exact failsOnly_ok _
  unfold checkValue
  cases c.operator with
  | like | startsWith | endsWith => exact hpattern.map _
  | eq => exact failsOnly_ok _
  | isIn | notIn => exact hentries.map _

theorem QueryKind.failsOnly_condition (kind : QueryKind) (layout : FieldLayout) (field : FieldKind)
    (c : Condition) :
    FailsOnly (fun e => ∀ ids, e ≠ .cycle ids) (kind.target.condition layout field c) := fun e he =>
  c.failsOnly_checkValue field.values kind e (kind.alike_condition.symm.eq_error he)

namespace Rulebook

variable (b : Rulebook)

/-- If the error reports a circle, it is of rules that go on from those on the path with the rule,
each a parent of the one before it; the last one had been entered already. -/
def Reports (path : VisitPath) (r : Rule) (e : RuleError) : Prop :=
  ∀ ids, e = .cycle ids → ∃ rules before last, b.IsWalk (r :: rules) ∧
    ids = path.ids ++ (r :: rules).map Rule.id ∧ ids = before ++ [last] ∧ last ∈ before

/-- The identifiers begin with that of the rule, each one after it is that of a saved rule that the
one before it names as a parent, and the last one has come before. -/
def Circle (r : Rule) (ids : List String) : Prop :=
  ∃ rules : List Rule, ids = (r :: rules).map Rule.id ∧
    (r :: rules).IsChain (fun p q => q.id ∈ p.parentIds ∧ b.rules.get? q.id = some q) ∧
    ∃ before last, ids = before ++ [last] ∧ last ∈ before

variable {b} {schema : Schema} {item : Json} {path inside : VisitPath} {r p : Rule} {e : RuleError}
  {kind : QueryKind}

/-- A rule that is on the path already is where the circle closes. -/
theorem reports_enter : FailsOnly (b.Reports path r) (path.enter r.id) := by
  intro e he ids hids
  obtain ⟨hmem, rfl⟩ := VisitPath.enter_eq_error_iff.1 he
  obtain rfl := RuleError.cycle.inj hids
  exact ⟨[], path.ids, r.id, isWalk_singleton, rfl, rfl, hmem⟩

/-- What is reported from a parent is reported from the rule. -/
theorem Reports.of_parent (h : b.Reports inside p e) (hin : path.enter r.id = .ok inside)
    (hp : b.Parent r p) : b.Reports path r e := by
  intro ids hids
  obtain ⟨rules, before, last, hwalk, hrules, hlast⟩ := h ids hids
  obtain ⟨-, rfl⟩ := VisitPath.enter_eq_ok_iff.1 hin
  exact ⟨p :: rules, before, last, isWalk_cons_cons.2 ⟨hp, hwalk⟩, by simpa using hrules, hlast⟩

theorem reports_of_ne (h : ∀ ids, e ≠ .cycle ids) : b.Reports path r e :=
  fun ids hids => absurd hids (h ids)

theorem reports_condition (id : String) : FailsOnly (b.Reports path r) (b.condition id) := by
  intro e he
  rw [condition_eq_error he]
  exact reports_of_ne nofun

theorem reports_rule (id : String) : FailsOnly (b.Reports path r) (b.rule id) := by
  intro e he
  rw [rule_eq_error he]
  exact reports_of_ne nofun

/-- **Evaluation reports nothing but circles that it went round.** -/
theorem reports_holdsFrom : FailsOnly (b.Reports path r) (b.holdsFrom schema item path r) := by
  induction path, r using b.walk_induction with
  | step path r ih =>
    rw [holdsFrom_eq]
    refine reports_enter.bind fun inside hin => failsOnly_anyM fun c hc => ?_
    refine FailsOnly.bind (failsOnly_allM fun id _ => ?_) fun met _ => ?_
    · exact (reports_condition id).bind fun _ _ => failsOnly_ok _
    · cases met with
      | false => exact failsOnly_ok false
      | true =>
        refine failsOnly_allM fun id hid => (reports_rule id).bind fun p hp => ?_
        have hparent : b.Parent r p :=
          ⟨id, Rule.mem_parentIds.2 ⟨c, hc, IdSet.mem_toList.1 hid⟩, rule_eq_ok_iff.1 hp⟩
        exact fun e he => (ih inside p hin hparent e he).of_parent hin hparent

/-- **Compilation reports nothing but circles that it went round.** -/
theorem reports_compileFrom :
    FailsOnly (b.Reports path r) (b.compileFrom schema kind.target path r) := by
  induction path, r using b.walk_induction with
  | step path r ih =>
    rw [compileFrom_eq]
    cases r.clauses.isEmpty with
    | true => exact failsOnly_error (reports_of_ne nofun)
    | false =>
      simp only [Bool.false_eq_true, if_false]
      refine reports_enter.bind fun inside hin => FailsOnly.map (failsOnly_mapM ?_) _
      rintro ⟨c, index⟩ hc
      unfold clauseQuery
      cases c.isEmpty with
      | true => exact failsOnly_error (reports_of_ne nofun)
      | false =>
        simp only [Bool.false_eq_true, if_false]
        refine FailsOnly.bind (failsOnly_mapM fun id _ => ?_) fun _ _ => ?_
        · refine (reports_condition id).bind fun k _ e he => reports_of_ne ?_
          exact kind.failsOnly_condition _ _ k e he
        refine FailsOnly.bind (failsOnly_mapM fun id hid => ?_) fun _ _ => failsOnly_ok _
        refine (reports_rule id).bind fun p hp => ?_
        have hparent : b.Parent r p := ⟨id, Rule.mem_parentIds.2
          ⟨c, List.fst_mem_of_mem_zipIdx hc, IdSet.mem_toList.1 hid⟩, rule_eq_ok_iff.1 hp⟩
        exact fun e he => (ih inside p hin hparent e he).of_parent hin hparent

/-! ### From the beginning -/

theorem Reports.circle (hids : ∀ id p, b.rules.get? id = some p → p.id = id) {ids : List String}
    (h : b.Reports .empty r (.cycle ids)) : b.Circle r ids := by
  obtain ⟨rules, before, last, hwalk, hrules, hlast⟩ := h ids rfl
  refine ⟨rules, hrules, hwalk.imp fun p q hq => ?_, before, last, hlast⟩
  obtain ⟨id, hid, hget⟩ := hq
  obtain rfl := hids id q hget
  exact ⟨hid, hget⟩

/-- A circle comes to an identifier twice. -/
theorem Reports.not_unrepeating {ids : List String} (h : b.Reports .empty r (.cycle ids)) :
    ¬b.Unrepeating r := by
  intro hr
  obtain ⟨rules, before, last, hwalk, hrules, hlast, hmem⟩ := h ids rfl
  have hnodup : ids.Nodup := hrules ▸ hr rules hwalk
  rw [hlast, List.nodup_append] at hnodup
  exact hnodup.2.2 last hmem last (List.mem_singleton_self last) rfl

/-- **Evaluation and compilation end on every rulebook, with the path in balance, and report circles
only where there are some.**  Carried out on one path they have an outcome as soon as they may go
deeper than there are saved rules that the walk is not inside of, and it is that of the walks that
hand on their paths; `Tracks` says that the path is as before after every success. -/
theorem ends_with_circles (b : Rulebook) (schema : Schema) (item : Json)
    (hids : ∀ id p, b.rules.get? id = some p → p.id = id) :
    (∀ path depth, b.unvisited path < depth →
      (∀ r, Tracks path (b.holdsFrom schema item path r)
        (Threaded.holds b schema item (depth + 1) r)) ∧
      (∀ p, (∃ id, b.rules.get? id = some p) →
        Tracks path (b.holdsFrom schema item path p) (Threaded.holds b schema item depth p)) ∧
      (∀ c, Tracks path (b.clauseHolds schema item path c)
        (Threaded.clauseHolds b schema item (Threaded.holds b schema item depth) c))) ∧
    (∀ (kind : QueryKind) path depth, b.unvisited path < depth →
      (∀ r, Tracks path (b.compileFrom schema kind.target path r)
        (Threaded.compile b schema kind.target (depth + 1) r)) ∧
      (∀ p, (∃ id, b.rules.get? id = some p) →
        Tracks path (b.compileFrom schema kind.target path p)
          (Threaded.compile b schema kind.target depth p)) ∧
      (∀ id c index, Tracks path (b.clauseQuery schema kind.target path id c index)
        (Threaded.clauseQuery b schema kind.target (Threaded.compile b schema kind.target depth) id
          c index))) ∧
    (∀ r ids, b.holds schema item (some r) = .error (.cycle ids) → b.Circle r ids) ∧
    (∀ (kind : QueryKind) r ids,
      b.compile schema kind.target (some r) = .error (.cycle ids) → b.Circle r ids) ∧
    (∀ r, b.Unrepeating r → ∀ ids, b.holds schema item (some r) ≠ .error (.cycle ids) ∧
      ∀ kind : QueryKind, b.compile schema kind.target (some r) ≠ .error (.cycle ids)) := by
  refine ⟨fun path depth hdepth => ⟨fun r => ?_, fun p hp => ?_, fun c => ?_⟩,
    fun kind path depth hdepth => ⟨fun r => ?_, fun p hp => ?_, fun id c index => ?_⟩,
    fun r ids h => ?_, fun kind r ids h => ?_, fun r hr ids => ⟨fun h => ?_, fun kind h => ?_⟩⟩
  · exact stepwise_holds.unsaved hdepth r
  · exact stepwise_holds.saved hdepth hp
  · exact tracks_clauseHolds fun p => stepwise_holds.saved hdepth
  · exact stepwise_compile.unsaved hdepth r
  · exact stepwise_compile.saved hdepth hp
  · exact tracks_clauseQuery fun p => stepwise_compile.saved hdepth
  · exact (reports_holdsFrom _ h).circle hids
  · exact (reports_compileFrom _ h).circle hids
  · exact (reports_holdsFrom _ h).not_unrepeating hr
  · exact (reports_compileFrom _ h).not_unrepeating hr

/-- Two saved rules that name each other, and nothing else. -/
def roundabout : Rulebook :=
  let wire : Rule := .new default "wire" "wire" [⟨∅, .ofList ["local"]⟩]
  let localWire : Rule := .new default "local" "local" [⟨∅, .ofList ["wire"]⟩]
  ⟨∅, ((∅ : Table Rule).insert "wire" wire).insert "local" localWire, ∅⟩

/-- A rule that is not saved and names one of the two. -/
def entrance : Rule := .new default "" "entrance" [⟨∅, .ofList ["wire"]⟩]

/-- The walk from the entrance comes round to where it entered the circle. -/
theorem ends_with_circles_roundabout :
    (∀ id p, roundabout.rules.get? id = some p → p.id = id) ∧
      (Threaded.holds roundabout default default 4 entrance).run.run .empty =
        some (.error (.cycle ["", "wire", "local", "wire"]), ⟨["", "wire", "local"]⟩) ∧
      ∃ ids, roundabout.holds default default (some entrance) = .error (.cycle ids) ∧
        roundabout.Circle entrance ids := by
  have hids : ∀ id p, roundabout.rules.get? id = some p → p.id = id := by
    intro id p hp
    rcases Table.get?_insert_eq_some_iff.1 hp with ⟨rfl, rfl⟩ | ⟨-, hp⟩
    · rfl
    · rcases Table.get?_insert_eq_some_iff.1 hp with ⟨rfl, rfl⟩ | ⟨-, hp⟩
      · rfl
      · cases hp
  obtain ⟨-, -, hcircle, -⟩ := ends_with_circles roundabout default default hids
  have hrun : roundabout.holds default default (some entrance) =
      .error (.cycle ["", "wire", "local", "wire"]) := by cbv
  exact ⟨hids, rfl, _, hrun, hcircle entrance _ hrun⟩

end Rulebook

end Newswire
