import Newswire.Proofs.Query.Compilation

/-!
# Walks on one path

The walks of evaluation and compilation hand a longer path to every parent.  They may as well keep
one path, go inside a rule on it and out again; here it is said what this takes.

* `Threaded` : computations on one path that go only so many rules deep.
* `Threaded.holds`, `Threaded.compile` : evaluation and compilation in this way.
* `Composed` : a relation between two kinds of computations that carries over to lists of them.
* `Tracks` : a threaded computation comes to an end with a given outcome, and after a success the
  path is what it was.  The rules follow the way in which walks are put together (`Tracks.bind`,
  `composed_tracks`, `tracks_within`).
* `Rulebook.Stepwise` : a rule is tracked if its parents are, as in evaluation and compilation
  (`Rulebook.stepwise_holds`, `Rulebook.stepwise_compile`).
* `Rulebook.Stepwise.saved`, `Rulebook.Stepwise.unsaved` : **then every rule is tracked on every
  rulebook**, at a depth of about the saved rules that the walk is not inside of.
-/

namespace Newswire

/-- Computations on the path of a walk, which goes only so deep; there is no outcome where it would
have to go deeper. -/
abbrev Threaded := ExceptT RuleError (StateT VisitPath Option)

namespace Threaded

variable {α : Type}

/-- There is no outcome. -/
def tooDeep : Threaded α := fun _ => none

/-- Go inside a rule. -/
def enter (id : String) : Threaded Unit := do
  let inside ← (← get).enter id
  set inside

/-- Go out of the innermost rule. -/
def leave : Threaded Unit := modify VisitPath.leave

/-- Go inside a rule, and out again after a success. -/
def within (id : String) (body : Threaded α) : Threaded α := do
  enter id
  let a ← body
  leave
  return a

variable (b : Rulebook) (schema : Schema) (item : Json) (target : Target)

/-- A clause holds of the item, the parents as `visit` finds. -/
def clauseHolds (visit : Rule → Threaded Bool) (clause : Clause) : Threaded Bool := do
  if ← clause.conditions.toList.allM fun id => b.conditionHolds schema item id then
    clause.parents.toList.allM fun id => do visit (← b.rule id)
  else return false

/-- A rule holds of the item, on a walk that goes only so deep. -/
def holds : Nat → Rule → Threaded Bool
  | 0, _ => tooDeep
  | depth + 1, r => within r.id (r.clauses.anyM (clauseHolds b schema item (holds depth)))

/-- The query of a clause, those of the parents as `visit` makes them. -/
def clauseQuery (visit : Rule → Threaded Json) (ruleId : String) (clause : Clause) (index : Nat) :
    Threaded Json := do
  if clause.isEmpty then throw (.emptyClause ruleId index)
  let conditions ← clause.conditions.toList.mapM fun id => b.compileCondition schema target id
  let parents ← clause.parents.toList.mapM fun id => do visit (← b.rule id)
  return target.all (conditions ++ parents)

/-- The query of a rule, on a walk that goes only so deep. -/
def compile : Nat → Rule → Threaded Json
  | 0, _ => tooDeep
  | depth + 1, r => do
    if r.clauses.isEmpty then throw (.emptyRule r.id)
    let qs ← within r.id (r.clauses.zipIdx.mapM fun (clause, index) =>
      clauseQuery b schema target (compile depth) r.id clause index)
    return target.any qs

end Threaded

/-! ### Going through lists -/

/-- The relation between failing computations and those of another kind is kept when they are put
together. -/
structure Composed {ε : Type} {m : Type → Type} [Monad m]
    (R : ∀ α : Type, Except ε α → m α → Prop) : Prop where
  /-- It holds of a value. -/
  ok {α : Type} (a : α) : R α (.ok a) (pure a)
  /-- It holds of two steps if it holds of each. -/
  bind {α β : Type} {x : Except ε α} {y : m α} {f : α → Except ε β} {k : α → m β} :
    R α x y → (∀ a, x = .ok a → R β (f a) (k a)) → R β (x >>= f) (y >>= k)

section Composed

variable {ε : Type} {m : Type → Type} [Monad m] {R : ∀ α : Type, Except ε α → m α → Prop}
  {α β : Type} {xs : List α}

theorem Composed.mapM [LawfulMonad m] {f : α → Except ε β} {k : α → m β} (hR : Composed R)
    (h : ∀ a ∈ xs, R β (f a) (k a)) : R (List β) (xs.mapM f) (xs.mapM k) := by
  induction xs with
  | nil => exact hR.ok []
  | cons a xs ih =>
    rw [List.mapM_cons, List.mapM_cons]
    refine hR.bind (h a List.mem_cons_self) fun b _ => ?_
    exact hR.bind (ih fun a' ha' => h a' (List.mem_cons_of_mem _ ha')) fun bs _ => hR.ok (b :: bs)

theorem Composed.allM {f : α → Except ε Bool} {k : α → m Bool} (hR : Composed R)
    (h : ∀ a ∈ xs, R Bool (f a) (k a)) : R Bool (xs.allM f) (xs.allM k) := by
  induction xs with
  | nil => exact hR.ok true
  | cons a xs ih =>
    rw [List.allM, List.allM]
    refine hR.bind (h a List.mem_cons_self) fun v _ => ?_
    cases v with
    | true => exact ih fun a' ha' => h a' (List.mem_cons_of_mem _ ha')
    | false => exact hR.ok false

theorem Composed.anyM {f : α → Except ε Bool} {k : α → m Bool} (hR : Composed R)
    (h : ∀ a ∈ xs, R Bool (f a) (k a)) : R Bool (xs.anyM f) (xs.anyM k) := by
  induction xs with
  | nil => exact hR.ok false
  | cons a xs ih =>
    rw [List.anyM, List.anyM]
    refine hR.bind (h a List.mem_cons_self) fun v _ => ?_
    cases v with
    | true => exact hR.ok true
    | false => exact ih fun a' ha' => h a' (List.mem_cons_of_mem _ ha')

end Composed

/-! ### The path in balance -/

/-- On the path the computation comes to an end with the outcome, and after a success the path is
what it was. -/
def Tracks {α : Type} (path : VisitPath) (x : Except RuleError α) (m : Threaded α) : Prop :=
  ∃ left, m.run.run path = some (x, left) ∧ ∀ a, x = .ok a → left = path

section Tracks

variable {α β : Type} {path : VisitPath} {x : Except RuleError α} {m : Threaded α}

theorem Threaded.run_bind (m : Threaded α) (k : α → Threaded β) (path : VisitPath) :
    (m >>= k).run.run path = match m.run.run path with
      | some (.ok a, left) => (k a).run.run left
      | some (.error e, left) => some (.error e, left)
      | none => none := by
  show (m.run.run path).bind (fun y => (ExceptT.bindCont k y.1).run y.2) = _
  rcases m.run.run path with _ | ⟨_ | a, left⟩ <;> rfl

theorem Threaded.run_enter (id : String) (path : VisitPath) :
    (enter id).run.run path = match path.enter id with
      | .ok inside => some (.ok (), inside)
      | .error e => some (.error e, path) := by
  rw [enter, run_bind]
  show (liftM (path.enter id) >>= fun inside => set inside : Threaded Unit).run.run path = _
  rw [run_bind]
  cases path.enter id <;> rfl

theorem tracks_ok (a : α) : Tracks path (.ok a) (pure a) := ⟨path, rfl, fun _ _ => rfl⟩

theorem tracks_error (e : RuleError) : Tracks path (.error e : Except RuleError α) (throw e) :=
  ⟨path, rfl, nofun⟩

theorem tracks_lift (x : Except RuleError α) : Tracks path x (liftM x) :=
  ⟨path, by cases x <;> rfl, fun _ _ => rfl⟩

/-- The second step begins with the path that the first one began with. -/
theorem Tracks.bind {f : α → Except RuleError β} {k : α → Threaded β} (hm : Tracks path x m)
    (hk : ∀ a, x = .ok a → Tracks path (f a) (k a)) : Tracks path (x >>= f) (m >>= k) := by
  obtain ⟨left, hrun, hleft⟩ := hm
  unfold Tracks
  rw [Threaded.run_bind, hrun]
  cases x with
  | error e => exact ⟨left, rfl, nofun⟩
  | ok a =>
    obtain rfl := hleft a rfl
    exact hk a rfl

theorem composed_tracks (path : VisitPath) : Composed fun _ => Tracks path where
  ok := tracks_ok
  bind := Tracks.bind

/-- **Inside a rule the path is longer by the rule, and after it as before.** -/
theorem tracks_within {id : String} {f : VisitPath → Except RuleError α} {body : Threaded α}
    (h : ∀ inside, path.enter id = .ok inside → Tracks inside (f inside) body) :
    Tracks path (path.enter id >>= f) (Threaded.within id body) := by
  unfold Tracks Threaded.within
  rw [Threaded.run_bind, Threaded.run_enter]
  cases henter : path.enter id with
  | error e => exact ⟨path, rfl, nofun⟩
  | ok inside =>
    obtain ⟨left, hrun, hleft⟩ := h inside henter
    simp only [Threaded.run_bind, hrun]
    cases hf : f inside with
    | error e => exact ⟨left, by simp [bind, Except.bind, hf], by simp [bind, Except.bind, hf]⟩
    | ok a =>
      obtain rfl := hleft a hf
      refine ⟨left.leave, ?_, fun _ _ => VisitPath.leave_of_enter henter⟩
      simp only [bind, Except.bind, hf]
      rfl

end Tracks

namespace Rulebook

variable {b : Rulebook} {schema : Schema} {item : Json} {target : Target} {path inside : VisitPath}
  {r p : Rule}

/-! ### Evaluation and compilation -/

theorem tracks_clauseHolds {visit : Rule → Threaded Bool} {c : Clause}
    (h : ∀ p, (∃ id, b.rules.get? id = some p) →
      Tracks inside (b.holdsFrom schema item inside p) (visit p)) :
    Tracks inside (b.clauseHolds schema item inside c)
      (Threaded.clauseHolds b schema item visit c) := by
  unfold clauseHolds Threaded.clauseHolds
  refine ((composed_tracks inside).allM fun id _ => tracks_lift _).bind fun met _ => ?_
  cases met with
  | false => exact tracks_ok false
  | true =>
    refine (composed_tracks inside).allM fun id _ => (tracks_lift (b.rule id)).bind fun p hp => ?_
    exact h p ⟨id, rule_eq_ok_iff.1 hp⟩

theorem tracks_clauseQuery {visit : Rule → Threaded Json} {ruleId : String} {c : Clause}
    {index : Nat} (h : ∀ p, (∃ id, b.rules.get? id = some p) →
      Tracks inside (b.compileFrom schema target inside p) (visit p)) :
    Tracks inside (b.clauseQuery schema target inside ruleId c index)
      (Threaded.clauseQuery b schema target visit ruleId c index) := by
  unfold clauseQuery Threaded.clauseQuery
  cases c.isEmpty with
  | true => exact tracks_error _
  | false =>
    simp only [Bool.false_eq_true, if_false]
    refine ((composed_tracks inside).mapM fun id _ => tracks_lift _).bind fun conditions _ => ?_
    refine Tracks.bind ((composed_tracks inside).mapM fun id _ => ?_) fun parents _ => tracks_ok _
    exact (tracks_lift (b.rule id)).bind fun p hp => h p ⟨id, rule_eq_ok_iff.1 hp⟩

/-- A rule is tracked on a path wherever its parents are tracked from inside, at a depth of one
less. -/
def Stepwise {α : Type} (b : Rulebook) (walk : VisitPath → Rule → Except RuleError α)
    (threaded : Nat → Rule → Threaded α) : Prop :=
  ∀ path r depth, (∀ inside, path.enter r.id = .ok inside → ∀ p, (∃ id, b.rules.get? id = some p) →
    Tracks inside (walk inside p) (threaded depth p)) →
    Tracks path (walk path r) (threaded (depth + 1) r)

theorem stepwise_holds : b.Stepwise (b.holdsFrom schema item) (Threaded.holds b schema item) := by
  intro path r depth h
  rw [holdsFrom_eq, Threaded.holds]
  refine tracks_within fun inside hin => (composed_tracks inside).anyM fun c _ => ?_
  exact tracks_clauseHolds (h inside hin)

theorem stepwise_compile :
    b.Stepwise (b.compileFrom schema target) (Threaded.compile b schema target) := by
  intro path r depth h
  rw [compileFrom_eq, Threaded.compile]
  cases r.clauses.isEmpty with
  | true => exact tracks_error _
  | false =>
    have hassoc : (do
        let inside ← path.enter r.id
        target.any <$> r.clauses.zipIdx.mapM fun (c, index) =>
          b.clauseQuery schema target inside r.id c index) = (do
        let qs ← path.enter r.id >>= fun inside => r.clauses.zipIdx.mapM fun (c, index) =>
          b.clauseQuery schema target inside r.id c index
        return target.any qs) := by
      simp only [map_eq_pure_bind, bind_assoc]
    simp only [Bool.false_eq_true, if_false]
    rw [hassoc]
    refine (tracks_within fun inside hin => ?_).bind fun qs _ => tracks_ok _
    exact (composed_tracks inside).mapM fun ⟨c, index⟩ _ => tracks_clauseQuery (h inside hin)

theorem unvisited_enter_le {id : String} (h : path.enter id = .ok inside) :
    b.unvisited inside ≤ b.unvisited path := by
  obtain ⟨-, rfl⟩ := VisitPath.enter_eq_ok_iff.1 h
  refine (List.monotone_filter_right _ fun q hq => ?_).length_le
  simp_all

variable {α : Type} {walk : VisitPath → Rule → Except RuleError α}
  {threaded : Nat → Rule → Threaded α} {depth : Nat}

/-- **A saved rule is tracked** at a depth of one more than there are saved rules that the walk is
not inside of, so that a circle is still found. -/
theorem Stepwise.saved (step : b.Stepwise walk threaded) (hdepth : b.unvisited path < depth)
    (hp : ∃ id, b.rules.get? id = some p) : Tracks path (walk path p) (threaded depth p) := by
  induction depth generalizing path p with
  | zero => exact absurd hdepth (Nat.not_lt_zero _)
  | succ depth ih =>
    obtain ⟨id, hid⟩ := hp
    refine step path p depth fun inside hin q hq => ih ?_ hq
    exact (unvisited_enter_lt hid hin).trans_le (Nat.lt_succ_iff.1 hdepth)

/-- **A rule that need not be saved is tracked** at a depth of one more. -/
theorem Stepwise.unsaved (step : b.Stepwise walk threaded) (hdepth : b.unvisited path < depth)
    (r : Rule) : Tracks path (walk path r) (threaded (depth + 1) r) :=
  step path r depth fun _ hin _ => step.saved ((unvisited_enter_le hin).trans_lt hdepth)

end Rulebook

end Newswire
