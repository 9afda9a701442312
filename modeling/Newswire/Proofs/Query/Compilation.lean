import Newswire.Proofs.Query.Target
import Newswire.Proofs.Rulebook.Lineage
import Newswire.Query.Search
import Newswire.Query.Store

/-!
# Which rules can be compiled

The two kinds of queries share the walk over a rule but check the values of conditions each in its
own way.  The checks come to the same.

* `Alike` : two computations both succeed, or both fail with corresponding errors.
* `Condition.checkValue` : what both kinds of queries check (`StoreQuery.alike_condition`,
  `SearchQuery.alike_condition`), and `Condition.Writable` : when the check is passed.
* `RuleError.aimedAt` : an error as it is worded for the other kind of query.
* `Rulebook.alike_compileFrom` : the two walks fail alike.
* `Rulebook.compiles_exactly` : **a rule is compiled exactly if no walk from it comes to an
  identifier twice and every rule on a walk has what it needs**, for both kinds of queries alike.
-/

namespace Newswire

/-! ### Computations that fail alike -/

section Alike

variable {ε α β γ δ : Type} {f g : ε → ε}

/-- Both succeed, or both fail, the second one with the error of the first as `f` turns it. -/
inductive Alike (f : ε → ε) : Except ε α → Except ε β → Prop
  /-- Both succeed. -/
  | ok (a : α) (b : β) : Alike f (.ok a) (.ok b)
  /-- Both fail. -/
  | error (e : ε) : Alike f (.error e) (.error (f e))

variable {x : Except ε α} {y : Except ε β} {z : Except ε γ}

theorem alike_discard (x : Except ε α) : Alike id (discard x) x := by
  cases x with
  | ok a => exact .ok () a
  | error e => exact .error e

theorem alike_map (k : α → β) (x : Except ε α) : Alike id x (k <$> x) := by
  cases x with
  | ok a => exact .ok a (k a)
  | error e => exact .error e

theorem alike_bind_pure (k : α → β) (x : Except ε α) : Alike id x (do return k (← x)) := by
  cases x with
  | ok a => exact .ok a (k a)
  | error e => exact .error e

theorem Alike.symm (h : Alike id x y) : Alike id y x := by
  cases h with
  | ok a b => exact .ok b a
  | error e => exact .error e

theorem Alike.trans (h : Alike f x y) (h' : Alike g y z) : Alike (g ∘ f) x z := by
  cases h with
  | ok a b => cases h' with
    | ok _ c => exact .ok a c
  | error e => cases h' with
    | error _ => exact .error e

/-- What follows must not look at the values. -/
theorem Alike.bind {k : α → Except ε γ} {l : β → Except ε δ} (h : Alike f x y)
    (hkl : ∀ a b, Alike f (k a) (l b)) : Alike f (x >>= k) (y >>= l) := by
  cases h with
  | ok a b => exact hkl a b
  | error e => exact .error e

theorem Alike.map (h : Alike f x y) (k : α → γ) (l : β → δ) : Alike f (k <$> x) (l <$> y) := by
  cases h with
  | ok a b => exact .ok (k a) (l b)
  | error e => exact .error e

theorem Alike.after {k : α → Except ε γ} {l : α → Except ε δ} (hx : ∀ e, x = .error e → f e = e)
    (hkl : ∀ a, x = .ok a → Alike f (k a) (l a)) : Alike f (x >>= k) (x >>= l) := by
  cases x with
  | ok a => exact hkl a rfl
  | error e =>
    have herror : Alike f (.error e : Except ε γ) (.error (f e) : Except ε δ) := .error e
    rwa [hx e rfl] at herror

theorem alike_mapM {xs : List α} {k : α → Except ε γ} {l : α → Except ε δ}
    (h : ∀ a ∈ xs, Alike f (k a) (l a)) : Alike f (xs.mapM k) (xs.mapM l) := by
  induction xs with
  | nil => exact .ok [] []
  | cons a xs ih =>
    rw [List.mapM_cons, List.mapM_cons]
    have hrest := ih fun b hb => h b (List.mem_cons_of_mem _ hb)
    exact (h a List.mem_cons_self).bind fun c d => hrest.bind fun cs ds => .ok (c :: cs) (d :: ds)

theorem Alike.exists_ok_iff (h : Alike f x y) : (∃ a, x = .ok a) ↔ ∃ b, y = .ok b := by
  cases h with
  | ok a b => exact iff_of_true ⟨a, rfl⟩ ⟨b, rfl⟩
  | error e => exact iff_of_false (fun ⟨_, h⟩ => nomatch h) (fun ⟨_, h⟩ => nomatch h)

theorem Alike.eq_error {e : ε} (h : Alike f x y) (hx : x = .error e) : y = .error (f e) := by
  cases h with
  | ok a b => cases hx
  | error e' => rw [Except.error.inj hx]

theorem Alike.eq_error_iff {e : ε} (h : Alike id x y) : x = .error e ↔ y = .error e :=
  ⟨h.eq_error, h.symm.eq_error⟩

end Alike

/-- The error as it is worded when rules are compiled to the other kind of query. -/
def RuleError.aimedAt (kind : QueryKind) : RuleError → RuleError
  | inexpressible id _ field entry => inexpressible id kind field entry
  | e => e

/-- How queries of a kind are written. -/
def QueryKind.target : QueryKind → Target
  | store => StoreQuery.target
  | search => SearchQuery.target

/-! ### Values of conditions -/

namespace Condition

/-- What is checked of the value of a condition. -/
def checkValue (c : Condition) (values : ValueKind) (kind : QueryKind) : Except RuleError Unit :=
  match c.operator with
  | .like | .startsWith | .endsWith => discard c.patternValue
  | .eq => .ok ()
  | .isIn | .notIn => discard (c.entriesFor values kind)

/-- The value can be written: a text to be found is not empty, and a list has entries, which are
numbers where numbers are compared. -/
def Writable (c : Condition) (values : ValueKind) : Prop :=
  match c.operator with
  | .like | .startsWith | .endsWith => c.value ≠ ""
  | .eq => True
  | .isIn | .notIn => listEntries c.value ≠ [] ∧
    (values = .number → ∀ e ∈ listEntries c.value, ∃ n, numberOf? e = some n)

variable {c : Condition} {values : ValueKind} {kind : QueryKind}

theorem alike_entriesFor (kind' : QueryKind) :
    Alike (RuleError.aimedAt kind') (c.entriesFor values kind) (c.entriesFor values kind') := by
  unfold entriesFor
  dsimp only
  by_cases hempty : c.values.isEmpty = true
  · rw [if_pos hempty, if_pos hempty]
    exact .error (RuleError.invalidCondition c.id .noEntries)
  · rw [if_neg hempty, if_neg hempty]
    cases values with
    | text => exact .ok _ _
    | number =>
      cases c.values.find? fun e => (numberOf? e).isNone with
      | some bad => exact .error (RuleError.inexpressible c.id kind c.field bad)
      | none => exact .ok _ _

theorem alike_patternValue (kind : QueryKind) :
    Alike (RuleError.aimedAt kind) c.patternValue c.patternValue := by
  unfold patternValue
  split
  · exact .error (RuleError.invalidCondition c.id .missingValue)
  · exact .ok _ _

/-- The checks for the two kinds of queries differ in the kind that the error names. -/
theorem alike_checkValue (kind' : QueryKind) :
    Alike (RuleError.aimedAt kind') (c.checkValue values kind) (c.checkValue values kind') := by
  unfold checkValue
  cases c.operator with
  | like | startsWith | endsWith => exact (alike_patternValue kind').map _ _
  | eq => exact .ok _ _
  | isIn | notIn => exact (alike_entriesFor kind').map _ _

theorem exists_patternValue_iff : (∃ value, c.patternValue = .ok value) ↔ c.value ≠ "" := by
  unfold patternValue
  rw [Ne, ← String.isEmpty_iff]
  split <;> simp_all

theorem exists_entriesFor_iff : (∃ es, c.entriesFor values kind = .ok es) ↔
    c.values ≠ [] ∧ (values = .number → ∀ e ∈ c.values, ∃ n, numberOf? e = some n) := by
  unfold entriesFor
  dsimp only
  by_cases hempty : c.values.isEmpty = true
  · rw [if_pos hempty]
    exact iff_of_false (fun ⟨_, h⟩ => nomatch h) fun h => h.1 (List.isEmpty_iff.1 hempty)
  · rw [if_neg hempty]
    have hne : c.values ≠ [] := fun hnil => hempty (List.isEmpty_iff.2 hnil)
    cases values with
    | text => exact iff_of_true ⟨_, rfl⟩ ⟨hne, nofun⟩
    | number =>
      cases hbad : c.values.find? fun e => (numberOf? e).isNone with
      | some bad =>
        refine iff_of_false (fun ⟨_, h⟩ => nomatch h) fun h => ?_
        obtain ⟨n, hn⟩ := h.2 rfl bad (List.mem_of_find?_eq_some hbad)
        have hnone := List.find?_some hbad
        simp only [hn] at hnone
        cases hnone
      | none =>
        refine iff_of_true ⟨_, rfl⟩ ⟨hne, fun _ e he => ?_⟩
        have hsome := List.find?_eq_none.1 hbad e he
        exact Option.ne_none_iff_exists'.1 (by simpa using hsome)

theorem exists_checkValue_iff :
    (∃ a, c.checkValue values kind = .ok a) ↔ c.Writable values := by
  unfold checkValue Writable
  cases hop : c.operator with
  | like | startsWith | endsWith =>
    exact (alike_discard c.patternValue).exists_ok_iff.trans exists_patternValue_iff
  | eq => exact iff_of_true ⟨(), rfl⟩ trivial
  | isIn | notIn =>
    have hvalues : c.values = listEntries c.value := by rw [Condition.values, hop]; rfl
    exact (alike_discard (c.entriesFor values kind)).exists_ok_iff.trans
      (hvalues ▸ exists_entriesFor_iff)

end Condition

namespace StoreQuery

variable {layout : FieldLayout} {c : Condition}

theorem alike_operand (kind : ValueKind) :
    Alike id (c.checkValue kind .store) (operand kind c) := by
  unfold Condition.checkValue operand
  cases c.operator with
  | like | startsWith | endsWith =>
    exact (alike_discard c.patternValue).trans (alike_bind_pure _ _)
  | eq => exact .ok _ _
  | isIn | notIn =>
    exact (alike_discard (c.entriesFor kind .store)).trans
      ((alike_bind_pure _ _).trans (alike_map isIn _))

theorem alike_onPath (path : String) (kind : ValueKind) :
    Alike id (c.checkValue kind .store) (onPath path kind c) := by
  have hoperand := (alike_operand (c := c) kind).trans (alike_map (field path) _)
  unfold onPath
  cases hop : c.operator with
  | notIn =>
    rw [Condition.checkValue, hop]
    exact (alike_discard (c.entriesFor kind .store)).trans
      ((alike_bind_pure _ _).trans (alike_bind_pure _ (entries kind c)))
  | like | startsWith | endsWith | eq | isIn => exact hoperand

/-- Store queries are written exactly for what passes the check. -/
theorem alike_condition (kind : FieldKind) :
    Alike id (c.checkValue kind.values .store) (condition layout kind c) := by
  cases kind with
  | vocabulary scheme => exact (alike_operand .text).trans (alike_bind_pure _ _)
  | plain path values => exact alike_onPath path values
  | freeText key => exact alike_onPath (layout.customPath key) .text

end StoreQuery

namespace SearchQuery

variable {layout : FieldLayout} {c : Condition}

theorem alike_operand (path : String) (kind : ValueKind) :
    Alike id (c.checkValue kind .search) (operand path kind c) := by
  unfold Condition.checkValue operand
  cases c.operator with
  | like | startsWith | endsWith =>
    exact (alike_discard c.patternValue).trans (alike_bind_pure _ _)
  | eq => exact .ok _ _
  | isIn | notIn =>
    exact (alike_discard (c.entriesFor kind .search)).trans (alike_bind_pure _ _)

theorem alike_onPath (path : String) (kind : ValueKind) :
    Alike id (c.checkValue kind .search) (onPath path kind c) := by
  unfold onPath
  cases hop : c.operator with
  | notIn =>
    rw [Condition.checkValue, hop]
    exact (alike_discard (c.entriesFor kind .search)).trans
      ((alike_bind_pure _ _).trans (alike_bind_pure _ (inList path kind c)))
  | like | startsWith | endsWith | eq | isIn => exact alike_operand path kind

/-- Search queries are written exactly for what passes the check. -/
theorem alike_condition (kind : FieldKind) :
    Alike id (c.checkValue kind.values .search) (condition layout kind c) := by
  cases kind with
  | vocabulary scheme => exact (alike_operand layout.codePath .text).trans (alike_bind_pure _ _)
  | plain path values => exact alike_onPath path values
  | freeText key => exact alike_onPath (layout.customPath key) .text

end SearchQuery

theorem QueryKind.alike_condition (kind : QueryKind) {layout : FieldLayout} {field : FieldKind}
    {c : Condition} :
    Alike id (c.checkValue field.values kind) (kind.target.condition layout field c) := by
  cases kind with
  | store => exact StoreQuery.alike_condition field
  | search => exact SearchQuery.alike_condition field

/-! ### Walks -/

namespace Rulebook

variable {b : Rulebook} {schema : Schema} {path : VisitPath} {r : Rule} {kind : QueryKind}

theorem compiles_iff {c : Condition} :
    Compiles schema kind.target c ↔ c.Writable (schema.resolve c.field).values :=
  kind.alike_condition.exists_ok_iff.symm.trans Condition.exists_checkValue_iff

theorem alike_compileCondition (kind' : QueryKind) (id : String) :
    Alike (RuleError.aimedAt kind') (b.compileCondition schema kind.target id)
      (b.compileCondition schema kind'.target id) := by
  refine Alike.after (fun e he => ?_) fun c _ => ?_
  · rw [condition_eq_error he]
    rfl
  · exact kind.alike_condition.symm.trans
      ((Condition.alike_checkValue kind').trans kind'.alike_condition)

theorem alike_clauseQuery {kind' : QueryKind} {inside : VisitPath} {ruleId : String} {c : Clause}
    {index : Nat}
    (h : ∀ id ∈ c.parents, ∀ p, b.rules.get? id = some p → Alike (RuleError.aimedAt kind')
      (b.compileFrom schema kind.target inside p) (b.compileFrom schema kind'.target inside p)) :
    Alike (RuleError.aimedAt kind') (b.clauseQuery schema kind.target inside ruleId c index)
      (b.clauseQuery schema kind'.target inside ruleId c index) := by
  unfold clauseQuery
  cases c.isEmpty with
  | true => exact .error (RuleError.emptyClause ruleId index)
  | false =>
    simp only [Bool.false_eq_true, if_false]
    refine (alike_mapM fun id _ => alike_compileCondition kind' id).bind fun _ _ => ?_
    refine Alike.bind (alike_mapM fun id hid => ?_) fun _ _ => .ok _ _
    refine Alike.after (fun e he => ?_) fun p hp => ?_
    · rw [rule_eq_error he]
      rfl
    · exact h id (IdSet.mem_toList.1 hid) p (rule_eq_ok_iff.1 hp)

/-- **The two walks fail alike**: they come to the same rules and conditions in the same order. -/
theorem alike_compileFrom (kind' : QueryKind) :
    Alike (RuleError.aimedAt kind') (b.compileFrom schema kind.target path r)
      (b.compileFrom schema kind'.target path r) := by
  induction path, r using b.walk_induction with
  | step path r ih =>
    rw [compileFrom_eq, compileFrom_eq]
    cases r.clauses.isEmpty with
    | true => exact .error (RuleError.emptyRule r.id)
    | false =>
      simp only [Bool.false_eq_true, if_false]
      refine Alike.after (fun e he => ?_) fun inside hin => ?_
      · rw [(VisitPath.enter_eq_error_iff.1 he).2]
        rfl
      · refine (alike_mapM fun ⟨c, index⟩ hc => ?_).map _ _
        refine alike_clauseQuery fun id hid p hp => ih inside p hin ⟨id, ?_, hp⟩
        exact Rule.mem_parentIds.2 ⟨c, List.fst_mem_of_mem_zipIdx hc, hid⟩

/-- **A rule is compiled exactly if no walk from it comes to an identifier twice and every rule on a
walk is complete**, its conditions having values that can be written.  The two kinds of queries
differ only in the kind that an error names. -/
theorem compiles_exactly (b : Rulebook) (schema : Schema) (r : Rule) :
    (∀ kind : QueryKind, (∃ q, b.compile schema kind.target (some r) = .ok q) ↔
      b.Unrepeating r ∧ b.Stocked (Compiles schema kind.target) r) ∧
    (∀ kind : QueryKind, ∀ c,
      Compiles schema kind.target c ↔ c.Writable (schema.resolve c.field).values) ∧
    (∀ kind kind' : QueryKind, (∃ q, b.compile schema kind.target (some r) = .ok q) ↔
      ∃ q, b.compile schema kind'.target (some r) = .ok q) ∧
    (∀ kind kind' : QueryKind, ∀ e, b.compile schema kind.target (some r) = .error e →
      b.compile schema kind'.target (some r) = .error (e.aimedAt kind')) := by
  refine ⟨fun kind => ?_, fun kind c => compiles_iff, fun kind kind' => ?_,
    fun kind kind' e he => ?_⟩
  · rw [← walkable_empty_iff]
    exact ⟨fun ⟨_, hq⟩ => walkable_of_compileFrom hq, Walkable.exists_compileFrom⟩
  · exact (alike_compileFrom kind').exists_ok_iff
  · exact (alike_compileFrom kind').eq_error he

end Rulebook

end Newswire
