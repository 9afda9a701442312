import Newswire.Rule.Basic
import Newswire.Rule.Error

/-!
# Parents first

`Rule.arrange` puts rules into an order in which every parent stands before the rules that name
it, so that they can be saved one after the other.  It goes in rounds: each takes the rules whose
parents are all taken already, in their given order.  When a round takes none, some parent is
missing from the list or the rest waits in a circle.
-/

namespace Newswire

namespace Rule

/-- All parents are taken, and the rule is not its own parent. -/
def isReady (taken : IdSet) (r : Rule) : Bool :=
  r.parentIds.toList.all fun p => p != r.id && taken.contains p

/-- Why no rule of a list is ready: a parent of the first one is neither taken nor in the list, or
else the rules wait for one another. -/
def stuck (taken : IdSet) (waiting : List Rule) (first : Rule) : RuleError :=
  let ids := waiting.map Rule.id
  match first.parentIds.toList.find? fun p => !taken.contains p && !ids.contains p with
  | some missing => .ruleNotFound missing
  | none => .cycle ids

/-- The rules that are ready. -/
def ready (taken : IdSet) (waiting : List Rule) : List Rule := waiting.filter (isReady taken)

/-- The rules that are not ready. -/
def unready (taken : IdSet) (waiting : List Rule) : List Rule :=
  waiting.filter fun r => !isReady taken r

theorem length_unready_lt {taken : IdSet} {waiting : List Rule} {r : Rule}
    (h : (ready taken waiting).head? = some r) :
    (unready taken waiting).length < waiting.length := by
  have hr := List.mem_filter.1 (List.mem_of_head? h)
  exact List.length_filter_lt_length_iff_exists.2 ⟨r, hr.1, by simp [hr.2]⟩

/-- The rules that are still waiting, in rounds. -/
def arrangeFrom (taken : IdSet) (waiting : List Rule) : Except RuleError (List Rule) :=
  match _h : (ready taken waiting).head? with
  | some _ => do
    let now := ready taken waiting
    let later ← arrangeFrom (now.foldl (fun ids r => ids.insert r.id) taken) (unready taken waiting)
    return now ++ later
  | none => match waiting with
    | [] => .ok []
    | first :: _ => .error (stuck taken waiting first)
termination_by waiting.length
decreasing_by exact length_unready_lt _h

/-- The rules in an order in which parents stand first. -/
def arrange (rules : List Rule) : Except RuleError (List Rule) := arrangeFrom ∅ rules

end Rule

end Newswire
