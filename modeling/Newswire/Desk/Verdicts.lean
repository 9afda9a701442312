import Newswire.Collection.IdSet

/-!
# Remembered verdicts

`Verdicts` remembers whether a version of a rule selected an item.  Everything about a rule is
forgotten when the rule or something it depends on changes (`Verdicts.forget`).  Each such change
begins a new generation, and a verdict that was found in an earlier one is not taken in any more.
When the memory is full it is emptied.
-/

namespace Newswire

/-- Whether and how many verdicts are remembered. -/
structure CacheSettings where
  /-- Verdicts are remembered. -/
  enabled : Bool := true
  /-- At most so many. -/
  maxEntries : Nat := 100000
  deriving DecidableEq, Repr, Inhabited

/-- What a verdict is about. -/
structure VerdictKey where
  /-- The rule. -/
  rule : String
  /-- The version of the rule. -/
  revision : UInt64
  /-- The identity of the item. -/
  item : String
  deriving DecidableEq, Repr

/-- The remembered verdicts. -/
structure Verdicts where
  /-- Whether and how many are remembered. -/
  settings : CacheSettings
  /-- The verdicts. -/
  entries : List (VerdictKey × Bool)
  /-- How often a verdict was found. -/
  hits : Nat
  /-- How often none was found. -/
  misses : Nat
  /-- How often verdicts were forgotten for a change. -/
  generation : Nat
  deriving Inhabited

namespace Verdicts

/-- Nothing is remembered yet. -/
def new (settings : CacheSettings) : Verdicts := ⟨settings, [], 0, 0, 0⟩

/-- How many verdicts are remembered. -/
def size (v : Verdicts) : Nat := v.entries.length

/-- The verdict for a key, if it is remembered. -/
def peek (v : Verdicts) (key : VerdictKey) : Option Bool := v.entries.lookup key

/-- The verdict for a key, counted as found or not found while verdicts are remembered at all. -/
def get (v : Verdicts) (key : VerdictKey) : Option Bool × Verdicts :=
  if !v.settings.enabled then (none, v)
  else match v.peek key with
    | some verdict => (some verdict, { v with hits := v.hits + 1 })
    | none => (none, { v with misses := v.misses + 1 })

/-- Remember a verdict that was found in a generation. -/
def put (v : Verdicts) (key : VerdictKey) (verdict : Bool) (generation : Nat) : Verdicts :=
  if !v.settings.enabled || v.settings.maxEntries == 0 || generation != v.generation then v
  else
    let kept := if v.settings.maxEntries ≤ v.size then [] else v.entries
    { v with entries := (key, verdict) :: kept.filter fun (k, _) => k != key }

/-- Forget everything about some rules. -/
def forget (v : Verdicts) (rules : IdSet) : Verdicts :=
  if rules.isEmpty then v
  else
    { v with
      generation := v.generation + 1
      entries := v.entries.filter fun (k, _) => !rules.contains k.rule }

/-- Forget everything. -/
def clear (v : Verdicts) : Verdicts := { v with generation := v.generation + 1, entries := [] }

end Verdicts

end Newswire
