import Newswire.Proofs.Desk.Vocabulary
import Newswire.Proofs.Rulebook.Inlining

/-!
# Rules without parents

Whatever happened to a desk, its rulebook is well-formed, so that rules may be written out.

* `Desk.inlining_afterEvents` : **writing a parent out never changes a verdict, comes to an end, and
  leaves a rule without parents.**
-/

namespace Newswire

open Relation Rulebook

namespace Desk

/-- **After whatever happened to a new desk, parents may be written out**, in saved rules and in
rules without an identifier that demand only what is saved.  Every rule that is come to on the way
has the verdict of the first one on every item, there is no endless way, and some way leads to a
rule that names no parents. -/
theorem inlining_afterEvents (schema : Schema) (cache : CacheSettings) (events : List Event)
    {r : Rule}
    (hr : (∃ id, ((Desk.new schema cache).afterEvents events).book.rules.get? id = some r) ∨
      (r.id = "" ∧ ((Desk.new schema cache).afterEvents events).book.Resolves r)) :
    let d := (Desk.new schema cache).afterEvents events
    (∀ r', ReflTransGen d.book.Inlines r r' → ∀ item, ∃ v,
      d.book.holds d.schema item (some r) = .ok v ∧
        d.book.holds d.schema item (some r') = .ok v) ∧
    (WellFounded fun r'' r' => d.book.Inlines r' r'') ∧
    ∃ r', ReflTransGen d.book.Inlines r r' ∧ (∀ k, k ∉ r'.parentIds) ∧ ∀ item, ∃ v,
      d.book.holds d.schema item (some r) = .ok v ∧
        d.book.holds d.schema item (some r') = .ok v := by
  intro d
  have horderly := orderly_afterEvents (orderly_new schema cache) events
  have hb : d.book.WellFormed := horderly.1.toWellFormed
  have hgrounded : d.book.Grounded r := by
    rcases hr with ⟨id, hr⟩ | ⟨hid, hr⟩
    · exact hb.grounded_saved hr
    · exact hb.grounded_unnamed hid hr
  obtain ⟨r', hsteps, hnone⟩ := hb.exists_inlines hgrounded
  exact ⟨fun r' h item => hb.holds_of_inlines hgrounded h d.schema item, hb.wellFounded_inlines,
    r', hsteps, hnone, fun item => hb.holds_of_inlines hgrounded hsteps d.schema item⟩

/-- Two conditions are saved, and a rule that wants one of them. -/
def weatherRun : List Event :=
  [.request (.change (.saveCondition (.ofParts "flood" "headline" .like "flood"))),
    .request (.change (.saveCondition (.ofParts "storm" "headline" .like "storm"))),
    .request (.change (.saveRule default
      (.new default "weather" "weather" [⟨.ofList ["flood"], ∅⟩, ⟨.ofList ["storm"], ∅⟩])))]

/-- A rule without an identifier that has the saved one as a parent. -/
def stormyWeather : Rule := .new default "" "stormy" [⟨.ofList ["storm"], .ofList ["weather"]⟩]

theorem inlining_afterEvents_weatherRun :
    let d := (Desk.new (.ofLayout {}) {}).afterEvents weatherRun
    (stormyWeather.id = "" ∧ d.book.Resolves stormyWeather) ∧ "weather" ∈ stormyWeather.parentIds ∧
      ∃ r', ReflTransGen d.book.Inlines stormyWeather r' ∧ (∀ k, k ∉ r'.parentIds) ∧ ∀ item, ∃ v,
        d.book.holds d.schema item (some stormyWeather) = .ok v ∧
          d.book.holds d.schema item (some r') = .ok v := by
  intro d
  have hresolves : d.book.Resolves stormyWeather := by
    refine ⟨by decide, fun k hk => ?_, fun k hk => ?_⟩
    · obtain rfl := List.mem_singleton.1 (show k ∈ ["storm"] from IdSet.mem_toList.2 hk)
      exact Option.isSome_iff_exists.1 (by decide +kernel)
    · obtain rfl := List.mem_singleton.1 (show k ∈ ["weather"] from IdSet.mem_toList.2 hk)
      exact Option.isSome_iff_exists.1 (by decide +kernel)
  exact ⟨⟨rfl, hresolves⟩, by decide,
    (inlining_afterEvents (.ofLayout {}) {} weatherRun (Or.inr ⟨rfl, hresolves⟩)).2.2⟩

end Desk

end Newswire
