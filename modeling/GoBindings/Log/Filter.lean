/-
  GoBindings/Log/Filter.lean
  ==========================
  **Which events are logged.**

  A filter is a list of directives between commas. The most specific directive that
  speaks of an event decides: the one with the longest target, then the one with more
  fields, and of two alike the later one. What no directive speaks of is not logged.
-/
import GoBindings.Log.Directive

namespace GoBindings

abbrev Filter := List Directive

namespace Filter

/-- The filter that a text describes, if each of its parts is a directive. -/
def parse? (text : String) : Option Filter :=
  ((Text.split ',' text).filter (fun part => !part.isEmpty)).mapM Directive.read?

/-- The more specific of two directives, the second one if they are alike. -/
def moreSpecific (a : Option Directive) (b : Directive) : Option Directive :=
  match a with
  | some d => if b.isVaguer d then some d else some b
  | none => some b

/-- The directive that decides about an event. -/
def deciding? (f : Filter) (e : Event) : Option Directive :=
  (f.filter (·.speaksOf e)).foldl moreSpecific none

/-- Whether an event is logged. -/
def allows (f : Filter) (e : Event) : Bool :=
  match (f.deciding? e).bind (·.level) with
  | some level => e.level.rank ≤ level.rank
  | none => false

end Filter

end GoBindings
