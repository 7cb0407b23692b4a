/-
  GoBindings/Log/Config.lean
  ==========================
  **How a run logs, and what a log line looks like.**

  The filter can be set from the environment; blank text there leaves it as it
  is, and text that is no filter counts as the standard one. A line has the level,
  the text and the fields of an event.
-/
import GoBindings.Log.Filter

namespace GoBindings

/-- The environment variable with the filter. -/
def logVariable : String := "NEXUS_TEMPORAL_LOG"

structure LogConfig where
  filter : String := "warn"
  /-- Whether lines name the part of the program. -/
  withTarget : Bool := false
  /-- Whether lines are coloured. -/
  ansi : Bool := false
deriving DecidableEq, Repr

namespace LogConfig

def standard : LogConfig := {}

/-- The filter from the environment variable, trimmed; blank counts as unset. -/
def ofVariable (value : Option String) : LogConfig :=
  match (value.map Text.trim).filter (fun text => !text.isEmpty) with
  | some text => { standard with filter := text }
  | none => standard

/-- The filter in force, and whether the text was one. -/
def effectiveFilter (c : LogConfig) : Filter × Bool :=
  match Filter.parse? c.filter with
  | some f => (f, true)
  | none => ([Directive.ofLevel (some .warn)], false)

/-- The notice about a text that is no filter. -/
def notice (c : LogConfig) : List String :=
  if c.effectiveFilter.2 then []
  else
    ["ignoring invalid " ++ logVariable ++ " value " ++ Text.quoted c.filter
      ++ ": invalid filter directive"]

end LogConfig

/-! ### Lines -/

def FieldValue.text : FieldValue → String
  | .shown s => s
  | .quoted s => Text.quoted s
  | .count n => toString n

/-- An event as a line of the log. -/
def Event.line (e : Event) : String :=
  " ".intercalate
    (e.level.name :: e.text :: e.fields.map fun (name, value) => name ++ "=" ++ value.text)

/-- The lines for events, without those that the filter holds back. -/
def LogConfig.lines (c : LogConfig) (events : List Event) : List String :=
  c.notice ++ (events.filter c.effectiveFilter.1.allows).map Event.line

end GoBindings
