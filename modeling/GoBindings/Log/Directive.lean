/-
  GoBindings/Log/Directive.lean
  =============================
  **One rule about what is logged.**

  A level lets through what is at least as important; `target=level` does so for the
  events of one part of the program, named by the beginning of its name, and a target
  without a level lets all of them through. Between brackets a directive can name a
  span, or a field that an event must have.

  Blanks around a directive do not count where its parts are told apart, but they
  do where the texts of the parts are taken: a position is counted without the blanks
  in front, and the text at that position with them. So a blank in front of a name
  becomes a part of it.
-/
import GoBindings.Log.Event
import GoBindings.Text.Decimal
import GoBindings.Text.Trim
import GoBindings.Text.Utf8
import GoBindings.Unicode.Alphabetic
import GoBindings.Unicode.Numeric

namespace GoBindings

/-- Lets events through down to a level. -/
structure Directive where
  /-- What the target of an event has to start with. -/
  target : String
  /-- Fields that an event must have. -/
  fields : List String
  /-- Whether it is about events inside of spans, of which the program has none. -/
  insideSpans : Bool
  /-- None lets nothing through. -/
  level : Option Level
deriving DecidableEq, Repr

namespace Directive

/-- Lets everything down to a level through. -/
def ofLevel (level : Option Level) : Directive := ⟨"", [], false, level⟩

/-! ### Levels -/

/-- A level by its number, which may have a plus sign and zeros in front. -/
def numbered? (s : String) : Option (Option Level) :=
  match Text.decimal? ((Text.dropStart? "+" s).getD s).toList with
  | some 0 => some none
  | some 1 => some (some .error)
  | some 2 => some (some .warn)
  | some 3 => some (some .info)
  | some 4 => some (some .debug)
  | some 5 => some (some .trace)
  | _ => none

/-- A level by its name in any case. -/
def named? (s : String) : Option (Option Level) :=
  match String.ofList (s.toList.map Char.toLower) with
  | "off" => some none
  | "error" => some (some .error)
  | "warn" => some (some .warn)
  | "info" => some (some .info)
  | "debug" => some (some .debug)
  | "trace" => some (some .trace)
  | _ => none

/-- What a text says about a level: none if it names no level. -/
def level? (s : String) : Option (Option Level) := (numbered? s).or (named? s)

/-! ### Parts -/

/-- The part of a directive that a reader is in, with the position where its text
    starts. -/
inductive Part where
  | start
  /-- A level or a target. -/
  | name
  | span (start : Nat)
  | field (start : Nat)
  | fields
  /-- After the closing bracket. -/
  | bracketed
  | level (start : Nat)
deriving DecidableEq, Repr

/-- What has been read of a directive, and where the reader is. -/
structure Draft where
  part : Part
  directive : Directive
deriving DecidableEq, Repr

/-- What a directive can start with besides a bracket. -/
def startsName (c : Char) : Bool :=
  c == '-' || c == ':' || c == '_' || Unicode.isAlphabetic c || Unicode.isNumeric c

/-- Reads a character at a position. -/
def Draft.step? (text : String) (d : Draft) (position : Nat × Char) : Option Draft :=
  let (i, c) := position
  match d.part with
  | .start =>
    if c == '[' then some ⟨.span (i + 1), d.directive⟩
    else if startsName c then some ⟨.name, d.directive⟩
    else none
  | .name =>
    if c == '=' || c == '[' then do
      let target ← Text.slice? text 0 i
      some ⟨if c == '=' then .level (i + 1) else .span (i + 1),
        { d.directive with target := target }⟩
    else some d
  | .span start =>
    if c == ']' then some ⟨.bracketed, { d.directive with insideSpans := true }⟩
    else if c == '\x7b' then do
      let name ← Text.slice? text start i
      some ⟨.field (i + 1), { d.directive with insideSpans := !name.isEmpty }⟩
    else some d
  | .field start =>
    if c == '\x7d' then do
      let field ← Text.slice? text start i
      if field.isEmpty then none
      else
        some ⟨.fields, { d.directive with
          fields := [field]
          insideSpans := d.directive.insideSpans || field.toList.contains '=' }⟩
    else some d
  | .fields => if c == ']' then some ⟨.bracketed, d.directive⟩ else none
  | .bracketed => if c == '=' then some ⟨.level (i + 1), d.directive⟩ else none
  | .level _ => some d

/-- The directive that has been read when the text ends. -/
def Draft.finish? (text : String) (d : Draft) : Option Directive :=
  match d.part with
  | .name =>
    match level? text with
    | some level => some { d.directive with level := level }
    | none => some { d.directive with target := text }
  | .level start => do
    let rest ← Text.slice? text start text.utf8ByteSize
    if rest.isEmpty then some d.directive
    else (level? rest).map fun level => { d.directive with level := level }
  | .bracketed => some d.directive
  | _ => none

/-- The directive that a text is, if it is one. -/
def read? (text : String) : Option Directive := do
  let draft ← (Text.positions 0 (Text.trim text).toList).foldlM (Draft.step? text)
    ⟨.start, ofLevel (some .trace)⟩
  draft.finish? text

/-! ### Events -/

/-- Whether a directive speaks about an event. -/
def speaksOf (d : Directive) (e : Event) : Bool :=
  !d.insideSpans && (Text.dropStart? d.target e.target).isSome
    && d.fields.all fun f => f == "message" || e.fields.any (·.1 == f)

/-- Whether a directive is less specific than another one. -/
def isVaguer (a b : Directive) : Bool :=
  a.target.length < b.target.length
    || (a.target.length == b.target.length
      && (a.fields.length < b.fields.length
        || (a.fields.length == b.fields.length && a.fields < b.fields)))

end Directive

end GoBindings
