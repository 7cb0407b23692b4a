/-
  GoBindings/Go/Identifier.lean
  =============================
  **Go identifiers.**

  An identifier is a letter or an underscore, followed by letters, underscores
  and numbers, and is none of the language's keywords. A package name taken
  from a path is made into one: characters that do not fit become underscores,
  and an underscore goes in front where the result would start wrongly or would
  be a keyword.
-/
import GoBindings.Unicode.Alphabetic
import GoBindings.Unicode.Numeric

namespace GoBindings.Go

/-- The reserved words of Go. -/
def keywords : List String :=
  ["break", "case", "chan", "const", "continue", "default", "defer", "else", "fallthrough",
    "for", "func", "go", "goto", "if", "import", "interface", "map", "package", "range",
    "return", "select", "struct", "switch", "type", "var"]

/-- A character that may stand anywhere but in front, underscores apart. -/
def isAlphanumeric (c : Char) : Bool := Unicode.isAlphabetic c || Unicode.isNumeric c

/-- Whether a text is an identifier. -/
def isIdentifier (s : String) : Bool :=
  match s.toList with
  | [] => false
  | c :: cs =>
    (Unicode.isAlphabetic c || c == '_')
      && cs.all (fun d => isAlphanumeric d || d == '_')
      && !keywords.contains s

/-! ### Making a package name -/

/-- The text with an underscore for every character that no identifier has. -/
def replaceForeign (s : String) : String :=
  String.ofList (s.toList.map fun c => if isAlphanumeric c then c else '_')

/-- Whether the first character is a letter. -/
def startsWithLetter (s : String) : Bool := s.toList.head?.any Unicode.isAlphabetic

/-- An identifier as close to the text as these rules allow. -/
def sanitize (s : String) : String :=
  if !startsWithLetter (replaceForeign s) || keywords.contains (replaceForeign s) then
    "_" ++ replaceForeign s
  else replaceForeign s

end GoBindings.Go
