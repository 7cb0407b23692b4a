/-
  GoBindings/Text/Cut.lean
  ========================
  **Cutting texts at separators.**

  Names, paths and parameter strings are cut at single characters: at the
  first one, at the last one, or at all of them. Each cut is given by the
  characters it keeps, so that gluing the parts gives the text back.
-/
namespace GoBindings.Text

/-! ### At the first and at the last separator -/

/-- The parts before and after the first separator, if the text has one. -/
def cutFirst? (sep : Char) (s : String) : Option (String × String) :=
  match s.toList.dropWhile (· != sep) with
  | [] => none
  | _ :: after => some (String.ofList (s.toList.takeWhile (· != sep)), String.ofList after)

/-- The parts before and after the last separator, if the text has one. -/
def cutLast? (sep : Char) (s : String) : Option (String × String) :=
  match s.toList.reverse.dropWhile (· != sep) with
  | [] => none
  | _ :: before =>
    some (String.ofList before.reverse,
      String.ofList (s.toList.reverse.takeWhile (· != sep)).reverse)

/-- What follows the last separator: the whole text if there is none. -/
def afterLast (sep : Char) (s : String) : String :=
  ((cutLast? sep s).map (·.2)).getD s

/-! ### At every separator -/

/-- The parts between separators: one more than there are separators. -/
def split (sep : Char) (s : String) : List String :=
  (s.toList.splitOn sep).map String.ofList

/-! ### Fixed beginnings and endings -/

/-- The text without a given beginning, if it starts that way. -/
def dropStart? (start s : String) : Option String :=
  (start.toList.isPrefixOf? s.toList).map String.ofList

/-- The text without a given ending, if it ends that way. -/
def dropEnd? (ending s : String) : Option String :=
  (ending.toList.isSuffixOf? s.toList).map String.ofList

/-- Takes an ending away again and again, at most as often as `fuel` says. -/
def dropEnds (ending : String) : Nat → String → String
  | 0, s => s
  | fuel + 1, s =>
    match dropEnd? ending s with
    | some rest => dropEnds ending fuel rest
    | none => s

/-- Takes an ending away as often as the text has it. A text of `n` characters
    ends at most `n` times in something that is not empty. -/
def dropAllEnds (ending s : String) : String := dropEnds ending s.length s

/-! ### Runs of characters at the ends -/

/-- The text without its last characters, as far as they satisfy `p`. -/
def dropEndWhile (p : Char → Bool) (s : String) : String :=
  String.ofList (s.toList.reverse.dropWhile p).reverse

/-- The text without its first and last characters, as far as they satisfy `p`. -/
def dropBothWhile (p : Char → Bool) (s : String) : String :=
  dropEndWhile p (String.ofList (s.toList.dropWhile p))

end GoBindings.Text
