/-
  GoBindings/Settings/Template.lean
  =================================
  **Templates for the runtime names of operations.**

  A template is text with placeholders in braces, such as
  `{service}.{method}`. A doubled brace stands for one brace of text. Reading a
  template gives its segments, in which no literal is empty and no two literals
  are neighbours; `print` writes segments back, and is what reading undoes.
-/
import GoBindings.Fault

namespace GoBindings

/-- What a template can refer to. -/
inductive Placeholder where
  | method
  | service
  | fullService
  | package
deriving DecidableEq, Repr

namespace Placeholder

def name : Placeholder → String
  | method => "method"
  | service => "service"
  | fullService => "full_service"
  | package => "package"

def all : List Placeholder := [method, service, fullService, package]

def ofName? (name : String) : Option Placeholder := all.find? (·.name == name)

end Placeholder

/-- A part of a template. -/
inductive Segment where
  | literal (text : String)
  | placeholder (p : Placeholder)
deriving DecidableEq, Repr

/-- A template together with its text. -/
structure Template where
  source : String
  segments : List Segment
deriving DecidableEq, Repr

namespace Template

/-! ### Reading -/

/-- Why a text is no template. -/
inductive Flaw where
  | empty
  | unterminated
  | unknown (name : String)
  | unmatched
deriving DecidableEq, Repr

/-- A template before neighbouring characters are gathered into literals. -/
inductive Piece where
  | char (c : Char)
  | placeholder (p : Placeholder)
deriving DecidableEq, Repr

/-- The pieces of a text. The first argument is what has been read of a
    placeholder's name since its opening brace, if one is open. -/
def pieces : Option (List Char) → List Char → Except Flaw (List Piece)
  | some _, [] => .error .unterminated
  | some name, c :: rest =>
    if c = '\x7d' then
      match Placeholder.ofName? (String.ofList name) with
      | some p => (pieces none rest).map (.placeholder p :: ·)
      | none => .error (.unknown (String.ofList name))
    else pieces (some (name ++ [c])) rest
  | none, [] => .ok []
  | none, '\x7b' :: '\x7b' :: rest => (pieces none rest).map (.char '\x7b' :: ·)
  | none, '\x7d' :: '\x7d' :: rest => (pieces none rest).map (.char '\x7d' :: ·)
  | none, '\x7b' :: rest => pieces (some []) rest
  | none, '\x7d' :: _ => .error .unmatched
  | none, c :: rest => (pieces none rest).map (.char c :: ·)

/-- Neighbouring characters become one literal. -/
def gather : List Piece → List Segment
  | [] => []
  | .placeholder p :: rest => .placeholder p :: gather rest
  | .char c :: rest =>
    match gather rest with
    | .literal text :: more => .literal (String.singleton c ++ text) :: more
    | more => .literal (String.singleton c) :: more

/-- The segments of a text, or what is wrong with it. -/
def segmentsOf (source : String) : Except Flaw (List Segment) :=
  if source.isEmpty then .error .empty else (pieces none source.toList).map gather

def Flaw.reason (source : String) : Flaw → String
  | empty => "template must not be empty"
  | unterminated => "unterminated placeholder in " ++ Text.quoted source
  | unknown name => "unknown placeholder \x7b" ++ name ++ "\x7d"
  | unmatched => "unmatched '\x7d' in " ++ Text.quoted source

/-- The option that holds the template. -/
def key : String := "operation_name_template"

/-- Reads a template from the value of its option. -/
def parse (source : String) : Except Fault Template :=
  match segmentsOf source with
  | .ok segments => .ok ⟨source, segments⟩
  | .error flaw => .error (.invalidOption key (flaw.reason source))

/-- The template in force when none is given: the method's own name. -/
def byMethod : Template := ⟨"\x7bmethod\x7d", [.placeholder .method]⟩

instance : Inhabited Template := ⟨byMethod⟩

/-! ### Writing -/

/-- A character of a literal; a brace is doubled. -/
def printChar (c : Char) : List Char :=
  if c = '\x7b' || c = '\x7d' then [c, c] else [c]

def printSegment : Segment → String
  | .literal text => String.ofList (text.toList.flatMap printChar)
  | .placeholder p => "\x7b" ++ p.name ++ "\x7d"

/-- The text that is read as the given segments. -/
def print (segments : List Segment) : String := String.join (segments.map printSegment)

/-! ### Filling in -/

/-- What the placeholders stand for. -/
structure Context where
  method : String
  service : String
  fullService : String
  package : String
deriving DecidableEq, Repr

def Context.value (ctx : Context) : Placeholder → String
  | .method => ctx.method
  | .service => ctx.service
  | .fullService => ctx.fullService
  | .package => ctx.package

def renderSegment (ctx : Context) : Segment → String
  | .literal text => text
  | .placeholder p => ctx.value p

/-- The template with every placeholder replaced by its value. -/
def render (t : Template) (ctx : Context) : String :=
  String.join (t.segments.map (renderSegment ctx))

end Template

end GoBindings
