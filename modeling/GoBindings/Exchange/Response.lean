/-
  GoBindings/Exchange/Response.lean
  =================================
  **What the compiler gets back.**

  A response holds the generated files and, if something failed, one text about
  all failures. On the wire, fields are in the order of their numbers, and a field
  that is set is written even if it is empty.
-/
import GoBindings.Wire.Fields

namespace GoBindings

/-- A file of a response. -/
structure ResponseFile where
  name : Option String
  insertionPoint : Option String
  content : Option String
deriving DecidableEq, Repr

structure Response where
  error : Option String
  supportedFeatures : Option Nat
  files : List ResponseFile
deriving DecidableEq, Repr

/-! ### Writing -/

/-- A text field, if it is set. -/
def encodeText (number : Nat) (s : Option String) : List UInt8 :=
  (s.map (Wire.writeText number)).getD []

def ResponseFile.encode (f : ResponseFile) : List UInt8 :=
  encodeText 1 f.name ++ encodeText 2 f.insertionPoint ++ encodeText 15 f.content

def Response.encode (r : Response) : List UInt8 :=
  encodeText 1 r.error
    ++ (r.supportedFeatures.map (Wire.writeNumber 2)).getD []
    ++ r.files.flatMap fun f => Wire.writeBytes 15 f.encode

/-! ### Reading -/

def ResponseFile.ofWire (m : Wire.Message) : ResponseFile where
  name := m.text? 1
  insertionPoint := m.text? 2
  content := m.text? 15

def Response.ofWire (m : Wire.Message) : Response where
  error := m.text? 1
  supportedFeatures := m.number? 2
  files := (m.messages 15).map ResponseFile.ofWire

/-- The response that the bytes hold, as one who receives it reads it. -/
def Response.read? (bytes : List UInt8) : Option Response :=
  (Wire.Message.read? bytes).map Response.ofWire

end GoBindings
