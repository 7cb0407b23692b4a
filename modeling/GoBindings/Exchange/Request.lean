/-
  GoBindings/Exchange/Request.lean
  ================================
  **What the compiler asks for.**

  A request names the source files to generate for, and carries the parameter
  and the declarations of all files. The declarations are left as bytes: their
  options can only be read when all of them are there.
-/
import GoBindings.Descriptor.Layout
import GoBindings.Fault
import GoBindings.Wire.Fields

namespace GoBindings

/-- The version of the compiler, as far as it tells. -/
structure CompilerVersion where
  major : Option Int
  minor : Option Int
  patch : Option Int
  suffix : Option String
deriving DecidableEq, Repr

namespace CompilerVersion

/-- The version as it is shown, such as `v5.27.1-rc1`. -/
def text (v : CompilerVersion) : String :=
  let number := "v" ++ toString (v.major.getD 0) ++ "." ++ toString (v.minor.getD 0) ++ "."
    ++ toString (v.patch.getD 0)
  match v.suffix with
  | none => number
  | some suffix => if suffix.isEmpty then number else number ++ "-" ++ suffix

def ofWire (m : Wire.Message) : CompilerVersion where
  major := m.int32? 1
  minor := m.int32? 2
  patch := m.int32? 3
  suffix := m.text? 4

end CompilerVersion

structure Request where
  /-- The source files to generate for. -/
  targets : List String
  parameter : Option String
  compilerVersion : Option CompilerVersion
  /-- The declarations of each file as bytes. -/
  files : List (List UInt8)
deriving DecidableEq, Repr

namespace Request

def ofWire (m : Wire.Message) : Request where
  targets := m.texts 1
  parameter := m.text? 2
  compilerVersion := (m.message? 3).map CompilerVersion.ofWire
  files := m.blobs 15

/-- The request that the bytes hold. -/
def decode (bytes : List UInt8) : Except Fault Request :=
  match Wire.Message.read? bytes with
  | some m =>
    if Descriptor.layout.accepts .request m then .ok (ofWire m) else .error .undecodable
  | none => .error .undecodable

end Request

end GoBindings
