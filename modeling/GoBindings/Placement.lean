/-
  GoBindings/Placement.lean
  =========================
  **Where output belongs.**

  The Go package of a source file is the one mapped to it by the settings, else
  the declared one, else that of its directory. Output goes to that package or,
  if the settings name another, into a directory below it. From the package and
  the path mode comes the name of the output file.
-/
import GoBindings.Descriptor.Basic
import GoBindings.Go.Package
import GoBindings.Settings.Basic

namespace GoBindings

/-- The Go package of a source file. -/
def Descriptor.File.package? (f : Descriptor.File) (settings : Settings) : Option String :=
  (settings.mapping? f.name).or (if f.goPackage.isEmpty then none else some f.goPackage)

/-- The Go package that the messages of a source file are generated into. -/
def Descriptor.File.goPackageOf (f : Descriptor.File) (settings : Settings) : Go.Package :=
  match f.package? settings with
  | some declaration => Go.Package.ofDeclaration declaration
  | none => Go.Package.ofSourceName f.name

namespace Placement

/-- The name of a source file without its ending. -/
def stem (sourceName : String) : String := (Text.dropEnd? ".proto" sourceName).getD sourceName

/-- The directory of a name, with its slash, and the rest of the name. -/
def directoryAndBase (name : String) : String × String :=
  match Text.cutLast? '/' name with
  | some (directory, base) => (directory ++ "/", base)
  | none => ("", name)

/-- The name of the output file before a module directory is left out. -/
def fullName (sourceName : String) (source output : Go.Package) (settings : Settings) : String :=
  let (directory, base) := directoryAndBase (stem sourceName)
  match settings.paths with
  | .importPath => output.importPath ++ "/" ++ base ++ settings.fileSuffix
  | .sourceRelative =>
    if source.importPath = output.importPath then stem sourceName ++ settings.fileSuffix
    else directory ++ output.name ++ "/" ++ base ++ settings.fileSuffix

/-- What is left of a name below a directory. -/
def below? (directory name : String) : Option String :=
  (Text.dropStart? directory name).bind (Text.dropStart? "/")

/-- The name of the output file. A name outside the module directory is a fault. -/
def outputName (sourceName : String) (source output : Go.Package) (settings : Settings) :
    Except Fault String :=
  match settings.module with
  | none => .ok (fullName sourceName source output settings)
  | some directory =>
    match below? directory (fullName sourceName source output settings) with
    | some name => .ok name
    | none =>
      .error (.invalidOption "module"
        ("import path " ++ output.importPath ++ " is outside module " ++ directory))

end Placement

end GoBindings
