/-
  GoBindings/Settings/Parameter.lean
  ==================================
  **Reading settings from the parameter string.**

  The parameter is a list of `key=value` entries between commas. Blanks around
  an entry, a key and a value do not count, and blank entries are skipped. An
  entry whose key is `M` followed by a file name maps that file to a Go package.
  Each key may be given once. The first entry that is wrong, or that repeats a
  key, decides the fault; only then is it checked that the choices fit together.
-/
import GoBindings.Go.Identifier
import GoBindings.Settings.Basic
import GoBindings.Text.Trim

namespace GoBindings.Settings

/-- One choice. -/
inductive Choice where
  | package (name : String)
  | template (t : Template)
  | fileSuffix (suffix : String)
  | paths (mode : PathMode)
  | module (directory : String)
  | mapping (file path : String)
deriving DecidableEq, Repr

def apply (s : Settings) : Choice → Settings
  | .package name => { s with package := some name }
  | .template t => { s with template := t }
  | .fileSuffix suffix => { s with fileSuffix := suffix }
  | .paths mode => { s with paths := mode }
  | .module directory => { s with module := some directory }
  | .mapping file path =>
    { s with importMappings := insertMapping file path s.importMappings }

/-! ### One entry -/

/-- The entries that are not blank, trimmed. -/
def entries (parameter : String) : List String :=
  ((Text.split ',' parameter).map Text.trim).filter (fun entry => !entry.isEmpty)

/-- The key and the value of an entry, trimmed. -/
def keyValue (entry : String) : Except Fault (String × String) :=
  match Text.cutFirst? '=' entry with
  | some (key, value) => .ok (Text.trim key, Text.trim value)
  | none => .error (.invalidOption entry "expected key=value")

/-- The file that a mapping key names. -/
def mappedFile? (key : String) : Option String :=
  (Text.dropStart? "M" key).filter (fun file => !file.isEmpty)

/-- The choice that a known key makes with a value. -/
def named (key value : String) : Except Fault Choice :=
  if key = "package" then
    if Go.isIdentifier value then .ok (.package value)
    else .error (.invalidOption key (Text.quoted value ++ " is not a valid Go package name"))
  else if key = Template.key then (Template.parse value).map .template
  else if key = "file_suffix" then
    if value.isEmpty || value.toList.contains '/' then
      .error (.invalidOption key "suffix must be non-empty and must not contain '/'")
    else .ok (.fileSuffix value)
  else if key = "module" then
    let directory := Text.dropEndWhile (· == '/') value
    if directory.isEmpty then .error (.invalidOption key "module prefix must not be empty")
    else .ok (.module directory)
  else if key = "paths" then
    if value = "source_relative" then .ok (.paths .sourceRelative)
    else if value = "import" then .ok (.paths .importPath)
    else
      .error (.invalidOption key
        ("expected import or source_relative, got " ++ Text.quoted value))
  else .error (.unknownOption key)

/-- The choice that an entry makes; `again` says that its key came before. -/
def choice (again : Bool) (key value : String) : Except Fault Choice :=
  match mappedFile? key with
  | some file =>
    if value.isEmpty then .error (.invalidOption key "import path must not be empty")
    else if again then .error (.invalidOption key "specified more than once")
    else .ok (.mapping file value)
  | none =>
    if again then .error (.invalidOption key "specified more than once")
    else named key value

/-! ### All entries -/

/-- Applies the entries in order; `seen` holds the keys that came before. -/
def applyAll (seen : List String) (s : Settings) : List String → Except Fault Settings
  | [] => .ok s
  | entry :: rest => do
    let (key, value) ← keyValue entry
    let c ← choice (seen.contains key) key value
    applyAll (key :: seen) (s.apply c) rest

/-- A module directory is part of an import path, so it needs outputs placed there. -/
def checkPlacement (s : Settings) : Except Fault Settings :=
  if s.module.isSome && s.paths = .sourceRelative then
    .error (.invalidOption "module" "cannot be combined with paths=source_relative")
  else .ok s

/-- The settings that a parameter chooses. -/
def parse : Option String → Except Fault Settings
  | none => .ok standard
  | some parameter => do
    let s ← applyAll [] standard (entries parameter)
    checkPlacement s

end GoBindings.Settings
