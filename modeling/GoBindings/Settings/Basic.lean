/-
  GoBindings/Settings/Basic.lean
  ==============================
  **What the caller can choose.**

  The settings of one run: how operations are named, where the output goes and
  which Go package it belongs to. Import mappings are kept in the order of the
  file names, each file once, so that equal choices are equal settings.
-/
import GoBindings.Settings.Template

namespace GoBindings

/-- Where an output file is placed. -/
inductive PathMode where
  /-- Under the Go import path of its package. -/
  | importPath
  /-- Beside the file it is generated from. -/
  | sourceRelative
deriving DecidableEq, Repr

/-- The choices in force during a run. -/
structure Settings where
  /-- A Go package of its own for the output, in a directory of its own. -/
  package : Option String := none
  template : Template := Template.byMethod
  /-- What takes the place of the ending of a source file's name. -/
  fileSuffix : String := "_nexus.pb.go"
  paths : PathMode := .importPath
  /-- A directory that is left out of every output name. -/
  module : Option String := none
  /-- Go packages that replace the declared ones, by source file. -/
  importMappings : List (String × String) := []
deriving DecidableEq, Repr

namespace Settings

/-- The settings when nothing is chosen. -/
def standard : Settings := {}

instance : Inhabited Settings := ⟨standard⟩

/-- Puts an entry in front of the first one with a greater key. -/
def insertMapping (file path : String) : List (String × String) → List (String × String)
  | [] => [(file, path)]
  | entry :: rest =>
    if file < entry.1 then (file, path) :: entry :: rest
    else entry :: insertMapping file path rest

/-- The Go package that replaces the declared one of a file. -/
def mapping? (s : Settings) (file : String) : Option String := s.importMappings.lookup file

end Settings

end GoBindings
