/-
  GoBindings/Proofs/Directories.lean
  ==================================
  **Directories are import paths.**

  Where output is placed by import paths, the directory of an output file is the import path
  of its package, less the module directory (`importPath_eq`). Neither the base name nor the
  suffix has a slash, so the directory can be read off the name, and two outputs share a
  directory exactly if they share an import path.

  A module directory is left out as a whole or not at all. A target that is ready to be
  placed fails over it exactly if the import path is neither the module nor below it.
-/
import GoBindings.Proofs.Faults
import GoBindings.Proofs.OutputNames
import GoBindings.Proofs.Parameter

namespace GoBindings

open Text (ClosedBy)

theorem Text.ClosedBy.append {sep : Char} {a b : String} (ha : ClosedBy sep a)
    (hb : ClosedBy sep b) : ClosedBy sep (a ++ b) := by
  rcases hb with rfl | ⟨front, rfl⟩
  · rwa [String.append_empty]
  · exact .inr ⟨a ++ front, (String.append_assoc ..).symm⟩

theorem Settings.closedBy_modulePrefix (s : Settings) : ClosedBy '/' s.modulePrefix := by
  unfold modulePrefix
  cases s.module with
  | none => exact .inl rfl
  | some m => exact .inr ⟨m, rfl⟩

namespace Placement

variable {settings : Settings} {f g name other : String} {source source' output output' : Go.Package}

/-! ### The directory of a name -/

/-- The text before the last slash of a name, if it has one. -/
def directoryOf? (name : String) : Option String := (Text.cutLast? '/' name).map (·.1)

theorem directoryOf?_eq_iff :
    directoryOf? name = directoryOf? other ↔
      (directoryAndBase name).1 = (directoryAndBase other).1 := by
  have hslash : ∀ dir : String, dir ++ "/" ≠ "" := by
    intro dir hempty
    exact nomatch (String.append_eq_empty_iff.mp hempty).2
  unfold directoryOf? directoryAndBase
  cases Text.cutLast? '/' name with
  | none =>
    cases Text.cutLast? '/' other with
    | none => exact ⟨fun _ => rfl, fun _ => rfl⟩
    | some cut => exact ⟨(nomatch ·), fun h => absurd h.symm (hslash cut.1)⟩
  | some cut =>
    cases Text.cutLast? '/' other with
    | none => exact ⟨(nomatch ·), fun h => absurd h (hslash cut.1)⟩
    | some cut' =>
      simp only [Option.map_some, Option.some_inj]
      exact (String.append_left_inj "/").symm

/-! ### The module directory -/

/-- A name fails over the module directory if it is not below it, and over nothing else. -/
theorem outputName_eq_error_iff :
    (∃ reason, outputName f source output settings = .error (.invalidOption "module" reason)) ↔
      ∃ m, settings.module = some m ∧
        ¬ ∃ rest, fullName f source output settings = m ++ "/" ++ rest := by
  unfold outputName
  cases settings.module with
  | none => simp
  | some m =>
    have hbelow : (∃ rest, fullName f source output settings = m ++ "/" ++ rest) ↔
        ∃ rest, below? m (fullName f source output settings) = some rest := by
      simp only [String.append_assoc, below?_eq_some_iff]
    simp only [Option.some_inj, exists_eq_left', hbelow]
    cases below? m (fullName f source output settings) with
    | none => simp
    | some rest => simp

/-! ### Placement by import paths -/

section ImportPaths

variable (hpaths : settings.paths = .importPath) (hsuffix : '/' ∉ settings.fileSuffix.toList)
include hpaths

theorem fullName_of_importPath :
    fullName f source output settings =
      output.importPath ++ "/" ++ baseName f ++ settings.fileSuffix := by
  rw [fullName_eq, directory, hpaths]

include hsuffix

/-- The import path is the directory behind the module directory. -/
theorem importPath_eq (h : outputName f source output settings = .ok name) :
    output.importPath ++ "/" = settings.modulePrefix ++ (directoryAndBase name).1 := by
  have hfull := outputName_eq_ok_iff.mp h
  have hname : settings.modulePrefix ++ name =
      settings.modulePrefix ++ (directoryAndBase name).1 ++ (directoryAndBase name).2 := by
    rw [String.append_assoc, directoryAndBase_append]
  rw [fullName_of_importPath hpaths, String.append_assoc, hname] at hfull
  have hbase : '/' ∉ (baseName f ++ settings.fileSuffix).toList := by
    rw [String.toList_append, List.mem_append, not_or]
    exact ⟨slash_not_mem_base (stem f), hsuffix⟩
  exact (Text.append_inj_of_closedBy hbase (slash_not_mem_base name)
    (.inr ⟨output.importPath, rfl⟩)
    (settings.closedBy_modulePrefix.append (closedBy_slash name)) hfull).1

/-- Two outputs are in one directory exactly if their packages have one import path. -/
theorem directoryOf?_eq_iff_importPath (h : outputName f source output settings = .ok name)
    (h' : outputName g source' output' settings = .ok other) :
    directoryOf? name = directoryOf? other ↔ output.importPath = output'.importPath := by
  have hpath := importPath_eq hpaths hsuffix h
  have hpath' := importPath_eq hpaths hsuffix h'
  rw [directoryOf?_eq_iff, ← String.append_right_inj settings.modulePrefix, ← hpath, ← hpath',
    String.append_left_inj]

/-- A name is below the module directory if its import path is the module or below it. So a
    module directory that ends inside an element of the path is not left out. -/
theorem exists_below_iff {m : String} (hmodule : settings.module = some m) :
    (∃ rest, fullName f source output settings = m ++ "/" ++ rest) ↔
      output.importPath = m ∨ ∃ below, output.importPath = m ++ "/" ++ below := by
  have hmoduleDir : settings.modulePrefix = m ++ "/" := by
    rw [Settings.modulePrefix, hmodule]
    rfl
  have hfull : fullName f source output settings =
      output.importPath ++ "/" ++ baseName f ++ settings.fileSuffix := fullName_of_importPath hpaths
  constructor
  · rintro ⟨rest, hrest⟩
    rw [← hmoduleDir] at hrest
    have hpath := importPath_eq hpaths hsuffix (outputName_eq_ok_iff.mpr hrest)
    rw [hmoduleDir] at hpath
    rcases closedBy_slash rest with hempty | ⟨below, hbelow⟩
    · rw [hempty, String.append_empty] at hpath
      exact .inl ((String.append_left_inj "/").mp hpath)
    · rw [hbelow, ← String.append_assoc] at hpath
      exact .inr ⟨below, (String.append_left_inj "/").mp hpath⟩
  · rintro (hsame | ⟨below, hbelow⟩)
    · exact ⟨baseName f ++ settings.fileSuffix, by rw [hfull, hsame, String.append_assoc]⟩
    · exact ⟨below ++ "/" ++ baseName f ++ settings.fileSuffix,
        by rw [hfull, hbelow]; simp only [String.append_assoc]⟩

end ImportPaths

end Placement

namespace Environment

open Placement (directoryOf? baseName outputName)

/-- With output placed by import paths, directories and import paths correspond one to one. A
    name behind the module directory is the import path, the base name and the suffix, and a
    target that has services to generate for fails over the module directory exactly if that
    is not a name below it. -/
theorem directories_correspond {env : Environment} {parameter : Option String}
    (hparse : Settings.parse parameter = .ok env.settings)
    (hpaths : env.settings.paths = .importPath) :
    (∀ (f g : String) (source source' output output' : Go.Package) (name other : String),
      outputName f source output env.settings = .ok name →
      outputName g source' output' env.settings = .ok other →
        (directoryOf? name = directoryOf? other ↔ output.importPath = output'.importPath)) ∧
      (∀ m, env.settings.module = some m → ∀ (f : String) (source output : Go.Package),
        (∀ name, outputName f source output env.settings = .ok name →
          m ++ "/" ++ name = output.importPath ++ "/" ++ baseName f ++ env.settings.fileSuffix) ∧
        ((∃ reason, outputName f source output env.settings =
            .error (.invalidOption "module" reason)) ↔
          ¬ ∃ rest, output.importPath ++ "/" ++ baseName f ++ env.settings.fileSuffix =
            m ++ "/" ++ rest) ∧
        ((∃ rest, output.importPath ++ "/" ++ baseName f ++ env.settings.fileSuffix =
            m ++ "/" ++ rest) ↔
          output.importPath = m ∨ ∃ below, output.importPath = m ++ "/" ++ below)) ∧
      ∀ (r : Registry) (target : String),
        (∃ reason, (env.settle r target).1.outcome = .failed (.invalidOption "module" reason)) ↔
          ∃ f services m, env.files.find? (·.name == target) = some f ∧
            (Service.collect env.custom f).outcome = .ok services ∧ services ≠ [] ∧
            env.settings.module = some m ∧
            ¬ ∃ rest, (env.outputPackage f).importPath ++ "/" ++ baseName f.name
              ++ env.settings.fileSuffix = m ++ "/" ++ rest := by
  have hsuffix := Settings.slash_not_mem_fileSuffix hparse
  refine ⟨?_, ?_, ?_⟩
  · intro f g source source' output output' name other
    exact Placement.directoryOf?_eq_iff_importPath hpaths hsuffix
  · intro m hmodule f source output
    have hfull : Placement.fullName f source output env.settings =
        output.importPath ++ "/" ++ baseName f ++ env.settings.fileSuffix :=
      Placement.fullName_of_importPath hpaths
    refine ⟨?_, ?_, ?_⟩
    · intro name hname
      rw [← hfull, Placement.outputName_eq_ok_iff.mp hname, Settings.modulePrefix, hmodule]
      rfl
    · rw [Placement.outputName_eq_error_iff, hmodule, hfull]
      simp only [Option.some_inj, exists_eq_left']
    · rw [← hfull]
      exact Placement.exists_below_iff hpaths hsuffix hmodule
  · intro r target
    simp only [failed_module_iff, Placement.outputName_eq_error_iff,
      Placement.fullName_of_importPath hpaths]
    constructor
    · rintro ⟨f, services, hfile, hcollect, hne, m, hmodule, houtside⟩
      exact ⟨f, services, m, hfile, hcollect, hne, hmodule, houtside⟩
    · rintro ⟨f, services, m, hfile, hcollect, hne, hmodule, houtside⟩
      exact ⟨f, services, hfile, hcollect, hne, m, hmodule, houtside⟩

/-- The settings that leave `example.com/gen` out of output names. -/
def modular : Settings := { Settings.standard with module := some "example.com/gen" }

/-- Two outputs of one package share a directory. A package whose path only begins with the
    letters of the module is outside. -/
theorem directories_correspond_modular :
    Settings.parse (some "module=example.com/gen/") = .ok modular ∧
      outputName "a/orders.proto" ⟨"example.com/gen/v1", "v1"⟩ ⟨"example.com/gen/v1", "v1"⟩
        modular = .ok "v1/orders_nexus.pb.go" ∧
      outputName "b/shop.proto" ⟨"example.com/gen/v1", "shop"⟩ ⟨"example.com/gen/v1", "shop"⟩
        modular = .ok "v1/shop_nexus.pb.go" ∧
      directoryOf? "v1/orders_nexus.pb.go" = directoryOf? "v1/shop_nexus.pb.go" ∧
      ∃ reason, outputName "b/shop.proto" ⟨"example.com/general", "general"⟩
        ⟨"example.com/general", "general"⟩ modular = .error (.invalidOption "module" reason) := by
  have hparse : Settings.parse (some "module=example.com/gen/") =
      .ok (Environment.build [] modular none).settings := by
    decide +kernel
  have horders : outputName "a/orders.proto" ⟨"example.com/gen/v1", "v1"⟩
      ⟨"example.com/gen/v1", "v1"⟩ modular = .ok "v1/orders_nexus.pb.go" := by
    decide +kernel
  have hshop : outputName "b/shop.proto" ⟨"example.com/gen/v1", "shop"⟩
      ⟨"example.com/gen/v1", "shop"⟩ modular = .ok "v1/shop_nexus.pb.go" := by
    decide +kernel
  obtain ⟨hdirectories, hmodule, -⟩ := directories_correspond hparse rfl
  obtain ⟨-, houtside, hbelow⟩ := hmodule "example.com/gen" rfl "b/shop.proto"
    ⟨"example.com/general", "general"⟩ ⟨"example.com/general", "general"⟩
  refine ⟨hparse, horders, hshop, (hdirectories _ _ _ _ _ _ _ _ horders hshop).mpr rfl, ?_⟩
  rw [hbelow, not_or] at houtside
  refine houtside.mpr ⟨by decide, ?_⟩
  rintro ⟨below, habove⟩
  have hcut : Text.dropStart? ("example.com/gen" ++ "/") "example.com/general" = none := by
    decide +kernel
  exact Text.dropStart?_eq_none_iff.mp hcut below habove

end Environment

end GoBindings
