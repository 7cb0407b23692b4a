/-
  GoBindings/Proofs/Choices.lean
  ==============================
  **What one entry of a parameter says and chooses.**

  An entry says what stands before and behind its first equals sign (`Says`). A key that is
  known makes a choice with each value that fits it (`Makes`), and with every other value there
  is a fault (`Flawed`). An entry is refused for a flaw or because its key came before, and which
  of the two is found first depends on the key (`Refused`).
-/
import GoBindings.Proofs.Templates
import GoBindings.Proofs.Text
import GoBindings.Settings.Parameter

namespace GoBindings.Settings

variable {entry key value file : String} {seen : List String} {c : Choice} {again : Bool}
  {fault : Fault}

/-! ### Entries -/

/-- What stands before and behind the first equals sign of an entry, trimmed. -/
def Says (entry key value : String) : Prop :=
  ∃ before after, entry = before ++ "=" ++ after ∧ '=' ∉ before.toList ∧
    Text.trim before = key ∧ Text.trim after = value

theorem keyValue_eq_ok_iff : keyValue entry = .ok (key, value) ↔ Says entry key value := by
  unfold keyValue Says
  cases hcut : Text.cutFirst? '=' entry with
  | none =>
    rw [Text.cutFirst?_eq_none_iff] at hcut
    constructor
    · intro h
      exact nomatch h
    · rintro ⟨before, after, rfl, -⟩
      simp [String.toList_append] at hcut
  | some cut =>
    obtain ⟨before, after⟩ := cut
    have hsign : String.singleton '=' = "=" := rfl
    simp only [Except.ok.injEq, Prod.mk.injEq]
    constructor
    · rintro ⟨rfl, rfl⟩
      obtain ⟨hentry, hbefore⟩ := Text.cutFirst?_eq_some_iff.mp hcut
      rw [hsign] at hentry
      exact ⟨before, after, hentry, hbefore, rfl, rfl⟩
    · rintro ⟨before', after', hentry, hbefore, rfl, rfl⟩
      rw [← hsign] at hentry
      have hcut' := Text.cutFirst?_eq_some_iff.mpr ⟨hentry, hbefore⟩
      obtain ⟨rfl, rfl⟩ := Prod.mk.inj (Option.some.inj (hcut.symm.trans hcut'))
      exact ⟨rfl, rfl⟩

theorem keyValue_eq_error_iff :
    keyValue entry = .error fault ↔
      '=' ∉ entry.toList ∧ fault = .invalidOption entry "expected key=value" := by
  unfold keyValue
  rw [← Text.cutFirst?_eq_none_iff]
  cases Text.cutFirst? '=' entry with
  | none => simp [eq_comm]
  | some cut => simp

/-! ### Keys and values -/

/-- The keys that are known, mappings apart. -/
def knownKeys : List String :=
  ["package", "operation_name_template", "file_suffix", "module", "paths"]

/-- A key that maps a file. -/
def Maps (key : String) : Prop := ∃ file, file ≠ "" ∧ key = "M" ++ file

/-- The choice that a known key makes with a value that fits it. -/
inductive Makes : String → String → Choice → Prop
  | package {name : String} (hname : Go.isIdentifier name) : Makes "package" name (.package name)
  | template {t : Template} (hnormal : Template.Normal t.segments)
      (hprint : Template.print t.segments = t.source) :
      Makes "operation_name_template" t.source (.template t)
  | fileSuffix {suffix : String} (hne : suffix ≠ "") (hslash : '/' ∉ suffix.toList) :
      Makes "file_suffix" suffix (.fileSuffix suffix)
  | module {value : String} (hne : Text.dropEndWhile (· == '/') value ≠ "") :
      Makes "module" value (.module (Text.dropEndWhile (· == '/') value))
  | importPath : Makes "paths" "import" (.paths .importPath)
  | sourceRelative : Makes "paths" "source_relative" (.paths .sourceRelative)
  | mapping {file path : String} (hfile : file ≠ "") (hpath : path ≠ "") :
      Makes ("M" ++ file) path (.mapping file path)

/-- What is wrong with a key, or with the value of a known key. -/
inductive Flawed : String → String → Fault → Prop
  | package {value : String} (h : ¬ Go.isIdentifier value) :
      Flawed "package" value (.invalidOption "package"
        (Text.quoted value ++ " is not a valid Go package name"))
  | template {value : String} {fault : Fault} (h : Template.parse value = .error fault) :
      Flawed "operation_name_template" value fault
  | fileSuffix {value : String} (h : value = "" ∨ '/' ∈ value.toList) :
      Flawed "file_suffix" value (.invalidOption "file_suffix"
        "suffix must be non-empty and must not contain '/'")
  | module {value : String} (h : Text.dropEndWhile (· == '/') value = "") :
      Flawed "module" value (.invalidOption "module" "module prefix must not be empty")
  | paths {value : String} (himport : value ≠ "import") (hrelative : value ≠ "source_relative") :
      Flawed "paths" value (.invalidOption "paths"
        ("expected import or source_relative, got " ++ Text.quoted value))
  | mapping {key : String} (h : Maps key) :
      Flawed key "" (.invalidOption key "import path must not be empty")
  | unknown {key value : String} (hknown : key ∉ knownKeys) (hmaps : ¬ Maps key) :
      Flawed key value (.unknownOption key)

theorem mappedFile?_eq_some_iff : mappedFile? key = some file ↔ file ≠ "" ∧ key = "M" ++ file := by
  unfold mappedFile?
  rw [Option.filter_eq_some_iff, Text.dropStart?_eq_some_iff, and_comm]
  simp

theorem mappedFile?_eq_none_iff : mappedFile? key = none ↔ ¬ Maps key := by
  unfold Maps
  simp only [Option.eq_none_iff_forall_ne_some, ne_eq, mappedFile?_eq_some_iff, not_exists]

theorem not_maps_of_mem_knownKeys (h : key ∈ knownKeys) : ¬ Maps key := by
  have hall : ∀ key ∈ knownKeys, mappedFile? key = none := by decide
  exact mappedFile?_eq_none_iff.mp (hall key h)

theorem mapping_ne (hknown : key ∈ knownKeys) (hfile : file ≠ "") : "M" ++ file ≠ key := by
  rintro rfl
  exact not_maps_of_mem_knownKeys hknown ⟨file, hfile, rfl⟩

theorem named_eq_ok_iff (hmaps : ¬ Maps key) : named key value = .ok c ↔ Makes key value c := by
  constructor
  · intro h
    unfold named at h
    dsimp only at h
    split_ifs at h with hpackage hidentifier htemplate hsuffix hbad hmodule hempty hpaths
      hrelative himport
    · subst hpackage
      exact Except.ok.inj h ▸ .package hidentifier
    · obtain ⟨t, ht, rfl⟩ := Template.map_eq_ok_iff.mp h
      obtain ⟨rfl, hnormal, hprint⟩ := Template.parse_eq_ok_iff.mp ht
      exact htemplate ▸ .template hnormal hprint
    · subst hsuffix
      simp only [Bool.or_eq_true, not_or, List.contains_iff_mem, String.isEmpty_iff] at hbad
      exact Except.ok.inj h ▸ .fileSuffix hbad.1 hbad.2
    · subst hmodule
      rw [String.isEmpty_iff] at hempty
      exact Except.ok.inj h ▸ .module hempty
    · subst hpaths hrelative
      exact Except.ok.inj h ▸ .sourceRelative
    · subst hpaths himport
      exact Except.ok.inj h ▸ .importPath
  · intro h
    cases h with
    | package hname => simp [named, hname]
    | template hnormal hprint =>
      simp [named, Template.key, Template.parse_eq_ok_iff.mpr ⟨rfl, hnormal, hprint⟩, Except.map]
    | fileSuffix hne hslash => simp [named, Template.key, hne, hslash]
    | module hne => simp [named, Template.key, hne]
    | importPath => simp [named, Template.key]
    | sourceRelative => simp [named, Template.key]
    | mapping hfile hpath => exact absurd ⟨_, hfile, rfl⟩ hmaps

theorem named_eq_error_iff (hmaps : ¬ Maps key) :
    named key value = .error fault ↔ Flawed key value fault := by
  constructor
  · intro h
    unfold named at h
    dsimp only at h
    split_ifs at h with hpackage hidentifier htemplate hsuffix hbad hmodule hempty hpaths
      hrelative himport
    · subst hpackage
      exact Except.error.inj h ▸ .package hidentifier
    · subst htemplate
      cases hparse : Template.parse value with
      | ok t => rw [hparse] at h; exact nomatch h
      | error flaw => rw [hparse] at h; exact Except.error.inj h ▸ .template hparse
    · subst hsuffix
      simp only [Bool.or_eq_true, List.contains_iff_mem, String.isEmpty_iff] at hbad
      exact Except.error.inj h ▸ .fileSuffix hbad
    · subst hmodule
      rw [String.isEmpty_iff] at hempty
      exact Except.error.inj h ▸ .module hempty
    · subst hpaths
      exact Except.error.inj h ▸ .paths himport hrelative
    · have hknown : key ∉ knownKeys := by
        simp only [knownKeys, List.mem_cons, List.not_mem_nil, or_false, not_or]
        exact ⟨hpackage, htemplate, hsuffix, hmodule, hpaths⟩
      exact Except.error.inj h ▸ .unknown hknown hmaps
  · intro h
    cases h with
    | package h => simp [named, h]
    | template h => simp [named, Template.key, h, Except.map]
    | fileSuffix h => simp [named, Template.key, h]
    | module h => simp [named, Template.key, h]
    | paths himport hrelative => simp [named, Template.key, himport, hrelative]
    | mapping h => exact absurd h hmaps
    | unknown hknown =>
      simp only [knownKeys, List.mem_cons, List.not_mem_nil, or_false, not_or] at hknown
      simp [named, Template.key, hknown]

/-! ### Keys that came before -/

theorem makes_iff_of_mappedFile? (hfile : mappedFile? key = some file) :
    Makes key value c ↔ value ≠ "" ∧ c = .mapping file value := by
  have hmaps : Maps key := ⟨file, mappedFile?_eq_some_iff.mp hfile⟩
  constructor
  · intro h
    cases h with
    | mapping hfile' hpath =>
      obtain rfl := Option.some.inj (hfile.symm.trans (mappedFile?_eq_some_iff.mpr ⟨hfile', rfl⟩))
      exact ⟨hpath, rfl⟩
    | package | template | fileSuffix | module | importPath | sourceRelative =>
      exact absurd hmaps (not_maps_of_mem_knownKeys (by decide))
  · rintro ⟨hpath, rfl⟩
    obtain ⟨hne, rfl⟩ := mappedFile?_eq_some_iff.mp hfile
    exact .mapping hne hpath

theorem flawed_iff_of_maps (hmaps : Maps key) : Flawed key value fault ↔
    value = "" ∧ fault = .invalidOption key "import path must not be empty" := by
  constructor
  · intro h
    cases h with
    | mapping => exact ⟨rfl, rfl⟩
    | package | template | fileSuffix | module | paths =>
      exact absurd hmaps (not_maps_of_mem_knownKeys (by decide))
    | unknown _ h => exact absurd hmaps h
  · rintro ⟨rfl, rfl⟩
    exact .mapping hmaps

theorem choice_eq_ok_iff :
    choice again key value = .ok c ↔ again = false ∧ Makes key value c := by
  unfold choice
  cases hfile : mappedFile? key with
  | some file =>
    rw [makes_iff_of_mappedFile? hfile]
    by_cases hvalue : value = ""
    · simp [hvalue]
    · cases again <;> simp [hvalue, eq_comm (a := c)]
  | none =>
    rw [← named_eq_ok_iff (mappedFile?_eq_none_iff.mp hfile)]
    cases again <;> simp

/-- A flaw in a known key's value is not seen when the key came before, but a mapping to nothing
    is. -/
theorem choice_eq_error_iff :
    choice again key value = .error fault ↔
      (Flawed key value fault ∧ (again → Maps key)) ∨
        (again ∧ (Maps key → value ≠ "") ∧ fault = .invalidOption key "specified more than once")
    := by
  unfold choice
  cases hfile : mappedFile? key with
  | some file =>
    have hmaps : Maps key := ⟨file, mappedFile?_eq_some_iff.mp hfile⟩
    rw [flawed_iff_of_maps hmaps]
    by_cases hvalue : value = ""
    · simp [hvalue, hmaps, eq_comm (a := fault)]
    · cases again <;> simp [hvalue, eq_comm (a := fault)]
  | none =>
    have hmaps : ¬ Maps key := mappedFile?_eq_none_iff.mp hfile
    rw [← named_eq_error_iff hmaps]
    cases again <;> simp [hmaps, eq_comm (a := fault)]

/-- What is wrong with an entry that is reached behind entries with the keys `seen`. -/
inductive Refused (seen : List String) (entry : String) : Fault → Prop
  | bare (h : '=' ∉ entry.toList) : Refused seen entry (.invalidOption entry "expected key=value")
  | flawed {key value : String} {fault : Fault} (hsaid : Says entry key value)
      (hflawed : Flawed key value fault) (hseen : key ∈ seen → Maps key) :
      Refused seen entry fault
  | repeated {key value : String} (hsaid : Says entry key value) (hseen : key ∈ seen)
      (hvalue : Maps key → value ≠ "") :
      Refused seen entry (.invalidOption key "specified more than once")

/-- Which keys came before counts, not where they stood. -/
theorem Refused.congr {seen' : List String} (h : ∀ key, key ∈ seen ↔ key ∈ seen') :
    Refused seen entry fault ↔ Refused seen' entry fault := by
  suffices himp : ∀ ⦃xs ys : List String⦄, (∀ key, key ∈ xs ↔ key ∈ ys) →
      Refused xs entry fault → Refused ys entry fault from
    ⟨himp h, himp fun key => (h key).symm⟩
  intro xs ys hmem hrefused
  cases hrefused with
  | bare h => exact .bare h
  | flawed hsaid hflawed hseen => exact .flawed hsaid hflawed fun hkey => hseen ((hmem _).mpr hkey)
  | repeated hsaid hseen hvalue => exact .repeated hsaid ((hmem _).mp hseen) hvalue

end GoBindings.Settings
