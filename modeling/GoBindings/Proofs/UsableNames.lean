/-
  GoBindings/Proofs/UsableNames.lean
  ==================================
  **Which package names and import paths Go can use.**

  Every name in a package clause and every alias is an identifier, whatever it is made from.
  But the blank identifier is one, too, and names nothing. There are two ways to it: the settings
  may ask for it, and it is what is made of an element of a path that is not there
  (`Descriptor.File.Nameless`).

  An import path is empty where a declaration has nothing in front of its semicolon, or where a
  file that declares nothing has no name either (`Descriptor.File.Pathless`). A mapping may be
  such a declaration: it is only checked that it is not empty as a whole.
-/
import GoBindings.Proofs.ImportBlocks
import GoBindings.Proofs.PackageClauses
import GoBindings.Proofs.ParameterOrder

namespace GoBindings

open Text (OneLine)

/-! ### Identifiers -/

namespace Go

theorem isIdentifier_iff {s : String} :
    isIdentifier s ↔ ∃ c cs, s.toList = c :: cs ∧ (Unicode.isAlphabetic c ∨ c = '_') ∧
      (∀ d ∈ cs, isNameChar d) ∧ s ∉ keywords := by
  unfold isIdentifier
  cases hs : s.toList with
  | nil =>
    constructor
    · intro h
      exact nomatch h
    · rintro ⟨c, cs, hcons, -⟩
      exact nomatch hcons
  | cons c cs =>
    dsimp only
    rw [Bool.and_eq_true, Bool.and_eq_true, Bool.or_eq_true, beq_iff_eq, List.all_eq_true,
      Bool.not_eq_true', ← Bool.not_eq_true, List.contains_iff_mem, and_assoc]
    constructor
    · rintro ⟨hfirst, hrest, hkeyword⟩
      exact ⟨c, cs, rfl, hfirst, hrest, hkeyword⟩
    · rintro ⟨_, _, hcons, hfirst, hrest, hkeyword⟩
      obtain ⟨rfl, rfl⟩ := List.cons.inj hcons
      exact ⟨hfirst, hrest, hkeyword⟩

theorem isIdentifier_sanitize (s : String) : isIdentifier (sanitize s) := by
  have hchars := isNameChar_replaceForeign (s := s)
  rw [isIdentifier_iff]
  rcases sanitize_cases s with ⟨hsame, hletter, hkeyword⟩ | ⟨hmarked, -⟩
  · rw [hsame]
    rw [startsWithLetter] at hletter
    cases hlist : (replaceForeign s).toList with
    | nil => rw [hlist] at hletter; exact nomatch hletter
    | cons c cs =>
      rw [hlist] at hletter hchars
      exact ⟨c, cs, rfl, .inl hletter, (List.forall_mem_cons.mp hchars).2, hkeyword⟩
  · -- no keyword begins with the underscore that goes in front
    have hkeywords : ∀ k ∈ keywords, k.toList.head? ≠ some '_' := by decide
    have hlist : (sanitize s).toList = '_' :: (replaceForeign s).toList := by
      rw [hmarked]
      exact String.toList_append
    refine ⟨'_', (replaceForeign s).toList, hlist, .inr rfl, hchars, ?_⟩
    intro hmem
    exact hkeywords _ hmem (by rw [hlist, List.head?_cons])

/-- The blank identifier is made from the empty text alone: an underscore gets one more. -/
theorem sanitize_eq_blank_iff {s : String} : sanitize s = "_" ↔ s = "" := by
  constructor
  · intro h
    have hempty : replaceForeign s = "" := by
      rcases sanitize_cases s with ⟨hsame, hletter, -⟩ | ⟨hmarked, -⟩
      · have hblank : startsWithLetter "_" = false := by decide +kernel
        rw [← hsame, h, hblank] at hletter
        exact nomatch hletter
      · exact (String.append_right_inj "_").mp
          (hmarked.symm.trans (h.trans (String.append_empty).symm))
    rw [replaceForeign, ← String.toList_inj, String.toList_ofList] at hempty
    exact String.toList_inj.mp (List.map_eq_nil_iff.mp hempty)
  · rintro rfl
    decide

namespace Imports

theorem isIdentifier_candidate {name : String} (h : isIdentifier name) (n : Nat) :
    isIdentifier (candidate name n) := by
  cases n with
  | zero => exact h
  | succ n =>
    obtain ⟨c, cs, hlist, hfirst, hrest, -⟩ := isIdentifier_iff.mp h
    refine isIdentifier_iff.mpr ⟨c, cs ++ (toString (n + 1)).toList, ?_, hfirst, ?_, ?_⟩
    · rw [candidate, String.toList_append, hlist, List.cons_append]
    · rw [List.forall_mem_append]
      refine ⟨hrest, ?_⟩
      intro d hd
      apply isNameChar_of_isAlphanum
      rw [Char.isAlphanum, isDigit_of_mem_toString hd, Bool.or_true]
    · exact candidate_not_mem (by decide) name n

/-- No number makes an alias blank. -/
theorem candidate_eq_blank {name : String} {n : Nat} (h : candidate name n = "_") :
    name = "_" := by
  cases n with
  | zero => exact h
  | succ n =>
    have hnumbered : candidate name (n + 1) ∉ ["_"] := candidate_not_mem (by decide) name n
    rw [h] at hnumbered
    exact absurd (List.mem_singleton_self "_") hnumbered

end Imports

end Go

/-! ### Ends of paths -/

namespace Text

theorem afterLast_eq_empty_iff {sep : Char} {s : String} :
    afterLast sep s = "" ↔ ClosedBy sep s := by
  unfold afterLast
  cases hcut : cutLast? sep s with
  | none =>
    rw [Option.map_none, Option.getD_none]
    constructor
    · exact .inl
    · rintro (hempty | ⟨front, rfl⟩)
      · exact hempty
      · exact absurd (cutLast?_eq_none hcut) (by simp)
  | some cut =>
    obtain ⟨front, piece⟩ := cut
    obtain ⟨hs, hpiece⟩ := cutLast?_eq_some hcut
    rw [Option.map_some, Option.getD_some]
    constructor
    · rintro rfl
      exact .inr ⟨front, hs.trans String.append_empty⟩
    · rintro (rfl | ⟨front', hfront⟩)
      · exact (String.append_eq_empty_iff.mp hs.symm).2
      · have hsame : front ++ String.singleton sep ++ piece =
            front' ++ String.singleton sep ++ "" := by
          rw [← hs, hfront, String.append_empty]
        exact (append_inj_of_closedBy hpiece (by simp) (.inr ⟨front, rfl⟩) (.inr ⟨front', rfl⟩)
          hsame).2

/-- A character that an ending does not have is there as long as it was. -/
theorem mem_dropEnds {ending : String} {c : Char} (hc : c ∉ ending.toList) {fuel : Nat}
    {s : String} (h : c ∈ s.toList) : c ∈ (dropEnds ending fuel s).toList := by
  induction fuel generalizing s with
  | zero => exact h
  | succ fuel ih =>
    unfold dropEnds
    cases hdrop : dropEnd? ending s with
    | none => exact h
    | some rest =>
      apply ih
      rw [dropEnd?_eq_some_iff.mp hdrop, String.toList_append, List.mem_append] at h
      exact h.resolve_right hc

end Text

/-! ### Go packages of files -/

theorem Go.Package.explicitName?_eq_some {declaration name : String}
    (h : explicitName? declaration = some name) : ∃ text, text ≠ "" ∧ name = sanitize text := by
  obtain ⟨cut, -, hname⟩ := Option.bind_eq_some_iff.mp h
  by_cases hblank : (Text.trim cut.2).isEmpty
  · rw [if_pos hblank] at hname
    exact nomatch hname
  · rw [if_neg hblank] at hname
    rw [String.isEmpty_iff] at hblank
    exact ⟨_, hblank, (Option.some.inj hname).symm⟩

namespace Descriptor.File

variable {f : Descriptor.File} {settings : Settings}

/-- No name is declared for the Go package, and its path has no last element. -/
def Nameless (f : Descriptor.File) (settings : Settings) : Prop :=
  f.explicitName? settings = none ∧ Text.ClosedBy '/' (f.goPackageOf settings).importPath

/-- The Go package is declared with a name alone. Or it is not declared, and the name of the file
    is nothing but its ending. -/
def Pathless (f : Descriptor.File) (settings : Settings) : Prop :=
  (∃ name, f.package? settings = some (";" ++ name)) ∨
    f.package? settings = none ∧ Text.dropAllEnds ".proto" f.name = ""

theorem explicitName?_eq_some {name : String} (h : f.explicitName? settings = some name) :
    ∃ text, text ≠ "" ∧ name = Go.sanitize text := by
  rw [explicitName?, Option.bind_eq_some_iff] at h
  obtain ⟨declaration, -, hname⟩ := h
  exact Go.Package.explicitName?_eq_some hname

theorem isIdentifier_goPackageOf (f : Descriptor.File) (settings : Settings) :
    Go.isIdentifier (f.goPackageOf settings).name := by
  rw [name_eq_sanitize]
  exact Go.isIdentifier_sanitize _

theorem name_goPackageOf_eq_blank_iff :
    (f.goPackageOf settings).name = "_" ↔ f.Nameless settings := by
  rw [name_goPackageOf, Nameless]
  cases hname : f.explicitName? settings with
  | none =>
    rw [Option.getD_none, Go.sanitize_eq_blank_iff, Text.afterLast_eq_empty_iff]
    exact (and_iff_right rfl).symm
  | some name =>
    obtain ⟨text, htext, rfl⟩ := explicitName?_eq_some hname
    rw [Option.getD_some, Go.sanitize_eq_blank_iff]
    constructor
    · intro hempty
      exact absurd hempty htext
    · rintro ⟨hnone, -⟩
      exact nomatch hnone

theorem importPath_ofDeclaration_eq_empty_iff {declaration : String} (h : declaration ≠ "") :
    (Go.Package.ofDeclaration declaration).importPath = "" ↔
      ∃ name, declaration = ";" ++ name := by
  have hsign : String.singleton ';' = ";" := rfl
  unfold Go.Package.ofDeclaration
  cases hcut : Text.cutFirst? ';' declaration with
  | none =>
    rw [Text.cutFirst?_eq_none_iff] at hcut
    constructor
    · intro hempty
      exact absurd hempty h
    · rintro ⟨name, rfl⟩
      exact absurd hcut (by simp [String.toList_append])
  | some cut =>
    obtain ⟨path, name⟩ := cut
    obtain ⟨hdeclaration, hpath⟩ := Text.cutFirst?_eq_some_iff.mp hcut
    rw [hsign] at hdeclaration
    have himport : ∀ blank : Bool, (if blank then Go.Package.atPath path
        else ⟨path, Go.sanitize (Text.trim name)⟩).importPath = path := by
      intro blank
      cases blank <;> rfl
    dsimp only
    rw [himport]
    constructor
    · rintro rfl
      exact ⟨name, hdeclaration.trans (by rw [String.empty_append])⟩
    · rintro ⟨name', hname⟩
      have hcut' : Text.cutFirst? ';' declaration = some ("", name') :=
        Text.cutFirst?_eq_some_iff.mpr ⟨by rw [hname, hsign, String.empty_append], by simp⟩
      exact (Prod.mk.inj (Option.some.inj (hcut.symm.trans hcut'))).1

theorem importPath_ofSourceName_eq_empty_iff {file : String} :
    (Go.Package.ofSourceName file).importPath = "" ↔ Text.dropAllEnds ".proto" file = "" := by
  unfold Go.Package.ofSourceName
  cases hcut : Text.cutLast? '/' file with
  | none => exact Iff.rfl
  | some cut =>
    obtain ⟨directory, base⟩ := cut
    dsimp only
    by_cases hempty : directory.isEmpty
    · rw [if_pos hempty]
      exact Iff.rfl
    · rw [if_neg hempty]
      rw [String.isEmpty_iff] at hempty
      -- the slash behind the directory is not part of any ending
      have hslash : '/' ∈ file.toList := by
        rw [(Text.cutLast?_eq_some hcut).1]
        simp
      have hkept : '/' ∈ (Text.dropAllEnds ".proto" file).toList :=
        Text.mem_dropEnds (by decide) hslash
      constructor
      · intro h
        exact absurd h hempty
      · intro h
        rw [h] at hkept
        exact absurd hkept (by simp)

theorem importPath_goPackageOf_eq_empty_iff (h : ∀ declaration ∈ f.package? settings,
    declaration ≠ "") : (f.goPackageOf settings).importPath = "" ↔ f.Pathless settings := by
  unfold goPackageOf Pathless
  cases hpackage : f.package? settings with
  | none =>
    dsimp only
    rw [importPath_ofSourceName_eq_empty_iff]
    simp
  | some declaration =>
    dsimp only
    rw [importPath_ofDeclaration_eq_empty_iff (h declaration hpackage)]
    simp

end Descriptor.File

/-! ### Accepted parameters -/

namespace Settings

variable {parameter : Option String} {settings : Settings}

theorem mapping_ne_empty (h : parse parameter = .ok settings) :
    ∀ m ∈ settings.importMappings, m.2 ≠ "" := by
  refine parse_induction (P := fun s => ∀ m ∈ s.importMappings, m.2 ≠ "") ?_ ?_ h
  · intro m hm
    exact absurd hm List.not_mem_nil
  · intro s key value c hmakes hs
    cases hmakes with
    | mapping hfile hpath =>
      intro m hm
      rcases mem_insertMapping.mp hm with rfl | hm
      · exact hpath
      · exact hs m hm
    | package | template | fileSuffix | module | importPath | sourceRelative => exact hs

theorem package?_ne_empty (h : parse parameter = .ok settings) (f : Descriptor.File) :
    ∀ declaration ∈ f.package? settings, declaration ≠ "" := by
  intro declaration hdeclaration
  rcases Option.or_eq_some_iff.mp hdeclaration with hmapped | ⟨-, hdeclared⟩
  · rw [mapping?, List.lookup_eq_some_iff] at hmapped
    obtain ⟨before, after, hmappings, -⟩ := hmapped
    exact mapping_ne_empty h (f.name, declaration) (by rw [hmappings]; simp)
  · by_cases hempty : f.goPackage.isEmpty
    · rw [if_pos hempty] at hdeclared
      exact nomatch hdeclared
    · rw [if_neg hempty] at hdeclared
      obtain rfl := Option.some.inj hdeclared
      rwa [String.isEmpty_iff] at hempty

end Settings

/-! ### Published files -/

namespace Environment

theorem exists_file_of_mem_messagesFor {env : Environment} {f : Descriptor.File}
    (hindex : env.Indexed) {m : MessageRef} (hm : m ∈ env.messagesFor f) :
    ∃ g ∈ env.files, m.goPackage = g.goPackageOf env.settings := by
  obtain ⟨call, -, hresolve⟩ := List.mem_filterMap.mp hm
  have hmem := (TypeIndex.resolve?_eq_some hresolve).1
  rw [hindex] at hmem
  obtain ⟨g, hg, path, rfl⟩ := TypeIndex.eq_messageRef_of_mem_build hmem
  exact ⟨g, hg, rfl⟩

/-- Where the names and paths in a published file come from, and which of them Go cannot use. -/
structure Publication.Named (env : Environment) (p : Publication) : Prop where
  clause : Go.isIdentifier p.document.packageName
  blankClause : p.document.packageName = "_" ↔ env.settings.package = some "_" ∨
    env.settings.package = none ∧ p.draft.source.Nameless env.settings
  aliases : ∀ entry ∈ p.document.imports.sorted, Go.isIdentifier entry.2
  /-- A blank alias is the name of another package that a method takes or gives a message of. -/
  blankAlias : ∀ entry ∈ p.document.imports.sorted, entry.2 = "_" →
    entry.1 ≠ p.draft.package.importPath ∧
      ∃ m ∈ env.messagesFor p.draft.source, m.goPackage = ⟨entry.1, "_"⟩
  emptyPath : "" ∈ p.document.imports.sorted.map (·.1) ↔
    "" ≠ p.draft.package.importPath ∧
      ∃ m ∈ env.messagesFor p.draft.source, m.goPackage.importPath = ""
  /-- The package of a message is that of the file that declares it. -/
  packages : ∀ m ∈ env.messagesFor p.draft.source, ∃ f ∈ env.files,
    m.goPackage = f.goPackageOf env.settings ∧
      (m.goPackage.name = "_" ↔ f.Nameless env.settings) ∧
      (m.goPackage.importPath = "" ↔ f.Pathless env.settings)

variable {env : Environment} {p : Publication} {parameter : Option String}

/-- An entry of the block is one of the framework, or was made for a message. -/
theorem Publication.Written.entry_cases (h : p.Written env) {entry : String × String}
    (hentry : entry ∈ p.document.imports.entries) :
    entry ∈ Go.Imports.framework.entries ∨
      entry.1 ≠ p.draft.package.importPath ∧ ∃ m ∈ env.messagesFor p.draft.source,
        m.goPackage.importPath = entry.1 ∧
          ∃ n, entry.2 = Go.Imports.candidate m.goPackage.name n := by
  obtain ⟨mapped, -, hmessages, hextends⟩ := h.mapped
  rcases hextends.entries entry hentry with hframework | ⟨m, hm, hforeign, hpath, n, halias⟩
  · exact .inl hframework
  · refine .inr ⟨?_, m.message, hmessages ▸ List.mem_map_of_mem hm, hpath, n, halias⟩
    intro hhome
    exact hforeign (hpath.trans hhome)

theorem usual_of_mem_framework : ∀ entry ∈ Go.Imports.framework.entries,
    Go.isIdentifier entry.2 ∧ entry.2 ≠ "_" := by
  rw [Go.Imports.entries_framework]
  decide +kernel

theorem Publication.Written.isIdentifier_alias (h : p.Written env) (hindex : env.Indexed)
    {entry : String × String} (hentry : entry ∈ p.document.imports.entries) :
    Go.isIdentifier entry.2 := by
  rcases h.entry_cases hentry with hframework | ⟨-, m, hm, -, n, halias⟩
  · exact (usual_of_mem_framework entry hframework).1
  · obtain ⟨f, -, hpackage⟩ := exists_file_of_mem_messagesFor hindex hm
    rw [halias, hpackage]
    exact Go.Imports.isIdentifier_candidate (f.isIdentifier_goPackageOf env.settings) n

theorem Publication.Written.blank_alias (h : p.Written env) {entry : String × String}
    (hentry : entry ∈ p.document.imports.entries) (hblank : entry.2 = "_") :
    entry.1 ≠ p.draft.package.importPath ∧
      ∃ m ∈ env.messagesFor p.draft.source, m.goPackage = ⟨entry.1, "_"⟩ := by
  rcases h.entry_cases hentry with hframework | ⟨hforeign, m, hm, hpath, n, halias⟩
  · exact absurd hblank (usual_of_mem_framework entry hframework).2
  · have hname := Go.Imports.candidate_eq_blank (halias.symm.trans hblank)
    refine ⟨hforeign, m, hm, ?_⟩
    rw [← hpath, ← hname]

theorem named_of_mem_published {r : Registry} {targets : List String}
    (hparse : Settings.parse parameter = .ok env.settings) (hindex : env.Indexed)
    (hp : p ∈ env.published r targets) (h : p.Written env) : p.Named env := by
  obtain ⟨hpackage, hname⟩ := package_eq hindex hp
  rw [hpackage, Go.Package.name_renamed] at hname
  refine ⟨?_, ?_, ?_, ?_, ?_, ?_⟩
  · rw [hname]
    cases hchosen : env.settings.package with
    | none => exact p.draft.source.isIdentifier_goPackageOf env.settings
    | some name => exact Settings.isIdentifier_of_package hparse name hchosen
  · rw [hname, ← Descriptor.File.name_goPackageOf_eq_blank_iff]
    cases env.settings.package with
    | none => simp
    | some name => simp
  · intro entry hentry
    exact h.isIdentifier_alias hindex (Go.Imports.mem_sorted.mp hentry)
  · intro entry hentry hblank
    exact h.blank_alias (Go.Imports.mem_sorted.mp hentry) hblank
  · have hframework : "" ∉ [Go.nexusPath, Go.workerPath, Go.workflowPath] := by decide
    rw [(h.imported hindex).paths]
    constructor
    · rintro (hmem | ⟨m, hm, hpath, hforeign⟩)
      · exact absurd hmem hframework
      · exact ⟨hforeign, m, hm, hpath⟩
    · rintro ⟨hforeign, m, hm, hpath⟩
      exact .inr ⟨m, hm, hpath, hforeign⟩
  · intro m hm
    obtain ⟨f, hf, hof⟩ := exists_file_of_mem_messagesFor hindex hm
    rw [hof]
    exact ⟨f, hf, rfl, Descriptor.File.name_goPackageOf_eq_blank_iff,
      Descriptor.File.importPath_goPackageOf_eq_empty_iff (Settings.package?_ne_empty hparse f)⟩

/-- Without the three exceptions everything can be used. -/
theorem Publication.Named.usable (h : p.Named env) (hpackage : env.settings.package ≠ some "_")
    (hfiles : ∀ f ∈ env.files, ¬ f.Nameless env.settings ∧ ¬ f.Pathless env.settings)
    (hsource : p.draft.source ∈ env.files) :
    p.document.packageName ≠ "_" ∧
      ∀ entry ∈ p.document.imports.sorted, entry.2 ≠ "_" ∧ entry.1 ≠ "" := by
  constructor
  · intro hblank
    rcases h.blankClause.mp hblank with hchosen | ⟨-, hnameless⟩
    · exact hpackage hchosen
    · exact (hfiles _ hsource).1 hnameless
  · intro entry hentry
    constructor
    · intro hblank
      obtain ⟨-, m, hm, hm'⟩ := h.blankAlias entry hentry hblank
      obtain ⟨f, hf, -, hnameless, -⟩ := h.packages m hm
      exact (hfiles f hf).1 (hnameless.mp (congrArg Go.Package.name hm'))
    · intro hempty
      obtain ⟨-, m, hm, hpath⟩ := h.emptyPath.mp (hempty ▸ List.mem_map_of_mem hentry)
      obtain ⟨f, hf, -, -, hpathless⟩ := h.packages m hm
      exact (hfiles f hf).2 (hpathless.mp hpath)

end Environment

namespace Request

variable {request : Request} {response : Response} {env : Environment}

/-- The name in the package clause of a returned file and the aliases of its imports are always
    identifiers. None of them is blank and no import path is empty, unless the settings ask for
    the blank package, or a file of the request is nameless or pathless. -/
theorem names_usable (henv : request.environment? = .ok env)
    (hresponse : (generate request).outcome = .ok response) :
    (response.files = request.published.map fun p =>
        ⟨some p.draft.name, none, some p.document.render⟩) ∧
      ∀ p ∈ request.published,
        (OneLine p.draft.source.name → (∀ v ∈ request.compilerVersion, OneLine v.text) →
          packageClause? p.document.render = some p.document.packageName) ∧
        p.document.render = Text.unlines (p.document.frontLines ++ p.document.importBlock)
          ++ Text.unlines p.document.bodyLines ∧
        p.Named env ∧
        (env.settings.package ≠ some "_" →
          (∀ f ∈ env.files, ¬ f.Nameless env.settings ∧ ¬ f.Pathless env.settings) →
            p.document.packageName ≠ "_" ∧
              ∀ entry ∈ p.document.imports.sorted, entry.2 ≠ "_" ∧ entry.1 ≠ "") := by
  refine ⟨files_eq_published hresponse, ?_⟩
  intro p hp
  obtain ⟨env', henv', hindex, hpublished, -, hwritten⟩ := written_of_mem_published hp
  obtain rfl : env' = env := Except.ok.inj (henv'.symm.trans henv)
  have hnamed := Environment.named_of_mem_published (parse_of_environment? henv) hindex
    hpublished hwritten
  refine ⟨fun hsource hcompiler => packageClause?_of_published hp hsource hcompiler, ?_, hnamed, ?_⟩
  · rw [← p.document.headerLines_eq]
    exact p.document.render_eq
  · intro hpackage hfiles
    exact hnamed.usable hpackage hfiles (List.mem_of_find?_eq_some hwritten.source)

/-- Nothing in the orders file is an exception. -/
theorem names_usable_orders :
    ∃ env, orders.environment? = .ok env ∧ (∃ response, (generate orders).outcome = .ok response) ∧
      orders.published.length = 1 ∧
      ∀ p ∈ orders.published, packageClause? p.document.render = some p.document.packageName ∧
        p.Named env ∧ p.document.packageName ≠ "_" ∧
          ∀ entry ∈ p.document.imports.sorted, entry.2 ≠ "_" ∧ entry.1 ≠ "" := by
  have hrun : orders.environment?.toOption.any fun env =>
      decide (env.settings.package ≠ some "_") && env.files.all fun f =>
        decide ((f.goPackageOf env.settings).name ≠ "_" ∧
          (f.goPackageOf env.settings).importPath ≠ "") := by
    decide +kernel
  have hsources : orders.published.all fun p => decide (OneLine p.draft.source.name) := by
    decide +kernel
  cases henv : orders.environment? with
  | error fault => rw [henv] at hrun; exact nomatch hrun
  | ok env =>
    rw [henv] at hrun
    obtain ⟨hpackage, hall⟩ := (Bool.and_eq_true _ _).mp hrun
    have hfiles : ∀ f ∈ env.files, ¬ f.Nameless env.settings ∧ ¬ f.Pathless env.settings := by
      intro f hf
      obtain ⟨hname, hpath⟩ := of_decide_eq_true (List.all_eq_true.mp hall f hf)
      rw [← Descriptor.File.name_goPackageOf_eq_blank_iff,
        ← Descriptor.File.importPath_goPackageOf_eq_empty_iff
          (Settings.package?_ne_empty (parse_of_environment? henv) f)]
      exact ⟨hname, hpath⟩
    refine ⟨env, rfl, ⟨_, generate_outcome henv⟩, by decide +kernel, ?_⟩
    intro p hp
    obtain ⟨hclause, -, hnamed, husable⟩ := (names_usable henv (generate_outcome henv)).2 p hp
    have hsource := of_decide_eq_true (List.all_eq_true.mp hsources p hp)
    have hcompiler : ∀ v ∈ orders.compilerVersion, OneLine v.text := fun v hv => nomatch hv
    exact ⟨hclause hsource hcompiler, hnamed, husable (of_decide_eq_true hpackage) hfiles⟩

/-- A blank package, a mapping with a name alone, and a declaration that ends in a slash. -/
def unusable : Request where
  targets := ["shop.proto"]
  parameter := some "package=_,Mapi.proto=;api"
  compilerVersion := none
  files :=
    [sampleFile "api.proto" "api" "example.com/api" ["Cart"] [],
      sampleFile "item.proto" "item" "example.com/item/" ["Item"] [],
      sampleFile "shop.proto" "shop" "example.com/shop" []
        [("Shop", [("Buy", ".api.Cart"), ("Sell", ".item.Item")])]]

/-- All three are accepted. The file has a blank package clause and a blank alias, and one of the
    paths that it imports is empty. -/
theorem unusable_names :
    ∃ response, (generate unusable).outcome = .ok response ∧ response.error = none ∧
      ∃ p ∈ unusable.published,
        ⟨some p.draft.name, none, some p.document.render⟩ ∈ response.files ∧
          packageClause? p.document.render = some "_" ∧
          p.document.render = Text.unlines (p.document.frontLines ++ p.document.importBlock)
            ++ Text.unlines p.document.bodyLines ∧
          "\t_ \"example.com/item/\"" ∈ p.document.importBlock ∧
          "\tapi \"\"" ∈ p.document.importBlock := by
  have hany : unusable.published.any fun p =>
      decide (OneLine p.draft.source.name ∧ p.document.packageName = "_" ∧
        ("example.com/item/", "_") ∈ p.document.imports.entries ∧
          ("", "api") ∈ p.document.imports.entries) := by
    decide +kernel
  obtain ⟨p, hp, hnames⟩ := List.any_eq_true.mp hany
  obtain ⟨hsource, hblank, halias, hempty⟩ := of_decide_eq_true hnames
  have houtcome := generate_outcome_of_isOk (by decide +kernel : unusable.environment?.isOk)
  have hline : ∀ entry ∈ p.document.imports.entries,
      Document.importLine entry ∈ p.document.importBlock := by
    intro entry hentry
    refine List.mem_cons_of_mem _ (List.mem_append_left _ (List.mem_map_of_mem ?_))
    exact Go.Imports.mem_sorted.mpr hentry
  refine ⟨_, houtcome, by decide +kernel, p, hp, ?_, ?_, ?_, hline _ halias, hline _ hempty⟩
  · rw [files_eq_published houtcome]
    exact List.mem_map_of_mem hp
  · have hcompiler : ∀ v ∈ unusable.compilerVersion, OneLine v.text := fun v hv => nomatch hv
    rw [packageClause?_of_published hp hsource hcompiler, hblank]
  · rw [← p.document.headerLines_eq]
    exact p.document.render_eq

end Request

end GoBindings
