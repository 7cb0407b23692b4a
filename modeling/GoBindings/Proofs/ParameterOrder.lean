/-
  GoBindings/Proofs/ParameterOrder.lean
  =====================================
  **What a parameter chooses, in whatever order it says it.**

  A parameter is accepted if each of its entries says a key and a value that fits it, no two say
  the same key (`Accepted`), and the choices can stand together (`Compatible`). The settings are
  then standard but for what the keys are given (`Chooses`). None of this depends on the order of
  the entries; only the fault of a parameter that is not accepted does, because it is that of the
  first entry that is refused.
-/
import GoBindings.Proofs.Keys
import GoBindings.Proofs.Parameter
import Mathlib.Logic.Function.Basic

namespace GoBindings.Settings

/-! ### Import mappings -/

section Mappings

variable {file path : String} {mappings : List (String × String)} {m : String × String}

theorem mem_insertMapping : m ∈ insertMapping file path mappings ↔ m = (file, path) ∨ m ∈ mappings
    := by
  induction mappings with
  | nil => simp [insertMapping]
  | cons first rest ih =>
    unfold insertMapping
    split_ifs
    · rw [List.mem_cons]
    · rw [List.mem_cons, ih, List.mem_cons, or_left_comm]

theorem pairwise_insertMapping (hnew : ∀ m ∈ mappings, m.1 ≠ file)
    (h : mappings.Pairwise (·.1 < ·.1)) : (insertMapping file path mappings).Pairwise (·.1 < ·.1)
    := by
  induction mappings with
  | nil => exact List.pairwise_singleton _ _
  | cons first rest ih =>
    obtain ⟨hfirst, hrest⟩ := List.pairwise_cons.mp h
    unfold insertMapping
    split_ifs with hless
    · refine List.pairwise_cons.mpr ⟨?_, h⟩
      intro m hm
      rcases List.mem_cons.mp hm with rfl | hm
      · exact hless
      · exact hless.trans (hfirst m hm)
    · refine List.pairwise_cons.mpr
        ⟨?_, ih (fun m hm => hnew m (List.mem_cons_of_mem _ hm)) hrest⟩
      intro m hm
      rcases mem_insertMapping.mp hm with rfl | hm
      · exact lt_of_le_of_ne (not_lt.mp hless) (hnew first List.mem_cons_self)
      · exact hfirst m hm

/-- Mappings in order are told by which there are. -/
theorem mappings_ext {mappings' : List (String × String)} (h : mappings.Pairwise (·.1 < ·.1))
    (h' : mappings'.Pairwise (·.1 < ·.1)) (hmem : ∀ m, m ∈ mappings ↔ m ∈ mappings') :
    mappings = mappings' := by
  have hnodup : ∀ {l : List (String × String)}, l.Pairwise (·.1 < ·.1) → l.Nodup := by
    intro l hl
    apply hl.imp
    rintro a b hless rfl
    exact lt_irrefl _ hless
  refine List.Perm.eq_of_pairwise ?_ h h'
    ((List.perm_ext_iff_of_nodup (hnodup h) (hnodup h')).mpr hmem)
  intro a b _ _ hab hba
  exact absurd hba (lt_asymm hab)

end Mappings

/-! ### What the keys are given, and the settings -/

variable {look : String → Option String} {s t : Settings} {key value : String} {c : Choice}
  {fault : Fault} {seen : List String} {pairs : List (String × String)}
  {choices : List Choice}

/-- The value that the pairs give to a key. -/
def given (pairs : List (String × String)) (key : String) : Option String := pairs.lookup key

theorem given_cons (key value : String) (pairs : List (String × String)) :
    given ((key, value) :: pairs) = Function.update (given pairs) key (some value) := by
  funext other
  by_cases hother : other = key
  · subst hother
    rw [Function.update_self]
    exact List.lookup_cons_self
  · rw [Function.update_of_ne hother, given, given, List.lookup_cons, beq_false_of_ne hother]

theorem given_eq_none_iff : given pairs key = none ↔ ∀ pair ∈ pairs, pair.1 ≠ key := by
  simp only [given, List.lookup_eq_none_iff, bne_iff_ne, ne_comm]

/-- The settings that are standard but for what the keys are given. -/
structure Chooses (look : String → Option String) (s : Settings) : Prop where
  package : s.package = look "package"
  template : Template.parse ((look "operation_name_template").getD "\x7bmethod\x7d") =
    .ok s.template
  fileSuffix : s.fileSuffix = (look "file_suffix").getD "_nexus.pb.go"
  paths : s.paths = if look "paths" = some "source_relative" then .sourceRelative else .importPath
  module : s.module = (look "module").map (Text.dropEndWhile (· == '/'))
  mapping (file path : String) :
    (file, path) ∈ s.importMappings ↔ file ≠ "" ∧ look ("M" ++ file) = some path
  sorted : s.importMappings.Pairwise (·.1 < ·.1)

/-- A module directory is part of an import path, so it cannot be left out of names that are
    taken from the source. -/
def Compatible (look : String → Option String) : Prop :=
  look "module" = none ∨ look "paths" ≠ some "source_relative"

theorem Chooses.unique (hs : Chooses look s) (ht : Chooses look t) : s = t := by
  have hmappings : s.importMappings = t.importMappings := by
    refine mappings_ext hs.sorted ht.sorted ?_
    rintro ⟨file, path⟩
    rw [hs.mapping, ht.mapping]
  have htemplate : s.template = t.template := Except.ok.inj (hs.template.symm.trans ht.template)
  have hpackage := hs.package.trans ht.package.symm
  have hsuffix := hs.fileSuffix.trans ht.fileSuffix.symm
  have hpaths := hs.paths.trans ht.paths.symm
  have hmodule := hs.module.trans ht.module.symm
  cases s
  cases t
  simp_all

theorem chooses_standard : Chooses (fun _ => none) standard where
  package := rfl
  template := by decide
  fileSuffix := rfl
  paths := rfl
  module := rfl
  mapping := by simp [standard]
  sorted := .nil

/-- The known keys are given the same, and files are mapped otherwise. -/
theorem Chooses.remap {look' : String → Option String} {mappings : List (String × String)}
    (h : Chooses look s) (hknown : ∀ known ∈ knownKeys, look' known = look known)
    (hmapping : ∀ file path,
      (file, path) ∈ mappings ↔ file ≠ "" ∧ look' ("M" ++ file) = some path)
    (hsorted : mappings.Pairwise (·.1 < ·.1)) :
    Chooses look' { s with importMappings := mappings } := by
  refine ⟨?_, ?_, ?_, ?_, ?_, hmapping, hsorted⟩
  · rw [hknown "package" (by decide)]
    exact h.package
  · rw [hknown "operation_name_template" (by decide)]
    exact h.template
  · rw [hknown "file_suffix" (by decide)]
    exact h.fileSuffix
  · rw [hknown "paths" (by decide)]
    exact h.paths
  · rw [hknown "module" (by decide)]
    exact h.module

/-- One more key is given a value. -/
theorem Chooses.update (h : Chooses look s) (hnew : look key = none) (hmakes : Makes key value c) :
    Chooses (Function.update look key (some value)) (s.apply c) := by
  have hmapping : key ∈ knownKeys → ∀ file path, (file, path) ∈ s.importMappings ↔
      file ≠ "" ∧ Function.update look key (some value) ("M" ++ file) = some path := by
    intro hknown file path
    rw [h.mapping]
    apply and_congr_right
    intro hfile
    rw [Function.update_of_ne (mapping_ne hknown hfile)]
  have hchooses := h
  obtain ⟨hpackage, htemplate, hsuffix, hpaths, hmodule, hmappings, hsorted⟩ := h
  -- a known key touches one field and no mapping, a mapping touches no other field
  cases hmakes with
  | package hname =>
    exact ⟨by simp [apply], htemplate, hsuffix, hpaths, hmodule, hmapping (by decide), hsorted⟩
  | template hnormal hprint =>
    exact ⟨hpackage, Template.parse_eq_ok_iff.mpr ⟨rfl, hnormal, hprint⟩, hsuffix, hpaths, hmodule,
      hmapping (by decide), hsorted⟩
  | fileSuffix hne hslash =>
    exact ⟨hpackage, htemplate, rfl, hpaths, hmodule, hmapping (by decide), hsorted⟩
  | module hne =>
    exact ⟨hpackage, htemplate, hsuffix, hpaths, rfl, hmapping (by decide), hsorted⟩
  | importPath =>
    exact ⟨hpackage, htemplate, hsuffix, by simp [apply], hmodule, hmapping (by decide), hsorted⟩
  | sourceRelative =>
    exact ⟨hpackage, htemplate, hsuffix, by simp [apply], hmodule, hmapping (by decide), hsorted⟩
  | @mapping file _ hfile hpath =>
    have hfresh : ∀ m ∈ s.importMappings, m.1 ≠ file := by
      rintro ⟨file', path'⟩ hm rfl
      exact nomatch hnew.symm.trans ((hmappings _ _).mp hm).2
    refine hchooses.remap ?_ ?_ (pairwise_insertMapping hfresh hsorted)
    · intro known hknown
      exact Function.update_of_ne (mapping_ne hknown hfile).symm _ _
    · intro file' path'
      rw [mem_insertMapping, hmappings, Prod.mk.injEq, Function.update_apply]
      by_cases hfile' : file' = file
      · subst hfile'
        simp [hfile, hnew, eq_comm]
      · simp [hfile', String.append_right_inj]

/-- What the keys are given by the pairs that are read, behind what they were given before. -/
theorem Reads.chooses {entries : List String} (hreads : Reads seen entries pairs choices)
    (h : Chooses look s) (hseen : ∀ key, key ∉ seen → look key = none) :
    Chooses (fun key => (look key).or (given pairs key)) (choices.foldl apply s) := by
  induction hreads generalizing look s with
  | nil => simpa [given] using h
  | @cons seen rest entry key value c pairs choices hsaid hnew hmakes hrest ih =>
    have hlater : ∀ other, other ∉ key :: seen →
        Function.update look key (some value) other = none := by
      intro other hother
      rw [Function.update_of_ne (List.ne_of_not_mem_cons hother)]
      exact hseen other (List.not_mem_of_not_mem_cons hother)
    have hstep := ih (h.update (hseen key hnew) hmakes) hlater
    -- the key had no value, so it can stand in front of the others or behind them
    have hlook : (fun other => (look other).or (given ((key, value) :: pairs) other)) =
        fun other => (Function.update look key (some value) other).or (given pairs other) := by
      funext other
      rw [given_cons]
      by_cases hother : other = key
      · subst hother
        simp [hseen _ hnew]
      · rw [Function.update_of_ne hother, Function.update_of_ne hother]
    rw [hlook]
    exact hstep

/-! ### Accepted entries -/

/-- Each entry says a key and a value that fits it, and no two say the same key. -/
structure Accepted (entries : List String) (pairs : List (String × String)) : Prop where
  said : List.Forall₂ (fun entry pair => Says entry pair.1 pair.2) entries pairs
  fits : ∀ pair ∈ pairs, ∃ c, Makes pair.1 pair.2 c
  distinct : (pairs.map (·.1)).Nodup

theorem Accepted.nil : Accepted [] [] := ⟨.nil, by simp, .nil⟩

theorem Accepted.cons {rest : List String} {entry : String} (h : Accepted rest pairs)
    (hsaid : Says entry key value) (hmakes : Makes key value c)
    (hnew : ∀ pair ∈ pairs, pair.1 ≠ key) : Accepted (entry :: rest) ((key, value) :: pairs) := by
  refine ⟨.cons hsaid h.said, ?_, List.nodup_cons.mpr ⟨?_, h.distinct⟩⟩
  · rintro pair (_ | ⟨_, hpair⟩)
    · exact ⟨c, hmakes⟩
    · exact h.fits pair hpair
  · intro hmem
    obtain ⟨pair, hpair, hkey⟩ := List.mem_map.mp hmem
    exact hnew pair hpair hkey

theorem exists_reads_iff {entries : List String} : (∃ choices, Reads seen entries pairs choices) ↔
    Accepted entries pairs ∧ ∀ pair ∈ pairs, pair.1 ∉ seen := by
  constructor
  · rintro ⟨choices, hreads⟩
    induction hreads with
    | nil => exact ⟨.nil, by simp⟩
    | cons hsaid hnew hmakes _ ih =>
      obtain ⟨haccepted, hlater⟩ := ih
      refine ⟨haccepted.cons hsaid hmakes fun pair hpair =>
        List.ne_of_not_mem_cons (hlater pair hpair), ?_⟩
      rintro pair (_ | ⟨_, hpair⟩)
      · exact hnew
      · exact List.not_mem_of_not_mem_cons (hlater pair hpair)
  · rintro ⟨⟨hsaid, hfits, hdistinct⟩, hnew⟩
    induction hsaid generalizing seen with
    | nil => exact ⟨[], .nil⟩
    | @cons entry pair rest pairs hfirst _ ih =>
      rw [List.map_cons, List.nodup_cons] at hdistinct
      obtain ⟨c, hmakes⟩ := hfits pair List.mem_cons_self
      have hlater : ∀ later ∈ pairs, later.1 ∉ pair.1 :: seen := by
        intro later hlater hmem
        rcases List.mem_cons.mp hmem with hkey | hmem
        · exact hdistinct.1 (hkey ▸ List.mem_map_of_mem hlater)
        · exact hnew later (List.mem_cons_of_mem _ hlater) hmem
      obtain ⟨choices, hrest⟩ :=
        ih hlater (fun p hp => hfits p (List.mem_cons_of_mem _ hp)) hdistinct.2
      exact ⟨c :: choices, .cons hfirst (hnew pair List.mem_cons_self) hmakes hrest⟩

theorem accepted_iff {entries : List String} :
    Accepted entries pairs ↔ ∃ choices, Reads [] entries pairs choices := by
  rw [exists_reads_iff]
  simp

theorem Accepted.perm {entries entries' : List String} (h : Accepted entries pairs)
    (hperm : entries.Perm entries') :
    ∃ pairs', Accepted entries' pairs' ∧ given pairs' = given pairs := by
  obtain ⟨pairs', hsaid, hpairs⟩ := List.perm_comp_forall₂ hperm.symm h.said
  refine ⟨pairs', ⟨hsaid, ?_, (hpairs.map _).nodup_iff.mpr h.distinct⟩, ?_⟩
  · intro pair hpair
    exact h.fits pair (hpairs.mem_iff.mp hpair)
  · funext key
    exact (lookup_perm hpairs.symm h.distinct key).symm

/-! ### Accepted parameters -/

theorem checkPlacement_eq_ok_iff (h : Chooses look s) :
    checkPlacement s = .ok t ↔ Compatible look ∧ s = t := by
  unfold checkPlacement Compatible
  rw [h.module, h.paths]
  cases look "module" <;> by_cases hpaths : look "paths" = some "source_relative" <;> simp [hpaths]

theorem checkPlacement_eq_error_iff (h : Chooses look s) :
    checkPlacement s = .error fault ↔ ¬ Compatible look ∧
      fault = .invalidOption "module" "cannot be combined with paths=source_relative" := by
  unfold checkPlacement Compatible
  rw [h.module, h.paths]
  cases look "module" <;> by_cases hpaths : look "paths" = some "source_relative" <;>
    simp [hpaths, eq_comm (a := fault)]

/-- Accepted entries choose settings, whether or not these can stand together. -/
theorem Accepted.applyAll {entries : List String} (h : Accepted entries pairs) :
    ∃ s, applyAll [] standard entries = .ok s ∧ Chooses (given pairs) s := by
  obtain ⟨choices, hreads⟩ := accepted_iff.mp h
  refine ⟨_, applyAll_eq_ok_iff.mpr ⟨pairs, choices, hreads, rfl⟩, ?_⟩
  simpa using hreads.chooses chooses_standard fun _ _ => rfl

theorem applyAll_standard_eq_ok {entries : List String} (h : applyAll [] standard entries = .ok s) :
    ∃ pairs, Accepted entries pairs ∧ Chooses (given pairs) s := by
  obtain ⟨pairs, choices, hreads, -⟩ := applyAll_eq_ok_iff.mp h
  have haccepted : Accepted entries pairs := accepted_iff.mpr ⟨choices, hreads⟩
  obtain ⟨s', hs', hchooses⟩ := haccepted.applyAll
  obtain rfl := Except.ok.inj (h.symm.trans hs')
  exact ⟨pairs, haccepted, hchooses⟩

theorem parse_eq_ok_iff {parameter : String} : parse (some parameter) = .ok s ↔
    ∃ pairs, Accepted (entries parameter) pairs ∧ Compatible (given pairs) ∧
      Chooses (given pairs) s := by
  unfold parse
  rw [Traced.except_bind_eq_ok]
  constructor
  · rintro ⟨chosen, hchosen, hplaced⟩
    obtain ⟨pairs, haccepted, hchooses⟩ := applyAll_standard_eq_ok hchosen
    obtain ⟨hcompatible, rfl⟩ := (checkPlacement_eq_ok_iff hchooses).mp hplaced
    exact ⟨pairs, haccepted, hcompatible, hchooses⟩
  · rintro ⟨pairs, haccepted, hcompatible, hs⟩
    obtain ⟨chosen, hchosen, hchooses⟩ := haccepted.applyAll
    exact ⟨chosen, hchosen,
      (checkPlacement_eq_ok_iff hchooses).mpr ⟨hcompatible, hchooses.unique hs⟩⟩

theorem parse_eq_error_iff {parameter : String} : parse (some parameter) = .error fault ↔
    (∃ before entry after pairs, entries parameter = before ++ entry :: after ∧
      Accepted before pairs ∧ Refused (pairs.map (·.1)) entry fault) ∨
    ∃ pairs, Accepted (entries parameter) pairs ∧ ¬ Compatible (given pairs) ∧
      fault = .invalidOption "module" "cannot be combined with paths=source_relative" := by
  unfold parse
  rw [Traced.except_bind_eq_error, applyAll_eq_error_iff]
  refine or_congr ?_ ?_
  · simp only [List.append_nil, accepted_iff]
    constructor
    · rintro ⟨before, entry, after, pairs, choices, hentries, hreads, hrefused⟩
      exact ⟨before, entry, after, pairs, hentries, ⟨choices, hreads⟩, hrefused⟩
    · rintro ⟨before, entry, after, pairs, hentries, ⟨choices, hreads⟩, hrefused⟩
      exact ⟨before, entry, after, pairs, choices, hentries, hreads, hrefused⟩
  · constructor
    · rintro ⟨chosen, hchosen, hplaced⟩
      obtain ⟨pairs, haccepted, hchooses⟩ := applyAll_standard_eq_ok hchosen
      exact ⟨pairs, haccepted, (checkPlacement_eq_error_iff hchooses).mp hplaced⟩
    · rintro ⟨pairs, haccepted, hconflict⟩
      obtain ⟨chosen, hchosen, hchooses⟩ := haccepted.applyAll
      exact ⟨chosen, hchosen, (checkPlacement_eq_error_iff hchooses).mpr hconflict⟩

/-- The same entries in another order choose the same. -/
theorem parse_eq_ok_of_perm {parameter other : String}
    (hperm : (entries parameter).Perm (entries other)) (h : parse (some parameter) = .ok s) :
    parse (some other) = .ok s := by
  obtain ⟨pairs, haccepted, hcompatible, hchooses⟩ := parse_eq_ok_iff.mp h
  obtain ⟨pairs', haccepted', hgiven⟩ := haccepted.perm hperm
  rw [← hgiven] at hcompatible hchooses
  exact parse_eq_ok_iff.mpr ⟨pairs', haccepted', hcompatible, hchooses⟩

/-- A parameter is accepted exactly if each entry says a key that no other says and a value that
    fits it, and a module directory does not meet names that are taken from the source. The
    settings are then what the keys are given, and standard otherwise. The fault of any other
    parameter is that of its first entry that is refused; that the choices do not stand together
    is found only behind all entries. The order decides nothing but which fault it is. -/
theorem parse_exact (parameter : String) :
    ((∃ s, parse (some parameter) = .ok s) ↔
        ∃ pairs, Accepted (entries parameter) pairs ∧ Compatible (given pairs)) ∧
      (∀ s pairs, parse (some parameter) = .ok s → Accepted (entries parameter) pairs →
        Chooses (given pairs) s) ∧
      (∀ fault, parse (some parameter) = .error fault ↔
        (∃ before entry after pairs, entries parameter = before ++ entry :: after ∧
          Accepted before pairs ∧ Refused (pairs.map (·.1)) entry fault) ∨
        ∃ pairs, Accepted (entries parameter) pairs ∧ ¬ Compatible (given pairs) ∧
          fault = .invalidOption "module" "cannot be combined with paths=source_relative") ∧
      ∀ other, (entries other).Perm (entries parameter) →
        (∀ s, parse (some other) = .ok s ↔ parse (some parameter) = .ok s) ∧
          ((∃ fault, parse (some other) = .error fault) ↔
            ∃ fault, parse (some parameter) = .error fault) := by
  refine ⟨?_, ?_, fun fault => parse_eq_error_iff, ?_⟩
  · constructor
    · rintro ⟨s, hs⟩
      obtain ⟨pairs, haccepted, hcompatible, -⟩ := parse_eq_ok_iff.mp hs
      exact ⟨pairs, haccepted, hcompatible⟩
    · rintro ⟨pairs, haccepted, hcompatible⟩
      obtain ⟨s, -, hchooses⟩ := haccepted.applyAll
      exact ⟨s, parse_eq_ok_iff.mpr ⟨pairs, haccepted, hcompatible, hchooses⟩⟩
  · intro s pairs hs haccepted
    obtain ⟨chosen, hchosen, hplaced⟩ := Traced.except_bind_eq_ok.mp hs
    obtain ⟨s', hs', hchooses⟩ := haccepted.applyAll
    obtain rfl := Except.ok.inj (hchosen.symm.trans hs')
    obtain ⟨-, rfl⟩ := (checkPlacement_eq_ok_iff hchooses).mp hplaced
    exact hchooses
  · intro other hperm
    have hok : ∀ s, parse (some other) = .ok s ↔ parse (some parameter) = .ok s := by
      intro s
      exact ⟨parse_eq_ok_of_perm hperm, parse_eq_ok_of_perm hperm.symm⟩
    refine ⟨hok, ?_⟩
    cases hparse : parse (some parameter) with
    | ok s => simp [(hok s).mpr hparse]
    | error fault =>
      cases hother : parse (some other) with
      | ok s => exact nomatch ((hok s).mp hother).symm.trans hparse
      | error fault' => simp

/-- Two entries in both orders, choices that do not stand together, and a key that comes twice
    with an unknown one behind it. -/
theorem parse_exact_swapped :
    parse (some " Ma.proto=example.com/a ,,module=example.com//") =
        .ok { standard with
          module := some "example.com", importMappings := [("a.proto", "example.com/a")] } ∧
      Chooses (given [("module", "example.com//"), ("Ma.proto", "example.com/a")])
        { standard with
          module := some "example.com", importMappings := [("a.proto", "example.com/a")] } ∧
      parse (some "module=a,paths=source_relative") =
        .error (.invalidOption "module" "cannot be combined with paths=source_relative") ∧
      parse (some "package=a,package=b,colour=red") =
        .error (.invalidOption "package" "specified more than once") := by
  have hsaid : ∀ {entry key value : String}, keyValue entry = .ok (key, value) →
      Says entry key value := keyValue_eq_ok_iff.mp
  have hparse : parse (some "module=example.com//,Ma.proto=example.com/a") =
      .ok { standard with
        module := some "example.com", importMappings := [("a.proto", "example.com/a")] } := by
    decide +kernel
  obtain ⟨-, hchooses, -, hperm⟩ := parse_exact "module=example.com//,Ma.proto=example.com/a"
  refine ⟨((hperm _ (by decide +kernel)).1 _).mpr hparse, hchooses _ _ hparse ?_, ?_, ?_⟩
  · have hentries : entries "module=example.com//,Ma.proto=example.com/a" =
        ["module=example.com//", "Ma.proto=example.com/a"] := by decide +kernel
    have hmapping : Makes "Ma.proto" "example.com/a" (.mapping "a.proto" "example.com/a") :=
      @Makes.mapping "a.proto" _ (by decide) (by decide)
    rw [hentries]
    exact (Accepted.nil.cons (hsaid (by decide +kernel)) hmapping (by simp)).cons
      (hsaid (by decide +kernel)) (.module (by decide)) (by decide)
  · obtain ⟨-, -, herror, -⟩ := parse_exact "module=a,paths=source_relative"
    have hentries : entries "module=a,paths=source_relative" =
        ["module=a", "paths=source_relative"] := by decide +kernel
    refine (herror _).mpr (.inr ⟨[("module", "a"), ("paths", "source_relative")], ?_,
      by unfold Compatible; decide, rfl⟩)
    rw [hentries]
    exact (Accepted.nil.cons (hsaid (by decide +kernel)) .sourceRelative (by simp)).cons
      (hsaid (by decide +kernel)) (.module (by decide)) (by decide)
  · obtain ⟨-, -, herror, -⟩ := parse_exact "package=a,package=b,colour=red"
    refine (herror _).mpr (.inl ⟨["package=a"], "package=b", ["colour=red"], [("package", "a")],
      by decide +kernel, Accepted.nil.cons (hsaid (by decide +kernel)) (.package (by decide))
        (by simp), ?_⟩)
    have hagain : Says "package=b" "package" "b" := hsaid (by decide +kernel)
    exact .repeated hagain (by simp) fun _ => by decide

end GoBindings.Settings
