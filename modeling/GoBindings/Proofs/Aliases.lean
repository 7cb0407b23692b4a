/-
  GoBindings/Proofs/Aliases.lean
  ==============================
  **Import blocks that grow while types are mapped.**

  An import block is sound if no path is listed twice and no alias is taken twice, the
  names of parameters and variables being taken from the start (`WellFormed`). Adding a
  path keeps that, because among more candidates than taken names one is free
  (`freshAlias_not_mem`), and it keeps the aliases that there are.

  A file maps its message types one after the other (`TypeMapper.mapAll`). What one call
  does to the import block and what a whole run does to it is the same relation
  (`Extends`), which is closed under composition. So every message is written with the
  alias that the finished block has for its path, although the block was not finished
  when the expression was made.
-/
import GoBindings.Proofs.Generation
import GoBindings.Proofs.Keys
import Mathlib.Data.List.Perm.Subperm

namespace GoBindings

namespace Go

/-! ### Characters of aliases -/

/-- A character that package names are made of. -/
def isNameChar (c : Char) : Bool := isAlphanumeric c || c == '_'

/-- The text is what a package name may be, as far as its characters go. -/
structure IsName (s : String) : Prop where
  ne_empty : s ≠ ""
  chars : ∀ c ∈ s.toList, isNameChar c

theorem isNameChar_replaceForeign {s : String} :
    ∀ c ∈ (replaceForeign s).toList, isNameChar c := by
  intro c hc
  rw [replaceForeign, String.toList_ofList] at hc
  obtain ⟨d, -, rfl⟩ := List.mem_map.mp hc
  unfold isNameChar
  split
  case isTrue hd => rw [hd, Bool.true_or]
  case isFalse => exact Bool.or_true _

/-- An underscore goes in front exactly of what would start wrongly or would be a keyword. -/
theorem sanitize_cases (s : String) :
    (sanitize s = replaceForeign s ∧ startsWithLetter (replaceForeign s) ∧
        replaceForeign s ∉ keywords) ∨
      (sanitize s = "_" ++ replaceForeign s ∧
        (startsWithLetter (replaceForeign s) → replaceForeign s ∈ keywords)) := by
  unfold sanitize
  by_cases hletter : startsWithLetter (replaceForeign s) = true
  · by_cases hkeyword : replaceForeign s ∈ keywords
    · exact .inr ⟨by simp [hkeyword], fun _ => hkeyword⟩
    · exact .inl ⟨by simp [hletter, hkeyword], hletter, hkeyword⟩
  · exact .inr ⟨by simp [hletter], fun h => absurd h hletter⟩

theorem isName_sanitize (s : String) : IsName (sanitize s) := by
  have hchars := isNameChar_replaceForeign (s := s)
  rcases sanitize_cases s with ⟨hsame, hletter, -⟩ | ⟨hmarked, -⟩
  · rw [hsame]
    refine ⟨?_, hchars⟩
    intro hempty
    rw [hempty] at hletter
    exact nomatch hletter
  · rw [hmarked]
    refine ⟨fun h => absurd (String.append_eq_empty_iff.mp h).1 (by decide), ?_⟩
    rw [String.toList_append, List.forall_mem_append]
    refine ⟨?_, hchars⟩
    intro c hc
    rw [List.mem_singleton.mp hc]
    exact Bool.or_true _

theorem isName_atPath (path : String) : IsName (Package.atPath path).name := by
  simpa only [Package.atPath] using isName_sanitize (Text.afterLast '/' path)

theorem isName_ofDeclaration (declaration : String) :
    IsName (Package.ofDeclaration declaration).name := by
  unfold Package.ofDeclaration
  split
  case h_1 => exact isName_atPath _
  case h_2 path name hcut =>
    by_cases hempty : (Text.trim name).isEmpty
    · rw [if_pos hempty]
      exact isName_atPath _
    · rw [if_neg hempty]
      simpa only using isName_sanitize (Text.trim name)

theorem isName_ofSourceName (file : String) : IsName (Package.ofSourceName file).name := by
  unfold Package.ofSourceName
  split
  case h_1 directory base hcut =>
    by_cases hempty : directory.isEmpty
    · rw [if_pos hempty]
      exact isName_atPath _
    · rw [if_neg hempty]
      exact isName_atPath _
  case h_2 => exact isName_atPath _

theorem isName_goPackageOf (f : Descriptor.File) (settings : Settings) :
    IsName (f.goPackageOf settings).name := by
  unfold Descriptor.File.goPackageOf
  split
  case h_1 => exact isName_ofDeclaration _
  case h_2 => exact isName_ofSourceName _

theorem isAlphanum_iff {c : Char} : c.isAlphanum ↔ (65 ≤ c.toNat ∧ c.toNat ≤ 90) ∨
    (97 ≤ c.toNat ∧ c.toNat ≤ 122) ∨ (48 ≤ c.toNat ∧ c.toNat ≤ 57) := by
  have hupper : c.isUpper = decide (c.val ≥ 'A'.val ∧ c.val ≤ 'Z'.val) := rfl
  have hlower : c.isLower = (decide (c.val ≥ 'a'.val) && decide (c.val ≤ 'z'.val)) := rfl
  have hdigit : c.isDigit = (decide (c.val ≥ '0'.val) && decide (c.val ≤ '9'.val)) := rfl
  have halphanum : c.isAlphanum = (c.isUpper || c.isLower || c.isDigit) := rfl
  simp [halphanum, hupper, hlower, hdigit, UInt32.le_iff_toNat_le, or_assoc]

theorem isNameChar_of_isAlphanum {c : Char} (h : c.isAlphanum) : isNameChar c := by
  have hletters : (65, 90) ∈ Unicode.alphabeticRanges ∧ (97, 122) ∈ Unicode.alphabeticRanges := by
    decide +kernel
  have hdigits : (48, 57) ∈ Unicode.numericRanges := by decide +kernel
  have halphanumeric : isAlphanumeric c := by
    rw [isAlphanumeric, Bool.or_eq_true]
    rcases isAlphanum_iff.mp h with hupper | hlower | hdigit
    · exact .inl (Unicode.Ranges.contains_iff.mpr ⟨_, hletters.1, hupper⟩)
    · exact .inl (Unicode.Ranges.contains_iff.mpr ⟨_, hletters.2, hlower⟩)
    · exact .inr (Unicode.Ranges.contains_iff.mpr ⟨_, hdigits, hdigit⟩)
  rw [isNameChar, halphanumeric, Bool.true_or]

namespace Imports

/-! ### Choosing an alias -/

theorem toString_injective : Function.Injective (toString : Nat → String) := by
  intro m n h
  rw [Nat.toString_eq_ofList_toDigits, Nat.toString_eq_ofList_toDigits] at h
  have hdigits : Nat.toDigits 10 m = Nat.toDigits 10 n := String.ofList_injective h
  rw [← Nat.ofDigitChars_ten_toDigits (n := m), hdigits, Nat.ofDigitChars_ten_toDigits]

theorem candidate_ne_self (name : String) (n : Nat) : candidate name (n + 1) ≠ name := by
  intro h
  have hempty : toString (n + 1) = "" := String.append_eq_left_iff.mp h
  exact Nat.repr_ne_empty hempty

theorem candidate_injective (name : String) : Function.Injective (candidate name) := by
  intro m n h
  cases m with
  | zero =>
    cases n with
    | zero => rfl
    | succ n => exact absurd h.symm (candidate_ne_self name n)
  | succ m =>
    cases n with
    | zero => exact absurd h (candidate_ne_self name m)
    | succ n => exact toString_injective ((String.append_right_inj name).mp h)

/-- One candidate more than there are taken names is enough to find a free one. -/
theorem exists_candidate_not_mem (taken : List String) (name : String) :
    ∃ n < taken.length + 1, candidate name n ∉ taken := by
  by_contra hnone
  -- otherwise so many different candidates would all be among the taken names
  have hsub : (List.range (taken.length + 1)).map (candidate name) ⊆ taken := by
    intro used halias
    obtain ⟨n, hn, rfl⟩ := List.mem_map.mp halias
    by_contra hfree
    exact hnone ⟨n, List.mem_range.mp hn, hfree⟩
  have hnodup : ((List.range (taken.length + 1)).map (candidate name)).Nodup :=
    List.nodup_range.map (candidate_injective name)
  have hlength := (List.subperm_of_subset hnodup hsub).length_le
  simp only [List.length_map, List.length_range] at hlength
  omega

/-- The alias is the first candidate that is free. -/
theorem freshAlias_first (taken : List String) (name : String) :
    ∃ n, freshAlias taken name = candidate name n ∧ candidate name n ∉ taken ∧
      ∀ m < n, candidate name m ∈ taken := by
  obtain ⟨k, hk, hfree⟩ := exists_candidate_not_mem taken name
  unfold freshAlias
  rw [List.find?_map]
  cases hfind : (List.range (taken.length + 1)).find?
      ((!taken.contains ·) ∘ candidate name) with
  | none =>
    have hall := List.find?_eq_none.mp hfind k (List.mem_range.mpr hk)
    simp [hfree] at hall
  | some n =>
    obtain ⟨hn, -, hbefore⟩ := List.find?_range_eq_some.mp hfind
    exact ⟨n, rfl, by simpa using hn, fun m hm => by simpa using hbefore m hm⟩

theorem freshAlias_spec (taken : List String) (name : String) :
    freshAlias taken name ∉ taken ∧ ∃ n, freshAlias taken name = candidate name n := by
  obtain ⟨n, hfirst, hfree, -⟩ := freshAlias_first taken name
  rw [hfirst]
  exact ⟨hfree, n, rfl⟩

theorem freshAlias_not_mem (taken : List String) (name : String) :
    freshAlias taken name ∉ taken :=
  (freshAlias_spec taken name).1

/-! ### Names of the language -/

/-- Names of the language itself that generated functions use. -/
def predeclaredNames : List String := ["string", "error", "nil"]

theorem isDigit_of_mem_toString {n : Nat} {c : Char} (h : c ∈ (toString n).toList) :
    c.isDigit := by
  rw [Nat.toString_eq_ofList_toDigits, String.toList_ofList] at h
  exact Nat.isDigit_of_mem_toDigits (by decide) (by decide) h

/-- A candidate with a number behind the name ends in a digit. -/
theorem getLast?_candidate (name : String) (n : Nat) :
    ∃ c, (candidate name (n + 1)).toList.getLast? = some c ∧ c.isDigit := by
  have hne : (toString (n + 1)).toList ≠ [] := by
    intro hnil
    exact Nat.repr_ne_empty (String.toList_eq_nil_iff.mp hnil)
  refine ⟨(toString (n + 1)).toList.getLast hne, ?_, ?_⟩
  · rw [candidate, String.toList_append, List.getLast?_append_of_ne_nil _ hne,
      List.getLast?_eq_some_getLast hne]
  · exact isDigit_of_mem_toString (List.getLast_mem hne)

/-- So it is none of names that end in other characters. -/
theorem candidate_not_mem {names : List String}
    (hnames : ∀ s ∈ names, s.toList.getLast?.any (!·.isDigit)) (name : String) (n : Nat) :
    candidate name (n + 1) ∉ names := by
  intro hmem
  obtain ⟨c, hlast, hdigit⟩ := getLast?_candidate name n
  have hother := hnames _ hmem
  rw [hlast] at hother
  simp [hdigit] at hother

theorem isName_candidate {name : String} (h : IsName name) (n : Nat) :
    IsName (candidate name n) := by
  cases n with
  | zero => exact h
  | succ n =>
    refine ⟨?_, ?_⟩
    · exact fun hempty => h.ne_empty (String.append_eq_empty_iff.mp hempty).1
    · rw [candidate, String.toList_append, List.forall_mem_append]
      refine ⟨h.chars, fun c hc => isNameChar_of_isAlphanum ?_⟩
      rw [Char.isAlphanum, isDigit_of_mem_toString hc, Bool.or_true]

/-- A number is never what makes an alias a predeclared name. -/
theorem candidate_eq_of_mem_predeclaredNames {name : String} {n : Nat}
    (h : candidate name n ∈ predeclaredNames) : candidate name n = name := by
  cases n with
  | zero => rfl
  | succ n => exact absurd h (candidate_not_mem (by decide) name n)

/-! ### Adding a path -/

variable {i after : Imports} {path name : String}

/-- Every path that has an alias has the same one in the other block. -/
def Keeps (i after : Imports) : Prop :=
  ∀ path used, i.alias? path = some used → after.alias? path = some used

theorem Keeps.refl (i : Imports) : i.Keeps i := fun _ _ h => h

theorem Keeps.trans {last : Imports} (h : i.Keeps after) (hlater : after.Keeps last) :
    i.Keeps last :=
  fun path used hused => hlater path used (h path used hused)

def paths (i : Imports) : List String := i.entries.map (·.1)

def aliases (i : Imports) : List String := i.entries.map (·.2)

/-- No path is listed twice, and no two aliases are the same or the name of a local. -/
structure WellFormed (i : Imports) : Prop where
  paths : i.paths.Nodup
  taken : i.taken.Nodup

theorem alias?_eq_none_iff : i.alias? path = none ↔ path ∉ i.paths := by
  unfold alias? Imports.paths
  rw [List.lookup_eq_none_iff]
  constructor
  · intro h hmem
    obtain ⟨entry, hentry, rfl⟩ := List.mem_map.mp hmem
    simpa using h entry hentry
  · intro h entry hentry
    simp only [bne_iff_ne, ne_eq]
    rintro rfl
    exact h (List.mem_map_of_mem hentry)

theorem mem_entries_of_alias? {used : String} (h : i.alias? path = some used) :
    (path, used) ∈ i.entries := by
  obtain ⟨before, after, hentries, -⟩ := List.lookup_eq_some_iff.mp h
  rw [hentries]
  exact List.mem_append_right before List.mem_cons_self

theorem add_cases (i : Imports) (path name : String) :
    (∃ known, i.alias? path = some known ∧ i.add path name = (known, i)) ∨
      (i.alias? path = none ∧ i.add path name =
        (freshAlias i.taken name, ⟨i.entries ++ [(path, freshAlias i.taken name)]⟩)) := by
  unfold add
  cases i.alias? path with
  | none => exact .inr ⟨rfl, rfl⟩
  | some known => exact .inl ⟨known, rfl, rfl⟩

theorem alias?_add_self (i : Imports) (path name : String) :
    (i.add path name).2.alias? path = some (i.add path name).1 := by
  rcases add_cases i path name with ⟨known, hknown, hadd⟩ | ⟨hnone, hadd⟩
  · rw [hadd]
    exact hknown
  · rw [hadd]
    unfold alias? at hnone ⊢
    rw [List.lookup_append, hnone, Option.none_or, List.lookup_cons_self]

theorem keeps_add (i : Imports) (path name : String) : i.Keeps (i.add path name).2 := by
  intro other used h
  rcases add_cases i path name with ⟨known, -, hadd⟩ | ⟨-, hadd⟩
  · rw [hadd]
    exact h
  · rw [hadd]
    unfold alias? at h ⊢
    rw [List.lookup_append, h, Option.some_or]

theorem mem_paths_add {other : String} :
    other ∈ (i.add path name).2.paths ↔ other ∈ i.paths ∨ other = path := by
  rcases add_cases i path name with ⟨known, hknown, hadd⟩ | ⟨-, hadd⟩
  · rw [hadd]
    have hmem : path ∈ i.paths := List.mem_map_of_mem (mem_entries_of_alias? hknown)
    constructor
    · exact .inl
    · rintro (hother | rfl)
      · exact hother
      · exact hmem
  · rw [hadd]
    simp [paths]

theorem mem_entries_add {entry : String × String}
    (h : entry ∈ (i.add path name).2.entries) :
    entry ∈ i.entries ∨ (entry.1 = path ∧ ∃ n, entry.2 = candidate name n) := by
  rcases add_cases i path name with ⟨known, -, hadd⟩ | ⟨-, hadd⟩
  · rw [hadd] at h
    exact .inl h
  · rw [hadd] at h
    rcases List.mem_append.mp h with hold | hnew
    · exact .inl hold
    · obtain rfl := List.mem_singleton.mp hnew
      exact .inr ⟨rfl, (freshAlias_spec i.taken name).2⟩

theorem WellFormed.add (h : i.WellFormed) (path name : String) :
    (i.add path name).2.WellFormed := by
  rcases add_cases i path name with ⟨known, -, hadd⟩ | ⟨hnone, hadd⟩
  · rw [hadd]
    exact h
  · rw [hadd]
    have hpath : path ∉ i.paths := alias?_eq_none_iff.mp hnone
    have hfree := freshAlias_not_mem i.taken name
    constructor
    · have hpaths := h.paths
      unfold Imports.paths at hpath hpaths ⊢
      rw [List.map_append, List.nodup_append]
      refine ⟨hpaths, List.nodup_singleton _, ?_⟩
      rintro a ha b hb rfl
      obtain rfl := List.mem_singleton.mp hb
      exact hpath ha
    · have htaken := h.taken
      unfold Imports.taken at hfree htaken ⊢
      rw [List.map_append, ← List.append_assoc, List.nodup_append]
      refine ⟨htaken, List.nodup_singleton _, ?_⟩
      rintro a ha b hb rfl
      obtain rfl := List.mem_singleton.mp hb
      exact hfree ha

theorem wellFormed_empty : empty.WellFormed := ⟨List.nodup_nil, by decide⟩

theorem wellFormed_framework : framework.WellFormed :=
  ((wellFormed_empty.add nexusPath "nexus").add workerPath "worker").add workflowPath "workflow"

theorem entries_framework :
    framework.entries =
      [(nexusPath, "nexus"), (workerPath, "worker"), (workflowPath, "workflow")] := by
  decide +kernel

/-- Different paths have different aliases. -/
theorem WellFormed.alias?_inj (h : i.WellFormed) {other used : String}
    (hpath : i.alias? path = some used) (hother : i.alias? other = some used) :
    path = other := by
  have haliases : (i.entries.map (·.2)).Nodup := (List.nodup_append.mp h.taken).2.1
  have heq := List.inj_on_of_nodup_map haliases (mem_entries_of_alias? hpath)
    (mem_entries_of_alias? hother) rfl
  exact congrArg Prod.fst heq

theorem WellFormed.alias_not_local (h : i.WellFormed) {used : String}
    (halias : used ∈ i.aliases) : used ∉ reservedLocals := by
  intro hlocal
  exact (List.nodup_append.mp h.taken).2.2 used hlocal used halias rfl

theorem exists_alias?_of_mem_paths (h : path ∈ i.paths) : ∃ used, i.alias? path = some used := by
  cases hlookup : i.alias? path with
  | none => exact absurd h (alias?_eq_none_iff.mp hlookup)
  | some used => exact ⟨used, rfl⟩

theorem WellFormed.alias?_of_mem (h : i.WellFormed) {used : String}
    (hentry : (path, used) ∈ i.entries) : i.alias? path = some used := by
  obtain ⟨found, hfound⟩ := exists_alias?_of_mem_paths (List.mem_map_of_mem hentry)
  have heq := List.inj_on_of_nodup_map h.paths (mem_entries_of_alias? hfound) hentry rfl
  obtain rfl : found = used := congrArg Prod.snd heq
  exact hfound

theorem mem_sorted {entry : String × String} : entry ∈ i.sorted ↔ entry ∈ i.entries :=
  List.mem_mergeSort

/-- The paths of the block ascend, so none is listed twice. -/
theorem WellFormed.pairwise_sorted (h : i.WellFormed) :
    (i.sorted.map (·.1)).Pairwise (· < ·) :=
  ascending_mergeSort_key h.paths

end Imports

end Go

namespace TypeMapper

variable {t : TypeMapper} {i mid after : Go.Imports} {mapped more : List MappedType}

/-! ### One call -/

/-- The message belongs to another package than the file. -/
def IsForeign (t : TypeMapper) (m : MessageRef) : Prop :=
  m.goPackage.importPath ≠ t.home.importPath

/-- How a message is written in a file with an import block. -/
def exprOf (t : TypeMapper) (i : Go.Imports) (m : MessageRef) : Go.TypeExpr :=
  ⟨if m.goPackage.importPath = t.home.importPath then none
    else i.alias? m.goPackage.importPath, m.goIdent⟩

theorem exprOf_home {m : MessageRef} (h : m.goPackage.importPath = t.home.importPath) :
    t.exprOf i m = ⟨none, m.goIdent⟩ := by
  rw [exprOf, if_pos h]

theorem exprOf_foreign {m : MessageRef} (h : t.IsForeign m) {used : String}
    (hused : i.alias? m.goPackage.importPath = some used) :
    t.exprOf i m = ⟨some used, m.goIdent⟩ := by
  rw [exprOf, if_neg h, hused]

/-- What mapping messages has done to an import block. Those of other packages have their
    paths in it, by aliases made from the names of their packages, and all of them are
    written as the new block says. -/
structure Extends (t : TypeMapper) (i : Go.Imports) (mapped : List MappedType)
    (after : Go.Imports) : Prop where
  wellFormed : i.WellFormed → after.WellFormed
  kept : i.Keeps after
  paths : ∀ path, path ∈ after.paths ↔ path ∈ i.paths ∨
    ∃ m ∈ mapped, t.IsForeign m.message ∧ m.message.goPackage.importPath = path
  entries : ∀ entry ∈ after.entries, entry ∈ i.entries ∨
    ∃ m ∈ mapped, t.IsForeign m.message ∧ m.message.goPackage.importPath = entry.1 ∧
      ∃ n, entry.2 = Go.Imports.candidate m.message.goPackage.name n
  written : ∀ m ∈ mapped, m.expr = t.exprOf after m.message

theorem Extends.refl (t : TypeMapper) (i : Go.Imports) : t.Extends i [] i where
  wellFormed h := h
  kept := .refl i
  paths path := by simp
  entries entry h := .inl h
  written m hm := absurd hm List.not_mem_nil

theorem outcome_write (t : TypeMapper) (i : Go.Imports) (m : MessageRef) :
    (t.write i m).outcome =
      if m.goPackage.importPath = t.home.importPath then .ok (⟨m, none, m.goIdent⟩, i)
      else .ok (⟨m, some (i.add m.goPackage.importPath m.goPackage.name).1, m.goIdent⟩,
        (i.add m.goPackage.importPath m.goPackage.name).2) := by
  unfold write
  split <;> rfl

theorem extends_write {m : MessageRef} {mapped : MappedType}
    (h : (t.write i m).outcome = .ok (mapped, after)) :
    mapped.message = m ∧ t.Extends i [mapped] after := by
  rw [outcome_write] at h
  split at h
  case isTrue hhome =>
    obtain ⟨rfl, rfl⟩ := Prod.mk.inj (Except.ok.inj h)
    have hlocal : ¬ t.IsForeign m := fun hforeign => hforeign hhome
    refine ⟨rfl, fun hwell => hwell, .refl _, fun path => ?_,
      fun entry hentry => .inl hentry, fun n hn => ?_⟩
    · simp [hlocal]
    · obtain rfl := List.mem_singleton.mp hn
      simp [exprOf, hhome]
  case isFalse hforeign =>
    obtain ⟨rfl, rfl⟩ := Prod.mk.inj (Except.ok.inj h)
    refine ⟨rfl, fun hwell => hwell.add _ _, Go.Imports.keeps_add _ _ _, fun path => ?_,
      fun entry hentry => ?_, fun n hn => ?_⟩
    · rw [Go.Imports.mem_paths_add]
      simp [IsForeign, hforeign, @eq_comm _ path]
    · rcases Go.Imports.mem_entries_add hentry with hold | ⟨hpath, hname⟩
      · exact .inl hold
      · exact .inr ⟨_, List.mem_singleton.mpr rfl, hforeign, hpath.symm, hname⟩
    · obtain rfl := List.mem_singleton.mp hn
      simp [exprOf, hforeign, Go.Imports.alias?_add_self]

theorem extends_map {typeName referrer : String} {mapped : MappedType}
    (h : (t.map i typeName referrer).outcome = .ok (mapped, after)) :
    t.index.resolve? typeName = some mapped.message ∧ t.Extends i [mapped] after := by
  unfold map at h
  split at h
  case h_1 m hresolve =>
    obtain ⟨rfl, hextends⟩ := extends_write h
    exact ⟨hresolve, hextends⟩
  case h_2 => exact nomatch h

/-! ### Runs -/

/-- A type that has been written keeps its form when the block grows. -/
theorem exprOf_eq_of_keeps {m : MessageRef} (hkept : i.Keeps after)
    (hpath : t.IsForeign m → m.goPackage.importPath ∈ i.paths) :
    t.exprOf after m = t.exprOf i m := by
  by_cases hhome : m.goPackage.importPath = t.home.importPath
  · rw [exprOf_home hhome, exprOf_home hhome]
  · obtain ⟨used, hused⟩ := Go.Imports.exists_alias?_of_mem_paths (hpath hhome)
    rw [exprOf_foreign hhome hused, exprOf_foreign hhome (hkept _ _ hused)]

/-- How the type with a name is written, if there is such a type. -/
def exprFor (t : TypeMapper) (i : Go.Imports) (typeName : String) : Go.TypeExpr :=
  ((t.index.resolve? typeName).map (t.exprOf i)).getD ⟨none, ""⟩

theorem expr_of_map {typeName referrer : String} {m : MappedType} {last : Go.Imports}
    (h : (t.map i typeName referrer).outcome = .ok (m, after)) (hkept : after.Keeps last) :
    m.expr = t.exprFor last typeName := by
  obtain ⟨hresolve, hextends⟩ := extends_map h
  rw [hextends.written m List.mem_cons_self, exprFor, hresolve, Option.map_some, Option.getD_some]
  refine (exprOf_eq_of_keeps hkept fun hforeign => ?_).symm
  exact (hextends.paths _).mpr (.inr ⟨m, List.mem_cons_self, hforeign, rfl⟩)

theorem Extends.append (h : t.Extends i mapped mid) (hmore : t.Extends mid more after) :
    t.Extends i (mapped ++ more) after where
  wellFormed hwell := hmore.wellFormed (h.wellFormed hwell)
  kept := h.kept.trans hmore.kept
  paths path := by
    rw [hmore.paths, h.paths, or_assoc]
    simp only [List.mem_append, or_and_right, exists_or]
  entries entry hentry := by
    rcases hmore.entries entry hentry with hmid | ⟨m, hm, hrest⟩
    · rcases h.entries entry hmid with hold | ⟨m, hm, hrest⟩
      · exact .inl hold
      · exact .inr ⟨m, List.mem_append_left more hm, hrest⟩
    · exact .inr ⟨m, List.mem_append_right mapped hm, hrest⟩
  written m hm := by
    rcases List.mem_append.mp hm with hfirst | hlater
    · -- written before the block was finished, with an alias that stayed
      rw [h.written m hfirst]
      refine (exprOf_eq_of_keeps hmore.kept fun hforeign => ?_).symm
      exact (h.paths _).mpr (.inr ⟨m, hfirst, hforeign, rfl⟩)
    · exact hmore.written m hlater

/-- Maps types one after the other, each with the name of what refers to it. -/
def mapAll (t : TypeMapper) (imports : Go.Imports) :
    List (String × String) → Traced (List MappedType × Go.Imports)
  | [] => pure ([], imports)
  | (typeName, referrer) :: rest => do
    let (first, imports) ← t.map imports typeName referrer
    let (more, imports) ← t.mapAll imports rest
    pure (first :: more, imports)

/-- A run maps each type to the message of its name, and does to the import block what its
    calls do. -/
theorem extends_mapAll {calls : List (String × String)}
    (h : (t.mapAll i calls).outcome = .ok (mapped, after)) :
    calls.map (fun call => t.index.resolve? call.1) = mapped.map (fun m => some m.message) ∧
      t.Extends i mapped after := by
  induction calls generalizing i mapped with
  | nil =>
    obtain ⟨rfl, rfl⟩ := Prod.mk.inj (Except.ok.inj h)
    exact ⟨rfl, Extends.refl t i⟩
  | cons call rest ih =>
    obtain ⟨typeName, referrer⟩ := call
    obtain ⟨⟨first, mid⟩, hfirst, h⟩ := Traced.outcome_bind_eq_ok.mp h
    obtain ⟨⟨more, last⟩, hmore, h⟩ := Traced.outcome_bind_eq_ok.mp h
    obtain ⟨rfl, rfl⟩ := Prod.mk.inj (Except.ok.inj h)
    obtain ⟨hresolve, hextends⟩ := extends_map hfirst
    obtain ⟨hrest, hlater⟩ := ih hmore
    refine ⟨?_, hextends.append hlater⟩
    rw [List.map_cons, List.map_cons, hresolve, hrest]

/-- Every call of a run is answered with the expression that the finished block stands for. -/
theorem exprs_of_mapAll {calls : List (String × String)}
    (h : (t.mapAll i calls).outcome = .ok (mapped, after)) :
    mapped.map (·.expr) = calls.map fun call => t.exprFor after call.1 := by
  obtain ⟨hresolve, hextends⟩ := extends_mapAll h
  have hcalls : calls.map (fun call => t.exprFor after call.1) =
      (calls.map fun call => t.index.resolve? call.1).map
        fun m => (m.map (t.exprOf after)).getD ⟨none, ""⟩ := by
    rw [List.map_map]
    rfl
  rw [hcalls, hresolve, List.map_map]
  exact List.map_congr_left hextends.written

theorem messages_of_mapAll {calls : List (String × String)}
    (h : (t.mapAll i calls).outcome = .ok (mapped, after)) :
    mapped.map (·.message) = calls.filterMap fun call => t.index.resolve? call.1 := by
  have hcalls : (calls.filterMap fun call => t.index.resolve? call.1) =
      (calls.map fun call => t.index.resolve? call.1).filterMap id := by
    rw [List.filterMap_map]
    rfl
  rw [hcalls, (extends_mapAll h).1, List.filterMap_map]
  exact (congrFun List.filterMap_eq_map mapped).symm

theorem mapAll_cons_ok {typeName referrer : String} {first : MappedType}
    {rest : List (String × String)}
    (hfirst : (t.map i typeName referrer).outcome = .ok (first, mid))
    (hrest : (t.mapAll mid rest).outcome = .ok (more, after)) :
    (t.mapAll i ((typeName, referrer) :: rest)).outcome = .ok (first :: more, after) := by
  rw [mapAll, Traced.outcome_bind_ok hfirst, Traced.outcome_bind_ok hrest]
  rfl

theorem mapAll_append_ok {calls later : List (String × String)}
    (h : (t.mapAll i calls).outcome = .ok (mapped, mid))
    (hlater : (t.mapAll mid later).outcome = .ok (more, after)) :
    (t.mapAll i (calls ++ later)).outcome = .ok (mapped ++ more, after) := by
  induction calls generalizing i mapped with
  | nil =>
    obtain ⟨rfl, rfl⟩ := Prod.mk.inj (Except.ok.inj h)
    exact hlater
  | cons call rest ih =>
    obtain ⟨typeName, referrer⟩ := call
    obtain ⟨⟨first, next⟩, hfirst, h⟩ := Traced.outcome_bind_eq_ok.mp h
    obtain ⟨⟨others, last⟩, hothers, h⟩ := Traced.outcome_bind_eq_ok.mp h
    obtain ⟨rfl, rfl⟩ := Prod.mk.inj (Except.ok.inj h)
    exact mapAll_cons_ok hfirst (ih hothers)

/-- No alias of a run is the name of a parameter or variable, and one that is a predeclared
    name is the whole name of a package that a mapped message comes from. -/
theorem not_mem_reservedLocals_of_mapAll {calls : List (String × String)}
    (h : (t.mapAll Go.Imports.framework calls).outcome = .ok (mapped, after)) :
    ∀ used ∈ after.aliases, used ∉ Go.reservedLocals ∧
      (used ∈ Go.Imports.predeclaredNames → ∃ m ∈ mapped, t.IsForeign m.message ∧
        m.message.goPackage.name = used ∧
        after.alias? m.message.goPackage.importPath = some used) := by
  obtain ⟨-, hextends⟩ := extends_mapAll h
  have hwell := hextends.wellFormed Go.Imports.wellFormed_framework
  intro used hused
  refine ⟨hwell.alias_not_local hused, fun hname => ?_⟩
  obtain ⟨⟨path, chosen⟩, hentry, rfl⟩ := List.mem_map.mp hused
  rcases hextends.entries _ hentry with hframework | ⟨m, hm, hforeign, rfl, n, hchosen⟩
  · rw [Go.Imports.entries_framework] at hframework
    have husual : ∀ entry ∈ [(Go.nexusPath, "nexus"), (Go.workerPath, "worker"),
        (Go.workflowPath, "workflow")], entry.2 ∉ Go.Imports.predeclaredNames := by decide
    exact absurd hname (husual _ hframework)
  · refine ⟨m, hm, hforeign, ?_, hwell.alias?_of_mem hentry⟩
    dsimp only at hchosen hname
    rw [hchosen] at hname ⊢
    exact (Go.Imports.candidate_eq_of_mem_predeclaredNames hname).symm

/-- A mapper that knows a message of a package called `error`. -/
def problemMapper : TypeMapper where
  index :=
    ⟨[⟨"api.Problem", "api", "api.proto", ⟨"example.com/error", "error"⟩, "Problem"⟩], [], []⟩
  home := ⟨"example.com/shop", "shop"⟩

def problemCalls : List (String × String) := [(".api.Problem", "shop.Shop.Order")]

theorem mapAll_problemMapper :
    (problemMapper.mapAll Go.Imports.framework problemCalls).outcome =
      .ok ([⟨⟨"api.Problem", "api", "api.proto", ⟨"example.com/error", "error"⟩, "Problem"⟩,
          some "error", "Problem"⟩],
        ⟨Go.Imports.framework.entries ++ [("example.com/error", "error")]⟩) := by
  decide +kernel

theorem not_mem_reservedLocals_of_mapAll_problem :
    ∃ mapped after,
      (problemMapper.mapAll Go.Imports.framework problemCalls).outcome = .ok (mapped, after) ∧
        after.aliases = ["nexus", "worker", "workflow", "error"] ∧
        ∀ used ∈ after.aliases, used ∉ Go.reservedLocals ∧
          (used ∈ Go.Imports.predeclaredNames → ∃ m ∈ mapped, problemMapper.IsForeign m.message ∧
            m.message.goPackage.name = used ∧
            after.alias? m.message.goPackage.importPath = some used) :=
  ⟨_, _, mapAll_problemMapper, by decide +kernel,
    not_mem_reservedLocals_of_mapAll mapAll_problemMapper⟩

/-- The package is imported as `error`, the type that generated functions return. -/
theorem problemMapper_captures_error :
    ∃ mapped after,
      (problemMapper.mapAll Go.Imports.framework problemCalls).outcome = .ok (mapped, after) ∧
        "error" ∈ after.aliases ∧ "error" ∈ Go.Imports.predeclaredNames :=
  ⟨_, _, mapAll_problemMapper, by decide +kernel, by decide⟩

end TypeMapper

end GoBindings
