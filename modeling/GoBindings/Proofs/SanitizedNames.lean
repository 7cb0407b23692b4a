/-
  GoBindings/Proofs/SanitizedNames.lean
  =====================================
  **Names that are made for packages.**

  Whatever text the name of a Go package is made from, the result is an identifier, and a text is
  left as it is exactly if it is an identifier that begins with a letter
  (`Go.sanitize_eq_self_iff`). The text is what the declaration of the package says behind its
  semicolon, or the last element of the import path (`Descriptor.File.nameText`).

  A parameter that asks for a package name is accepted for identifiers and refused for everything
  else (`Settings.parse_package`). A name that was made is therefore accepted there: besides being
  an identifier, it has no comma that would end the entry and no blank that would be trimmed.
-/
import GoBindings.Proofs.RuntimeNames
import GoBindings.Proofs.UsableNames

namespace GoBindings

/-! ### Texts that are left alone -/

namespace Go

theorem replaceForeign_eq_self {s : String} (h : ∀ c ∈ s.toList, isNameChar c) :
    replaceForeign s = s := by
  have hkept : ∀ c ∈ s.toList, (if isAlphanumeric c then c else '_') = c := by
    intro c hc
    rcases (Bool.or_eq_true _ _).mp (h c hc) with halphanumeric | hunderscore
    · exact if_pos halphanumeric
    · rw [← beq_iff_eq.mp hunderscore]
      exact ite_self _
  rw [replaceForeign, List.map_congr_left hkept, List.map_id', String.ofList_toList]

theorem sanitize_eq_self_iff {s : String} :
    sanitize s = s ↔ isIdentifier s ∧ startsWithLetter s := by
  constructor
  · intro h
    have hidentifier : isIdentifier s := h ▸ isIdentifier_sanitize s
    refine ⟨hidentifier, ?_⟩
    rcases sanitize_cases s with ⟨hsame, hletter, -⟩ | ⟨hmarked, -⟩
    · rwa [← hsame, h] at hletter
    · -- with an underscore in front it is longer than the text
      have hlength : s.toList.length = s.toList.length + 1 := by
        calc s.toList.length = (sanitize s).toList.length := by rw [h]
          _ = (replaceForeign s).toList.length + 1 := by
            rw [hmarked, String.toList_append, List.length_append, Nat.add_comm]
            rfl
          _ = s.toList.length + 1 := by
            rw [replaceForeign, String.toList_ofList, List.length_map]
      omega
  · rintro ⟨hidentifier, hletter⟩
    have hsame : replaceForeign s = s :=
      replaceForeign_eq_self (isName_of_isIdentifier hidentifier).chars
    obtain ⟨c, cs, -, -, -, hkeyword⟩ := isIdentifier_iff.mp hidentifier
    rcases sanitize_cases s with ⟨h, -⟩ | ⟨-, hbad⟩
    · rw [h, hsame]
    · rw [hsame] at hbad
      exact absurd (hbad hletter) hkeyword

/-! ### Characters that names do not have -/

theorem isWhiteSpace_of_isNameChar {c : Char} (h : isNameChar c) :
    Unicode.isWhiteSpace c = false := by
  have hletters : ∀ r ∈ Unicode.alphabeticRanges, ∀ q ∈ Unicode.whiteSpaceRanges,
      r.2 < q.1 ∨ q.2 < r.1 := by decide +kernel
  have hnumbers : ∀ r ∈ Unicode.numericRanges, ∀ q ∈ Unicode.whiteSpaceRanges,
      r.2 < q.1 ∨ q.2 < r.1 := by decide +kernel
  rcases (Bool.or_eq_true _ _).mp h with halphanumeric | hunderscore
  · rcases (Bool.or_eq_true _ _).mp halphanumeric with halphabetic | hnumeric
    · exact Unicode.Ranges.contains_eq_false_of_apart hletters halphabetic
    · exact Unicode.Ranges.contains_eq_false_of_apart hnumbers hnumeric
  · rw [beq_iff_eq.mp hunderscore]
    decide

theorem IsName.trim {name : String} (h : IsName name) : Text.trim name = name := by
  have hbare : Text.Bare Unicode.isWhiteSpace name :=
    ⟨fun c hc => isWhiteSpace_of_isNameChar (h.chars c (List.mem_of_mem_head? hc)),
      fun c hc => isWhiteSpace_of_isNameChar (h.chars c (List.mem_of_mem_getLast? hc))⟩
  have hempty : ∀ c ∈ "".toList, Unicode.isWhiteSpace c := by simp
  simpa [Text.trim] using Text.dropBothWhile_append hempty hempty hbare

theorem IsName.comma_not_mem {name : String} (h : IsName name) : ',' ∉ name.toList := by
  have hcomma : isNameChar ',' = false := by decide +kernel
  intro hmem
  have hchar := h.chars _ hmem
  rw [hcomma] at hchar
  exact nomatch hchar

end Go

/-! ### Parameters that ask for a package name -/

namespace Settings

variable {parameter value : String} {s : Settings}

theorem entries_append (a b : String) : entries (a ++ "," ++ b) = entries a ++ entries b := by
  have hcomma : String.singleton ',' = "," := rfl
  rw [entries, ← hcomma, Text.split_append, List.map_append, List.filter_append]
  rfl

theorem entries_of_comma_not_mem {entry : String} (h : ',' ∉ entry.toList)
    (hne : Text.trim entry ≠ "") : entries entry = [Text.trim entry] := by
  simp [entries, Text.split_of_not_mem h, hne]

/-- One more entry is read behind the others. It asks for the value without its blanks. -/
theorem exists_entries_package (parameter : String) (hvalue : ',' ∉ value.toList) :
    ∃ entry, entries (parameter ++ ",package=" ++ value) = entries parameter ++ [entry] ∧
      Says entry "package" (Text.trim value) := by
  have hkey : Text.Bare Unicode.isWhiteSpace "package=" := by
    constructor
    · rintro c ⟨⟩
      decide
    · rintro c ⟨⟩
      decide
  obtain ⟨rest, hentry, hrest⟩ := Text.exists_dropBothWhile_append (by decide) hkey value
  have htrim : Text.trim ("package=" ++ value) = "package=" ++ rest := hentry
  have hcomma : ',' ∉ ("package=" ++ value).toList := by
    rw [String.toList_append, List.mem_append, not_or]
    exact ⟨by decide, hvalue⟩
  have hne : Text.trim ("package=" ++ value) ≠ "" := by
    rw [htrim]
    intro hempty
    exact absurd (String.append_eq_empty_iff.mp hempty).1 (by decide)
  have hparts : parameter ++ ",package=" ++ value = parameter ++ "," ++ ("package=" ++ value) := by
    have hsign : ",package=" = "," ++ "package=" := rfl
    rw [hsign, String.append_assoc, String.append_assoc, String.append_assoc]
  refine ⟨"package=" ++ rest, ?_, "package", rest, rfl, by decide, by decide, hrest⟩
  rw [hparts, entries_append, entries_of_comma_not_mem hcomma hne, htrim]

/-- A package that no entry has asked for yet may be asked for by its name, and the name is
    checked to be an identifier. -/
theorem parse_package (hparse : parse (some parameter) = .ok s) (hnew : s.package = none)
    (hvalue : ',' ∉ value.toList) :
    parse (some (parameter ++ ",package=" ++ value)) =
      if Go.isIdentifier (Text.trim value) then
        .ok { s with package := some (Text.trim value) }
      else .error (.invalidOption "package"
        (Text.quoted (Text.trim value) ++ " is not a valid Go package name")) := by
  obtain ⟨pairs, haccepted, hcompatible, hchooses⟩ := parse_eq_ok_iff.mp hparse
  obtain ⟨entry, hentries, hsaid⟩ := exists_entries_package parameter hvalue
  have hgiven : given pairs "package" = none := hchooses.package.symm.trans hnew
  have hfree : ∀ pair ∈ pairs, pair.1 ≠ "package" := given_eq_none_iff.mp hgiven
  split_ifs with hname
  · have hmakes : Makes "package" (Text.trim value) (.package (Text.trim value)) := .package hname
    obtain ⟨pairs', haccepted', hgiven'⟩ := (haccepted.cons hsaid hmakes hfree).perm
      (List.perm_append_singleton entry (entries parameter)).symm
    rw [given_cons] at hgiven'
    refine parse_eq_ok_iff.mpr ⟨pairs', hentries ▸ haccepted', ?_, ?_⟩
    · rw [hgiven']
      exact hcompatible
    · rw [hgiven']
      exact hchooses.update hgiven hmakes
  · refine parse_eq_error_iff.mpr (.inl ⟨entries parameter, entry, [], pairs, hentries,
      haccepted, ?_⟩)
    refine .flawed hsaid (.package hname) ?_
    intro hseen
    obtain ⟨pair, hpair, hkey⟩ := List.mem_map.mp hseen
    exact absurd hkey (hfree pair hpair)

end Settings

/-! ### Names that were made -/

/-- The name that is made of a text is an identifier, and it is the text itself exactly if this is
    an identifier that begins with a letter. So it is with the name of every Go package. The
    entry of a parameter that asks for a package name has to give an identifier, and it may give
    every name that was made. -/
theorem sanitized_names :
    (∀ s : String, Go.isIdentifier (Go.sanitize s) ∧
      (Go.sanitize s = s ↔ Go.isIdentifier s ∧ Go.startsWithLetter s)) ∧
    (∀ (f : Descriptor.File) (settings : Settings),
      (f.goPackageOf settings).name = Go.sanitize (f.nameText settings) ∧
        Go.isIdentifier (f.goPackageOf settings).name ∧
        ((f.goPackageOf settings).name = f.nameText settings ↔
          Go.isIdentifier (f.nameText settings) ∧ Go.startsWithLetter (f.nameText settings))) ∧
    ∀ (parameter : String) (s : Settings), Settings.parse (some parameter) = .ok s →
      s.package = none →
        (∀ value, ',' ∉ value.toList →
          Settings.parse (some (parameter ++ ",package=" ++ value)) =
            if Go.isIdentifier (Text.trim value) then
              .ok { s with package := some (Text.trim value) }
            else .error (.invalidOption "package"
              (Text.quoted (Text.trim value) ++ " is not a valid Go package name"))) ∧
        ∀ (f : Descriptor.File) (settings : Settings),
          Settings.parse (some (parameter ++ ",package=" ++ (f.goPackageOf settings).name)) =
            .ok { s with package := some (f.goPackageOf settings).name } := by
  refine ⟨fun s => ⟨Go.isIdentifier_sanitize s, Go.sanitize_eq_self_iff⟩, ?_, ?_⟩
  · intro f settings
    have hname := f.name_eq_sanitize settings
    refine ⟨hname, f.isIdentifier_goPackageOf settings, ?_⟩
    rw [hname]
    exact Go.sanitize_eq_self_iff
  · intro parameter s hparse hnew
    refine ⟨fun value hvalue => Settings.parse_package hparse hnew hvalue, ?_⟩
    intro f settings
    have hname := Go.isName_goPackageOf f settings
    have hasked := Settings.parse_package hparse hnew hname.comma_not_mem
    rwa [hname.trim, if_pos (f.isIdentifier_goPackageOf settings)] at hasked

/-- A file whose declaration names its Go package by a keyword. -/
def Descriptor.File.keywordNamed : Descriptor.File :=
  { Environment.bareFile "types.proto" "types" with goPackage := "example.com/größe; type " }

/-- The keyword gets an underscore and may then be asked for, but not as it was. A last element of
    a path with letters beyond ASCII stays as it is. -/
theorem sanitized_names_keyword :
    ∃ s, Settings.parse (some "paths=source_relative") = .ok s ∧ s.package = none ∧
      Descriptor.File.keywordNamed.nameText s = "type" ∧
      (Descriptor.File.keywordNamed.goPackageOf s).name = "_type" ∧
      Settings.parse (some "paths=source_relative,package=_type") =
        .ok { s with package := some "_type" } ∧
      Settings.parse (some "paths=source_relative,package= type ") =
        .error (.invalidOption "package" "\"type\" is not a valid Go package name") ∧
      Go.sanitize "größe" = "größe" := by
  obtain ⟨hsanitize, hfiles, hparameters⟩ := sanitized_names
  have hparse : Settings.parse (some "paths=source_relative") =
      .ok { Settings.standard with paths := .sourceRelative } := by decide +kernel
  obtain ⟨hguard, haccepted⟩ := hparameters _ _ hparse rfl
  have htext : Descriptor.File.keywordNamed.nameText
      { Settings.standard with paths := .sourceRelative } = "type" := by decide +kernel
  have hname : (Descriptor.File.keywordNamed.goPackageOf
      { Settings.standard with paths := .sourceRelative }).name = "_type" := by
    rw [(hfiles _ _).1, htext]
    decide +kernel
  refine ⟨_, hparse, rfl, htext, hname, ?_, ?_, ?_⟩
  · have hasked := haccepted Descriptor.File.keywordNamed
      { Settings.standard with paths := .sourceRelative }
    rwa [hname] at hasked
  · refine (hguard " type " (by decide)).trans ?_
    decide +kernel
  · exact (hsanitize _).2.mpr ⟨by decide +kernel, by decide +kernel⟩

end GoBindings
