/-
  GoBindings/Proofs/CamelCase.lean
  ================================
  **The characters of derived Go names.**

  Every character of a derived name is an underscore, an `X`, or stands for a byte of the
  declared name other than a dot (`mem_words`). So a derived name has no dot in it, and no
  line break unless the declared name has one. It never begins with a small ASCII letter,
  whatever the declared name is (`startsSmall_camelCase`).
-/
import GoBindings.Go.CamelCase
import GoBindings.Proofs.Text

namespace GoBindings.Go

open Text (OneLine utf8)

namespace CamelCase

/-! ### Characters and the bytes they come from -/

theorem toNat_glyph (b : UInt8) : (glyph b).toNat = b.toNat := rfl

theorem isLower_iff (b : UInt8) : isLower b ↔ 0x61 ≤ b.toNat ∧ b.toNat ≤ 0x7A := by
  simp [isLower, UInt8.le_iff_toNat_le]

theorem toNat_capital (b : UInt8) :
    (capital b).toNat = if isLower b then b.toNat - 0x20 else b.toNat := by
  unfold capital
  split
  case isTrue h =>
    have hlower := (isLower_iff b).mp h
    have hle : (0x20 : UInt8) ≤ b := UInt8.le_iff_toNat_le.mpr (by simp; omega)
    exact UInt8.toNat_sub_of_le b 0x20 hle
  case isFalse => rfl

theorem mem_words {before : Option UInt8} {bytes : List UInt8} {c : Char}
    (h : c ∈ words before bytes) :
    c = '_' ∨ c = 'X' ∨ ∃ b ∈ bytes, b ≠ dot ∧ (c = glyph b ∨ c = capital b) := by
  have hlater : ∀ {b : UInt8} {rest : List UInt8},
      (c = '_' ∨ c = 'X' ∨ ∃ a ∈ rest, a ≠ dot ∧ (c = glyph a ∨ c = capital a)) →
      c = '_' ∨ c = 'X' ∨ ∃ a ∈ b :: rest, a ≠ dot ∧ (c = glyph a ∨ c = capital a) := by
    rintro b rest (hc | hc | ⟨a, ha, hrest⟩)
    · exact .inl hc
    · exact .inr (.inl hc)
    · exact .inr (.inr ⟨a, List.mem_cons_of_mem b ha, hrest⟩)
  induction before, bytes using words.induct with
  | case1 before => simp [words] at h
  | case2 before rest hlower ih =>
    rw [words, if_pos rfl, if_pos hlower] at h
    exact hlater (ih h)
  | case3 before rest hlower ih =>
    rw [words, if_pos rfl, if_neg hlower] at h
    rcases List.mem_cons.mp h with rfl | h
    · exact .inl rfl
    · exact hlater (ih h)
  | case4 before b rest hdot hfirst ih =>
    rw [words, if_neg hdot, if_pos hfirst] at h
    rcases List.mem_cons.mp h with rfl | h
    · exact .inr (.inl rfl)
    · exact hlater (ih h)
  | case5 before b rest hdot hfirst hlower ih =>
    rw [words, if_neg hdot, if_neg hfirst, if_pos hlower] at h
    exact hlater (ih h)
  | case6 before b rest hdot hfirst hlower hdigit ih =>
    rw [words, if_neg hdot, if_neg hfirst, if_neg hlower, if_pos hdigit] at h
    rcases List.mem_cons.mp h with rfl | h
    · exact .inr (.inr ⟨b, List.mem_cons_self, hdot, .inl rfl⟩)
    · exact hlater (ih h)
  | case7 before b rest hdot hfirst hlower hdigit ih =>
    rw [words, if_neg hdot, if_neg hfirst, if_neg hlower, if_neg hdigit] at h
    rcases List.mem_cons.mp h with rfl | h
    · exact .inr (.inr ⟨b, List.mem_cons_self, hdot, .inr rfl⟩)
    · rcases List.mem_append.mp h with hword | h
      · -- a small letter inside the word
        obtain ⟨a, ha, rfl⟩ := List.mem_map.mp hword
        have hletter : a ≠ dot := by
          rintro rfl
          exact absurd (List.mem_takeWhile_imp ha) (by decide)
        have hmem := List.mem_cons_of_mem b (List.takeWhile_subset isLower ha)
        exact .inr (.inr ⟨a, hmem, hletter, .inl rfl⟩)
      · rcases ih h with hc | hc | ⟨a, ha, hrest⟩
        · exact .inl hc
        · exact .inr (.inl hc)
        · have hmem := List.mem_cons_of_mem b ((List.dropWhile_suffix isLower).subset ha)
          exact .inr (.inr ⟨a, hmem, hrest⟩)

end CamelCase

theorem dot_not_mem_camelCase (s : String) : '.' ∉ (camelCase s).toList := by
  rw [camelCase, String.toList_ofList]
  intro h
  rcases CamelCase.mem_words h with hc | hc | ⟨b, -, hdot, hc | hc⟩
  · exact absurd hc (by decide)
  · exact absurd hc (by decide)
  · have hb : b.toNat = 0x2E := (congrArg Char.toNat hc).symm
    exact hdot (UInt8.toNat_inj.mp hb)
  · have hb := (congrArg Char.toNat hc).symm
    rw [CamelCase.toNat_capital] at hb
    have hcode : '.'.toNat = 0x2E := rfl
    split at hb
    case isTrue hlower =>
      have hrange := (CamelCase.isLower_iff b).mp hlower
      omega
    case isFalse => exact hdot (UInt8.toNat_inj.mp hb)

/-! ### Line breaks -/

/-- A byte below 128 is a character of its own. -/
theorem mem_of_mem_utf8 {s : String} {b : UInt8} (h : b ∈ utf8 s) (hascii : b.toNat < 0x80) :
    CamelCase.glyph b ∈ s.toList := by
  obtain ⟨c, hc, hb⟩ := List.mem_flatMap.mp h
  have hcode : b.toNat = c.val.toNat := by
    unfold String.utf8EncodeChar at hb
    dsimp only at hb
    -- every byte of a longer form is 128 or more
    split_ifs at hb with hone htwo hthree
    · obtain rfl := List.mem_singleton.mp hb
      rw [UInt8.toNat_ofNat']
      omega
    all_goals
      simp only [List.mem_cons, List.not_mem_nil, or_false] at hb
      rcases hb with rfl | hb
      · rw [UInt8.toNat_ofNat'] at hascii
        omega
    · rw [hb, UInt8.toNat_ofNat'] at hascii
      omega
    · rcases hb with rfl | rfl <;> rw [UInt8.toNat_ofNat'] at hascii <;> omega
    · rcases hb with rfl | rfl | rfl <;> rw [UInt8.toNat_ofNat'] at hascii <;> omega
  have hglyph : CamelCase.glyph b = c := Char.toNat_inj.mp hcode
  exact hglyph ▸ hc

theorem oneLine_camelCase {s : String} (h : OneLine s) : OneLine (camelCase s) := by
  rw [OneLine, camelCase, String.toList_ofList]
  intro hmem
  have hnewline : ∀ b ∈ utf8 s, b.toNat ≠ 0x0A := by
    intro b hb hcode
    have hmem := mem_of_mem_utf8 hb (by omega)
    have hglyph : CamelCase.glyph b = '\n' := Char.toNat_inj.mp hcode
    exact h (hglyph ▸ hmem)
  have hcode : '\n'.toNat = 0x0A := rfl
  rcases CamelCase.mem_words hmem with hc | hc | ⟨b, hb, -, hc | hc⟩
  · exact absurd hc (by decide)
  · exact absurd hc (by decide)
  · exact hnewline b hb (congrArg Char.toNat hc).symm
  · have hb' := (congrArg Char.toNat hc).symm
    rw [CamelCase.toNat_capital] at hb'
    split at hb'
    case isTrue hlower =>
      have hrange := (CamelCase.isLower_iff b).mp hlower
      omega
    case isFalse => exact hnewline b hb hb'

/-! ### First characters -/

/-- The text begins with a small ASCII letter. -/
def startsSmall (s : String) : Bool :=
  s.toList.head?.any fun c => 0x61 ≤ c.toNat && c.toNat ≤ 0x7A

theorem startsSmall_append_of_ne {a : String} (ha : a ≠ "") (b : String) :
    startsSmall (a ++ b) = startsSmall a := by
  unfold startsSmall
  rw [String.toList_append, List.head?_append_of_ne_nil]
  exact fun hnil => ha (String.toList_eq_nil_iff.mp hnil)

theorem startsSmall_append {a b : String} (ha : startsSmall a = false)
    (hb : startsSmall b = false) : startsSmall (a ++ b) = false := by
  by_cases hempty : a = ""
  · rwa [hempty, String.empty_append]
  · rwa [startsSmall_append_of_ne hempty]

theorem CamelCase.not_small_of_head?_words {before : Option UInt8} {bytes : List UInt8} {c : Char}
    (h : (words before bytes).head? = some c) : ¬ (0x61 ≤ c.toNat ∧ c.toNat ≤ 0x7A) := by
  induction before, bytes using words.induct with
  | case1 before => simp [words] at h
  | case2 before rest hlower ih =>
    rw [words, if_pos rfl, if_pos hlower] at h
    exact ih h
  | case3 before rest hlower ih =>
    rw [words, if_pos rfl, if_neg hlower] at h
    obtain rfl := Option.some.inj h
    decide
  | case4 before b rest hdot hfirst ih =>
    rw [words, if_neg hdot, if_pos hfirst] at h
    obtain rfl := Option.some.inj h
    decide
  | case5 before b rest hdot hfirst hlower ih =>
    rw [words, if_neg hdot, if_neg hfirst, if_pos hlower] at h
    exact ih h
  | case6 before b rest hdot hfirst hlower hdigit ih =>
    rw [words, if_neg hdot, if_neg hfirst, if_neg hlower, if_pos hdigit] at h
    obtain rfl := Option.some.inj h
    simp only [isDigit, Bool.and_eq_true, decide_eq_true_eq, UInt8.le_iff_toNat_le] at hdigit
    have hnine : (0x39 : UInt8).toNat = 0x39 := rfl
    rw [toNat_glyph]
    omega
  | case7 before b rest hdot hfirst hlower hdigit ih =>
    rw [words, if_neg hdot, if_neg hfirst, if_neg hlower, if_neg hdigit] at h
    obtain rfl := Option.some.inj h
    rw [toNat_capital]
    have hrange := isLower_iff b
    split
    case isTrue hb =>
      have hb := hrange.mp hb
      omega
    case isFalse hb =>
      intro hsmall
      exact hb (hrange.mpr hsmall)

theorem startsSmall_camelCase (s : String) : startsSmall (camelCase s) = false := by
  unfold startsSmall camelCase
  rw [String.toList_ofList]
  cases hhead : (CamelCase.words none (utf8 s)).head? with
  | none => rfl
  | some c =>
    have hsmall := CamelCase.not_small_of_head?_words hhead
    simpa using hsmall

end GoBindings.Go
