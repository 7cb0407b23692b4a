/-
  GoBindings/Proofs/Literals.lean
  ===============================
  **What a Go program sees of a text.**

  Every literal that is written can be read by Go's rules, and what it denotes is known
  character by character (`denote?_literal`). A control character behind ASCII is written
  with an escape for one byte, where UTF-8 has two. So the literal denotes the text exactly
  if the text has none of these characters.
-/
import GoBindings.Go.Literal
import GoBindings.Text.Utf8
import Mathlib.Algebra.Order.BigOperators.Group.List
import Mathlib.Algebra.Order.Group.Nat
import Mathlib.Data.List.Flatten

namespace GoBindings.Go.Literal

open Text (digit? utf8)

/-- The control characters that are no ASCII characters. -/
def IsLateControl (c : Char) : Prop := 0x80 ≤ c.toNat ∧ c.toNat ≤ 0x9F

instance (c : Char) : Decidable (IsLateControl c) := inferInstanceAs (Decidable (_ ∧ _))

/-- The bytes that a program gets for a character. -/
def seen (c : Char) : List UInt8 :=
  if IsLateControl c then [UInt8.ofNat c.toNat] else String.utf8EncodeChar c

/-! ### Escapes -/

theorem digit?_hexDigit {d : Nat} (h : d < 16) : digit? 16 (hexDigit d) = some d := by
  have hall : ∀ d : Fin 16, digit? 16 (hexDigit d) = some d.val := by decide
  exact hall ⟨d, h⟩

theorem body?_shortEscape {e : Char} {b : UInt8} (h : shortEscape? e = some b)
    (rest : List Char) :
    body? .text ('\\' :: e :: rest) =
      (body? .text rest).map fun read => (b :: read.1, read.2) := by
  have hstart : body? .text ('\\' :: e :: rest) = body? .escape (e :: rest) := rfl
  rw [hstart, body?, h]
  cases body? .text rest <;> rfl

/-- Two digits are the byte that they were taken from. -/
theorem body?_hexEscape {n : Nat} (h : n < 256) (rest : List Char) :
    body? .text ('\\' :: 'x' :: hexDigit (n / 16) :: hexDigit (n % 16) :: rest) =
      (body? .text rest).map fun read => (UInt8.ofNat n :: read.1, read.2) := by
  have hhigh : digit? 16 (hexDigit (n / 16)) = some (n / 16) := digit?_hexDigit (by omega)
  have hlow : digit? 16 (hexDigit (n % 16)) = some (n % 16) := digit?_hexDigit (by omega)
  have hvalue : 16 * (16 * 0 + n / 16) + n % 16 = n := by omega
  have hstart : body? .text ('\\' :: 'x' :: hexDigit (n / 16) :: hexDigit (n % 16) :: rest) =
      body? (.number ⟨true, 16, 2, 0⟩) (hexDigit (n / 16) :: hexDigit (n % 16) :: rest) := rfl
  have hbytes : Numeral.bytes? ⟨true, 16, 0, n⟩ = some [UInt8.ofNat n] := if_pos h
  rw [hstart]
  simp only [body?, hhigh, hlow, Numeral.push, hvalue, hbytes, Option.bind_eq_bind,
    Option.bind_some]
  cases body? .text rest <;> rfl

/-- A character that needs no escape stands for its UTF-8 form. -/
theorem body?_raw {c : Char} (hquote : c ≠ '"') (hfeed : c ≠ '\n') (hbackslash : c ≠ '\\')
    (rest : List Char) :
    body? .text (c :: rest) =
      (body? .text rest).map fun read => (String.utf8EncodeChar c ++ read.1, read.2) := by
  rw [body?, if_neg hquote, if_neg hfeed, if_neg hbackslash]
  cases body? .text rest <;> rfl

/-! ### Characters -/

theorem utf8EncodeChar_of_lt {c : Char} (h : c.toNat < 0x80) :
    String.utf8EncodeChar c = [UInt8.ofNat c.toNat] := by
  have hval : c.val.toNat ≤ 127 := Nat.le_of_lt_succ h
  simp only [String.utf8EncodeChar, hval, if_true]
  rfl

theorem length_utf8EncodeChar_of_isLateControl {c : Char} (h : IsLateControl c) :
    (String.utf8EncodeChar c).length = 2 := by
  have hone : ¬ c.val.toNat ≤ 127 := by
    have hlow : 0x80 ≤ c.val.toNat := h.1
    omega
  have htwo : c.val.toNat ≤ 2047 := by
    have hhigh : c.val.toNat ≤ 0x9F := h.2
    omega
  simp only [String.utf8EncodeChar, hone, htwo, if_false, if_true]
  rfl

/-- The numeric escape of a control character is one byte, in ASCII and behind it. -/
theorem seen_of_isControl {c : Char} (h : isControl c) : seen c = [UInt8.ofNat c.toNat] := by
  unfold seen
  by_cases hlate : IsLateControl c
  · rw [if_pos hlate]
  · rw [if_neg hlate]
    apply utf8EncodeChar_of_lt
    simp only [isControl, Bool.or_eq_true, Bool.and_eq_true, decide_eq_true_eq] at h
    simp only [IsLateControl, not_and_or] at hlate
    omega

theorem toNat_lt_of_isControl {c : Char} (h : isControl c) : c.toNat < 256 := by
  simp only [isControl, Bool.or_eq_true, Bool.and_eq_true, decide_eq_true_eq] at h
  omega

theorem seen_of_not_isControl {c : Char} (h : ¬ isControl c) :
    seen c = String.utf8EncodeChar c := by
  unfold seen
  rw [if_neg]
  intro hlate
  apply h
  simp only [isControl, Bool.or_eq_true, Bool.and_eq_true, decide_eq_true_eq]
  right
  have hlow := hlate.1
  exact ⟨by omega, hlate.2⟩

/-- A character is read back as what a program sees of it. -/
theorem body?_escape (c : Char) (rest : List Char) :
    body? .text (escape c ++ rest) =
      (body? .text rest).map fun read => (seen c ++ read.1, read.2) := by
  unfold escape
  split_ifs with hquote hbackslash hfeed hreturn htab hcontrol
  · subst hquote
    exact body?_shortEscape rfl rest
  · subst hbackslash
    exact body?_shortEscape rfl rest
  · subst hfeed
    exact body?_shortEscape rfl rest
  · subst hreturn
    exact body?_shortEscape rfl rest
  · subst htab
    exact body?_shortEscape rfl rest
  · rw [seen_of_isControl hcontrol]
    exact body?_hexEscape (toNat_lt_of_isControl hcontrol) rest
  · rw [seen_of_not_isControl hcontrol]
    exact body?_raw hquote hfeed hbackslash rest

/-! ### Literals -/

theorem body?_flatMap_escape (cs rest : List Char) :
    body? .text (cs.flatMap escape ++ rest) =
      (body? .text rest).map fun read => (cs.flatMap seen ++ read.1, read.2) := by
  induction cs with
  | nil => exact Option.map_id'.symm
  | cons c cs ih =>
    rw [List.flatMap_cons, List.append_assoc, body?_escape, ih, Option.map_map]
    simp only [List.flatMap_cons, List.append_assoc, Function.comp_def]

/-- A literal can always be read, and denotes what is seen of each character. -/
theorem denote?_literal (s : String) : denote? (literal s) = some (s.toList.flatMap seen) := by
  have hbody : body? .text (s.toList.flatMap escape ++ ['"']) =
      some (s.toList.flatMap seen, []) := by
    rw [body?_flatMap_escape, body?, if_pos rfl, Option.map_some, List.append_nil]
  unfold denote? literal
  rw [String.toList_ofList, List.cons_append]
  simp only [hbody]

theorem length_seen_le (c : Char) : (seen c).length ≤ (String.utf8EncodeChar c).length := by
  by_cases hlate : IsLateControl c
  · rw [seen, if_pos hlate, length_utf8EncodeChar_of_isLateControl hlate]
    simp
  · rw [seen, if_neg hlate]

/-- Nothing that is seen is longer than in UTF-8, so one late control character makes the whole
    shorter. -/
theorem flatMap_seen_eq_iff {cs : List Char} :
    cs.flatMap seen = cs.flatMap String.utf8EncodeChar ↔ ∀ c ∈ cs, ¬ IsLateControl c := by
  constructor
  · intro h
    have hlength := congrArg List.length h
    rw [List.length_flatMap, List.length_flatMap] at hlength
    intro c hc hlate
    have hle : ∀ c ∈ cs, (seen c).length ≤ (String.utf8EncodeChar c).length :=
      fun c _ => length_seen_le c
    have hlt : (seen c).length < (String.utf8EncodeChar c).length := by
      rw [seen, if_pos hlate, length_utf8EncodeChar_of_isLateControl hlate]
      simp
    exact absurd hlength (Nat.ne_of_lt (List.sum_lt_sum _ _ hle ⟨c, hc, hlt⟩))
  · intro h
    exact List.flatMap_congr fun c hc => if_neg (h c hc)

/-- A literal denotes its text, byte for byte, exactly if the text has no control character
    behind ASCII; of each of these it denotes one byte, the character's code. -/
theorem denotes_utf8_iff (s : String) :
    denote? (literal s) = some (s.toList.flatMap seen) ∧
      (denote? (literal s) = some (utf8 s) ↔ ∀ c ∈ s.toList, ¬ IsLateControl c) := by
  refine ⟨denote?_literal s, ?_⟩
  rw [denote?_literal, Option.some.injEq]
  exact flatMap_seen_eq_iff

/-- The next-line character has two bytes in UTF-8, and one in its literal. -/
theorem nextLine_loses_byte :
    literal "\u0085" = "\"\\x85\"" ∧ denote? (literal "\u0085") = some [0x85] ∧
      utf8 "\u0085" = [0xC2, 0x85] := by
  decide

/-- With the escape for a code point both bytes would be there. -/
example : denote? "\"\\u0085\"" = some (utf8 "\u0085") := by decide

end GoBindings.Go.Literal
