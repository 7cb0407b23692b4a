/-
  GoBindings/Proofs/ExportedNames.lean
  ====================================
  **Derived names are exported identifiers of Go.**

  What the source files may declare begins with a letter or an underscore and goes on with
  letters, digits and underscores. What is derived from such names, or from a path of them,
  begins with a capital letter and goes on with the same characters (`Exported`), so it is an
  identifier and no keyword, and other packages can use it. Fixed words in front or behind do not
  change that (`Exported.append`).

  A derived name is also its own derived name (`camelCase_camelCase`): in it there are no dots,
  and a small letter stands behind a letter only (`isChain_pieces`).
-/
import GoBindings.Proofs.Nesting
import GoBindings.Proofs.OperationNames
import GoBindings.Proofs.UsableNames
import Mathlib.Data.List.Chain

namespace GoBindings

namespace Go

open CamelCase
open Text (utf8)

/-! ### Names that stay as they are -/

namespace CamelCase

variable {before after : Option UInt8} {a b x : UInt8} {bytes : List UInt8}

/-- What can become of a byte. -/
inductive Becomes (before : Option UInt8) (b : UInt8) : List UInt8 → Prop
  | nothing (hb : b = dot ∨ b = underscore) : Becomes before b []
  | underscore (hb : b = dot ∨ b = underscore) : Becomes before b [underscore]
  | capitalX (hb : b = CamelCase.underscore) : Becomes before b [capitalX]
  | capital (hb : isLower b) : Becomes before b [b - 0x20]
  | same (hdot : b ≠ dot) (hunderscore : b ≠ CamelCase.underscore)
      (hinside : isLower b → endsWord before = false) : Becomes before b [b]

theorem becomes_piece (before : Option UInt8) (b : UInt8) (after : Option UInt8) :
    Becomes before b (piece before b after) := by
  unfold piece
  split_ifs with hdot hnext hunderscore hfirst hnext hcapital
  · exact .nothing (.inl hdot)
  · exact .underscore (.inl hdot)
  · exact .capitalX hunderscore
  · exact .nothing (.inr hunderscore)
  · exact .underscore (.inr hunderscore)
  · exact .capital ((Bool.and_eq_true _ _).mp hcapital).1
  · refine .same hdot hunderscore fun hb => ?_
    rw [hb, Bool.true_and, Bool.not_eq_true] at hcapital
    exact hcapital

theorem exists_becomes_of_mem_pieces (h : x ∈ pieces before after bytes) :
    ∃ b ∈ bytes, ∃ before p, Becomes before b p ∧ x ∈ p := by
  induction bytes generalizing before with
  | nil => exact absurd h List.not_mem_nil
  | cons b rest ih =>
    rcases List.mem_append.mp h with hx | hx
    · exact ⟨b, List.mem_cons_self, before, _, becomes_piece _ _ _, hx⟩
    · obtain ⟨c, hc, hbecomes⟩ := ih hx
      exact ⟨c, List.mem_cons_of_mem b hc, hbecomes⟩

theorem toNat_capital_of_isLower (h : isLower b) :
    0x41 ≤ (b - 0x20).toNat ∧ (b - 0x20).toNat ≤ 0x5A := by
  have hrange := (isLower_iff b).mp h
  have hle : (0x20 : UInt8) ≤ b := UInt8.le_iff_toNat_le.mpr (by simp; omega)
  have hcode : (b - 0x20).toNat = b.toNat - 0x20 := UInt8.toNat_sub_of_le b 0x20 hle
  omega

theorem endsWord_of_toNat (h : 0x41 ≤ b.toNat ∧ b.toNat ≤ 0x5A) : endsWord (some b) = false := by
  have hnine : (0x39 : UInt8).toNat = 0x39 := rfl
  refine endsWord_some_eq_false_iff.mpr ⟨?_, ?_, ?_⟩
  · rintro rfl
    exact absurd h (by decide)
  · rintro rfl
    exact absurd h (by decide)
  · rw [← Bool.not_eq_true]
    simp only [isDigit, Bool.and_eq_true, decide_eq_true_eq, UInt8.le_iff_toNat_le]
    omega

/-- A small letter that something begins with goes on with a word from before. -/
theorem endsWord_of_mem_head? (h : x ∈ (pieces before after bytes).head?) (hlower : isLower x) :
    endsWord before = false := by
  induction bytes generalizing before with
  | nil => exact nomatch h
  | cons b rest ih =>
    rw [pieces] at h
    have hpiece := becomes_piece before b (rest.head?.or after)
    generalize piece before b (rest.head?.or after) = p at h hpiece
    cases hpiece with
    | nothing hb =>
      have hinside := endsWord_some_eq_false_iff.mp (ih h)
      exact absurd hb (not_or.mpr ⟨hinside.1, hinside.2.1⟩)
    | underscore hb =>
      obtain rfl := Option.some.inj h
      exact absurd hlower (by decide)
    | capitalX hb =>
      obtain rfl := Option.some.inj h
      exact absurd hlower (by decide)
    | capital hb =>
      obtain rfl := Option.some.inj h
      have hsmall := (isLower_iff _).mp hlower
      have hlarge := toNat_capital_of_isLower hb
      omega
    | same hdot hunderscore hinside =>
      obtain rfl := Option.some.inj h
      exact hinside hlower

/-- A small letter does not open a word behind this byte. -/
def Joins (a b : UInt8) : Prop := isLower b → endsWord (some a) = false

theorem isChain_pieces (before after : Option UInt8) (bytes : List UInt8) :
    (pieces before after bytes).IsChain Joins := by
  induction bytes generalizing before with
  | nil => exact .nil
  | cons b rest ih =>
    -- whatever is put in front must not end a word that `b` does not end
    have hfront : ∀ x, (endsWord (some b) = false → endsWord (some x) = false) →
        (x :: pieces (some b) after rest).IsChain Joins := by
      intro x hx
      refine List.isChain_cons.mpr ⟨?_, ih (some b)⟩
      intro d hd hlower
      exact hx (endsWord_of_mem_head? hd hlower)
    have hends : ∀ x, b = dot ∨ b = underscore →
        (endsWord (some b) = false → endsWord (some x) = false) := by
      rintro x hb hinside
      have hinside := endsWord_some_eq_false_iff.mp hinside
      exact absurd hb (not_or.mpr ⟨hinside.1, hinside.2.1⟩)
    rw [pieces]
    have hpiece := becomes_piece before b (rest.head?.or after)
    generalize piece before b (rest.head?.or after) = p at hpiece
    cases hpiece with
    | nothing hb => exact ih (some b)
    | underscore hb => exact hfront _ (hends _ hb)
    | capitalX hb => exact hfront _ (hends _ (.inr hb))
    | capital hb => exact hfront _ fun _ => endsWord_of_toNat (toNat_capital_of_isLower hb)
    | same hdot hunderscore hinside => exact hfront _ id

theorem dot_not_mem_pieces (before after : Option UInt8) (bytes : List UInt8) :
    dot ∉ pieces before after bytes := by
  intro h
  obtain ⟨b, -, before, p, hbecomes, hmem⟩ := exists_becomes_of_mem_pieces h
  cases hbecomes with
  | nothing => exact absurd hmem List.not_mem_nil
  | underscore => exact absurd hmem (by decide)
  | capitalX => exact absurd hmem (by decide)
  | capital hb =>
    have hlarge := toNat_capital_of_isLower hb
    rw [← List.mem_singleton.mp hmem] at hlarge
    exact absurd hlarge (by decide)
  | same hdot => exact hdot (List.mem_singleton.mp hmem).symm

/-- Where small letters stand behind letters and there is no dot, nothing changes. -/
theorem pieces_eq_self (hchain : (a :: bytes).IsChain Joins) (hdots : dot ∉ a :: bytes) :
    pieces (some a) none bytes = bytes := by
  induction bytes generalizing a with
  | nil => rfl
  | cons b rest ih =>
    obtain ⟨hjoins, hrest⟩ := List.isChain_cons_cons.mp hchain
    rw [List.mem_cons, not_or] at hdots
    obtain ⟨ha, hdots⟩ := hdots
    have hb : b ≠ dot := fun heq => hdots (heq ▸ List.mem_cons_self)
    have hpiece : piece (some a) b (rest.head?.or none) = [b] := by
      rw [piece, if_neg hb, Option.or_none]
      by_cases hunderscore : b = underscore
      · subst hunderscore
        have hnext : ¬ rest.head?.any isLower = true := by
          intro hany
          obtain ⟨d, hd, hlower⟩ := (Option.any_eq_true _ _).mp hany
          exact absurd ((List.isChain_cons.mp hrest).1 d hd hlower) (by decide)
        rw [if_pos rfl, if_neg (by simpa using Ne.symm ha), if_neg hnext]
      · rw [if_neg hunderscore, if_neg]
        intro hcapital
        obtain ⟨hlower, hends⟩ := (Bool.and_eq_true _ _).mp hcapital
        exact absurd (hjoins hlower) (by rw [hends]; decide)
    rw [pieces, hpiece, ih hrest hdots]
    rfl

theorem ne_underscore_of_mem_head? (hdot : bytes.head? ≠ some dot)
    (h : x ∈ (pieces none none bytes).head?) : x ≠ underscore := by
  cases bytes with
  | nil => exact nomatch h
  | cons b rest =>
    have hb : b ≠ dot := fun heq => hdot (congrArg some heq)
    rw [pieces] at h
    by_cases hunderscore : b = underscore
    · subst hunderscore
      obtain rfl : capitalX = x := Option.some.inj h
      decide
    · have hpiece := becomes_piece none b (rest.head?.or none)
      generalize piece none b (rest.head?.or none) = p at h hpiece
      cases hpiece with
      | nothing hends => exact absurd hends (not_or.mpr ⟨hb, hunderscore⟩)
      | underscore hends => exact absurd hends (not_or.mpr ⟨hb, hunderscore⟩)
      | capitalX hends => exact absurd hends hunderscore
      | capital hlower =>
        obtain rfl := Option.some.inj h
        have hlarge := toNat_capital_of_isLower hlower
        intro heq
        rw [heq] at hlarge
        exact absurd hlarge (by decide)
      | same => exact Option.some.inj h ▸ hunderscore

theorem pieces_pieces (h : bytes.head? ≠ some dot) :
    pieces none none (pieces none none bytes) = pieces none none bytes := by
  have hchain := isChain_pieces none none bytes
  have hdots := dot_not_mem_pieces none none bytes
  have hhead : ∀ x ∈ (pieces none none bytes).head?, x ≠ underscore ∧ isLower x = false := by
    intro x hx
    refine ⟨ne_underscore_of_mem_head? h hx, ?_⟩
    rw [← Bool.not_eq_true]
    intro hlower
    exact absurd (endsWord_of_mem_head? hx hlower) (by decide)
  cases hout : pieces none none bytes with
  | nil => rfl
  | cons x xs =>
    rw [hout] at hchain hdots hhead
    obtain ⟨hunderscore, hlower⟩ := hhead x rfl
    have hdot : x ≠ dot := fun heq => hdots (heq ▸ List.mem_cons_self)
    rw [pieces, pieces_eq_self hchain hdots, piece, if_neg hdot, if_neg hunderscore, hlower,
      Bool.false_and, if_neg Bool.false_ne_true, List.singleton_append]

end CamelCase

/-! ### ASCII texts -/

def IsAscii (s : String) : Prop := ∀ c ∈ s.toList, c.toNat < 0x80

variable {s : String}

theorem utf8_of_isAscii (h : IsAscii s) :
    utf8 s = s.toList.map fun c => UInt8.ofNat c.toNat := by
  rw [utf8, List.map_eq_flatMap]
  exact List.flatMap_congr fun c hc => Literal.utf8EncodeChar_of_lt (h c hc)

theorem toNat_lt_of_mem_utf8 (h : IsAscii s) {b : UInt8} (hb : b ∈ utf8 s) : b.toNat < 0x80 := by
  rw [utf8_of_isAscii h] at hb
  obtain ⟨c, hc, rfl⟩ := List.mem_map.mp hb
  have hcode := h c hc
  rw [UInt8.toNat_ofNat']
  omega

theorem utf8_glyphs {bytes : List UInt8} (h : ∀ b ∈ bytes, b.toNat < 0x80) :
    utf8 (String.ofList (bytes.map glyph)) = bytes := by
  have hascii : IsAscii (String.ofList (bytes.map glyph)) := by
    intro c hc
    rw [String.toList_ofList] at hc
    obtain ⟨b, hb, rfl⟩ := List.mem_map.mp hc
    exact h b hb
  rw [utf8_of_isAscii hascii, String.toList_ofList, List.map_map]
  refine List.map_id'' (fun b => ?_) bytes
  exact UInt8.ofNat_toNat

theorem toNat_lt_of_mem_pieces (h : IsAscii s) {x : UInt8} {before after : Option UInt8}
    (hx : x ∈ pieces before after (utf8 s)) : x.toNat < 0x80 := by
  obtain ⟨b, hb, before, p, hbecomes, hmem⟩ := exists_becomes_of_mem_pieces hx
  have hcode := toNat_lt_of_mem_utf8 h hb
  cases hbecomes with
  | nothing => exact absurd hmem List.not_mem_nil
  | underscore => exact List.mem_singleton.mp hmem ▸ (by decide)
  | capitalX => exact List.mem_singleton.mp hmem ▸ (by decide)
  | capital hlower =>
    have hlarge := toNat_capital_of_isLower hlower
    rw [List.mem_singleton.mp hmem]
    omega
  | same => exact List.mem_singleton.mp hmem ▸ hcode

/-- Deriving a name again changes nothing. -/
theorem camelCase_camelCase (hascii : IsAscii s) (hdot : s.toList.head? ≠ some '.') :
    camelCase (camelCase s) = camelCase s := by
  have hbytes : utf8 (camelCase s) = pieces none none (utf8 s) := by
    rw [← String.ofList_toList (s := camelCase s), toList_camelCase]
    exact utf8_glyphs fun x hx => toNat_lt_of_mem_pieces hascii hx
  have hhead : (utf8 s).head? ≠ some dot := by
    rw [utf8_of_isAscii hascii, List.head?_map]
    intro hsome
    obtain ⟨c, hc, hcode⟩ := Option.map_eq_some_iff.mp hsome
    have hlt := hascii c (List.mem_of_mem_head? hc)
    apply hdot
    have htoNat := congrArg UInt8.toNat hcode
    rw [UInt8.toNat_ofNat'] at htoNat
    have hdotCode : dot.toNat = 0x2E := rfl
    have hchar : c = '.' := Char.toNat_inj.mp (show c.toNat = 0x2E by omega)
    rw [hc, hchar]
  apply String.toList_inj.mp
  rw [toList_camelCase, hbytes, pieces_pieces hhead, ← toList_camelCase]

/-! ### Exported identifiers -/

theorem isUpper_iff {c : Char} : c.isUpper ↔ 65 ≤ c.toNat ∧ c.toNat ≤ 90 := by
  have hupper : c.isUpper = decide (c.val ≥ 'A'.val ∧ c.val ≤ 'Z'.val) := rfl
  simp [hupper, UInt32.le_iff_toNat_le]

theorem isAlpha_iff {c : Char} :
    c.isAlpha ↔ (65 ≤ c.toNat ∧ c.toNat ≤ 90) ∨ (97 ≤ c.toNat ∧ c.toNat ≤ 122) := by
  have hlower : c.isLower = (decide (c.val ≥ 'a'.val) && decide (c.val ≤ 'z'.val)) := rfl
  have halpha : c.isAlpha = (c.isUpper || c.isLower) := rfl
  rw [halpha, Bool.or_eq_true, isUpper_iff]
  simp [hlower, UInt32.le_iff_toNat_le]

/-- An identifier that other packages can use, made of ASCII characters alone. -/
structure Exported (ident : String) : Prop where
  capital : ∃ c ∈ ident.toList.head?, c.isUpper
  chars : ∀ c ∈ ident.toList, c.isAlphanum ∨ c = '_'
  identifier : isIdentifier ident

/-- Whether all characters are letters, digits and underscores of ASCII. -/
def isPlain (s : String) : Bool := s.toList.all fun c => c.isAlphanum || c == '_'

theorem isPlain_iff : isPlain s ↔ ∀ c ∈ s.toList, c.isAlphanum ∨ c = '_' := by
  simp [isPlain]

theorem isPlain_append {a b : String} : isPlain (a ++ b) ↔ isPlain a ∧ isPlain b := by
  simp [isPlain, String.toList_append]

theorem exported_of {ident : String} (hcapital : ∃ c ∈ ident.toList.head?, c.isUpper)
    (hplain : isPlain ident) : Exported ident := by
  have hchars := isPlain_iff.mp hplain
  refine ⟨hcapital, hchars, ?_⟩
  obtain ⟨c, hc, hupper⟩ := hcapital
  obtain ⟨cs, hlist⟩ := List.head?_eq_some_iff.mp hc
  have halphabetic : Unicode.isAlphabetic c := by
    have hrange : (65, 90) ∈ Unicode.alphabeticRanges := by decide +kernel
    exact Unicode.Ranges.contains_iff.mpr ⟨_, hrange, isUpper_iff.mp hupper⟩
  refine isIdentifier_iff.mpr ⟨c, cs, hlist, .inl halphabetic, ?_, ?_⟩
  · intro d hd
    rcases hchars d (hlist ▸ List.mem_cons_of_mem c hd) with hd | rfl
    · exact isNameChar_of_isAlphanum hd
    · decide +kernel
  · -- keywords begin with small letters
    have hkeywords : ∀ k ∈ keywords, ¬ k.toList.head?.any Char.isUpper = true := by decide
    intro hmem
    exact hkeywords _ hmem (by rw [hlist, List.head?_cons, Option.any_some, hupper])

theorem Exported.plain {ident : String} (h : Exported ident) : isPlain ident :=
  isPlain_iff.mpr h.chars

theorem Exported.append {ident more : String} (h : Exported ident) (hmore : isPlain more) :
    Exported (ident ++ more) := by
  obtain ⟨c, hc, hupper⟩ := h.capital
  refine exported_of ⟨c, ?_, hupper⟩ (isPlain_append.mpr ⟨h.plain, hmore⟩)
  rw [String.toList_append]
  exact List.mem_head?_append_of_mem_head? hc

/-! ### Names that source files declare -/

/-- A name as source files may declare it. -/
def isSourceName (s : String) : Bool :=
  match s.toList with
  | [] => false
  | c :: cs => (c.isAlpha || c == '_') && cs.all fun d => d.isAlphanum || d == '_'

theorem isSourceName_iff : isSourceName s ↔ (∃ c ∈ s.toList.head?, c.isAlpha ∨ c = '_') ∧
    ∀ c ∈ s.toList, c.isAlphanum ∨ c = '_' := by
  unfold isSourceName
  cases s.toList with
  | nil => simp
  | cons c cs =>
    simp only [Bool.and_eq_true, Bool.or_eq_true, beq_iff_eq, List.all_eq_true, List.head?_cons,
      Option.mem_some, exists_eq_left', List.forall_mem_cons, Char.isAlphanum]
    constructor
    · rintro ⟨hfirst, hrest⟩
      exact ⟨hfirst, hfirst.imp_left .inl, hrest⟩
    · rintro ⟨hfirst, -, hrest⟩
      exact ⟨hfirst, hrest⟩

/-- A path of names begins like the first of them and has no other characters but dots. -/
theorem intercalate_spec {names : List String} (hne : names ≠ [])
    (h : ∀ n ∈ names, isSourceName n) :
    (∃ c ∈ (".".intercalate names).toList.head?, c.isAlpha ∨ c = '_') ∧
      ∀ c ∈ (".".intercalate names).toList, c.isAlphanum ∨ c = '_' ∨ c = '.' := by
  induction names with
  | nil => exact absurd rfl hne
  | cons n rest ih =>
    obtain ⟨hn, hrest⟩ := List.forall_mem_cons.mp h
    obtain ⟨hfirst, hchars⟩ := isSourceName_iff.mp hn
    have hplain : ∀ c ∈ n.toList, c.isAlphanum ∨ c = '_' ∨ c = '.' :=
      fun c hc => (hchars c hc).imp_right .inl
    cases rest with
    | nil =>
      rw [String.intercalate_singleton]
      exact ⟨hfirst, hplain⟩
    | cons m rest =>
      obtain ⟨c, hc, hletter⟩ := hfirst
      rw [String.intercalate_cons_cons, String.toList_append, String.toList_append]
      refine ⟨⟨c, ?_, hletter⟩, ?_⟩
      · exact List.mem_head?_append_of_mem_head? (List.mem_head?_append_of_mem_head? hc)
      · rw [List.forall_mem_append, List.forall_mem_append]
        refine ⟨⟨hplain, ?_⟩, (ih (List.cons_ne_nil _ _) hrest).2⟩
        intro c hc
        exact .inr (.inr (List.mem_singleton.mp hc))

theorem isAscii_of_chars (h : ∀ c ∈ s.toList, c.isAlphanum ∨ c = '_' ∨ c = '.') : IsAscii s := by
  intro c hc
  rcases h c hc with hc | rfl | rfl
  · have hcode := isAlphanum_iff.mp hc
    omega
  · decide
  · decide

theorem exists_capital {b : UInt8}
    (hb : isLower b ∨ (0x41 ≤ b.toNat ∧ b.toNat ≤ 0x5A) ∨ b = underscore) (rest : List UInt8) :
    ∃ x ∈ (pieces none none (b :: rest)).head?, 0x41 ≤ x.toNat ∧ x.toNat ≤ 0x5A := by
  rw [pieces, piece]
  rcases hb with hlower | hupper | rfl
  · obtain ⟨hdot, hunderscore, -⟩ := ne_of_isLower hlower
    have hfirst : (isLower b && endsWord none) = true := by rw [hlower]; rfl
    rw [if_neg hdot, if_neg hunderscore, if_pos hfirst]
    exact ⟨_, rfl, toNat_capital_of_isLower hlower⟩
  · obtain ⟨hdot, hunderscore, -⟩ := endsWord_some_eq_false_iff.mp (endsWord_of_toNat hupper)
    have hlower : isLower b = false := by
      rw [← Bool.not_eq_true, isLower_iff]
      omega
    rw [if_neg hdot, if_neg hunderscore, hlower, Bool.false_and, if_neg Bool.false_ne_true]
    exact ⟨_, rfl, hupper⟩
  · exact ⟨capitalX, rfl, by decide⟩

/-- A letter or an underscore in front becomes a capital letter in front. -/
theorem head?_camelCase (hascii : IsAscii s)
    (hfirst : ∃ c ∈ s.toList.head?, c.isAlpha ∨ c = '_') :
    ∃ c ∈ (camelCase s).toList.head?, c.isUpper := by
  obtain ⟨c, hc, hletter⟩ := hfirst
  obtain ⟨cs, hlist⟩ := List.head?_eq_some_iff.mp hc
  have hcode : (UInt8.ofNat c.toNat).toNat = c.toNat := by
    have hlt := hascii c (List.mem_of_mem_head? hc)
    rw [UInt8.toNat_ofNat']
    omega
  have hbyte : isLower (UInt8.ofNat c.toNat) ∨ (0x41 ≤ (UInt8.ofNat c.toNat).toNat ∧
      (UInt8.ofNat c.toNat).toNat ≤ 0x5A) ∨ UInt8.ofNat c.toNat = underscore := by
    rw [isLower_iff, hcode]
    rcases hletter with hletter | rfl
    · rcases isAlpha_iff.mp hletter with hupper | hlower
      · exact .inr (.inl hupper)
      · exact .inl hlower
    · exact .inr (.inr rfl)
  obtain ⟨x, hx, hupper⟩ := exists_capital hbyte (cs.map fun d => UInt8.ofNat d.toNat)
  refine ⟨glyph x, ?_, isUpper_iff.mpr hupper⟩
  rw [toList_camelCase, utf8_of_isAscii hascii, hlist, List.map_cons, List.head?_map]
  exact Option.mem_map_of_mem glyph hx

theorem chars_camelCase (h : ∀ c ∈ s.toList, c.isAlphanum ∨ c = '_' ∨ c = '.') :
    ∀ c ∈ (camelCase s).toList, c.isAlphanum ∨ c = '_' := by
  intro c hc
  rw [camelCase, String.toList_ofList] at hc
  rcases mem_words hc with rfl | rfl | ⟨b, hb, hdot, hbyte⟩
  · exact .inr rfl
  · exact .inl rfl
  · have hsource := h _ (mem_of_mem_utf8 hb (toNat_lt_of_mem_utf8 (isAscii_of_chars h) hb))
    have hdot' : glyph b ≠ '.' := fun heq => hdot (UInt8.toNat_inj.mp (congrArg Char.toNat heq))
    have hglyph : (glyph b).isAlphanum ∨ glyph b = '_' := by
      rcases hsource with hsource | hsource | hsource
      · exact .inl hsource
      · exact .inr hsource
      · exact absurd hsource hdot'
    rcases hbyte with rfl | rfl
    · exact hglyph
    · rw [capital_eq]
      split
      case isTrue hlower =>
        have hlarge := toNat_capital_of_isLower hlower
        exact .inl (isAlphanum_iff.mpr (.inl hlarge))
      case isFalse => exact hglyph

theorem exported_camelCase {names : List String} (hne : names ≠ [])
    (h : ∀ n ∈ names, isSourceName n) : Exported (camelCase (".".intercalate names)) := by
  obtain ⟨hfirst, hchars⟩ := intercalate_spec hne h
  exact exported_of (head?_camelCase (isAscii_of_chars hchars) hfirst)
    (isPlain_iff.mpr (chars_camelCase hchars))

theorem exported_camelCase_name (h : isSourceName s) : Exported (camelCase s) := by
  have hpath := exported_camelCase (List.cons_ne_nil s []) (List.forall_mem_singleton.mpr h)
  rwa [String.intercalate_singleton] at hpath

end Go

open Go (Exported isSourceName)
open Descriptor (Declared File First Site)

/-! ### The identifiers of services, messages and enums -/

def ServiceNames.identifiers (n : ServiceNames) : List String :=
  [n.serviceNameConst, n.client, n.clientConstructor, n.handler, n.register]

def OperationNames.identifiers (n : OperationNames) : List String :=
  [n.handlerMethod, n.execute, n.start, n.operationNameConst]

theorem ServiceNames.exported {name : String} (h : isSourceName name) :
    ∀ ident ∈ (ofName name).identifiers, Exported ident := by
  have hname := Go.exported_camelCase_name h
  have hnew : Exported "New" := Go.exported_of ⟨_, rfl, by decide⟩ (by decide)
  have hregister : Exported "Register" := Go.exported_of ⟨_, rfl, by decide⟩ (by decide)
  simp only [identifiers, ofName, List.forall_mem_cons]
  exact ⟨hname.append (by decide), hname.append (by decide),
    (hnew.append hname.plain).append (by decide), hname.append (by decide),
    (hregister.append hname.plain).append (by decide), List.forall_mem_nil _⟩

theorem OperationNames.exported {service method : String} (hservice : isSourceName service)
    (hmethod : isSourceName method) (runtimeName : String) :
    ∀ ident ∈ (ofMethod (ServiceNames.ofName service) method runtimeName).identifiers,
      Exported ident := by
  have hname := Go.exported_camelCase_name hmethod
  have hexecute : Exported "Execute" := Go.exported_of ⟨_, rfl, by decide⟩ (by decide)
  have hstart : Exported "Start" := Go.exported_of ⟨_, rfl, by decide⟩ (by decide)
  simp only [identifiers, ofMethod, ServiceNames.ofName, List.forall_mem_cons]
  exact ⟨hname, hexecute.append hname.plain, hstart.append hname.plain,
    ((Go.exported_camelCase_name hservice).append hname.plain).append (by decide),
    List.forall_mem_nil _⟩

namespace Descriptor.Site

variable {f : File} {s : Site}

/-- The names on the way to a site. -/
def names (s : Site) : List String := s.line.map (·.name) ++ (s.enum?.map (·.name)).toList

theorem names_ne_nil {files : List File} (h : Declared files f s) (henum : s.enum? = none) :
    s.names ≠ [] := by
  obtain ⟨-, hwithin, -⟩ := h
  have hline := hwithin.line_ne_nil henum
  simp [names, under, hline]

theorem exported_path (hne : s.names ≠ []) (h : ∀ n ∈ s.names, isSourceName n) :
    Exported (Go.camelCase s.path) :=
  Go.exported_camelCase hne h

/-- What an enum's constants begin with is exported, too. -/
theorem exported_scope (hne : s.names ≠ []) (h : ∀ n ∈ s.names, isSourceName n) :
    Exported s.scope := by
  unfold scope
  split
  case isTrue => exact exported_path hne h
  case isFalse hline =>
    exact Go.exported_camelCase (by simpa using hline) fun n hn =>
      h n (List.mem_append_left _ hn)

end Descriptor.Site

theorem Service.exported_of_resolve {s : Service} {settings : Settings} {n : NamedService}
    (hresolve : (s.resolve settings).outcome = .ok n) (hname : isSourceName s.name)
    (hmethods : ∀ op ∈ s.operations, isSourceName op.methodName) :
    ∀ ident ∈ n.names.identifiers ++ n.operations.flatMap (·.names.identifiers),
      Exported ident := by
  obtain ⟨-, rfl⟩ := Service.resolve_eq_ok_iff.mp hresolve
  rw [List.forall_mem_append]
  refine ⟨ServiceNames.exported hname, ?_⟩
  intro ident hident
  obtain ⟨named, hnamed, hident⟩ := List.mem_flatMap.mp hident
  obtain ⟨op, hop, rfl⟩ := List.mem_map.mp hnamed
  exact OperationNames.exported hname (hmethods op hop) _ ident hident

/-- The Go name that is derived from a path of names is exported, and derived from itself. So are
    the identifiers that are made for a service and its methods, for a message and for an enum, if
    the names that they are made from are names that source files can declare. -/
theorem exported_names (files : List File) (settings : Settings) :
    (∀ names : List String, names ≠ [] → (∀ n ∈ names, isSourceName n) →
      Exported (Go.camelCase (".".intercalate names)) ∧
        Go.camelCase (Go.camelCase (".".intercalate names)) =
          Go.camelCase (".".intercalate names)) ∧
    (∀ service, isSourceName service →
      (∀ ident ∈ (ServiceNames.ofName service).identifiers, Exported ident) ∧
        ∀ method runtimeName, isSourceName method →
          ∀ ident ∈ (OperationNames.ofMethod (ServiceNames.ofName service) method
            runtimeName).identifiers, Exported ident) ∧
    (∀ (s : Service) (n : NamedService), (s.resolve settings).outcome = .ok n →
      isSourceName s.name → (∀ op ∈ s.operations, isSourceName op.methodName) →
        ∀ ident ∈ n.names.identifiers ++ n.operations.flatMap (·.names.identifiers),
          Exported ident) ∧
    (∀ ref ∈ (TypeIndex.build files settings).messages, ∃ f s, First files f s ∧
      s.messageRef? settings f = some ref ∧
        ((∀ n ∈ s.names, isSourceName n) → Exported ref.goIdent)) ∧
    ∀ ref ∈ (TypeIndex.build files settings).enums, ∃ f s e, First files f s ∧
      s.enum? = some e ∧ s.enumRef? settings f = some ref ∧
        ((∀ n ∈ s.names, isSourceName n) → (∀ v ∈ e.values, isSourceName v.name) →
          ∀ ident ∈ ref.goIdents, Exported ident) := by
  refine ⟨?_, ?_, fun s n => Service.exported_of_resolve, ?_, ?_⟩
  · intro names hne h
    obtain ⟨hfirst, hchars⟩ := Go.intercalate_spec hne h
    refine ⟨Go.exported_camelCase hne h, Go.camelCase_camelCase (Go.isAscii_of_chars hchars) ?_⟩
    intro hdot
    obtain ⟨c, hc, hletter⟩ := hfirst
    obtain rfl := Option.some.inj (hdot.symm.trans hc)
    exact absurd hletter (by decide)
  · intro service hservice
    refine ⟨ServiceNames.exported hservice, ?_⟩
    intro method runtimeName hmethod
    exact OperationNames.exported hservice hmethod runtimeName
  · intro ref href
    obtain ⟨f, s, hfirst, hmade⟩ := TypeIndex.mem_messages_build_iff.mp href
    refine ⟨f, s, hfirst, hmade, ?_⟩
    obtain ⟨henum, rfl⟩ := Site.messageRef?_eq_some_iff.mp hmade
    exact fun h => Site.exported_path (Site.names_ne_nil hfirst.declared henum) h
  · intro ref href
    obtain ⟨f, s, hfirst, hmade⟩ := TypeIndex.mem_enums_build_iff.mp href
    obtain ⟨e, henum, rfl⟩ := Site.enumRef?_eq_some_iff.mp hmade
    refine ⟨f, s, e, hfirst, henum, hmade, ?_⟩
    intro h hvalues
    have hne : s.names ≠ [] := by simp [Site.names, henum]
    have hident := Site.exported_path hne h
    rw [List.forall_mem_cons, List.forall_mem_cons, List.forall_mem_cons]
    refine ⟨hident, hident.append (by decide), hident.append (by decide), ?_⟩
    intro ident hmem
    obtain ⟨v, hv, rfl⟩ := List.mem_map.mp hmem
    have hvalue := Go.isPlain_iff.mpr (Go.isSourceName_iff.mp (hvalues v hv)).2
    exact ((Site.exported_scope hne h).append (by decide)).append hvalue

/-- A service with a method whose name begins with an underscore. -/
def desk : Service where
  fullName := "oms.order_desk"
  name := "order_desk"
  package := "oms"
  file := "oms.proto"
  chosenName := none
  operations := [⟨"_open2x", ".oms.Order", ".oms.Order", none⟩]

/-- All of it is exported: a path of three names, the identifiers of the desk, and those of the
    states that are declared inside an item. -/
theorem exported_names_desk :
    Go.camelCase (Go.camelCase "Order.item._Part") = Go.camelCase "Order.item._Part" ∧
      (∃ n, (desk.resolve Settings.standard).outcome = .ok n ∧
        n.operations.flatMap (·.names.identifiers) = ["XOpen2X", "ExecuteXOpen2X", "StartXOpen2X",
          "OrderDeskXOpen2XOperationName"] ∧
        ∀ ident ∈ n.names.identifiers ++ n.operations.flatMap (·.names.identifiers),
          Exported ident) ∧
      ∃ ref ∈ (TypeIndex.build TypeIndex.deepOrder Settings.standard).enums,
        "OrderItem_OPEN" ∈ ref.goIdents ∧ ∀ ident ∈ ref.goIdents, Exported ident := by
  obtain ⟨hpaths, -, hservices, -, henums⟩ := exported_names TypeIndex.deepOrder Settings.standard
  refine ⟨?_, ?_, ?_⟩
  · have hpath : ".".intercalate ["Order", "item", "_Part"] = "Order.item._Part" := by decide
    rw [← hpath]
    exact (hpaths _ (List.cons_ne_nil _ _) (by decide)).2
  · cases hresolve : (desk.resolve Settings.standard).outcome with
    | error fault =>
      have hok : (desk.resolve Settings.standard).outcome.isOk := by decide +kernel
      rw [hresolve] at hok
      exact nomatch hok
    | ok n =>
      refine ⟨n, rfl, ?_, hservices desk n hresolve (by decide) (by decide)⟩
      obtain ⟨-, rfl⟩ := Service.resolve_eq_ok_iff.mp hresolve
      decide +kernel
  · obtain ⟨ref, href, hopen⟩ : ∃ ref ∈ (TypeIndex.build TypeIndex.deepOrder
        Settings.standard).enums, "OrderItem_OPEN" ∈ ref.goIdents := by
      decide +kernel
    obtain ⟨f, s, e, hfirst, he, -, hexported⟩ := henums ref href
    have hvisit := Descriptor.mem_visits_iff.mpr hfirst.declared
    have hnames : ∀ v ∈ Descriptor.visits TypeIndex.deepOrder, (∀ n ∈ v.2.names, isSourceName n) ∧
        ∀ x ∈ v.2.enum?, ∀ value ∈ x.values, isSourceName value.name := by
      decide +kernel
    obtain ⟨hsource, hvalues⟩ := hnames _ hvisit
    exact ⟨ref, href, hopen, hexported hsource (hvalues e he)⟩

end GoBindings
