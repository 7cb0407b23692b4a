/-
  GoBindings/Proofs/Pieces.lean
  =============================
  **A derived name, byte by byte.**

  The rule for derived names reads a word at a time. Yet what becomes of a byte depends on the
  byte and its two neighbours alone (`piece`): wherever the rule stops, no word is under way, so
  a small letter that comes next is the first one of a word (`words_eq_pieces`).

  A name can thus be cut anywhere, if each part knows its neighbour (`pieces_append`). To both of
  its sides a dot is what the end of the name is (`pieces_dot_left`, `pieces_dot_right`), so the
  parts of a nested name are derived on their own (`camelCase_under`).
-/
import GoBindings.Proofs.CamelCase
import GoBindings.Proofs.Literals

namespace GoBindings.Go

open Text (utf8)

namespace CamelCase

variable {before after : Option UInt8} {b : UInt8} {bytes rest : List UInt8}

/-! ### Pieces -/

/-- A small letter that comes next is the first one of a word. -/
def endsWord (before : Option UInt8) : Bool :=
  before.all fun b => b == dot || b == underscore || isDigit b

def capitalX : UInt8 := 0x58

/-- What becomes of a byte between its neighbours. -/
def piece (before : Option UInt8) (b : UInt8) (after : Option UInt8) : List UInt8 :=
  if b = dot then
    if after.any isLower then [] else [underscore]
  else if b = underscore then
    if before.isNone || before == some dot then [capitalX]
    else if after.any isLower then [] else [underscore]
  else if isLower b && endsWord before then [b - 0x20]
  else [b]

/-- What becomes of bytes that stand between two others. -/
def pieces (before after : Option UInt8) : List UInt8 → List UInt8
  | [] => []
  | b :: rest => piece before b (rest.head?.or after) ++ pieces (some b) after rest

theorem pieces_append (before after : Option UInt8) (xs ys : List UInt8) :
    pieces before after (xs ++ ys) =
      pieces before (ys.head?.or after) xs ++ pieces (xs.getLast?.or before) after ys := by
  induction xs generalizing before with
  | nil => rfl
  | cons x xs ih =>
    have hnext : ((xs ++ ys).head?).or after = xs.head?.or (ys.head?.or after) := by
      rw [List.head?_append, Option.or_assoc]
    have hlast : ((x :: xs).getLast?).or before = xs.getLast?.or (some x) := by
      cases xs with
      | nil => rfl
      | cons y ys => rw [List.getLast?_cons_cons, List.getLast?_cons]; rfl
    rw [List.cons_append, pieces, pieces, ih, hnext, hlast, List.append_assoc]

/-! ### A word at a time -/

theorem piece_of_letter (hdot : b ≠ dot) (hunderscore : b ≠ underscore)
    (hinside : endsWord before = false) (after : Option UInt8) : piece before b after = [b] := by
  rw [piece, if_neg hdot, if_neg hunderscore, hinside, Bool.and_false, if_neg Bool.false_ne_true]

theorem ne_of_isLower (h : isLower b) : b ≠ dot ∧ b ≠ underscore ∧ isDigit b = false := by
  refine ⟨?_, ?_, ?_⟩
  · rintro rfl
    exact absurd h (by decide)
  · rintro rfl
    exact absurd h (by decide)
  · have hrange := (isLower_iff b).mp h
    have hnine : (0x39 : UInt8).toNat = 0x39 := rfl
    rw [← Bool.not_eq_true]
    simp only [isDigit, Bool.and_eq_true, decide_eq_true_eq, UInt8.le_iff_toNat_le]
    omega

theorem endsWord_some_eq_false_iff :
    endsWord (some b) = false ↔ b ≠ dot ∧ b ≠ underscore ∧ isDigit b = false := by
  simp [endsWord, and_assoc]

/-- Small letters stay as they are while a word goes on. -/
theorem pieces_of_isLower (h : ∀ x ∈ bytes, isLower x)
    (hinside : bytes ≠ [] → endsWord before = false) : pieces before after bytes = bytes := by
  induction bytes generalizing before with
  | nil => rfl
  | cons x xs ih =>
    obtain ⟨hx, hxs⟩ := List.forall_mem_cons.mp h
    obtain ⟨hdot, hunderscore, hdigit⟩ := ne_of_isLower hx
    have hletter : endsWord (some x) = false :=
      endsWord_some_eq_false_iff.mpr ⟨hdot, hunderscore, hdigit⟩
    rw [pieces, piece_of_letter hdot hunderscore (hinside (List.cons_ne_nil _ _)),
      ih hxs fun _ => hletter]
    rfl

/-- The first byte of a word and the small letters behind it. -/
theorem pieces_word (hdot : b ≠ dot) (hunderscore : b = underscore → startsLower rest = false)
    (hdigit : isDigit b = false) :
    pieces (some b) none rest = rest.takeWhile isLower ++
      pieces ((rest.takeWhile isLower).getLast?.or (some b)) none (rest.dropWhile isLower) := by
  have hsplit := pieces_append (some b) none (rest.takeWhile isLower) (rest.dropWhile isLower)
  rw [List.takeWhile_append_dropWhile] at hsplit
  rw [hsplit, pieces_of_isLower fun x hx => List.mem_takeWhile_imp hx]
  intro hne
  refine endsWord_some_eq_false_iff.mpr ⟨hdot, ?_, hdigit⟩
  intro hb
  apply hne
  have hnot := hunderscore hb
  cases rest with
  | nil => rfl
  | cons x xs => rw [List.takeWhile_cons, if_neg (by simpa [startsLower] using hnot)]

theorem capital_eq (b : UInt8) : capital b = glyph (if isLower b then b - 0x20 else b) := by
  unfold capital
  split <;> rfl

theorem piece_of_word (hdot : b ≠ dot) (hfirst : ¬ (b = underscore ∧
      (before.isNone || before == some dot) = true))
    (hunderscore : ¬ (b = underscore ∧ after.any isLower = true))
    (hopens : isLower b → endsWord before) :
    piece before b after = [if isLower b then b - 0x20 else b] := by
  rw [piece, if_neg hdot]
  by_cases hb : b = underscore
  · have hsmall : isLower b = false := by
      rw [hb]
      decide
    rw [if_pos hb, if_neg fun h => hfirst ⟨hb, h⟩, if_neg fun h => hunderscore ⟨hb, h⟩, hsmall,
      if_neg Bool.false_ne_true, hb]
  · rw [if_neg hb]
    cases hlower : isLower b with
    | true => rw [hopens hlower, Bool.and_true, if_pos rfl, if_pos rfl]
    | false => rfl

/-- Where no word is under way, the rule and the pieces agree. The rule stops nowhere else. -/
theorem words_eq_pieces (before : Option UInt8) (bytes : List UInt8)
    (hopens : startsLower bytes → endsWord before) :
    words before bytes = (pieces before none bytes).map glyph := by
  induction before, bytes using words.induct with
  | case1 before => rw [words, pieces, List.map_nil]
  | case2 before rest hlower ih =>
    have hnext : rest.head?.any isLower = true := hlower
    rw [words, if_pos rfl, if_pos hlower, pieces, piece, if_pos rfl, Option.or_none,
      if_pos hnext, ih fun _ => rfl]
    rfl
  | case3 before rest hlower ih =>
    have hnext : ¬ rest.head?.any isLower = true := hlower
    rw [words, if_pos rfl, if_neg hlower, pieces, piece, if_pos rfl, Option.or_none,
      if_neg hnext, ih fun _ => rfl]
    rfl
  | case4 before b rest hdot hfirst ih =>
    obtain ⟨hb, hfirst'⟩ := (Bool.and_eq_true _ _).mp hfirst
    obtain rfl := of_decide_eq_true hb
    rw [words, if_neg hdot, if_pos hfirst, pieces, piece, if_neg hdot, if_pos rfl,
      if_pos hfirst', ih fun _ => rfl]
    rfl
  | case5 before b rest hdot hfirst hlower ih =>
    obtain ⟨hb, hnext⟩ := (Bool.and_eq_true _ _).mp hlower
    obtain rfl := of_decide_eq_true hb
    rw [startsLower] at hnext
    rw [words, if_neg hdot, if_neg hfirst, if_pos hlower, pieces, piece, if_neg hdot, if_pos rfl,
      if_neg fun h => hfirst (by simp [h]), Option.or_none, if_pos hnext, ih fun _ => rfl]
    rfl
  | case6 before b rest hdot hfirst hlower hdigit ih =>
    have hletter : isLower b = false := by
      rw [← Bool.not_eq_true]
      intro hb
      exact absurd hdigit (by rw [(ne_of_isLower hb).2.2]; decide)
    have hunderscore : b ≠ underscore := by
      rintro rfl
      exact absurd hdigit (by decide)
    have hnext : endsWord (some b) = true := by simp [endsWord, hdigit]
    rw [words, if_neg hdot, if_neg hfirst, if_neg hlower, if_pos hdigit, pieces, piece,
      if_neg hdot, if_neg hunderscore, hletter, Bool.false_and, if_neg Bool.false_ne_true,
      ih fun _ => hnext]
    rfl
  | case7 before b rest hdot hfirst hlower hdigit ih =>
    have hword : ∀ h : b = underscore, startsLower rest = false := by
      intro hb
      rw [← Bool.not_eq_true]
      intro hrest
      exact hlower (by simp [hb, hrest])
    -- behind a run of small letters there is none
    have hstop : ¬ startsLower (rest.dropWhile isLower) = true := by
      intro hstart
      have hnone := List.head?_dropWhile_not isLower rest
      cases hhead : (rest.dropWhile isLower).head? with
      | none =>
        rw [startsLower, hhead] at hstart
        exact absurd hstart Bool.false_ne_true
      | some d =>
        rw [startsLower, hhead] at hstart
        rw [hhead] at hnone
        exact absurd hstart (by simpa using hnone)
    rw [words, if_neg hdot, if_neg hfirst, if_neg hlower, if_neg hdigit, pieces, Option.or_none,
      piece_of_word hdot ?_ ?_ hopens, pieces_word hdot hword (by simpa using hdigit),
      ih fun hstart => absurd hstart hstop, capital_eq, List.map_append, List.map_append,
      List.map_singleton]
    · rfl
    · rintro ⟨hb, hbefore⟩
      exact hfirst (by simp [hb, hbefore])
    · rintro ⟨hb, hnext⟩
      exact absurd hnext (by rw [← startsLower, hword hb]; decide)

/-! ### Positions -/

/-- What becomes of the byte at a position. -/
def pieceAt (bytes : List UInt8) (i : Nat) : List UInt8 :=
  match bytes[i]? with
  | some b => piece (if i = 0 then none else bytes[i - 1]?) b bytes[i + 1]?
  | none => []

theorem pieceAt_append (front : List UInt8) (b : UInt8) (rest : List UInt8) :
    pieceAt (front ++ b :: rest) front.length = piece front.getLast? b rest.head? := by
  have hhere : (front ++ b :: rest)[front.length]? = some b := by simp
  have hnext : (front ++ b :: rest)[front.length + 1]? = rest.head? := by
    rw [List.getElem?_append_right (Nat.le_add_right _ 1), Nat.add_sub_cancel_left,
      List.getElem?_cons_succ, List.head?_eq_getElem?]
  have hbefore : (if front.length = 0 then none else (front ++ b :: rest)[front.length - 1]?) =
      front.getLast? := by
    rw [List.getLast?_eq_getElem?]
    by_cases hfront : front = []
    · simp [hfront]
    · have hlength := List.length_pos_of_ne_nil hfront
      rw [if_neg (by omega), List.getElem?_append_left (by omega)]
  unfold pieceAt
  rw [hhere, hnext, hbefore]

/-- The pieces of bytes, counted from the front of all bytes. -/
theorem pieces_eq_flatMap_range' (front bytes : List UInt8) :
    pieces front.getLast? none bytes =
      (List.range' front.length bytes.length).flatMap (pieceAt (front ++ bytes)) := by
  induction bytes generalizing front with
  | nil => rfl
  | cons b rest ih =>
    have hrest := ih (front ++ [b])
    rw [List.getLast?_concat, List.length_append, List.length_singleton, List.append_assoc,
      List.singleton_append] at hrest
    rw [pieces, Option.or_none, hrest, List.length_cons, List.range'_succ, List.flatMap_cons,
      pieceAt_append]

end CamelCase

open CamelCase

theorem toList_camelCase (s : String) :
    (camelCase s).toList = (pieces none none (utf8 s)).map glyph := by
  rw [camelCase, String.toList_ofList, words_eq_pieces none _ fun _ => rfl]

/-- A derived name is made of one piece for each byte of the UTF-8 form, and each piece is a
    matter of the byte, the byte before it and the byte behind it. -/
theorem camelCase_eq_pieces (s : String) :
    (camelCase s).toList =
      (List.range (utf8 s).length).flatMap fun i => (pieceAt (utf8 s) i).map glyph := by
  have hpieces := pieces_eq_flatMap_range' [] (utf8 s)
  rw [List.getLast?_nil, List.length_nil, List.nil_append, ← List.range_eq_range'] at hpieces
  rw [toList_camelCase, hpieces, List.map_flatMap]

/-! ### Dots -/

namespace CamelCase

variable {before after : Option UInt8} {bytes : List UInt8}

theorem pieces_dot_left (after : Option UInt8) (bytes : List UInt8) :
    pieces (some dot) after bytes = pieces none after bytes := by
  cases bytes with
  | nil => rfl
  | cons b rest => rfl

theorem piece_dot_right (before : Option UInt8) (b : UInt8) :
    piece before b (some dot) = piece before b none := rfl

theorem pieces_dot_right (before : Option UInt8) (bytes : List UInt8) :
    pieces before (some dot) bytes = pieces before none bytes := by
  induction bytes generalizing before with
  | nil => rfl
  | cons b rest ih =>
    rw [pieces, pieces, ih]
    cases rest with
    | nil => rw [List.head?_nil, Option.none_or, Option.none_or, piece_dot_right]
    | cons c rest => rfl

/-- What a dot leaves between two parts. -/
theorem pieces_join (xs ys : List UInt8) :
    pieces none none (xs ++ dot :: ys) =
      pieces none none xs ++ (if startsLower ys then [] else [underscore])
        ++ pieces none none ys := by
  rw [pieces_append, List.head?_cons, Option.some_or, pieces_dot_right, pieces, Option.or_none,
    Option.or_none, pieces_dot_left, List.append_assoc, piece, if_pos rfl, startsLower]

end CamelCase

theorem utf8_append (a b : String) : utf8 (a ++ b) = utf8 a ++ utf8 b := by
  rw [utf8, String.toList_append, List.flatMap_append]
  rfl

/-- A small ASCII letter in front of a text is the first of its bytes. -/
theorem startsLower_utf8 (s : String) : startsLower (utf8 s) = startsSmall s := by
  unfold startsSmall utf8
  cases s.toList with
  | nil => rfl
  | cons c cs =>
    rw [List.flatMap_cons, List.head?_cons, Option.any_some]
    by_cases hascii : c.toNat < 0x80
    · have hcode : (UInt8.ofNat c.toNat).toNat = c.toNat := by
        rw [UInt8.toNat_ofNat']
        omega
      rw [Literal.utf8EncodeChar_of_lt hascii]
      simp [startsLower, isLower, UInt8.le_iff_toNat_le, hcode]
    · have hsmall : (0x61 ≤ c.toNat && c.toNat ≤ 0x7A) = false := by
        rw [← Bool.not_eq_true]
        simp only [Bool.and_eq_true, decide_eq_true_eq]
        omega
      have hlength : 0 < (String.utf8EncodeChar c).length := by
        rw [String.length_utf8EncodeChar]
        exact c.utf8Size_pos
      rw [hsmall, ← Bool.not_eq_true]
      intro hlower
      cases hbytes : String.utf8EncodeChar c with
      | nil => rw [hbytes] at hlength; exact absurd hlength (lt_irrefl 0)
      | cons b rest =>
        -- a small letter is ASCII, so it would be the character itself
        rw [hbytes] at hlower
        have hrange := (isLower_iff b).mp hlower
        have hmem : b ∈ utf8 (String.singleton c) := by
          rw [utf8, String.toList_singleton, List.flatMap_singleton, hbytes]
          exact List.mem_cons_self
        have hglyph := mem_of_mem_utf8 hmem (by omega)
        rw [String.toList_singleton, List.mem_singleton] at hglyph
        have hcode : b.toNat = c.toNat := congrArg Char.toNat hglyph
        omega

/-- A nested name is that of what it is nested in and its own, with an underscore between them
    unless its own begins with a small letter. -/
theorem camelCase_under (p n : String) :
    camelCase (p ++ "." ++ n) =
      camelCase p ++ (if startsSmall n then "" else "_") ++ camelCase n := by
  have hdot : utf8 "." = [dot] := by decide
  apply String.toList_inj.mp
  rw [String.toList_append, String.toList_append, toList_camelCase, toList_camelCase,
    toList_camelCase, utf8_append, utf8_append, hdot, List.append_assoc, List.singleton_append,
    pieces_join, List.map_append, List.map_append, startsLower_utf8]
  cases startsSmall n <;> rfl

end GoBindings.Go
