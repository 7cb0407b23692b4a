/-
  GoBindings/Proofs/Parses.lean
  =============================
  **What is written is read again.**

  What bytes are read as is told without fuel (`Wire.Parses`), and is what is read with fuel
  enough (`Wire.Parses.readFields`, `Wire.parses_of_readFields`). Fields whose numbers and
  payloads the wire can carry (`Wire.Message.Carriable`) are read as they were written, whatever
  stands behind them (`Wire.Parses.writeFields`), and whatever is read can be carried
  (`Wire.Parses.carriable`).
-/
import GoBindings.Wire.Message
import Mathlib.Algebra.Group.Nat.Defs
import Mathlib.Data.List.Basic

namespace GoBindings.Wire

/-! ### Numbers -/

/-- Each byte but the last one has room for seven bits, and the last one of as many as may be read
    for one. -/
theorem readVarintWithin_writeVarint {remaining n : Nat} (h : n < 2 ^ (7 * remaining + 1))
    (rest : List UInt8) :
    readVarintWithin (remaining + 1) (writeVarint n ++ rest) = some (n, rest) := by
  induction remaining generalizing n with
  | zero =>
    have hn : n = 0 ∨ n = 1 := by omega
    rcases hn with rfl | rfl <;> (rw [writeVarint]; rfl)
  | succ remaining ih =>
    rw [writeVarint]
    split
    case isTrue hsmall =>
      have hb : UInt8.ofNat n < 0x80 := UInt8.lt_iff_toNat_lt.mpr (by simp; omega)
      simp only [List.singleton_append, readVarintWithin, if_pos hb, Nat.succ_ne_zero, decide_false,
        Bool.false_and, Bool.false_eq_true, if_false]
      simp; omega
    case isFalse hlarge =>
      have hb : ¬ UInt8.ofNat (n % 0x80 + 0x80) < 0x80 := by
        rw [UInt8.lt_iff_toNat_lt]
        simp; omega
      have hhigh : n / 0x80 < 2 ^ (7 * remaining + 1) := by
        rw [Nat.div_lt_iff_lt_mul (by omega)]
        calc n < 2 ^ (7 * remaining + 1 + 7) := h
          _ = 2 ^ (7 * remaining + 1) * 0x80 := Nat.pow_add ..
      rw [List.cons_append, readVarintWithin, if_neg hb, ih hhigh]
      simp; omega

theorem readVarint?_writeVarint {n : Nat} (h : n < 2 ^ 64) (rest : List UInt8) :
    readVarint? (writeVarint n ++ rest) = some (n, rest) :=
  @readVarintWithin_writeVarint 9 n h rest

theorem readVarintWithin_eq_some {remaining n : Nat} {bytes rest : List UInt8}
    (h : readVarintWithin (remaining + 1) bytes = some (n, rest)) :
    n < 2 ^ (7 * remaining + 1) ∧ rest.length < bytes.length := by
  induction remaining generalizing n bytes with
  | zero =>
    cases bytes with
    | nil => exact nomatch h
    | cons b bytes =>
      simp only [readVarintWithin, decide_true, Bool.true_and, decide_eq_true_eq] at h
      split at h
      · split at h
        · exact nomatch h
        case isFalse hb =>
          obtain ⟨rfl, rfl⟩ := Prod.mk.inj (Option.some.inj h)
          have hn : b.toNat ≤ 1 := UInt8.le_iff_toNat_le.mp (UInt8.not_lt.mp hb)
          exact ⟨by omega, Nat.lt_succ_self _⟩
      · exact nomatch h
  | succ remaining ih =>
    cases bytes with
    | nil => exact nomatch h
    | cons b bytes =>
      rw [readVarintWithin] at h
      have hpow : 2 ^ (7 * (remaining + 1) + 1) = 2 ^ (7 * remaining + 1) * 0x80 :=
        Nat.pow_add 2 (7 * remaining + 1) 7
      have hpos : 0 < 2 ^ (7 * remaining + 1) := Nat.two_pow_pos _
      split at h
      case isTrue hb =>
        simp only [Nat.succ_ne_zero, decide_false, Bool.false_and, Bool.false_eq_true,
          if_false] at h
        obtain ⟨rfl, rfl⟩ := Prod.mk.inj (Option.some.inj h)
        have hn : b.toNat < 0x80 := UInt8.lt_iff_toNat_lt.mp hb
        exact ⟨by omega, Nat.lt_succ_self _⟩
      case isFalse =>
        obtain ⟨⟨high, after⟩, hhigh, h⟩ := Option.bind_eq_some_iff.mp h
        obtain ⟨rfl, rfl⟩ := Prod.mk.inj (Option.some.inj h)
        obtain ⟨hlt, hlength⟩ := ih hhigh
        have hb := b.toNat_lt
        exact ⟨by omega, Nat.lt_succ_of_lt hlength⟩

theorem readVarint?_eq_some {n : Nat} {bytes rest : List UInt8}
    (h : readVarint? bytes = some (n, rest)) : n < 2 ^ 64 ∧ rest.length < bytes.length :=
  @readVarintWithin_eq_some 9 n bytes rest h

/-! ### Keys -/

/-- The numbers that a field can have on the wire. -/
def IsNumber (number : Nat) : Prop := 0 < number ∧ number < 0x20000000

theorem Tag.lt_of_ofCode? {code : Nat} {tag : Tag} (h : Tag.ofCode? code = some tag) :
    code < 8 := by
  unfold ofCode? at h
  split at h <;> first | omega | exact nomatch h

theorem readKey?_writeKey {number code : Nat} {tag : Tag} (hnumber : IsNumber number)
    (htag : Tag.ofCode? code = some tag) (rest : List UInt8) :
    readKey? (writeKey number code ++ rest) = some ((number, tag), rest) := by
  obtain ⟨hpos, hlt⟩ := hnumber
  have hcode := Tag.lt_of_ofCode? htag
  have hdiv : (8 * number + code) / 8 = number := by omega
  have hmod : (8 * number + code) % 8 = code := by omega
  have hkey : 8 * number + code < 0x100000000 ∧ 0 < number := by omega
  have hvarint := readVarint?_writeVarint (show 8 * number + code < 2 ^ 64 by omega) rest
  rw [writeKey, readKey?, hvarint]
  simp only [Option.bind_eq_bind, Option.bind_some, hdiv, hmod, hkey, decide_true, Bool.and_self,
    if_true, htag]

theorem readKey?_eq_some {number : Nat} {tag : Tag} {bytes rest : List UInt8}
    (h : readKey? bytes = some ((number, tag), rest)) :
    IsNumber number ∧ rest.length < bytes.length := by
  obtain ⟨⟨key, after⟩, hvarint, h⟩ := Option.bind_eq_some_iff.mp h
  dsimp only at h
  split at h
  case isTrue hkey =>
    obtain ⟨tag, -, h⟩ := Option.bind_eq_some_iff.mp h
    simp only [Option.some.injEq, Prod.mk.injEq] at h
    obtain ⟨⟨rfl, rfl⟩, rfl⟩ := h
    simp only [Bool.and_eq_true, decide_eq_true_eq] at hkey
    exact ⟨⟨hkey.2, by omega⟩, (readVarint?_eq_some hvarint).2⟩
  case isFalse => exact nomatch h

/-! ### Payloads -/

theorem take?_append (content rest : List UInt8) :
    take? content.length (content ++ rest) = some (content, rest) := by
  simp [take?]

theorem take?_eq_some {n : Nat} {bytes content rest : List UInt8}
    (h : take? n bytes = some (content, rest)) : bytes = content ++ rest ∧ content.length = n := by
  unfold take? at h
  split at h
  case isTrue hlength =>
    obtain ⟨rfl, rfl⟩ := Prod.mk.inj (Option.some.inj h)
    exact ⟨(List.take_append_drop n bytes).symm, hlength⟩
  case isFalse => exact nomatch h

theorem length_lowBytes (count n : Nat) : (lowBytes count n).length = count := by
  induction count generalizing n with
  | zero => rfl
  | succ count ih => rw [lowBytes, List.length_cons, ih]

theorem littleEndian_lowBytes {count n : Nat} (h : n < 256 ^ count) :
    littleEndian (lowBytes count n) = n := by
  induction count generalizing n with
  | zero =>
    obtain rfl := Nat.lt_one_iff.mp h
    rfl
  | succ count ih =>
    have hhigh : n / 256 < 256 ^ count := by
      rw [Nat.div_lt_iff_lt_mul (by omega)]
      exact h
    have hlow : littleEndian (lowBytes (count + 1) n) =
        (UInt8.ofNat n).toNat + 256 * littleEndian (lowBytes count (n / 256)) := rfl
    rw [hlow, ih hhigh]
    simp; omega

theorem littleEndian_lt (bytes : List UInt8) : littleEndian bytes < 256 ^ bytes.length := by
  induction bytes with
  | nil => exact Nat.one_pos
  | cons b bytes ih =>
    have hcons : littleEndian (b :: bytes) = b.toNat + 256 * littleEndian bytes := rfl
    have hb := b.toNat_lt
    rw [hcons, List.length_cons, Nat.pow_succ]
    omega

theorem take?_lowBytes (count n : Nat) (rest : List UInt8) :
    take? count (lowBytes count n ++ rest) = some (lowBytes count n, rest) := by
  have htake := take?_append (lowBytes count n) rest
  rwa [length_lowBytes] at htake

theorem littleEndian_lt_of_take? {n : Nat} {bytes content rest : List UInt8}
    (h : take? n bytes = some (content, rest)) :
    littleEndian content < 256 ^ n ∧ rest.length ≤ bytes.length := by
  obtain ⟨rfl, rfl⟩ := take?_eq_some h
  exact ⟨littleEndian_lt content, by simp⟩

theorem readDelimited?_eq_some {bytes content rest : List UInt8}
    (h : readDelimited? bytes = some (content, rest)) :
    content.length < 2 ^ 64 ∧ content.length + rest.length < bytes.length := by
  obtain ⟨⟨n, after⟩, hvarint, h⟩ := Option.bind_eq_some_iff.mp h
  obtain ⟨rfl, rfl⟩ := take?_eq_some h
  obtain ⟨hlt, hlength⟩ := readVarint?_eq_some hvarint
  rw [List.length_append] at hlength
  exact ⟨hlt, hlength⟩

namespace Payload

/-- What the wire can carry: numbers have as many bits as there is room for, and fields of a group
    have numbers. -/
inductive Carriable : Payload → Prop
  | varint {n : Nat} (h : n < 2 ^ 64) : Carriable (.varint n)
  | fixed64 {bits : Nat} (h : bits < 2 ^ 64) : Carriable (.fixed64 bits)
  | bytes {content : List UInt8} (h : content.length < 2 ^ 64) : Carriable (.bytes content)
  | group {fields : Message} (hnumbers : ∀ x ∈ fields, IsNumber x.1)
      (hpayloads : ∀ x ∈ fields, Carriable x.2) : Carriable (.group fields)
  | fixed32 {bits : Nat} (h : bits < 2 ^ 32) : Carriable (.fixed32 bits)

/-- How a payload that is not a group is tagged. -/
def tag : Payload → Tag
  | .varint _ => .varint
  | .fixed64 _ => .fixed64
  | .bytes _ => .bytes
  | .group _ => .groupStart
  | .fixed32 _ => .fixed32

end Payload

/-- A payload that is read can be carried, and is tagged as it was. -/
theorem readPayload?_eq_some {tag : Tag} {p : Payload} {bytes rest : List UInt8}
    (h : readPayload? tag bytes = some (p, rest)) :
    p.Carriable ∧ p.tag = tag ∧ rest.length ≤ bytes.length := by
  unfold readPayload? at h
  split at h
  · obtain ⟨⟨n, after⟩, hvarint, heq⟩ := Option.map_eq_some_iff.mp h
    obtain ⟨rfl, rfl⟩ := Prod.mk.inj heq
    obtain ⟨hlt, hlength⟩ := readVarint?_eq_some hvarint
    exact ⟨.varint hlt, rfl, Nat.le_of_lt hlength⟩
  · obtain ⟨⟨b, after⟩, htake, heq⟩ := Option.map_eq_some_iff.mp h
    obtain ⟨rfl, rfl⟩ := Prod.mk.inj heq
    obtain ⟨hlt, hlength⟩ := littleEndian_lt_of_take? htake
    exact ⟨.fixed64 hlt, rfl, hlength⟩
  · obtain ⟨⟨b, after⟩, htake, heq⟩ := Option.map_eq_some_iff.mp h
    obtain ⟨rfl, rfl⟩ := Prod.mk.inj heq
    obtain ⟨hlt, hlength⟩ := littleEndian_lt_of_take? htake
    exact ⟨.fixed32 hlt, rfl, hlength⟩
  · obtain ⟨⟨content, after⟩, hdelimited, heq⟩ := Option.map_eq_some_iff.mp h
    obtain ⟨rfl, rfl⟩ := Prod.mk.inj heq
    obtain ⟨hlt, hlength⟩ := readDelimited?_eq_some hdelimited
    exact ⟨.bytes hlt, rfl, by omega⟩
  · exact nomatch h
  · exact nomatch h

/-- A payload that is not a group is written as a key and what can be read behind it. -/
theorem Payload.write_eq {p : Payload} (hp : p.Carriable) (hplain : p.tag ≠ .groupStart)
    (number : Nat) (rest : List UInt8) :
    ∃ code, Tag.ofCode? code = some p.tag ∧
      p.write number ++ rest = writeKey number code ++ (p.bare ++ rest) ∧
      readPayload? p.tag (p.bare ++ rest) = some (p, rest) := by
  cases hp with
  | @varint n h =>
    refine ⟨0, rfl, List.append_assoc .., ?_⟩
    simp [tag, bare, readPayload?, readVarint?_writeVarint h]
  | @fixed64 bits h =>
    refine ⟨1, rfl, List.append_assoc .., ?_⟩
    simp [tag, bare, readPayload?, take?_lowBytes, @littleEndian_lowBytes 8 _ h]
  | @bytes content h =>
    refine ⟨2, rfl, by simp [write, writeBytes, bare], ?_⟩
    simp [tag, bare, readPayload?, readDelimited?, readVarint?_writeVarint h, take?_append]
  | group => exact absurd rfl hplain
  | @fixed32 bits h =>
    refine ⟨5, rfl, List.append_assoc .., ?_⟩
    simp [tag, bare, readPayload?, take?_lowBytes, @littleEndian_lowBytes 4 _ h]

/-! ### Fields -/

/-- What bytes are read as, and what is left of them: fields up to the end or, inside a group, up
    to the end tag of the group. -/
inductive Parses : Option Nat → List UInt8 → Message → List UInt8 → Prop
  | nil : Parses none [] [] []
  | close {number : Nat} {bytes rest : List UInt8}
      (hkey : readKey? bytes = some ((number, .groupEnd), rest)) :
      Parses (some number) bytes [] rest
  | group {inGroup : Option Nat} {number : Nat} {inner more : Message}
      {bytes start middle rest : List UInt8}
      (hkey : readKey? bytes = some ((number, .groupStart), start))
      (hinner : Parses (some number) start inner middle) (hmore : Parses inGroup middle more rest) :
      Parses inGroup bytes ((number, .group inner) :: more) rest
  | plain {inGroup : Option Nat} {number : Nat} {tag : Tag} {p : Payload} {more : Message}
      {bytes start middle rest : List UInt8}
      (hkey : readKey? bytes = some ((number, tag), start))
      (hpayload : readPayload? tag start = some (p, middle))
      (hmore : Parses inGroup middle more rest) :
      Parses inGroup bytes ((number, p) :: more) rest

variable {inGroup : Option Nat} {m : Message} {bytes rest : List UInt8} {fuel : Nat}

theorem parses_of_readFields (h : readFields fuel inGroup bytes = some (m, rest)) :
    Parses inGroup bytes m rest := by
  induction fuel generalizing inGroup bytes m rest with
  | zero => exact nomatch h
  | succ fuel ih =>
    rw [readFields] at h
    split at h
    case isTrue hend =>
      obtain ⟨rfl, rfl⟩ := Prod.mk.inj (Option.some.inj h)
      rw [Bool.and_eq_true, List.isEmpty_iff, Option.isNone_iff_eq_none] at hend
      rw [hend.1, hend.2]
      exact .nil
    case isFalse =>
      obtain ⟨⟨⟨number, tag⟩, start⟩, hkey, h⟩ := Option.bind_eq_some_iff.mp h
      dsimp only at h
      split at h
      · split at h
        case isTrue hclose =>
          obtain ⟨rfl, rfl⟩ := Prod.mk.inj (Option.some.inj h)
          exact hclose ▸ .close hkey
        case isFalse => exact nomatch h
      · obtain ⟨⟨inner, middle⟩, hinner, h⟩ := Option.bind_eq_some_iff.mp h
        obtain ⟨⟨more, after⟩, hmore, h⟩ := Option.bind_eq_some_iff.mp h
        obtain ⟨rfl, rfl⟩ := Prod.mk.inj (Option.some.inj h)
        exact .group hkey (ih hinner) (ih hmore)
      · obtain ⟨⟨p, middle⟩, hpayload, h⟩ := Option.bind_eq_some_iff.mp h
        obtain ⟨⟨more, after⟩, hmore, h⟩ := Option.bind_eq_some_iff.mp h
        obtain ⟨rfl, rfl⟩ := Prod.mk.inj (Option.some.inj h)
        exact .plain hkey hpayload (ih hmore)

namespace Parses

/-- What is left is a part of the bytes, and inside a group the end tag is not part of it. -/
theorem length_le (h : Parses inGroup bytes m rest) :
    rest.length + (if inGroup.isSome then 1 else 0) ≤ bytes.length := by
  induction h with
  | nil => exact Nat.le_refl _
  | close hkey => exact (readKey?_eq_some hkey).2
  | group hkey _ _ ihinner ihmore =>
    have hlength := (readKey?_eq_some hkey).2
    rw [Option.isSome_some, if_pos rfl] at ihinner
    omega
  | plain hkey hpayload _ ih =>
    have hlength := (readKey?_eq_some hkey).2
    have hpart := (readPayload?_eq_some hpayload).2.2
    omega

theorem rest_eq_nil (h : Parses none bytes m rest) : rest = [] := by
  generalize hg : (none : Option Nat) = inGroup at h
  induction h with
  | nil => rfl
  | close => exact nomatch hg
  | group _ _ _ _ ih => exact ih hg
  | plain _ _ _ ih => exact ih hg

theorem ne_nil_of_readKey? {key : Nat × Tag} (h : readKey? bytes = some (key, rest)) :
    bytes.isEmpty = false := by
  cases bytes with
  | nil => exact nomatch h
  | cons b bytes => rfl

/-- The number of bytes and one more is fuel enough. -/
theorem readFields (h : Parses inGroup bytes m rest) (hfuel : bytes.length < fuel) :
    Wire.readFields fuel inGroup bytes = some (m, rest) := by
  induction h generalizing fuel with
  | nil =>
    cases fuel with
    | zero => exact absurd hfuel (Nat.not_lt_zero _)
    | succ fuel => rfl
  | close hkey =>
    cases fuel with
    | zero => exact absurd hfuel (Nat.not_lt_zero _)
    | succ fuel => simp [Wire.readFields, hkey]
  | group hkey hinner _ ihinner ihmore =>
    cases fuel with
    | zero => exact absurd hfuel (Nat.not_lt_zero _)
    | succ fuel =>
      have hlength := (readKey?_eq_some hkey).2
      have hpart := hinner.length_le
      rw [Wire.readFields, ne_nil_of_readKey? hkey, Bool.false_and, if_neg Bool.false_ne_true, hkey]
      simp only [Option.bind_eq_bind, Option.bind_some]
      rw [ihinner (by omega), Option.bind_some, ihmore (by omega), Option.bind_some]
  | @plain _ _ tag _ _ _ _ _ _ hkey hpayload _ ih =>
    cases fuel with
    | zero => exact absurd hfuel (Nat.not_lt_zero _)
    | succ fuel =>
      have hlength := (readKey?_eq_some hkey).2
      have hpart := (readPayload?_eq_some hpayload).2.2
      have hstart : tag ≠ .groupStart := by
        rintro rfl
        exact nomatch hpayload
      have hend : tag ≠ .groupEnd := by
        rintro rfl
        exact nomatch hpayload
      rw [Wire.readFields, ne_nil_of_readKey? hkey, Bool.false_and, if_neg Bool.false_ne_true, hkey]
      simp only [Option.bind_eq_bind, Option.bind_some]
      rw [hpayload, Option.bind_some, ih (by omega), Option.bind_some]

end Parses

/-! ### One field after the other -/

/-- A payload that is not a group is read without its number. -/
theorem readContent?_plain {number : Nat} {tag : Tag} {p : Payload}
    (h : readContent? number tag bytes = some (p, rest)) (hp : p.tag ≠ .groupStart) :
    tag = p.tag ∧ readPayload? p.tag bytes = some (p, rest) := by
  unfold readContent? at h
  split at h
  · obtain ⟨⟨fields, after⟩, -, heq⟩ := Option.map_eq_some_iff.mp h
    obtain ⟨rfl, rfl⟩ := Prod.mk.inj heq
    exact absurd rfl hp
  · obtain ⟨-, rfl, -⟩ := readPayload?_eq_some h
    exact ⟨rfl, h⟩

theorem readContent?_bytes {number : Nat} {tag : Tag} {content : List UInt8}
    (h : readContent? number tag bytes = some (.bytes content, rest)) :
    tag = .bytes ∧ readDelimited? bytes = some (content, rest) := by
  obtain ⟨rfl, hpayload⟩ := readContent?_plain h (by simp [Payload.tag])
  obtain ⟨⟨read, after⟩, hdelimited, heq⟩ := Option.map_eq_some_iff.mp hpayload
  obtain ⟨hcontent, rfl⟩ := Prod.mk.inj heq
  exact ⟨rfl, Payload.bytes.inj hcontent ▸ hdelimited⟩

theorem readContent?_group {number : Nat} {tag : Tag} {fields : Message}
    (h : readContent? number tag bytes = some (.group fields, rest)) :
    tag = .groupStart ∧ Parses (some number) bytes fields rest := by
  unfold readContent? at h
  split at h
  · obtain ⟨⟨inner, after⟩, hfields, heq⟩ := Option.map_eq_some_iff.mp h
    obtain ⟨hinner, rfl⟩ := Prod.mk.inj heq
    obtain rfl := Payload.group.inj hinner
    exact ⟨rfl, parses_of_readFields hfields⟩
  · next hstart =>
    obtain ⟨-, rfl, -⟩ := readPayload?_eq_some h
    exact absurd rfl hstart

theorem length_le_of_readContent? {number : Nat} {tag : Tag} {p : Payload}
    (h : readContent? number tag bytes = some (p, rest)) : rest.length ≤ bytes.length := by
  unfold readContent? at h
  split at h
  · obtain ⟨⟨inner, after⟩, hfields, heq⟩ := Option.map_eq_some_iff.mp h
    obtain ⟨-, rfl⟩ := Prod.mk.inj heq
    have hlength := (parses_of_readFields hfields).length_le
    omega
  · exact (readPayload?_eq_some h).2.2

namespace Parses

/-- In front is a key and what it announces. -/
theorem uncons {x : Field} {more : Message} (h : Parses inGroup bytes (x :: more) rest) :
    ∃ tag start middle, readKey? bytes = some ((x.1, tag), start) ∧ tag ≠ .groupEnd ∧
      readContent? x.1 tag start = some (x.2, middle) ∧ Parses inGroup middle more rest := by
  cases h with
  | @group _ number inner _ _ start middle _ hkey hinner hmore =>
    refine ⟨_, start, middle, hkey, nofun, ?_, hmore⟩
    rw [readContent?, hinner.readFields (Nat.lt_succ_self _)]
    rfl
  | @plain _ number tag p _ _ start middle _ hkey hpayload hmore =>
    refine ⟨tag, start, middle, hkey, ?_, ?_, hmore⟩
    · rintro rfl
      exact nomatch hpayload
    · cases tag <;> first | exact hpayload | exact nomatch hpayload

/-- Without fields there is nothing, or the end tag of a group. -/
theorem of_nil (h : Parses inGroup bytes [] rest) :
    (inGroup = none ∧ bytes = [] ∧ rest = []) ∨
      ∃ number, inGroup = some number ∧ readKey? bytes = some ((number, .groupEnd), rest) := by
  cases h with
  | nil => exact .inl ⟨rfl, rfl, rfl⟩
  | close hkey => exact .inr ⟨_, rfl, hkey⟩

end Parses

theorem Message.read?_eq_some_iff : Message.read? bytes = some m ↔ Parses none bytes m [] := by
  constructor
  · intro h
    obtain ⟨⟨fields, after⟩, hfields, rfl⟩ := Option.map_eq_some_iff.mp h
    have hparses := parses_of_readFields hfields
    exact hparses.rest_eq_nil ▸ hparses
  · intro h
    rw [Message.read?, h.readFields (Nat.lt_succ_self _)]
    rfl

/-! ### Writing -/

/-- The fields of a message have numbers and payloads that the wire can carry. -/
def Message.Carriable (m : Message) : Prop := ∀ x ∈ m, IsNumber x.1 ∧ x.2.Carriable

theorem writeFields_append (m more : Message) :
    writeFields (m ++ more) = writeFields m ++ writeFields more := by
  induction m with
  | nil => rfl
  | cons x m ih => rw [List.cons_append, writeFields, writeFields, ih, List.append_assoc]

theorem writeFields_flatMap {α : Type} (parts : List α) (fields : α → Message) :
    writeFields (parts.flatMap fields) = parts.flatMap fun part => writeFields (fields part) := by
  induction parts with
  | nil => rfl
  | cons part parts ih => rw [List.flatMap_cons, writeFields_append, ih, List.flatMap_cons]

namespace Parses

/-- Whatever is read can be carried. -/
theorem carriable (h : Parses inGroup bytes m rest) : Message.Carriable m := by
  induction h with
  | nil => exact List.forall_mem_nil _
  | close => exact List.forall_mem_nil _
  | group hkey _ _ ihinner ihmore =>
    refine List.forall_mem_cons.mpr ⟨⟨(readKey?_eq_some hkey).1, .group ?_ ?_⟩, ihmore⟩
    · exact fun x hx => (ihinner x hx).1
    · exact fun x hx => (ihinner x hx).2
  | plain hkey hpayload _ ih =>
    exact List.forall_mem_cons.mpr
      ⟨⟨(readKey?_eq_some hkey).1, (readPayload?_eq_some hpayload).1⟩, ih⟩

variable {tail : List UInt8} {more : Message}

theorem writeFields_of_forall (hm : ∀ x ∈ m, ∀ {inGroup tail more rest},
      Parses inGroup tail more rest → Parses inGroup (x.2.write x.1 ++ tail) (x :: more) rest)
    (h : Parses inGroup tail more rest) :
    Parses inGroup (Wire.writeFields m ++ tail) (m ++ more) rest := by
  induction m with
  | nil => exact h
  | cons x m ih =>
    rw [List.forall_mem_cons] at hm
    rw [Wire.writeFields, List.append_assoc]
    exact hm.1 (ih hm.2)

theorem write_plain {number : Nat} {p : Payload} (hp : p.Carriable) (hplain : p.tag ≠ .groupStart)
    (hnumber : IsNumber number) (h : Parses inGroup tail more rest) :
    Parses inGroup (p.write number ++ tail) ((number, p) :: more) rest := by
  obtain ⟨code, hcode, hwrite, hread⟩ := Payload.write_eq hp hplain number tail
  rw [hwrite]
  exact .plain (readKey?_writeKey hnumber hcode _) hread h

/-- A field is read as it was written, and then what stands behind it. -/
theorem write {number : Nat} {p : Payload} (hp : p.Carriable) (hnumber : IsNumber number)
    (h : Parses inGroup tail more rest) :
    Parses inGroup (p.write number ++ tail) ((number, p) :: more) rest := by
  induction hp generalizing inGroup number tail more rest with
  | @group fields hnumbers _ ih =>
    have hclose : Parses (some number) (writeKey number 4 ++ tail) [] tail :=
      .close (readKey?_writeKey hnumber rfl tail)
    have hfields := writeFields_of_forall (fun x hx => ih x hx (hnumbers x hx)) hclose
    rw [List.append_nil] at hfields
    rw [Payload.write, List.append_assoc, List.append_assoc]
    exact .group (readKey?_writeKey hnumber rfl _) hfields h
  | varint hn => exact write_plain (.varint hn) nofun hnumber h
  | fixed64 hbits => exact write_plain (.fixed64 hbits) nofun hnumber h
  | bytes hlength => exact write_plain (.bytes hlength) nofun hnumber h
  | fixed32 hbits => exact write_plain (.fixed32 hbits) nofun hnumber h

theorem writeFields (hm : m.Carriable) (h : Parses inGroup tail more rest) :
    Parses inGroup (Wire.writeFields m ++ tail) (m ++ more) rest :=
  writeFields_of_forall (fun x hx _ _ _ _ h => h.write (hm x hx).2 (hm x hx).1) h

end Parses

/-- Fields that can be carried are read as they were written. -/
theorem Message.read?_writeFields (hm : m.Carriable) : Message.read? (writeFields m) = some m := by
  have hparses := Parses.writeFields hm .nil
  rw [List.append_nil, List.append_nil] at hparses
  exact Message.read?_eq_some_iff.mpr hparses

end GoBindings.Wire
