/-
  GoBindings/Wire/Fields.lean
  ===========================
  **Looking at the fields of a message.**

  A field that holds one value has the value of its last occurrence, unless it
  holds a message: then the occurrences merge, and as merged messages are
  messages one after the other, the value is their fields in order. A repeated
  field has all its occurrences.

  Payloads that are not carried as asked are passed over: a message that fits
  its schema has none.
-/
import GoBindings.Wire.Message
import GoBindings.Wire.Signed

namespace GoBindings.Wire

/-! ### Payloads of one kind -/

def Payload.bytes? : Payload → Option (List UInt8)
  | .bytes content => some content
  | _ => none

def Payload.varint? : Payload → Option Nat
  | .varint n => some n
  | _ => none

def Payload.fixed64? : Payload → Option Nat
  | .fixed64 bits => some bits
  | _ => none

/-- The numbers in a run of packed integers; each takes at least one byte. -/
def unpack : Nat → List UInt8 → Option (List Nat)
  | _, [] => some []
  | 0, _ :: _ => none
  | fuel + 1, b :: bytes => do
    let (n, rest) ← readVarint? (b :: bytes)
    let more ← unpack fuel rest
    some (n :: more)

/-- The numbers in a payload of packed integers. -/
def packedNumbers? (content : List UInt8) : Option (List Nat) := unpack content.length content

/-- The numbers that one occurrence of a repeated integer field holds. -/
def Payload.numbers : Payload → List Nat
  | .varint n => [n]
  | .bytes content => (packedNumbers? content).getD []
  | _ => []

/-! ### Fields by number -/

namespace Message

/-- The payloads of the fields with a number, in order. -/
def payloads (m : Message) (number : Nat) : List Payload :=
  (m.filter (·.1 == number)).map (·.2)

/-- All values of a repeated field of bytes. -/
def blobs (m : Message) (number : Nat) : List (List UInt8) :=
  (m.payloads number).filterMap Payload.bytes?

/-- All values of a repeated text field. -/
def texts (m : Message) (number : Nat) : List String := (m.blobs number).filterMap Text.ofUtf8?

/-- The value of a text field, if it is set. -/
def text? (m : Message) (number : Nat) : Option String := (m.texts number).getLast?

/-- The value of a text field; unset is empty. -/
def text (m : Message) (number : Nat) : String := (m.text? number).getD ""

/-- The value of an integer field, if it is set. -/
def number? (m : Message) (number : Nat) : Option Nat :=
  ((m.payloads number).filterMap Payload.varint?).getLast?

/-- The value of a field of signed 32-bit integers, if it is set. -/
def int32? (m : Message) (number : Nat) : Option Int := (m.number? number).map toInt32

/-- The value of a field of signed 32-bit integers; unset is zero. -/
def int32 (m : Message) (number : Nat) : Int := (m.int32? number).getD 0

/-- The value of a truth field; unset is false. -/
def flag (m : Message) (number : Nat) : Bool := (m.number? number).getD 0 != 0

/-- All values of a repeated field of signed 32-bit integers, packed or not. -/
def int32s (m : Message) (number : Nat) : List Int :=
  ((m.payloads number).flatMap Payload.numbers).map toInt32

/-- All values of a repeated field of messages. -/
def messages (m : Message) (number : Nat) : List Message :=
  (m.blobs number).map fun content => (Message.read? content).getD []

/-- The value of a field that holds a message, if it is set. -/
def message? (m : Message) (number : Nat) : Option Message :=
  match m.messages number with
  | [] => none
  | occurrences => some occurrences.flatten

/-- The value of a field that holds a message; unset is the message without fields. -/
def message (m : Message) (number : Nat) : Message := (m.messages number).flatten

/-- The bytes of a field that holds a message; unset is no bytes. -/
def content (m : Message) (number : Nat) : List UInt8 := (m.blobs number).flatten

end Message

end GoBindings.Wire
