/-
  GoBindings/Text/Utf8.lean
  =========================
  **Texts as bytes.**

  The bytes of a text are the encodings of its characters, one after the other,
  and only such bytes are a text.
-/
namespace GoBindings.Text

/-- The bytes that encode a text. -/
def utf8 (s : String) : List UInt8 := s.toList.flatMap String.utf8EncodeChar

/-- The text that the bytes encode, if they encode one. -/
def ofUtf8? (bytes : List UInt8) : Option String := String.fromUTF8? bytes.toByteArray

/-- The text between two positions in the bytes of a text, if characters start there. -/
def slice? (s : String) (start stop : Nat) : Option String :=
  ofUtf8? (((utf8 s).take stop).drop start)

/-- Characters with the positions of their first bytes; the first one is at `i`. -/
def positions (i : Nat) : List Char → List (Nat × Char)
  | [] => []
  | c :: rest => (i, c) :: positions (i + c.utf8Size) rest

end GoBindings.Text
