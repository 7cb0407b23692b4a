/-
  GoBindings/Text/Terminal.lean
  =============================
  **What a text shows on a terminal.**

  Among the bytes of a text can be commands to a terminal: an escape byte and what
  belongs to it. Where messages are shown plainly such commands are left out, and so
  are control bytes other than white space.

  What follows an escape byte belongs to it up to a byte that the kind of command
  ends with. White space inside a command is shown all the same, and ends it: from
  there on bytes are shown until a control byte comes, which then takes up the
  command where it was left.
-/
import GoBindings.Text.Utf8

namespace GoBindings.Text

/-! ### Reading commands -/

/-- Where in a command a terminal is. -/
inductive TerminalState where
  | ground
  /-- Inside a character, of which some bytes are still to come. -/
  | character (missing : Nat)
  | escape
  | escapeIntermediate
  /-- A command with parameters, which ends with a letter. -/
  | controlSequence
  | deviceEntry
  | deviceParameters
  | deviceIntermediate
  /-- A text for the device, which ends with its own terminator. -/
  | deviceText
  /-- A text for the system, which ends with a bell. -/
  | systemText
deriving DecidableEq, Repr

namespace TerminalState

/-- Bytes that stand between the beginning and the end of a command. -/
def isIntermediate (b : UInt8) : Bool := 0x20 ≤ b && b ≤ 0x2f

def isParameter (b : UInt8) : Bool := 0x30 ≤ b && b ≤ 0x3f

/-- Parameters that can only be the first one. -/
def isPrivate (b : UInt8) : Bool := 0x3c ≤ b && b ≤ 0x3f

/-- Bytes that end a command. -/
def isFinal (b : UInt8) : Bool := 0x40 ≤ b && b ≤ 0x7e

/-- The number of bytes that follow the first byte of a character. -/
def following (b : UInt8) : Nat := if b < 0xe0 then 1 else if b < 0xf0 then 2 else 3

/-- Whether a byte is the first of a character with several bytes. -/
def beginsCharacter (b : UInt8) : Bool := 0xc2 ≤ b && b ≤ 0xf4

/-- What a byte after an escape byte begins or ends. -/
def afterEscape? (b : UInt8) : Option TerminalState :=
  if b == 0x5b then some controlSequence
  else if b == 0x5d then some systemText
  else if b == 0x50 then some deviceEntry
  else if b == 0x58 || b == 0x5e || b == 0x5f then some deviceText
  else if isIntermediate b then some escapeIntermediate
  else if isParameter b || isFinal b then some ground
  else none

/-- Where a byte leads to, if to somewhere else. -/
def next? (s : TerminalState) (b : UInt8) : Option TerminalState :=
  if b == 0x18 || b == 0x1a then some ground
  else if b == 0x1b then some escape
  else
    match s with
    | ground => if beginsCharacter b then some (character (following b)) else none
    | character n => some (if n ≤ 1 then ground else character (n - 1))
    | escape => afterEscape? b
    | escapeIntermediate => if isParameter b || isFinal b then some ground else none
    | controlSequence => if isFinal b then some ground else none
    | deviceEntry =>
      if isIntermediate b then some deviceIntermediate
      else if isParameter b then some deviceParameters
      else if isFinal b then some deviceText
      else none
    | deviceParameters =>
      if isIntermediate b then some deviceIntermediate
      else if isPrivate b || isFinal b then some deviceText
      else none
    | deviceIntermediate => if isParameter b || isFinal b then some deviceText else none
    | deviceText => if b == 0x9c then some ground else none
    | systemText => if b == 0x07 then some ground else none

def isBlank (b : UInt8) : Bool :=
  b == 0x09 || b == 0x0a || b == 0x0c || b == 0x0d || b == 0x20

/-- Whether a byte is shown. -/
def shows (s : TerminalState) (b : UInt8) : Bool :=
  match s with
  | ground => isBlank b || (0x20 < b && b < 0x7f) || beginsCharacter b
  | character _ => true
  | escape | escapeIntermediate | controlSequence => b < 0x20 && isBlank b
  | _ => false

/-! ### Leaving commands out -/

/-- The bytes that are shown. While bytes are shown one after the other, each of them is
    taken as if there were no command. -/
def shownFrom (showing : Bool) (s : TerminalState) : List UInt8 → List UInt8
  | [] => []
  | b :: rest =>
    match showing, s with
    | true, character n =>
      b :: shownFrom true ((character n).next? b |>.getD ground) rest
    | true, s =>
      let after := (ground.next? b).getD s
      if ground.shows b then b :: shownFrom true after rest
      else shownFrom false ((after.next? b).getD after) rest
    | false, s =>
      let after := (s.next? b).getD s
      if s.shows b then b :: shownFrom true after rest else shownFrom false after rest

end TerminalState

/-- The text without commands to a terminal. -/
def plain (s : String) : String :=
  (ofUtf8? (TerminalState.shownFrom false .ground (utf8 s))).getD ""

end GoBindings.Text
