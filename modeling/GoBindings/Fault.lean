/-
  GoBindings/Fault.lean
  =====================
  **What can go wrong, as causes.**

  A fault says what is wrong and with which names; its wording and its stable
  code are functions of it. Two faults end the whole run. Every other one
  belongs to a single file, so that the other files are still generated.
-/
import GoBindings.Text.Quoted

namespace GoBindings

/-- The ways in which a method can stream. -/
inductive Streaming where
  | client
  | server
  | bidirectional
deriving DecidableEq, Repr

def Streaming.label : Streaming → String
  | .client => "client-streaming"
  | .server => "server-streaming"
  | .bidirectional => "bidirectional-streaming"

/-- The causes of failure. -/
inductive Fault where
  /-- A descriptor lacks something that it must have. -/
  | malformedDescriptor (what : String)
  /-- A method streams. -/
  | unsupportedMethodKind (method : String) (kind : Streaming)
  /-- Two operations of one service share a runtime name. -/
  | duplicateOperationName (service name first second : String)
  /-- Two definitions lead to one Go identifier. -/
  | identifierCollision (identifier first second : String)
  /-- A message type is declared nowhere in the request. -/
  | unresolvableType (typeName referrer : String)
  /-- The parameter has a key that is not known. -/
  | unknownOption (key : String)
  /-- A known key of the parameter has an unusable value. -/
  | invalidOption (key reason : String)
  /-- The bytes of the request or of a descriptor are not a message. -/
  | undecodable
  /-- Reading or writing failed. -/
  | io (cause : String)
deriving DecidableEq, Repr

namespace Fault

/-- The stable name of the cause, for programs. -/
def code : Fault → String
  | malformedDescriptor _ => "MALFORMED_DESCRIPTOR"
  | unsupportedMethodKind _ _ => "UNSUPPORTED_METHOD_KIND"
  | duplicateOperationName _ _ _ _ => "DUPLICATE_OPERATION_NAME"
  | identifierCollision _ _ _ => "IDENTIFIER_COLLISION"
  | unresolvableType _ _ => "UNRESOLVABLE_TYPE"
  | unknownOption _ => "UNKNOWN_OPTION"
  | invalidOption _ _ => "INVALID_OPTION"
  | undecodable => "DECODE_ERROR"
  | io _ => "IO_ERROR"

/-- Whether the fault ends the run instead of one file. -/
def isFatal : Fault → Bool
  | undecodable => true
  | io _ => true
  | _ => false

/-- The text for people. -/
def message : Fault → String
  | malformedDescriptor what => "malformed descriptor: " ++ what
  | unsupportedMethodKind method kind =>
    "unsupported method kind: " ++ method ++ " is " ++ kind.label
      ++ "; Nexus operations take exactly one input and one output message"
  | duplicateOperationName service name first second =>
    "duplicate operation name " ++ Text.quoted name ++ " in service " ++ service
      ++ ": used by " ++ first ++ " and " ++ second
  | identifierCollision identifier first second =>
    "identifier collision: " ++ identifier ++ " is derived from both " ++ first
      ++ " and " ++ second
  | unresolvableType typeName referrer =>
    "unresolvable type " ++ typeName ++ " referenced by " ++ referrer
  | unknownOption key => "unknown option " ++ Text.quoted key
  | invalidOption key reason =>
    "invalid value for option " ++ Text.quoted key ++ ": " ++ reason
  | undecodable => "decode error: the bytes are not a message"
  | io cause => "IO error: " ++ cause

end Fault

end GoBindings
