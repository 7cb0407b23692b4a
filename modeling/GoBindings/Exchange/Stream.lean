/-
  GoBindings/Exchange/Stream.lean
  ===============================
  **Requests from a source and responses to a sink.**

  A source yields chunks of bytes and then ends or fails. A sink takes bytes as
  long as it has room. A failure is reported with what was being done and with
  its cause, which is that of the source or the sink.
-/
import GoBindings.Exchange.Request
import GoBindings.Exchange.Response

namespace GoBindings

/-- Where bytes come from. -/
structure Source where
  chunks : List (List UInt8)
  /-- The text of the failure after the last chunk, if the source does not just end. -/
  failure : Option String
deriving DecidableEq, Repr

/-- Where bytes go. -/
structure Sink where
  /-- How many more bytes it takes, and the text of the failure to take more; none is no
      limit. -/
  limit : Option (Nat × String)
  /-- The text of the failure to flush, if it fails. -/
  flushFailure : Option String
deriving DecidableEq, Repr

/-- A sink in memory, which says the same of every failure of a kind. -/
structure Buffer where
  /-- How many more bytes it takes; none is no limit. -/
  room : Option Nat
  failsToFlush : Bool
deriving DecidableEq, Repr

def Buffer.sink (b : Buffer) : Sink where
  limit := b.room.map fun n => (n, "sink full")
  flushFailure := if b.failsToFlush then some "flush failed" else none

/-! ### Failures -/

/-- A failure: what was being done, and why it failed. -/
structure Report where
  context : String
  cause : Fault
deriving DecidableEq, Repr

namespace Report

/-- Bytes of a response were not taken. -/
def unwritten (cause : String) : Report :=
  ⟨"failed to write CodeGeneratorResponse to stdout", .io cause⟩

/-- All bytes of a response were taken, but not passed on. -/
def unflushed (cause : String) : Report := ⟨"failed to flush stdout", .io cause⟩

end Report

/-! ### Receiving and sending -/

/-- Reads all of a source, then the request in it. -/
def Request.receive (s : Source) : Except Report Request :=
  match s.failure with
  | some cause => .error ⟨"failed to read CodeGeneratorRequest from stdin", .io cause⟩
  | none =>
    match Request.decode s.chunks.flatten with
    | .ok request => .ok request
    | .error fault => .error ⟨"failed to decode CodeGeneratorRequest", fault⟩

namespace Sink

/-- The bytes that a sink takes out of those offered. -/
def accepted (k : Sink) (bytes : List UInt8) : List UInt8 :=
  match k.limit with
  | none => bytes
  | some (n, _) => bytes.take n

/-- Why a sink does not take all bytes offered, if it does not. -/
def refusal? (k : Sink) (bytes : List UInt8) : Option String :=
  (k.limit.filter fun limit => limit.1 < bytes.length).map (·.2)

end Sink

namespace Response

/-- Writes a response to a sink: the bytes that arrived, and the failure if there was one. -/
def sendTo (r : Response) (k : Sink) : List UInt8 × Option Report :=
  (k.accepted r.encode,
    match k.refusal? r.encode with
    | some cause => some (.unwritten cause)
    | none => k.flushFailure.map Report.unflushed)

/-- Writes a response to memory. -/
def send (r : Response) (b : Buffer) : List UInt8 × Option Report := r.sendTo b.sink

end Response

end GoBindings
