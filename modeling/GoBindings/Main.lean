/-
  GoBindings/Main.lean
  ====================
  **The program.**

  Reads standard input, asks `program` what to do, writes the bytes to standard
  output and the lines to standard error, and exits with the status.
-/
import GoBindings.CommandLine

namespace GoBindings

/-- All of standard input, or how reading it failed. -/
def readAll (stdin : IO.FS.Stream) : IO Source := do
  let mut chunks : Array (List UInt8) := #[]
  let mut failure : Option String := none
  let mut more := true
  while more do
    try
      let chunk ← stdin.read 65536
      if chunk.isEmpty then more := false else chunks := chunks.push chunk.data.toList
    catch e =>
      failure := some (toString e)
      more := false
  return ⟨chunks.toList, failure⟩

/-- Writes all bytes to standard output. The result is the failure, if there was one. -/
def writeAll (stdout : IO.FS.Stream) (bytes : List UInt8) : IO (Option Report) := do
  try
    stdout.write bytes.toByteArray
  catch e =>
    return some (.unwritten (toString e))
  try
    stdout.flush
  catch e =>
    return some (.unflushed (toString e))
  return none

/-- Whether the arguments make the program read a request. -/
def reads (arguments : List String) : Bool :=
  match Command.parse arguments with
  | .ok .generate => true
  | _ => false

end GoBindings

open GoBindings in
def main (arguments : List String) : IO UInt32 := do
  let filter ← IO.getEnv logVariable
  let source ← if reads arguments then readAll (← IO.getStdin) else pure ⟨[], none⟩
  let finish := program arguments filter source
  let stderr ← IO.getStderr
  for line in finish.log ++ finish.failure do
    stderr.putStrLn line
  match ← writeAll (← IO.getStdout) finish.stdout with
  | none => return finish.status.toUInt32
  | some report =>
    let unsent := Finish.reported [] report
    for line in unsent.failure do
      stderr.putStrLn line
    return unsent.status.toUInt32
