/-
  GoBindings/CommandLine.lean
  ===========================
  **The program as its caller sees it.**

  Called without arguments the program reads a request, generates, and writes the
  response. It knows one flag, `--version`, besides the request for help. Arguments
  are looked at one after the other, and the first that is wrong decides. A usage
  error ends with status 2, any other failure with status 1.
-/
import GoBindings.Exchange.Stream
import GoBindings.Log.Config
import GoBindings.Run
import GoBindings.Text.Terminal

namespace GoBindings

/-! ### Arguments -/

/-- What the caller wants. -/
inductive Command where
  | generate
  | version
  | help
deriving DecidableEq, Repr

inductive UsageError where
  | unexpectedArgument (argument : String)
  | unexpectedValue (value flag : String)
  | repeatedFlag (flag : String)
deriving DecidableEq, Repr

/-- What is wrong. Commands to a terminal are left out of what the caller gave. -/
def UsageError.message : UsageError → String
  | .unexpectedArgument argument =>
    "error: unexpected argument '" ++ Text.plain argument ++ "' found"
  | .unexpectedValue value flag =>
    "error: unexpected value '" ++ Text.plain value ++ "' for '" ++ flag
      ++ "' found; no more were expected"
  | .repeatedFlag flag => "error: the argument '" ++ flag ++ "' cannot be used multiple times"

namespace Command

/-- One argument. Only a flag that is written out in full is known. -/
inductive Argument where
  /-- Everything after it is no flag. -/
  | endOfFlags
  | long (flag : String) (value : Option String)
  | short (letter : Char)
  | other (text : String)
deriving DecidableEq, Repr

def Argument.ofText (text : String) : Argument :=
  match text.toList with
  | ['-', '-'] => .endOfFlags
  | '-' :: '-' :: _ =>
    match Text.cutFirst? '=' text with
    | some (flag, value) => .long flag (some value)
    | none => .long text none
  | '-' :: letter :: _ => .short letter
  | _ => .other text

/-- Takes arguments one after the other; `versionSeen` says that the flag came before. -/
def parseFrom (versionSeen : Bool) : List String → Except UsageError Command
  | [] => .ok (if versionSeen then .version else .generate)
  | text :: rest =>
    match Argument.ofText text with
    | .endOfFlags =>
      match rest with
      | [] => .ok (if versionSeen then .version else .generate)
      | argument :: _ => .error (.unexpectedArgument argument)
    | .long flag value =>
      if flag = "--version" then
        match value with
        | some v => .error (.unexpectedValue v flag)
        | none => if versionSeen then .error (.repeatedFlag flag) else parseFrom true rest
      else if flag = "--help" then
        match value with
        | some v => .error (.unexpectedValue v flag)
        | none => .ok .help
      else .error (.unexpectedArgument flag)
    | .short letter =>
      if letter = 'h' then .ok .help
      else .error (.unexpectedArgument ("-" ++ String.singleton letter))
    | .other argument => .error (.unexpectedArgument argument)

def parse (arguments : List String) : Except UsageError Command := parseFrom false arguments

end Command

/-! ### The end of the program -/

/-- How the program ends. -/
structure Finish where
  status : UInt8
  stdout : List UInt8
  /-- Lines of the log. -/
  log : List String
  /-- Lines about the failure that ends the program, if one does. -/
  failure : List String
deriving DecidableEq, Repr

namespace Finish

/-- Ends well with lines of text. -/
def withText (lines : List String) : Finish :=
  ⟨0, Text.utf8 (String.join (lines.map (· ++ "\n"))), [], []⟩

/-- Ends with a failure, after lines of the log. -/
def failed (log : List String) (context cause : String) : Finish :=
  ⟨1, [], log, ["Error: " ++ context, "", "Caused by:", "    " ++ cause]⟩

/-- Ends with a failure to receive or send. -/
def reported (log : List String) (r : Report) : Finish :=
  failed log r.context
    (match r.cause with
    | .io cause => cause
    | fault => fault.message)

def usage (e : UsageError) : Finish := ⟨2, [], [], [e.message]⟩

end Finish

def versionLines : List String :=
  [Document.generatorName ++ ": " ++ generatorVersion, "rustc:"]

def helpLines : List String :=
  ["Generate Temporal Nexus clients and handlers for Go", "",
    "Usage: " ++ Document.generatorName ++ " [OPTIONS]", "",
    "Options:",
    "      --version  Print the plugin and toolchain versions, then exit",
    "  -h, --help     Print help"]

/-- Answers the request in a source. -/
def answer (config : LogConfig) (stdin : Source) : Finish :=
  match Request.receive stdin with
  | .error report => Finish.reported config.notice report
  | .ok request =>
    let run := generate request
    match run.outcome with
    | .ok response => ⟨0, response.encode, config.lines run.events, []⟩
    | .error fault =>
      Finish.failed (config.lines run.events) "failed to generate Nexus code" fault.message

/-- The whole program: its arguments, the variable for the log, and what it reads. -/
def program (arguments : List String) (logFilter : Option String) (stdin : Source) : Finish :=
  match Command.parse arguments with
  | .error e => Finish.usage e
  | .ok .version => Finish.withText versionLines
  | .ok .help => Finish.withText helpLines
  | .ok .generate => answer (LogConfig.ofVariable logFilter) stdin

end GoBindings
