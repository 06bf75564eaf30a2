import SwiftAccess.Cli.Parse
import SwiftAccess.Host.Invocation
import SwiftAccess.Host.Manifest
import SwiftAccess.Json.Write
import SwiftAccess.Cli.Log

/-!
# Running the command

`Cli.run` is the whole `kitty` command as a function of its arguments and of an `Env`, the record of
the effects it has: reading standard input, reading a file, writing a file, and reading the clock
for the timestamps of its log. The program instantiates the record with the real system, and a
test can instantiate it with a pure world.

After the arguments are read (`Cli.parse`), the run refuses `--in-place` without a file, loads the
manifest, reads the buffer, reads every `--lines` range and then every `--selection`, in the order
given, and performs the command on the whole buffer when nothing is selected. It prints the
replaced lines as JSON with `--json`, writes the buffer back with `--in-place` when a line changed,
and otherwise prints the buffer. An unknown command name changes nothing and is reported on the
error stream; the run still prints the buffer. Once the buffer and the selections are read, the
run's log records (`Cli.Log`) come first on the error stream, before any message.

A refusal ends the run with status 1 and a report: the failure with what the run was doing, and
the chain of causes below it (`Cli.report`). A line range whose last line is the largest line
number cannot be represented, and a selection of more lines than the program can list cannot be
listed; both stop the program with status 101.
-/

namespace SwiftAccess.Cli

open Host

/-- A failed read or write, with the message the operating system gives for it. -/
structure IoError where
  message : String
  deriving DecidableEq, Repr

namespace IoError

/-- The file does not exist. -/
def notFound : IoError := ⟨"No such file or directory (os error 2)"⟩

/-- The path names a directory. -/
def isDirectory : IoError := ⟨"Is a directory (os error 21)"⟩

/-- A part of the path before its last names a file, not a directory. -/
def notDirectory : IoError := ⟨"Not a directory (os error 20)"⟩

/-- The bytes read are not UTF-8. -/
def invalidUtf8 : IoError := ⟨"stream did not contain valid UTF-8"⟩

end IoError

/-- The effects of a run, in a monad `m`. -/
structure Env (m : Type → Type) where
  /-- All of standard input, as text. -/
  input : m (Except IoError String)
  /-- A whole file, as text. -/
  contents : String → m (Except IoError String)
  /-- Replace a file's contents. -/
  save : String → String → m (Except IoError Unit)
  /-- The current time, as a log record's timestamp. -/
  clock : m String

/-- How a run ends: its status and what it printed on each stream. -/
structure Exit where
  status : Nat
  stdout : String := ""
  stderr : String := ""
  deriving DecidableEq, Repr

/-- The width-5 right-aligned number that introduces a cause in a numbered chain. -/
def causeNumber (n : Nat) : String :=
  let s := toString n
  String.ofList (List.replicate (5 - s.length) ' ') ++ s

/-- A failure report: the failure, then its causes from the nearest, numbered when there are more
than one. -/
def report (failure : String) (causes : List String) : String :=
  let chain := match causes with
    | [] => ""
    | [c] => "\n\nCaused by:\n    " ++ c
    | cs => "\n\nCaused by:" ++ String.join (cs.zipIdx.map fun p => "\n" ++ causeNumber p.2 ++ ": " ++ p.1)
  "Error: " ++ failure ++ chain ++ "\n"

/-- A run that fails with a report. -/
def failed (failure : String) (causes : List String) : Exit :=
  { status := 1, stderr := report failure causes }

/-- The end of a run whose line range overflows the line numbers. -/
def lineOverflow : Exit :=
  { status := 101,
    stderr := "thread 'main' panicked at crates/kitty-cli/src/selection.rs:45:66:\n" ++
      "attempt to add with overflow\n" ++
      "note: run with `RUST_BACKTRACE=1` environment variable to display a backtrace\n" }

/-- The end of a run whose selection holds more lines than the program can list. -/
def capacityOverflow : Exit :=
  { status := 101,
    stderr := "thread 'main' panicked at library/alloc/src/vec/spec_from_iter_nested.rs:52:24:\n" ++
      "capacity overflow\n" ++
      "note: run with `RUST_BACKTRACE=1` environment variable to display a backtrace\n" }

/-- A text printed as a line, or nothing when it is empty. -/
def printLine (s : String) : String := if s.isEmpty then "" else s ++ "\n"

variable {m : Type → Type} [Monad m]

/-- The host configuration, from the manifest if one is given. -/
def loadConfig (env : Env m) : Option String → ExceptT Exit m HostConfig
  | none => pure HostConfig.default
  | some path => do
    match ← (env.contents path : m _) with
    | .error e => throw (failed ("reading manifest " ++ path) ["I/O error: " ++ e.message, e.message])
    | .ok text =>
      match Manifest.read text with
      | .ok bundleId => pure (HostConfig.ofBundleId bundleId)
      | .error problem =>
        throw (failed ("reading manifest " ++ path) ["Invalid extension manifest: " ++ problem, problem])

/-- The buffer, from the file if one is given and from standard input otherwise. -/
def loadSource (env : Env m) : Option String → ExceptT Exit m String
  | some path => do
    match ← (env.contents path : m _) with
    | .error e => throw (failed ("reading " ++ path) [e.message])
    | .ok text => pure text
  | none => do
    match ← (env.input : m _) with
    | .error e => throw (failed e.message [])
    | .ok text => pure text

/-- The ranges of the `--lines` options and then of the `--selection` options. -/
def readSelections (req : Request) : Except Exit (List TextRange) := do
  let lines ← req.lines.mapM fun s =>
    match TextRange.parseLines s with
    | .ok r => .ok r
    | .error (.invalid e) => .error (failed e.message [])
    | .error .lastLineOverflow => .error lineOverflow
  let selections ← req.selections.mapM fun s =>
    match TextRange.parse s with
    | .ok r => .ok r
    | .error e => .error (failed e.message [])
  pure (lines ++ selections)

/-- The lines of the records the log shows, each stamped with the time it is written. -/
def writeLog (env : Env m) (detailed : Bool) (records : List Record) : m String := do
  let lines ← (records.filter (·.level.shown detailed)).mapM fun r => do
    let stamp ← env.clock
    pure (r.line stamp)
  pure (String.join lines)

/-- The run of a request. -/
def execute (env : Env m) (req : Request) : ExceptT Exit m Exit := do
  if req.inPlace && req.file.isNone then throw (failed "--in-place needs a FILE" [])
  let config ← loadConfig env req.manifest
  let config := { config with debug := config.debug || req.debug }
  let source ← loadSource env req.file
  let selections ← ExceptT.mk (pure (readSelections req))
  let inv := Invocation.ofSource req.command req.contentType source selections
  let inv := if inv.selections.isEmpty then { inv with selections := inv.wholeBuffer } else inv
  let ready := readyRecord config inv
  match perform config inv with
  | .error (.refused e) =>
    let log ← (writeLog env config.debug [ready] : m _)
    throw { status := 1, stderr := log ++ e.message ++ "\n" }
  | .error .capacityOverflow =>
    let log ← (writeLog env config.debug [ready] : m _)
    throw { capacityOverflow with stderr := log ++ capacityOverflow.stderr }
  | .ok outcome =>
    let log ← (writeLog env config.debug (ready :: performRecords inv outcome) : m _)
    let stderr := log ++ if outcome.change.isNone then "Unknown command: " ++ req.command ++ "\n" else ""
    let stdout := if req.json then printLine (Json.prettyLineMap outcome.newLines) else ""
    if req.inPlace then
      match req.file with
      | some path =>
        if outcome.isNoop then pure { status := 0, stdout, stderr }
        else
          match ← (env.save path (outcome.text (source.endsWith "\n")) : m _) with
          | .error e =>
            pure { status := 1, stdout, stderr := stderr ++ report ("writing " ++ path) [e.message] }
          | .ok () => pure { status := 0, stdout, stderr }
      | none => pure { status := 0, stdout, stderr }
    else if req.json then pure { status := 0, stdout, stderr }
    else pure { status := 0, stdout := printLine (outcome.text false), stderr }

/-- The whole command: its status and output for a list of arguments. -/
def run (env : Env m) (args : List String) : m Exit := do
  match parse args with
  | .error h => pure { status := h.status, stdout := h.stdout, stderr := h.stderr }
  | .ok req =>
    match ← (execute env req).run with
    | .ok e => pure e
    | .error e => pure e

end SwiftAccess.Cli
