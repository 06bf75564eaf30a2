import SwiftAccess.Cli.Options
import SwiftAccess.Text.Similarity

/-!
# Reading the command line

`Cli.parse` reads the arguments one at a time. `--` ends the options: every argument after it is
positional. `--name` and `--name=value` are long options; `-abc` is a cluster of short options in
which an option that takes a value takes the rest of the cluster (after an optional `=`), or else
the next argument. Any other argument is the value an option waits for, or the positional `FILE`.

A value is collected while its option waits and is only committed to the matches when the next
option, the next positional or the end of the line arrives; committing is where an option given
twice or an option left without its value is refused. The first refusal ends the parse with a
`Halt`, as does `--help` or `--version`. An unknown long option is compared with the known ones
(`Text.closest?`) to suggest a spelling. The usage line of a refusal names the arguments matched so
far (`usageFor`), or is the general one when it names none.
-/

namespace SwiftAccess.Cli

/-- Why the command line ends before the command runs. -/
inductive Halt where
  /-- `-h` or `--help`. -/
  | help
  /-- `-V` or `--version`. -/
  | version
  /-- An option was given without its value. -/
  | valueRequired (o : Opt)
  /-- An argument that may occur once occurred again. -/
  | repeated (o : Opt)
  /-- An argument that is not known, with a suggested spelling, whether to suggest passing it
  after `--`, and the arguments the usage line names. -/
  | unknown (arg : String) (suggestion : Option String) (escapeTip : Bool) (used : List Opt)
  /-- A flag was given a value with `=`. -/
  | unexpectedValue (value : String) (flag : Opt) (used : List Opt)
  /-- `--command` is missing. -/
  | missingRequired (used : List Opt)
  deriving DecidableEq, Repr

/-- The usage line that names the arguments `used`, or the general one when there are none. -/
def usageLine (used : List Opt) : String :=
  if used.isEmpty then helpUsage else usageFor used

/-- The line that closes every refusal. -/
def moreInformation : String := "For more information, try '--help'.\n"

namespace Halt

/-- The exit status: 0 after help or the version, 2 after a refusal. -/
def status : Halt → Nat
  | .help | .version => 0
  | _ => 2

/-- What is printed on standard output. -/
def stdout : Halt → String
  | .help => helpText
  | .version => versionText
  | _ => ""

/-- What is printed on standard error. -/
def stderr : Halt → String
  | .help | .version => ""
  | .valueRequired o =>
    "error: a value is required for '" ++ o.display ++ "' but none was supplied\n\n" ++
      moreInformation
  | .repeated o =>
    "error: the argument '" ++ o.display ++ "' cannot be used multiple times\n\nUsage: " ++
      helpUsage ++ "\n\n" ++ moreInformation
  | .unknown arg suggestion escapeTip used =>
    let tips :=
      (match suggestion with
       | some s => ["a similar argument exists: '" ++ s ++ "'"]
       | none => []) ++
      (if escapeTip then ["to pass '" ++ arg ++ "' as a value, use '-- " ++ arg ++ "'"] else [])
    "error: unexpected argument '" ++ arg ++ "' found\n" ++
      (if tips.isEmpty then "" else "\n" ++ String.join (tips.map ("  tip: " ++ · ++ "\n"))) ++
      "\nUsage: " ++ usageLine used ++ "\n\n" ++ moreInformation
  | .unexpectedValue value flag used =>
    "error: unexpected value '" ++ value ++ "' for '" ++ flag.display ++
      "' found; no more were expected\n\nUsage: " ++ usageLine used ++ "\n\n" ++ moreInformation
  | .missingRequired used =>
    "error: the following required arguments were not provided:\n  " ++ Opt.command.display ++
      "\n\nUsage: " ++ usageLine used ++ "\n\n" ++ moreInformation

end Halt

/-- The arguments matched so far, each with its values, in the order they were first matched. -/
abbrev Matches := List (Opt × List String)

/-- The matches with more values for an argument, which keeps its place if it is there. -/
def Matches.add (ms : Matches) (o : Opt) (vals : List String) : Matches :=
  if ms.any (·.1 == o) then ms.map fun m => if m.1 == o then (o, m.2 ++ vals) else m
  else ms ++ [(o, vals)]

/-- The state of the parse between two arguments. -/
structure Parser where
  /-- The committed matches. -/
  matched : Matches := []
  /-- The argument whose values are collected but not committed yet. -/
  pending : Option (Opt × List String) := none
  /-- The option that waits for its value in the next argument. -/
  expecting : Option Opt := none
  /-- Whether `--` has been seen. -/
  trailing : Bool := false
  /-- Whether the positional `FILE` has been taken. -/
  filled : Bool := false
  deriving DecidableEq, Repr

namespace Parser

/-- The arguments matched so far. -/
def used (p : Parser) : List Opt := p.matched.map (·.1)

/-- Whether an argument has been matched. -/
def has (p : Parser) (o : Opt) : Bool := p.matched.any (·.1 == o)

/-- Commit an occurrence of an argument with its values. -/
def commit (p : Parser) (o : Opt) (vals : List String) : Except Halt Parser :=
  if o.takesValue && vals.isEmpty then .error (.valueRequired o)
  else
    match o.action with
    | .set | .setTrue =>
      if p.has o then .error (.repeated o) else .ok { p with matched := p.matched.add o vals }
    | .append => .ok { p with matched := p.matched.add o vals }
    | .showHelp => .error .help
    | .showVersion => .error .version

/-- Commit the pending argument, if any. -/
def resolve (p : Parser) : Except Halt Parser :=
  match p.pending with
  | none => .ok p
  | some (o, vals) => { p with pending := none }.commit o vals

/-- Commit the pending argument on the way to another refusal: a value-less option is dropped,
and an argument that may occur once and was already matched is dropped too. -/
def resolveQuietly (p : Parser) : Parser :=
  match p.pending with
  | none => p
  | some (o, vals) =>
    let q := { p with pending := none }
    if o.takesValue && vals.isEmpty then q
    else if (o.action == .set || o.action == .setTrue) && q.has o then
      { q with matched := q.matched.filter (·.1 != o) }
    else { q with matched := q.matched.add o vals }

/-- An occurrence of an argument with its values, after committing the pending one. -/
def react (p : Parser) (o : Opt) (vals : List String) : Except Halt Parser := do
  let p ← p.resolve
  let p ← p.commit o vals
  pure { p with expecting := none }

/-- An option whose value comes in the next argument. -/
def await (p : Parser) (o : Opt) : Except Halt Parser := do
  let p ← p.resolve
  pure { p with pending := some (o, []), expecting := some o }

/-- A long option `--name`, with the value after `=` if there is one. -/
def long (p : Parser) (name : String) (value : Option String) : Except Halt Parser :=
  match Opt.ofLong? name with
  | some o =>
    if o.takesValue then
      match value with
      | some v => p.react o [v]
      | none => p.await o
    else
      match value with
      | some v => .error (.unexpectedValue v o (p.used.filter (· != .command) ++ [o]))
      | none => p.react o []
  | none =>
    let q := p.resolveQuietly
    match Text.closest? name longNames with
    | some s =>
      let used := q.used ++ (Opt.ofLong? s).toList
      .error (.unknown ("--" ++ name) (some ("--" ++ s)) false used)
    | none => .error (.unknown ("--" ++ name) none (!q.trailing) q.used)

/-- A cluster of short options, from its first character after the dash. -/
def shorts (p : Parser) : List Char → Except Halt Parser
  | [] => .ok p
  | c :: rest =>
    match Opt.ofShort? c with
    | none => .error (.unknown (String.ofList ['-', c]) none (!p.trailing) [])
    | some o =>
      if !o.takesValue then do
        let p ← p.react o []
        p.shorts rest
      else
        match rest with
        | [] => p.await o
        | '=' :: v => p.react o [String.ofList v]
        | v => p.react o [String.ofList v]

/-- Whether an argument looks like an option: it starts with a dash and is neither `-` nor `--`. -/
def looksLikeOption (arg : String) : Bool :=
  arg.startsWith "-" && arg != "-" && arg != "--"

/-- A positional argument: the first is `FILE`, any other is refused. -/
def positional (p : Parser) (arg : String) : Except Halt Parser :=
  if !p.filled then do
    let p ← p.resolve
    pure { p with pending := some (.file, [arg]), filled := true, expecting := none }
  else
    let q := p.resolveQuietly
    .error (.unknown arg none (!q.trailing && looksLikeOption arg) [])

/-- The parse after one more argument. -/
def step (p : Parser) (arg : String) : Except Halt Parser :=
  if p.trailing then p.positional arg
  else if arg == "--" then .ok { p with trailing := true }
  else
    match arg.toList with
    | '-' :: '-' :: body =>
      let name := body.takeWhile (· != '=')
      let value := match body.dropWhile (· != '=') with
        | _ :: v => some (String.ofList v)
        | [] => none
      p.long (String.ofList name) value
    | '-' :: c :: cs => p.shorts (c :: cs)
    | _ =>
      match p.expecting with
      | some o =>
        let vals := match p.pending with
          | some (_, vs) => vs
          | none => []
        .ok { p with pending := some (o, vals ++ [arg]), expecting := none }
      | none => p.positional arg

/-- The matches after the last argument; `--command` is required. -/
def finish (p : Parser) : Except Halt Matches := do
  let p ← p.resolve
  if p.has .command then pure p.matched
  else .error (.missingRequired (p.used ++ [.command]))

/-- The parse after a list of arguments. -/
def run (p : Parser) : List String → Except Halt Parser
  | [] => .ok p
  | arg :: rest => do
    let p ← p.step arg
    p.run rest

end Parser

/-- What the command is asked to do. -/
structure Request where
  /-- The Swift file to read; standard input when absent. -/
  file : Option String := none
  /-- The command's name or qualified identifier. -/
  command : String := ""
  /-- The line ranges to rewrite, as written. -/
  lines : List String := []
  /-- The selections to rewrite, as written. -/
  selections : List String := []
  /-- The extension manifest to read the bundle identifier from. -/
  manifest : Option String := none
  /-- The content type of the buffer. -/
  contentType : String := Host.swiftSource
  /-- Whether to write the result back to the file. -/
  inPlace : Bool := false
  /-- Whether to print the replaced lines as JSON. -/
  json : Bool := false
  /-- Whether to log at debug level. -/
  debug : Bool := false
  deriving DecidableEq, Repr

/-- The request the matches describe. -/
def Request.ofMatches (ms : Matches) : Request :=
  let set := fun (r : Request) (m : Opt × List String) =>
    match m.1 with
    | .file => { r with file := m.2.head? }
    | .command => { r with command := m.2.headD "" }
    | .lines => { r with lines := m.2 }
    | .selection => { r with selections := m.2 }
    | .manifest => { r with manifest := m.2.head? }
    | .contentType => { r with contentType := m.2.headD Host.swiftSource }
    | .inPlace => { r with inPlace := true }
    | .json => { r with json := true }
    | .debug => { r with debug := true }
    | .help | .version => r
  ms.foldl set {}

/-- The request a command line makes, or why it makes none. -/
def parse (args : List String) : Except Halt Request := do
  let p ← Parser.run {} args
  let ms ← p.finish
  pure (Request.ofMatches ms)

end SwiftAccess.Cli
