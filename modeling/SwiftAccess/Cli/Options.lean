import SwiftAccess.Host.Config

/-!
# The options of the `kitty` command

`kitty` rewrites the access modifiers of a Swift buffer read from a file or standard input. Its
arguments are one optional positional `FILE` and the options of `Cli.Opt`: the required
`--command`, repeatable `--lines` and `--selection`, `--manifest`, `--content-type`, the flags
`--in-place`, `--json` and `--debug`, and `--help` and `--version`.

This module fixes how each argument is named and described: its long and short names, the
placeholder of its value, its line in the help text (`Cli.helpText`), and the two forms of the
usage line. The general form (`Cli.helpUsage`) lists `[OPTIONS]`; the form for a particular
command line (`Cli.usageFor`) names the required option and the arguments that were used.
-/

namespace SwiftAccess.Cli

/-- An argument of the command. -/
inductive Opt where
  | file
  | command
  | lines
  | selection
  | manifest
  | contentType
  | inPlace
  | json
  | debug
  | help
  | version
  deriving DecidableEq, Repr, Inhabited

/-- What an argument does when it occurs. -/
inductive Action where
  /-- Takes one value and may occur once. -/
  | set
  /-- Takes one value each time and may occur again. -/
  | append
  /-- A flag that may occur once. -/
  | setTrue
  /-- Prints the help text. -/
  | showHelp
  /-- Prints the version. -/
  | showVersion
  deriving DecidableEq, Repr

namespace Opt

/-- The options in the order they are declared; the positional `FILE` comes first. -/
def all : List Opt :=
  [.file, .command, .lines, .selection, .manifest, .contentType, .inPlace, .json, .debug, .help,
   .version]

/-- The long name, without its dashes. -/
def long? : Opt → Option String
  | .file => none
  | .command => some "command"
  | .lines => some "lines"
  | .selection => some "selection"
  | .manifest => some "manifest"
  | .contentType => some "content-type"
  | .inPlace => some "in-place"
  | .json => some "json"
  | .debug => some "debug"
  | .help => some "help"
  | .version => some "version"

/-- The short name. -/
def short? : Opt → Option Char
  | .command => some 'c'
  | .lines => some 'l'
  | .selection => some 's'
  | .inPlace => some 'i'
  | .help => some 'h'
  | .version => some 'V'
  | _ => none

/-- The placeholder of the value an argument takes. -/
def valueName? : Opt → Option String
  | .file => some "FILE"
  | .command => some "NAME"
  | .lines => some "FIRST-LAST"
  | .selection => some "L:C-L:C"
  | .manifest => some "PATH"
  | .contentType => some "UTI"
  | _ => none

/-- What an argument does. -/
def action : Opt → Action
  | .file | .command | .manifest | .contentType => .set
  | .lines | .selection => .append
  | .inPlace | .json | .debug => .setTrue
  | .help => .showHelp
  | .version => .showVersion

/-- Whether an option takes a value. -/
def takesValue (o : Opt) : Bool := o.valueName?.isSome

/-- How an argument is named in messages: `--command <NAME>`, `--json`, or `[FILE]`. -/
def display (o : Opt) : String :=
  match o.long?, o.valueName? with
  | some l, some v => "--" ++ l ++ " <" ++ v ++ ">"
  | some l, none => "--" ++ l
  | none, some v => "[" ++ v ++ "]"
  | none, none => ""

/-- The option with a long name. -/
def ofLong? (name : String) : Option Opt := all.find? (·.long? == some name)

/-- The option with a short name. -/
def ofShort? (c : Char) : Option Opt := all.find? (·.short? == some c)

end Opt

/-- The long names in the order they are looked up for suggestions. -/
def longNames : List String := Opt.all.filterMap Opt.long?

/-- The name and version the command reports. -/
def versionText : String := "kitty 0.1.0\n"

/-- The help line of the command names. -/
def commandHelp : String :=
  "Command name or fully qualified identifier (" ++
    ", ".intercalate (Host.Command.table.map Prod.fst) ++ ")"

/-- The usage line that lists `[OPTIONS]`, as the help text shows it. -/
def helpUsage : String := "kitty [OPTIONS] --command <NAME> [FILE]"

/-- The usage line for a command line that used the arguments `used`: the required option, the
other options used (each once, in the order given), and the positional, in angle brackets when it
was used. -/
def usageFor (used : List Opt) : String :=
  let opts := (Opt.command :: used.filter (· ≠ .file)).foldl
    (fun acc o => if acc.contains o then acc else acc ++ [o]) []
  let file := if used.contains .file then "<FILE>" else "[FILE]"
  " ".intercalate ("kitty" :: opts.map Opt.display ++ [file])

/-- The help text. -/
def helpText : String :=
  "Rewrites access-control modifiers in Swift source\n\n" ++
  "Usage: " ++ helpUsage ++ "\n\n" ++
  "Arguments:\n" ++
  "  [FILE]  Swift source file; reads stdin when omitted\n\n" ++
  "Options:\n" ++
  "  -c, --command <NAME>       " ++ commandHelp ++ "\n" ++
  "  -l, --lines <FIRST-LAST>   Zero-based line range to rewrite; may be repeated\n" ++
  "  -s, --selection <L:C-L:C>  Editor selection range; may be repeated\n" ++
  "      --manifest <PATH>      JSON extension manifest carrying CFBundleIdentifier\n" ++
  "      --content-type <UTI>   Content type of the buffer [default: " ++ Host.swiftSource ++ "]\n" ++
  "  -i, --in-place             Write the result back to FILE\n" ++
  "      --json                 Print the replacement lines as JSON\n" ++
  "      --debug                Enable debug logging\n" ++
  "  -h, --help                 Print help\n" ++
  "  -V, --version              Print version\n"

end SwiftAccess.Cli
