import SwiftAccess.Host.Invocation
import SwiftAccess.Text.Printable

/-!
# The diagnostic log

Besides its messages, the command keeps a log on the error stream. A record (`Cli.Record`) has a
level, a target naming the part of the program it comes from, a message and named fields. It is
written as one line: a timestamp, the level padded to five characters, the target, the message and
then each field as `name=value`. A field's value is written as it is, so a value that holds a line
break carries the record over onto the following lines; that is how an unknown command identifier
containing line breaks shows up twice on the error stream.

The log shows records at level `info` and above, and also `debug` records when the configuration
asks for detail (`Level.shown`). The records of a run are these, in order:

* `invocation ready` (debug), once the buffer and the selections are read;
* for an unknown command, `unknown command, nothing to do` (warn) with its identifier;
* for a known one, `performing command` (debug), then `selected line is out of range` (warn) for
  every selected line past the end of the buffer, `computed new lines` (debug), and
  `command complete` (info).
-/

namespace SwiftAccess.Cli

open Host

/-- How important a log record is, from the most to the least. -/
inductive Level where
  | error
  | warn
  | info
  | debug
  | trace
  deriving DecidableEq, Repr

namespace Level

/-- The level as a record shows it, right-aligned in five characters. -/
def label : Level → String
  | .error => "ERROR"
  | .warn => " WARN"
  | .info => " INFO"
  | .debug => "DEBUG"
  | .trace => "TRACE"

/-- Whether the log shows records of this level: down to `info`, or to `debug` in detail. -/
def shown (detailed : Bool) : Level → Bool
  | .error | .warn | .info => true
  | .debug => detailed
  | .trace => false

end Level

/-- One record of the log. -/
structure Record where
  level : Level
  /-- The part of the program the record comes from. -/
  target : String
  message : String
  /-- Named values, in the order they are written. -/
  fields : List (String × String)
  deriving DecidableEq, Repr

/-- The line of a record, after the given timestamp and ending in a line break. -/
def Record.line (r : Record) (stamp : String) : String :=
  stamp ++ " " ++ r.level.label ++ " " ++ r.target ++ ": " ++ r.message ++
    String.join (r.fields.map fun (name, value) => " " ++ name ++ "=" ++ value) ++ "\n"

/-- A number in decimal, padded with zeros to `width` digits. -/
def padded (width n : Nat) : String :=
  let digits := toString n
  String.ofList (List.replicate (width - digits.length) '0') ++ digits

/-- The date of a day counted from 1970-01-01 in the proleptic Gregorian calendar, as year, month
and day. Days are counted from 0000-03-01 in eras of 400 years, each 146097 days long, so that the
leap day ends a year. -/
def civilDate (days : Int) : Int × Nat × Nat :=
  let z := days + 719468
  let era := z / 146097
  let dayOfEra := (z - era * 146097).toNat
  let yearOfEra := (dayOfEra - dayOfEra / 1460 + dayOfEra / 36524 - dayOfEra / 146096) / 365
  let dayOfYear := dayOfEra - (365 * yearOfEra + yearOfEra / 4 - yearOfEra / 100)
  let shiftedMonth := (5 * dayOfYear + 2) / 153
  let day := dayOfYear - (153 * shiftedMonth + 2) / 5 + 1
  let month := if shiftedMonth < 10 then shiftedMonth + 3 else shiftedMonth - 9
  let year := (yearOfEra : Int) + era * 400 + (if month ≤ 2 then 1 else 0)
  (year, month, day)

/-- The timestamp of a log record written `nanos` nanoseconds after 1970-01-01T00:00:00Z: the UTC
date and time to the microsecond, as in `2026-11-13T08:05:09.123456Z`. -/
def timestamp (nanos : Int) : String :=
  let seconds := nanos / 1000000000
  let micros := (nanos % 1000000000).toNat / 1000
  let (year, month, day) := civilDate (seconds / 86400)
  let ofDay := (seconds % 86400).toNat
  padded 4 year.toNat ++ "-" ++ padded 2 month ++ "-" ++ padded 2 day ++ "T" ++
    padded 2 (ofDay / 3600) ++ ":" ++ padded 2 (ofDay / 60 % 60) ++ ":" ++ padded 2 (ofDay % 60) ++
    "." ++ padded 6 micros ++ "Z"

/-- The target of the command's own records. -/
def mainTarget : String := "kitty"

/-- The target of the records about performing a command. -/
def performTarget : String := "kitty_cli::invocation"

/-- The target of the records about rewriting the buffer. -/
def rewriteTarget : String := "kitty_core::rewriter"

/-- A list of texts written as a debugging view shows a list. -/
def debugList (items : List String) : String :=
  "[" ++ ", ".intercalate (items.map Text.quote) ++ "]"

/-- The configuration as a debugging view shows it. -/
def debugConfig (c : HostConfig) : String :=
  "HostConfig \x7b bundle_prefix: " ++ Text.quote c.bundleId ++ ", content_types: " ++
    debugList c.contentTypes ++ ", debug: " ++ toString c.debug ++ " \x7d"

/-- The record written once the invocation is ready to perform. -/
def readyRecord (config : HostConfig) (inv : Invocation) : Record :=
  { level := .debug, target := mainTarget, message := "invocation ready",
    fields := [("config", debugConfig config), ("selections", toString inv.selections.length)] }

/-- The records written while performing an invocation that succeeded with `outcome`. -/
def performRecords (inv : Invocation) (outcome : Outcome) : List Record :=
  match outcome.change with
  | none =>
    [{ level := .warn, target := performTarget, message := "unknown command, nothing to do",
       fields := [("identifier", inv.command)] }]
  | some change =>
    let selected := selectedLines inv.selections
    let total := toString inv.lines.length
    let outOfRange := selected.filter (inv.lines.length ≤ ·)
    [{ level := .debug, target := performTarget, message := "performing command",
       fields := [("change", change.label), ("selected", toString selected.length),
         ("total", total)] }] ++
    outOfRange.map (fun n =>
      { level := .warn, target := rewriteTarget, message := "selected line is out of range",
        fields := [("line_number", toString n), ("total", total)] }) ++
    [{ level := .debug, target := rewriteTarget, message := "computed new lines",
       fields := [("change", change.label), ("eligible", toString outcome.newLines.length),
         ("changed", toString outcome.changed.length)] },
     { level := .info, target := performTarget, message := "command complete",
       fields := [("change", change.label), ("changed", toString outcome.changed.length)] }]

end SwiftAccess.Cli
