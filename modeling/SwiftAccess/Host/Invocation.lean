import SwiftAccess.Buffer
import SwiftAccess.Host.Config
import SwiftAccess.Host.Selection

/-!
# Performing a command

An `Invocation` is one editor command on one buffer: the command identifier, the buffer's content
type, its lines and the selections. `perform` runs it. It refuses a content type the host does not
rewrite; it stops when a selection holds more lines than the program can list
(`PerformError.capacityOverflow`); it refuses a selection that selects no line (`HostError`). An
identifier that names no command
changes nothing. Otherwise the selected lines are rewritten, and the `Outcome` holds the change,
the new text of every selected eligible line, the numbers of the lines that changed, and the whole
buffer after the change, made by copying the new text of each changed line into the buffer
(`copyChanged`). `Outcome.text` joins the buffer's lines again.

A source text is cut into lines at line feeds. A carriage return right before a line feed belongs
to the line break; any other carriage return stays in its line. A text that ends with a line break
has no empty line after it, and the empty text has no lines (`Text.lines`).
-/

namespace SwiftAccess.Text

/-- A line without the carriage return that ends it, if any. -/
def dropReturn (line : List Char) : List Char :=
  match line.getLast? with
  | some '\r' => line.dropLast
  | _ => line

/-- The lines of a text given as characters. -/
def linesOf (cs : List Char) : List (List Char) :=
  match h : cs.dropWhile (· ≠ '\n') with
  | [] => if cs.isEmpty then [] else [cs]
  | _ :: after => dropReturn (cs.takeWhile (· ≠ '\n')) :: linesOf after
termination_by cs.length
decreasing_by
  have := (List.dropWhile_sublist (l := cs) (fun c => decide (c ≠ '\n'))).length_le
  rw [h] at this
  simp only [List.length_cons] at this
  omega

/-- The lines of a text. -/
def lines (s : String) : List String := (linesOf s.toList).map String.ofList

end SwiftAccess.Text

namespace SwiftAccess.Host

/-- One editor command on one buffer. -/
structure Invocation where
  command : String
  contentType : String
  lines : List String
  selections : List TextRange
  deriving DecidableEq, Repr

/-- Why the host refuses a command; both reasons are shown to the user. -/
inductive HostError where
  | unsupportedContentType (contentType : String)
  | noSelection
  deriving DecidableEq, Repr

/-- The message the user sees. -/
def HostError.message : HostError → String
  | .unsupportedContentType _ => "Access Kitty only works on Swift code."
  | .noSelection => "Access Kitty needs a selection to work on."

/-- Why performing a command gives no outcome. -/
inductive PerformError where
  /-- The host refuses the command and tells the user why. -/
  | refused (e : HostError)
  /-- A selection holds more lines than the program can list (`listCapacity`), which stops the
  program with a capacity overflow. -/
  | capacityOverflow
  deriving DecidableEq, Repr

namespace Invocation

/-- An invocation on a source text, cut into lines. -/
def ofSource (command contentType source : String) (selections : List TextRange) : Invocation :=
  { command, contentType, lines := Text.lines source, selections }

/-- The selection of every line of the buffer; none for an empty buffer. -/
def wholeBuffer (inv : Invocation) : List TextRange :=
  match inv.lines.length with
  | 0 => []
  | n + 1 => (TextRange.wholeLines? 0 n).toList

end Invocation

/-- What a command did. -/
structure Outcome where
  /-- The change the command asked for; `none` for an unknown command. -/
  change : Option AccessChange
  /-- The new text of every selected eligible line, by increasing number. -/
  newLines : List (Nat × String)
  /-- The numbers of the lines whose text changed, increasing. -/
  changed : List Nat
  /-- The whole buffer after the command. -/
  lines : List String
  deriving DecidableEq, Repr

namespace Outcome

/-- Whether the command changed nothing. -/
def isNoop (o : Outcome) : Bool := o.changed.isEmpty

/-- The buffer as text: its lines joined by line feeds, with a final line feed when asked for and
the buffer is not empty. -/
def text (o : Outcome) (trailingNewline : Bool) : String :=
  "\n".intercalate o.lines ++ (if trailingNewline && !o.lines.isEmpty then "\n" else "")

end Outcome

/-- The buffer's lines with the new text of each changed line copied in, one line number at a time.
A number that has no new text leaves the lines alone. -/
def copyChanged (lines : List String) (newLines : List (Nat × String)) (changed : List Nat) :
    List String :=
  changed.foldl (fun ls n => match newLines.lookup n with
    | some text => ls.set n text
    | none => ls) lines

/-- Runs a command under a configuration. -/
def perform (config : HostConfig) (inv : Invocation) : Except PerformError Outcome :=
  if !config.supports inv.contentType then .error (.refused (.unsupportedContentType inv.contentType))
  else if !inv.selections.all TextRange.listable then .error .capacityOverflow
  else
    let selected := selectedLines inv.selections
    if selected.isEmpty then .error (.refused .noSelection)
    else
      match Command.change? inv.command config.bundleId with
      | none => .ok { change := none, newLines := [], changed := [], lines := inv.lines }
      | some change =>
        let b := Buffer.ofLines inv.lines
        let newLines := b.newLines selected change
        let changed := b.changedLines newLines
        .ok { change := some change, newLines, changed, lines := copyChanged inv.lines newLines changed }

end SwiftAccess.Host
