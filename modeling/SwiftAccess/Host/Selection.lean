import SwiftAccess.Buffer
import SwiftAccess.Text.Printable

/-!
# Selections

An editor reports selections as ranges of zero-based `line:column` positions (`TextRange`). A range
selects every line it spans (`TextRange.lines`), except that an empty range (a bare caret)
selects nothing, and a range that ends at column 0 of a later line leaves that line out, since
selecting whole lines ends at the start of the next one. `selectedLines` is the union of the
lines of several ranges, in increasing order.

On the command line ranges are written `L:C-L:C` (`TextRange.parse`) or as whole lines `FIRST-LAST`
or `N` (`TextRange.parseLines`). A range of whole lines ends at column 0 of the line after the
last, so the last line must have a successor among the 64-bit line numbers.

Line and column numbers are unsigned 64-bit words. `Text.parseWord?` reads one from text: an
optional `+`, then at least one ASCII digit and nothing else, with a value below `2 ^ 64`.
Leading zeros are allowed, and a numeral too large for a word is refused rather than wrapped.
-/

namespace SwiftAccess.Text

/-- The number of values a machine word holds, `2 ^ 64`. -/
def wordLimit : Nat := 18446744073709551616

/-- The value of a list of ASCII digits, read from the left onto `acc`. -/
def digitsValue (acc : Nat) : List Char → Nat
  | [] => acc
  | c :: cs => digitsValue (acc * 10 + (c.toNat - '0'.toNat)) cs

/-- The word a decimal numeral denotes: an optional `+`, then ASCII digits only. -/
def parseWord? (s : List Char) : Option Nat :=
  let digits := match s with
    | '+' :: rest => rest
    | _ => s
  if digits.isEmpty || !digits.all Char.isDigit then none
  else
    let n := digitsValue 0 digits
    if n < wordLimit then some n else none

end SwiftAccess.Text

namespace SwiftAccess.Host

open Text

/-- A zero-based line and column. -/
structure TextPosition where
  line : Nat
  column : Nat
  deriving DecidableEq, Repr, Inhabited

namespace TextPosition

/-- Positions are ordered by line, then by column. -/
def lt (p q : TextPosition) : Bool :=
  p.line < q.line || (p.line == q.line && p.column < q.column)

/-- How a position is written: `line:column`. -/
def label (p : TextPosition) : String := toString p.line ++ ":" ++ toString p.column

end TextPosition

/-- A selection from `start` to `stop`. -/
structure TextRange where
  start : TextPosition
  stop : TextPosition
  deriving DecidableEq, Repr, Inhabited

/-- A text that is not a selection; it keeps the part that could not be read. -/
structure InvalidSelection where
  text : String
  deriving DecidableEq, Repr

/-- The message for a text that is not a selection. -/
def InvalidSelection.message (e : InvalidSelection) : String :=
  "invalid selection " ++ quote e.text ++ ": expected LINE:COLUMN-LINE:COLUMN or FIRST-LAST"

/-- Why a text gives no range of whole lines. -/
inductive LineRangeError where
  /-- The text is not `FIRST-LAST` or `N` with `FIRST ≤ LAST`. -/
  | invalid (e : InvalidSelection)
  /-- The last line is the largest line number, so no line follows it. -/
  | lastLineOverflow
  deriving DecidableEq, Repr

namespace TextRange

/-- Whether a range is a bare caret. -/
def isEmpty (r : TextRange) : Bool := r.start == r.stop

/-- How a range is written: `start-stop`. -/
def label (r : TextRange) : String := r.start.label ++ "-" ++ r.stop.label

/-- The range of the whole lines `first` to `last`: from column 0 of `first` to column 0 of the
line after `last`, if that is still a line number. -/
def wholeLines? (first last : Nat) : Option TextRange :=
  if last + 1 < wordLimit then some ⟨⟨first, 0⟩, ⟨last + 1, 0⟩⟩ else none

/-- The last line a non-empty range selects. -/
def lastLine (r : TextRange) : Nat :=
  if r.stop.column = 0 ∧ r.start.line < r.stop.line then r.stop.line - 1 else r.stop.line

/-- How many lines a range selects. -/
def lineCount (r : TextRange) : Nat := if r.isEmpty then 0 else r.lastLine + 1 - r.start.line

/-- The lines a range selects, in increasing order. -/
def lines (r : TextRange) : List Nat := List.range' r.start.line r.lineCount

end TextRange

/-- The most line numbers the program can hold in one list: `(2 ^ 63 - 1) / 8`, as many eight-byte
words as fit in the largest allocation. Listing more stops the program with a capacity overflow. -/
def listCapacity : Nat := 1152921504606846975

/-- Whether the program can list the lines of a range. -/
def TextRange.listable (r : TextRange) : Bool := r.lineCount ≤ listCapacity

/-- The lines a range selects, as the program lists them: nothing when there are too many. -/
def TextRange.lines? (r : TextRange) : Option (List Nat) :=
  if r.listable then some r.lines else none

/-- The text before and after the first occurrence of a character. -/
def splitOnce? (c : Char) (s : List Char) : Option (List Char × List Char) :=
  match s.span (· ≠ c) with
  | (before, _ :: after) => some (before, after)
  | (_, []) => none

/-- A number of a selection, with white space around it. -/
def parseNumber? (s : List Char) : Option Nat := parseWord? (trim s)

/-- A position written `line:column`. -/
def TextPosition.parse (s : List Char) : Except InvalidSelection TextPosition :=
  let invalid := InvalidSelection.mk (String.ofList s)
  match splitOnce? ':' s with
  | none => .error invalid
  | some (l, c) =>
    match parseNumber? l, parseNumber? c with
    | some line, some column => .ok ⟨line, column⟩
    | _, _ => .error invalid

/-- A range written `L:C-L:C`; its end must not come before its start. -/
def TextRange.parse (s : String) : Except InvalidSelection TextRange :=
  match splitOnce? '-' s.toList with
  | none => .error ⟨s⟩
  | some (a, b) =>
    match TextPosition.parse a with
    | .error e => .error e
    | .ok start =>
      match TextPosition.parse b with
      | .error e => .error e
      | .ok stop => if stop.lt start then .error ⟨s⟩ else .ok ⟨start, stop⟩

/-- A range of whole lines written `FIRST-LAST`, or `N` for one line. -/
def TextRange.parseLines (s : String) : Except LineRangeError TextRange :=
  let (a, b) := (splitOnce? '-' s.toList).getD (s.toList, s.toList)
  match parseNumber? a, parseNumber? b with
  | some first, some last =>
    if last < first then .error (.invalid ⟨s⟩)
    else
      match TextRange.wholeLines? first last with
      | some r => .ok r
      | none => .error .lastLineOverflow
  | _, _ => .error (.invalid ⟨s⟩)

/-- The lines that some range selects, in increasing order and each once. -/
def selectedLines (ranges : List TextRange) : List Nat :=
  LineSet.ofList (ranges.flatMap TextRange.lines)

end SwiftAccess.Host
