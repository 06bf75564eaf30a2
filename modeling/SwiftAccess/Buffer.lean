import SwiftAccess.Edit
import SwiftAccess.Lexer.Line

/-!
# Rewriting a buffer

The scope of a line depends on every line above it, so a `Buffer` lexes and classifies all its
lines once, from the top, before any line is edited (`Buffer.ofLines`). A change then rewrites the
selected lines that are eligible (`Buffer.newLines`): each gets the level the change resolves for
it, written at the place its classification names, and a setter modifier on it follows the new
level. Selected numbers may repeat, come in any order or lie outside the buffer; the rewriter
visits each selected line once, from the top, in the order `LineSet.ofList` gives them.

`Buffer.rewritten` is the whole buffer with the new lines in place, and `Buffer.changedLines` the
numbers of the lines whose text actually changed. `rewrite` classifies a text's lines and gives
the new lines of its selection in one call.
-/

namespace SwiftAccess

namespace LineSet

/-- A sorted list without its repeated neighbours. -/
def dedupSorted : List Nat → List Nat
  | a :: b :: rest => if a = b then dedupSorted (b :: rest) else a :: dedupSorted (b :: rest)
  | l => l

/-- The numbers of a list, increasing and each once. -/
def ofList (ns : List Nat) : List Nat := dedupSorted (ns.mergeSort)

end LineSet

/-- The classification of consecutive lines' tokens, starting from a scope. -/
def classifyLines (s : Scope) : List (List Token) → List Classification
  | [] => []
  | ts :: rest =>
    let r := classify s ts
    r.1 :: classifyLines r.2 rest

/-- One line rewritten for a change, given its classification; a change that does not apply to
the line's level leaves it alone. -/
def rewriteLine (line : String) (c : Classification) (change : AccessChange) : String :=
  match change.resolve c.current with
  | none => line
  | some r =>
    let edited := Edit.applyChange line.toList c.change r.replacement.toList
    match c.change.setter? with
    | some setter => String.ofList (Edit.applySetter edited setter (change.resolveSetter setter r.target))
    | none => String.ofList edited

/-- Lines of source, each with its classification. -/
structure Buffer where
  lines : List String
  classes : List Classification

namespace Buffer

/-- A buffer's lines, lexed and classified from the top. -/
def ofLines (lines : List String) : Buffer :=
  { lines, classes := classifyLines {} (Lexer.tokensOf lines) }

/-- Whether line `n` exists and may carry an access modifier. -/
def isEligible (b : Buffer) (n : Nat) : Bool :=
  match b.classes[n]? with
  | some c => c.eligible
  | none => false

/-- The new text of every selected line that exists and is eligible, by increasing number. Lines
the change leaves alone are listed too. -/
def newLines (b : Buffer) (selected : List Nat) (change : AccessChange) : List (Nat × String) :=
  (LineSet.ofList selected).filterMap fun n =>
    match b.lines[n]?, b.classes[n]? with
    | some line, some c => if c.eligible then some (n, rewriteLine line c change) else none
    | _, _ => none

/-- The numbers of new lines whose text differs from the buffer's. -/
def changedLines (b : Buffer) (updates : List (Nat × String)) : List Nat :=
  (updates.filter fun u => match b.lines[u.1]? with
    | some line => line != u.2
    | none => false).map Prod.fst

/-- Lines from number `n` on, with the updates (sorted by number) put in place. -/
def overlay : Nat → List String → List (Nat × String) → List String
  | _, [], _ => []
  | _, line :: rest, [] => line :: rest
  | n, line :: rest, u :: us =>
    if u.1 = n then u.2 :: overlay (n + 1) rest us
    else line :: overlay (n + 1) rest (u :: us)

/-- The whole buffer after a change to the selected lines. -/
def rewritten (b : Buffer) (selected : List Nat) (change : AccessChange) : List String :=
  overlay 0 b.lines (b.newLines selected change)

end Buffer

/-- The new text of every selected eligible line of a text, classified from the top. -/
def rewrite (lines : List String) (lineNumbers : List Nat) (change : AccessChange) :
    List (Nat × String) :=
  (Buffer.ofLines lines).newLines lineNumbers change

end SwiftAccess
