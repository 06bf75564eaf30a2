import SwiftAccess.Edit
import SwiftAccess.Text.Utf8

/-!
# The editor's byte offsets

The program places its edits through byte offsets into the UTF-8 encoding of a line: the start of
each occurrence of the anchor that `str::match_indices` reports, the end of an occurrence, one
byte past it to take a following space along, and one byte past the parenthesis that closes an
attribute's arguments. It slices the line at each of them, which stops the program unless the
offset is a character boundary of the line, and it counts open parentheses in a machine word,
which stops it when decreased below zero. `Edit.Offsets` follows that arithmetic step for step,
slicing with `Text.sliceTo` and `Text.sliceFrom` and counting with a checked decrease, so that
every way the program could stop is an error of the result.

`Edit.locate`, `Edit.applyChange` and `Edit.applySetter` say what the edits are in characters;
this module says how the program computes them in bytes. The count of open parentheses never
exceeds the bytes read, so increasing it cannot overflow a machine word on any line that fits in
memory.
-/

namespace SwiftAccess.Edit.Offsets

open Text

/-- The first acceptable occurrence of `anchor` that starts at or after byte offset `pos`, as
`match_indices` and `find_map` report it: occurrences are found among the bytes, from the left and
without overlap, and the first that stands on its own is the answer. -/
def findFrom (line anchor : List Char) (h : anchor ≠ []) (pos : Nat) :
    Except Panic (Option (Nat × Nat)) :=
  match hm : firstMatch (utf8 anchor) ((utf8 line).drop pos) with
  | none => pure none
  | some i => do
    let start := pos + i
    let stop := start + (utf8 anchor).length
    let before ← sliceTo line start
    let after ← sliceFrom line stop
    if fits anchor before after then pure (some (start, stop))
    else findFrom line anchor h stop
termination_by (utf8 line).length - pos
decreasing_by
  have := firstMatch_le hm
  have := length_utf8_pos h
  simp only [List.length_drop] at *
  omega

/-- `find_anchor`: the byte range of the first acceptable occurrence of a non-empty anchor. -/
def findAnchor (line anchor : List Char) : Except Panic (Option (Nat × Nat)) :=
  if h : anchor = [] then pure none else findFrom line anchor h 0

/-- The scan of an attribute's argument list: `depth` parentheses are open and `offset` bytes
after `stop` have been read. The answer is the offset just past the `)` that closes them all.
Decreasing the count at zero stops the program. -/
def closeAt (stop : Nat) : Nat → Nat → List Char → Except Panic (Option Nat)
  | _, _, [] => pure none
  | depth, offset, c :: cs =>
    if c = '(' then closeAt stop (depth + 1) (offset + c.utf8Size) cs
    else if c = ')' then
      if depth = 0 then throw .subOverflow
      else if depth - 1 = 0 then pure (some (stop + offset + 1))
      else closeAt stop (depth - 1) (offset + c.utf8Size) cs
    else closeAt stop depth (offset + c.utf8Size) cs

/-- `postfix_position`: where a modifier written after the anchor that ends at `stop` goes, right
there or past the argument list of an attribute; `none` when the list does not close. -/
def postfixPosition (line anchor : List Char) (stop : Nat) : Except Panic (Option Nat) := do
  if anchor.head? ≠ some '@' then return some stop
  let after ← sliceFrom line stop
  if after.head? ≠ some '(' then return some stop
  closeAt stop 0 0 after

/-- `splice`: the line with the bytes from `start` to `stop` replaced by `insert`. -/
def splice (line : List Char) (start stop : Nat) (insert : List Char) :
    Except Panic (List Char) := do
  let before ← sliceTo line start
  let after ← sliceFrom line stop
  pure (before ++ insert ++ after)

/-- `substitute`: the anchor replaced, or removed together with the space after it. -/
def substitute (line anchor replacement : List Char) : Except Panic (List Char) := do
  match ← findAnchor line anchor with
  | none => pure line
  | some (start, stop) =>
    if replacement.isEmpty then
      if (← sliceFrom line stop).head? = some ' ' then splice line start (stop + 1) []
      else pure line
    else splice line start stop replacement

/-- `apply_edit`: the line with a resolved modifier written where its change places it. -/
def applyEdit (line : List Char) (change : LineChange) (replacement : List Char) :
    Except Panic (List Char) :=
  match change with
  | .none => pure line
  | .substitute anchor | .setterSubstitute _ anchor => substitute line anchor.toList replacement
  | .insertAfter anchor | .setterInsertAfter _ anchor => do
    if replacement.isEmpty then return line
    match ← findAnchor line anchor.toList with
    | none => pure line
    | some (_, stop) =>
      match ← postfixPosition line anchor.toList stop with
      | some pos => splice line pos pos (' ' :: replacement)
      | none => pure line
  | .insertBefore anchor => do
    if replacement.isEmpty then return line
    match ← findAnchor line anchor.toList with
    | some (start, _) => splice line start start (replacement ++ [' '])
    | none => pure line

/-- `apply_setter_edit`: the setter modifier of level `setter` kept, removed with one following
space, or replaced by another level's. -/
def applySetterEdit (line : List Char) (setter : Access) (edit : SetterEdit) :
    Except Panic (List Char) :=
  match setter.setterKeyword? with
  | none => pure line
  | some current => do
    match ← findAnchor line current.toList with
    | none => pure line
    | some (start, stop) =>
      match edit with
      | .keep => pure line
      | .remove =>
        let stop := if (← sliceFrom line stop).head? = some ' ' then stop + 1 else stop
        splice line start stop []
      | .replace target =>
        match target.setterKeyword? with
        | some spelling => splice line start stop spelling.toList
        | none => pure line

end SwiftAccess.Edit.Offsets
