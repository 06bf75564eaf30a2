import SwiftAccess.Classification
import SwiftAccess.Resolution
import SwiftAccess.Text.Search

/-!
# Editing a line at an anchor

Edits are placed by the text of a token (the anchor), not by a column, so a line whose anchor
cannot be found stays as it is. `Edit.locate` finds the first acceptable occurrence of an anchor,
scanning occurrences from the left without overlap: an anchor that starts or ends with a name
character must not continue a longer name on that side, and an occurrence followed by `(set)` is
a setter modifier, not the plain keyword. It returns the line cut around the anchor, so
`before ++ anchor ++ after` is the line again (`locate_eq_some`).

`Edit.applyChange` writes a resolved modifier: it replaces the anchor (or removes it together
with one following space), writes it after the anchor (after an attribute's argument list when the
anchor is an attribute), or before the anchor. `Edit.applySetter` keeps, removes or replaces a
setter modifier. Offsets in bytes, as other tools count them, are `Edit.byteRange?`.
-/

namespace SwiftAccess.Edit

open Text

/-- The text after which an occurrence is a setter modifier. -/
def setterSuffix : List Char := "(set)".toList

/-- Whether a character exists and is a name character. -/
def nameCharAt? : Option Char → Bool
  | some c => isNameChar c
  | none => false

/-- Whether an occurrence of `anchor` between `before` and `after` stands on its own: it does not
extend a name on a side where the anchor itself starts or ends with a name character, and it is
not followed by `(set)`. -/
def fits (anchor before after : List Char) : Bool :=
  !(nameCharAt? anchor.head? && nameCharAt? before.getLast?) &&
  !(nameCharAt? anchor.getLast? && nameCharAt? after.head?) &&
  !(setterSuffix.isPrefixOf after)

/-- The first acceptable occurrence of `anchor` in `rest`, where `passed` is the text before
`rest`, as the line cut before and after it. Occurrences are tried from the left; after a
rejected one the search goes on behind it. -/
def locateFrom (anchor : List Char) (h : anchor ≠ []) (passed rest : List Char) :
    Option (List Char × List Char) :=
  match hb : breakOn? anchor rest with
  | none => none
  | some (b, a) =>
    if fits anchor (passed ++ b) a then some (passed ++ b, a)
    else locateFrom anchor h (passed ++ b ++ anchor) a
termination_by rest.length
decreasing_by exact breakOn?_length h hb

/-- The line cut around the first acceptable occurrence of a non-empty anchor. -/
def locate (line anchor : List Char) : Option (List Char × List Char) :=
  if h : anchor = [] then none else locateFrom anchor h [] line

theorem locateFrom_eq_some {anchor : List Char} {h : anchor ≠ []} :
    ∀ {passed rest b a : List Char}, locateFrom anchor h passed rest = some (b, a) →
      passed ++ rest = b ++ anchor ++ a ∧ fits anchor b a = true := by
  intro passed rest b a e
  induction rest using (measure List.length).wf.induction generalizing passed with
  | h rest ih =>
    unfold locateFrom at e
    split at e
    · simp at e
    · next b' a' hb =>
      have hs := breakOn?_eq_some hb
      split at e
      · next hf =>
        simp only [Option.some.injEq, Prod.mk.injEq] at e
        obtain ⟨rfl, rfl⟩ := e
        exact ⟨by simp [hs], hf⟩
      · have := ih a' (breakOn?_length h hb) e
        exact ⟨by rw [← this.1]; simp [hs], this.2⟩

/-- What `locate` finds is an occurrence of the anchor that stands on its own. -/
theorem locate_eq_some {line anchor b a : List Char} (e : locate line anchor = some (b, a)) :
    line = b ++ anchor ++ a ∧ fits anchor b a = true := by
  unfold locate at e
  split at e
  · simp at e
  · simpa using locateFrom_eq_some e

/-- The byte offsets of an anchor's first acceptable occurrence, start and end. -/
def byteRange? (line anchor : String) : Option (Nat × Nat) :=
  (locate line.toList anchor.toList).map fun r =>
    let start := (String.ofList r.1).utf8ByteSize
    (start, start + anchor.utf8ByteSize)

/-- An attribute's argument list at the start of a text, through the parenthesis that closes the
one it opens with, and the text after it; `depth` counts the parentheses already open. -/
def closeArguments (depth : Nat) : List Char → Option (List Char × List Char)
  | [] => none
  | c :: rest =>
    if c = '(' then (closeArguments (depth + 1) rest).map fun r => (c :: r.1, r.2)
    else if c = ')' then
      if depth ≤ 1 then some ([c], rest)
      else (closeArguments (depth - 1) rest).map fun r => (c :: r.1, r.2)
    else (closeArguments depth rest).map fun r => (c :: r.1, r.2)

/-- The text after an anchor cut where a modifier written after it goes: right behind the anchor,
or, for an attribute followed by an argument list, behind that list. `none` when the list does not
close on the line. -/
def insertionPoint (anchor after : List Char) : Option (List Char × List Char) :=
  if anchor.head? = some '@' ∧ after.head? = some '(' then closeArguments 0 after
  else some ([], after)

/-- A line with its anchor replaced; an empty replacement removes the anchor with the space after
it, and leaves the line alone when no space follows. -/
def substitute (line anchor replacement : List Char) : List Char :=
  match locate line anchor with
  | none => line
  | some (b, a) =>
    if replacement.isEmpty then
      match a with
      | ' ' :: a' => b ++ a'
      | _ => line
    else b ++ replacement ++ a

/-- A line with a resolved modifier written where the line's change places it. -/
def applyChange (line : List Char) (change : LineChange) (replacement : List Char) :
    List Char :=
  match change with
  | .none => line
  | .substitute anchor | .setterSubstitute _ anchor => substitute line anchor.toList replacement
  | .insertAfter anchor | .setterInsertAfter _ anchor =>
    if replacement.isEmpty then line
    else
      match locate line anchor.toList with
      | none => line
      | some (b, a) =>
        match insertionPoint anchor.toList a with
        | some (mid, tail) => b ++ anchor.toList ++ mid ++ ' ' :: replacement ++ tail
        | none => line
  | .insertBefore anchor =>
    if replacement.isEmpty then line
    else
      match locate line anchor.toList with
      | none => line
      | some (b, a) => b ++ replacement ++ ' ' :: anchor.toList ++ a

/-- A line with the setter modifier of level `setter` kept, removed (with one following space) or
replaced by another level's setter modifier. -/
def applySetter (line : List Char) (setter : Access) (edit : SetterEdit) : List Char :=
  match setter.setterKeyword? with
  | none => line
  | some spelling =>
    match locate line spelling.toList with
    | none => line
    | some (b, a) =>
      match edit with
      | .keep => line
      | .remove =>
        match a with
        | ' ' :: a' => b ++ a'
        | _ => b ++ a
      | .replace target =>
        match target.setterKeyword? with
        | some s => b ++ s.toList ++ a
        | none => line

end SwiftAccess.Edit
