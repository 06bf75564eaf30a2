import SwiftAccess.Proofs.ByteSearch
import SwiftAccess.Edit.Offsets

/-!
# The editor's offsets are character boundaries

The program edits a line through byte offsets (`Edit.Offsets`), and each slice it takes stops it
unless the offset is a character boundary. This module shows that it never stops, and that it
computes in bytes the edits `Edit.locate`, `Edit.applyChange` and `Edit.applySetter` describe in
characters.

The search for an anchor keeps one invariant: it has passed a prefix of the line and stands at the
byte length of that prefix (`findFrom_eq`), so the occurrences the bytes reveal are those of the
characters (`firstMatch_utf8`), and the offsets around them are boundaries. The offsets derived
from a found range are boundaries for a reason of their own: `end + 1` steps over a space, and the
position after an attribute's arguments steps over a `)`, one byte each. The scan of the arguments
starts on the `(` it is looking at, so its count is positive at every `)` it meets and decreasing it
never stops the program (`closeAt_eq`).
-/

namespace SwiftAccess.Edit.Offsets

open Text

/-- The byte range that the program reports for an occurrence of `anchor` after the text `b`. -/
def byteSpan (anchor : List Char) (r : List Char × List Char) : Nat × Nat :=
  ((utf8 r.1).length, (utf8 r.1).length + (utf8 anchor).length)

theorem locateFrom_of_breakOn?_none {anchor passed rest : List Char} {h : anchor ≠ []}
    (hb : breakOn? anchor rest = none) : locateFrom anchor h passed rest = none := by
  rw [locateFrom]
  split
  · rfl
  · simp_all

theorem locateFrom_of_breakOn?_some {anchor passed rest b a : List Char} {h : anchor ≠ []}
    (hb : breakOn? anchor rest = some (b, a)) :
    locateFrom anchor h passed rest =
      if fits anchor (passed ++ b) a then some (passed ++ b, a)
      else locateFrom anchor h (passed ++ b ++ anchor) a := by
  rw [locateFrom]
  split
  · simp_all
  · next b' a' hb' =>
    rw [hb] at hb'
    simp only [Option.some.injEq, Prod.mk.injEq] at hb'
    obtain ⟨rfl, rfl⟩ := hb'
    rfl

/-- The search in bytes, standing at the byte length of the text it has passed, finds what the
search in characters finds in the rest. -/
theorem findFrom_eq {anchor : List Char} (h : anchor ≠ []) :
    ∀ (passed rest : List Char),
      findFrom (passed ++ rest) anchor h (utf8 passed).length =
        .ok ((locateFrom anchor h passed rest).map (byteSpan anchor)) := by
  intro passed rest
  induction rest using (measure List.length).wf.induction generalizing passed with
  | h rest ih =>
    rw [findFrom]
    have hd : (utf8 (passed ++ rest)).drop (utf8 passed).length = utf8 rest := by simp
    split
    · next hm =>
      rw [hd, firstMatch_utf8 h, Option.map_eq_none_iff] at hm
      rw [locateFrom_of_breakOn?_none hm]
      rfl
    · next i hm =>
      rw [hd, firstMatch_utf8 h, Option.map_eq_some_iff] at hm
      obtain ⟨⟨b, a⟩, hb, rfl⟩ := hm
      have hs := breakOn?_eq_some hb
      -- the line cut before the occurrence and after it
      have hto : sliceTo (passed ++ rest) ((utf8 passed).length + (utf8 b).length) =
          .ok (passed ++ b) := by
        simp [hs]
      have hfrom : sliceFrom (passed ++ rest)
          ((utf8 passed).length + (utf8 b).length + (utf8 anchor).length) = .ok a := by
        simpa [hs, Nat.add_assoc] using sliceFrom_utf8_length (passed ++ b ++ anchor) a
      simp only [hto, hfrom, bind, Except.bind]
      rw [locateFrom_of_breakOn?_some hb]
      split
      · simp [pure, Except.pure, byteSpan, Nat.add_assoc]
      · have hlt : a.length < rest.length := by
          rw [hs]
          simp only [List.length_append]
          have := List.length_pos_iff.2 h
          omega
        have := ih a hlt (passed ++ b ++ anchor)
        simp only [utf8_append, List.length_append] at this
        simpa [hs] using this

/-- `find_anchor` never stops the program, and reports the byte range of what `Edit.locate`
finds. -/
theorem findAnchor_eq (line anchor : List Char) :
    findAnchor line anchor = .ok ((locate line anchor).map (byteSpan anchor)) := by
  unfold findAnchor locate
  split
  · rfl
  · next h => simpa using findFrom_eq h [] line

/-- Every range that `find_anchor` reports spans the anchor between two character boundaries of the
line, and the occurrence stands on its own: no name goes on across either end where the anchor
starts or ends with a name character, and no `(set)` follows. -/
theorem findAnchor_range {line anchor : List Char} {start stop : Nat}
    (h : findAnchor line anchor = .ok (some (start, stop))) :
    slice line start stop = .ok anchor ∧
      String.Pos.Raw.IsValid (String.ofList line) ⟨start⟩ ∧
      String.Pos.Raw.IsValid (String.ofList line) ⟨stop⟩ ∧
      ∃ before after, sliceTo line start = .ok before ∧ sliceFrom line stop = .ok after ∧
        fits anchor before after = true := by
  rw [findAnchor_eq, Except.ok.injEq, Option.map_eq_some_iff] at h
  obtain ⟨⟨b, a⟩, hl, hr⟩ := h
  simp only [byteSpan, Prod.mk.injEq] at hr
  obtain ⟨rfl, rfl⟩ := hr
  obtain ⟨rfl, hfits⟩ := locate_eq_some hl
  have hto : sliceTo (b ++ anchor ++ a) (utf8 b).length = .ok b := by simp
  have hfrom : sliceFrom (b ++ anchor ++ a) ((utf8 b).length + (utf8 anchor).length) = .ok a := by
    simp
  refine ⟨?_, sliceTo_isOk_iff.1 ⟨_, hto⟩, sliceFrom_isOk_iff.1 ⟨_, hfrom⟩, b, a, hto, hfrom, hfits⟩
  have hto' : sliceFrom (b ++ anchor) (utf8 b).length = .ok anchor := by simp
  simp [slice, bind, Except.bind, hto']

/-- `find_anchor` reports the byte offsets of `Edit.byteRange?`. -/
theorem findAnchor_toList (line anchor : String) :
    findAnchor line.toList anchor.toList = .ok (byteRange? line anchor) := by
  rw [findAnchor_eq, byteRange?]
  congr 2
  funext r
  simp [byteSpan, length_utf8]

/-! ## Splices -/

/-- Splicing between two offsets that end prefixes of the line replaces what lies between them. -/
@[simp] theorem splice_utf8_length (x m y ins : List Char) :
    splice (x ++ (m ++ y)) (utf8 x).length ((utf8 x).length + (utf8 m).length) ins =
      .ok (x ++ (ins ++ y)) := by
  simp [splice, bind, Except.bind, pure, Except.pure]

/-- Splicing at one offset that ends a prefix of the line inserts there. -/
@[simp] theorem splice_utf8_length_self (x y ins : List Char) :
    splice (x ++ y) (utf8 x).length (utf8 x).length ins = .ok (x ++ (ins ++ y)) := by
  simpa using splice_utf8_length x [] y ins

/-- Splicing out the text `m` together with the space after it. -/
@[simp] theorem splice_utf8_length_space (x m y : List Char) :
    splice (x ++ (m ++ ' ' :: y)) (utf8 x).length ((utf8 x).length + (utf8 m).length + 1) [] =
      .ok (x ++ y) := by
  have hsp : (' ' : Char).utf8Size = 1 := rfl
  simpa [hsp, Nat.add_assoc] using splice_utf8_length x (m ++ [' ']) y []

/-- The offset just past a text that starts with `c`, counted from `offset`, is the one past the
rest of it counted from the byte after `c`. -/
theorem offset_after_cons (stop offset : Nat) (c : Char) :
    ((fun r : List Char × List Char => stop + offset + (utf8 r.1).length) ∘
        fun r : List Char × List Char => (c :: r.1, r.2)) =
      fun r : List Char × List Char => stop + (offset + c.utf8Size) + (utf8 r.1).length := by
  funext r
  simp only [Function.comp, utf8_cons, List.length_append, String.length_utf8EncodeChar]
  omega

/-- The scan of an argument list at a positive count never decreases it below zero, and stops
where `closeArguments` stops, at the byte offset just past the closing `)`. -/
theorem closeAt_eq (stop : Nat) :
    ∀ (depth offset : Nat) (s : List Char), 0 < depth →
      closeAt stop depth offset s =
        .ok ((closeArguments depth s).map fun r => stop + offset + (utf8 r.1).length)
  | _, _, [], _ => rfl
  | depth, offset, c :: cs, hd => by
    rw [closeAt, closeArguments]
    by_cases ho : c = '('
    · rw [if_pos ho, if_pos ho, closeAt_eq stop (depth + 1) _ cs (by omega), Option.map_map,
        offset_after_cons]
    · rw [if_neg ho, if_neg ho]
      by_cases hc : c = ')'
      · subst hc
        rw [if_pos rfl, if_pos rfl, if_neg (by omega)]
        -- the count is positive here, so the checked decrease goes through
        by_cases h1 : depth ≤ 1
        · rw [if_pos (by omega), if_pos h1]
          rfl
        · rw [if_neg (by omega), if_neg h1, closeAt_eq stop (depth - 1) _ cs (by omega),
            Option.map_map, offset_after_cons]
      · rw [if_neg hc, if_neg hc, closeAt_eq stop depth _ cs hd, Option.map_map, offset_after_cons]

/-- `postfix_position` never stops the program: after the anchor of `b ++ anchor ++ a` it reports
the offset just past what `Edit.insertionPoint` keeps of `a` before the insert. -/
theorem postfixPosition_eq (b anchor a : List Char) :
    postfixPosition (b ++ anchor ++ a) anchor ((utf8 b).length + (utf8 anchor).length) =
      .ok ((insertionPoint anchor a).map fun r =>
        (utf8 b).length + (utf8 anchor).length + (utf8 r.1).length) := by
  have hfrom : sliceFrom (b ++ anchor ++ a) ((utf8 b).length + (utf8 anchor).length) = .ok a := by
    simp
  unfold postfixPosition insertionPoint
  by_cases hat : anchor.head? = some '@'
  · simp only [hat, ne_eq, not_true_eq_false, if_false, true_and, hfrom, bind, Except.bind]
    cases a with
    | nil => simp [pure, Except.pure]
    | cons d a =>
      by_cases hd : d = '('
      · subst hd
        have hstep : closeAt ((utf8 b).length + (utf8 anchor).length) 0 0 ('(' :: a) =
            closeAt ((utf8 b).length + (utf8 anchor).length) 1 1 a := by
          rw [closeAt, if_pos rfl]
          rfl
        simp only [List.head?_cons, not_true_eq_false, if_false, if_true, hstep,
          closeAt_eq _ 1 1 a Nat.one_pos]
        rw [closeArguments, if_pos rfl, Option.map_map]
        congr 2
        funext r
        have : ('(' : Char).utf8Size = 1 := rfl
        simp only [Function.comp, utf8_cons, List.length_append, String.length_utf8EncodeChar,
          this]
        omega
      · simp [hd, pure, Except.pure]
  · simp [hat, pure, Except.pure]

/-! ## The edits -/

/-- `substitute` never stops the program, and writes what `Edit.substitute` writes. -/
theorem substitute_eq (line anchor replacement : List Char) :
    substitute line anchor replacement = .ok (Edit.substitute line anchor replacement) := by
  unfold substitute Edit.substitute
  rw [findAnchor_eq]
  cases hl : locate line anchor with
  | none => rfl
  | some r =>
    obtain ⟨b, a⟩ := r
    obtain ⟨rfl, -⟩ := locate_eq_some hl
    simp only [Option.map_some, byteSpan, bind, Except.bind]
    by_cases he : replacement.isEmpty
    · simp only [he, if_true, sliceFrom_utf8_length_add, List.append_assoc]
      cases a with
      | nil => simp [pure, Except.pure]
      | cons d a =>
        by_cases hd : d = ' '
        · subst hd
          simp
        · simp [hd, pure, Except.pure]
    · simp [he]

/-- A change whose anchor carries a setter modifier is written as the plain change at that
anchor. -/
theorem applyEdit_setterInsertAfter (line : List Char) (s : Access) (anchor : String)
    (replacement : List Char) :
    applyEdit line (.setterInsertAfter s anchor) replacement =
      applyEdit line (.insertAfter anchor) replacement := rfl

/-- `apply_edit` with a modifier after the anchor never stops the program, and writes what
`Edit.applyChange` writes. -/
theorem applyEdit_insertAfter (line : List Char) (anchor : String) (replacement : List Char) :
    applyEdit line (.insertAfter anchor) replacement =
      .ok (applyChange line (.insertAfter anchor) replacement) := by
  simp only [applyEdit, applyChange]
  by_cases he : replacement.isEmpty
  · simp [he, pure, Except.pure]
  · simp only [he, if_false, Bool.false_eq_true]
    rw [findAnchor_eq]
    cases hl : locate line anchor.toList with
    | none => rfl
    | some r =>
      obtain ⟨b, a⟩ := r
      obtain ⟨rfl, -⟩ := locate_eq_some hl
      simp only [Option.map_some, byteSpan, bind, Except.bind, postfixPosition_eq]
      cases hi : insertionPoint anchor.toList a with
      | none => rfl
      | some r =>
        obtain ⟨mid, tail⟩ := r
        obtain rfl := insertionPoint_eq_some hi
        have := splice_utf8_length_self (b ++ anchor.toList ++ mid) tail (' ' :: replacement)
        simp only [utf8_append, List.length_append, List.append_assoc] at this
        simpa [Nat.add_assoc] using this

/-- `apply_edit` with a modifier before the anchor never stops the program, and writes what
`Edit.applyChange` writes. -/
theorem applyEdit_insertBefore (line : List Char) (anchor : String) (replacement : List Char) :
    applyEdit line (.insertBefore anchor) replacement =
      .ok (applyChange line (.insertBefore anchor) replacement) := by
  simp only [applyEdit, applyChange]
  by_cases he : replacement.isEmpty
  · simp [he, pure, Except.pure]
  · simp only [he, if_false, Bool.false_eq_true]
    rw [findAnchor_eq]
    cases hl : locate line anchor.toList with
    | none => rfl
    | some r =>
      obtain ⟨b, a⟩ := r
      obtain ⟨rfl, -⟩ := locate_eq_some hl
      simp [byteSpan, bind, Except.bind]

/-- `apply_edit` never stops the program, and writes what `Edit.applyChange` writes. -/
theorem applyEdit_eq (line : List Char) (change : LineChange) (replacement : List Char) :
    applyEdit line change replacement = .ok (applyChange line change replacement) := by
  cases change with
  | none => rfl
  | substitute anchor => exact substitute_eq _ _ _
  | setterSubstitute _ anchor => exact substitute_eq _ _ _
  | insertAfter anchor => exact applyEdit_insertAfter _ _ _
  | setterInsertAfter s anchor =>
    rw [applyEdit_setterInsertAfter]
    exact applyEdit_insertAfter _ _ _
  | insertBefore anchor => exact applyEdit_insertBefore _ _ _

/-- `apply_setter_edit` never stops the program, and writes what `Edit.applySetter` writes. -/
theorem applySetterEdit_eq (line : List Char) (setter : Access) (edit : SetterEdit) :
    applySetterEdit line setter edit = .ok (applySetter line setter edit) := by
  unfold applySetterEdit applySetter
  cases hk : setter.setterKeyword? with
  | none => rfl
  | some current =>
    simp only [bind, Except.bind]
    rw [findAnchor_eq]
    cases hl : locate line current.toList with
    | none => rfl
    | some r =>
      obtain ⟨b, a⟩ := r
      obtain ⟨rfl, -⟩ := locate_eq_some hl
      simp only [Option.map_some, byteSpan]
      cases edit with
      | keep => rfl
      | remove =>
        simp only [sliceFrom_utf8_length_add, List.append_assoc]
        cases a with
        | nil => simpa using splice_utf8_length b current.toList [] []
        | cons d a =>
          by_cases hd : d = ' '
          · subst hd
            simp
          · simp [hd]
      | replace target =>
        dsimp only
        cases target.setterKeyword? with
        | none => rfl
        | some spelling => simp

/-! ## The editor never stops -/

/-- The editor's byte arithmetic never stops the program. For every line, anchor, change,
replacement and setter edit, `find_anchor`, `apply_edit` and `apply_setter_edit` return, so every
offset at which they slice or splice is a character boundary of the line (`sliceTo_isOk_iff`,
`sliceFrom_isOk_iff`), `end + 1` after a space and the offset past an attribute's `)` included,
and the scan of `postfix_position` decreases its count only while it is positive. What they
return is the edit that `Edit.applyChange` and `Edit.applySetter` describe, and every range
`find_anchor` reports spans the anchor between two boundaries and passes its guards. -/
theorem editor_byte_offsets_sound :
    (∀ line anchor : List Char,
      findAnchor line anchor = .ok ((locate line anchor).map (byteSpan anchor))) ∧
    (∀ (line anchor : List Char) (start stop : Nat),
      findAnchor line anchor = .ok (some (start, stop)) →
        slice line start stop = .ok anchor ∧
        String.Pos.Raw.IsValid (String.ofList line) ⟨start⟩ ∧
        String.Pos.Raw.IsValid (String.ofList line) ⟨stop⟩ ∧
        ∃ before after, sliceTo line start = .ok before ∧ sliceFrom line stop = .ok after ∧
          fits anchor before after = true) ∧
    (∀ b anchor a : List Char,
      postfixPosition (b ++ anchor ++ a) anchor ((utf8 b).length + (utf8 anchor).length) =
        .ok ((insertionPoint anchor a).map fun r =>
          (utf8 b).length + (utf8 anchor).length + (utf8 r.1).length)) ∧
    (∀ (line : List Char) (change : LineChange) (replacement : List Char),
      applyEdit line change replacement = .ok (applyChange line change replacement)) ∧
    (∀ (line : List Char) (setter : Access) (edit : SetterEdit),
      applySetterEdit line setter edit = .ok (applySetter line setter edit)) :=
  ⟨findAnchor_eq, fun _ _ _ _ h => findAnchor_range h, postfixPosition_eq, applyEdit_eq,
    applySetterEdit_eq⟩

/-- After the two bytes of `é` and a space, the anchor `private` is reported at bytes 3 to 10,
which slice back to it. -/
theorem private_after_accent_range :
    findAnchor "é private".toList "private".toList = .ok (some (3, 10)) ∧
      slice "é private".toList 3 10 = .ok "private".toList :=
  have h : findAnchor "é private".toList "private".toList = .ok (some (3, 10)) := by cbv
  ⟨h, (editor_byte_offsets_sound.2.1 _ _ _ _ h).1⟩

end SwiftAccess.Edit.Offsets
