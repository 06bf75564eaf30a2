import SwiftAccess.Proofs.LiteralContents
import SwiftAccess.Text.Utf8

/-!
# Searching bytes finds characters

`str::find` and `str::match_indices` search the bytes of a text, and the program slices the text
at the offsets they report. Those offsets are character boundaries, and the occurrences are the
ones a search among the characters finds, because UTF-8 is self-synchronizing: an encoding never
starts inside the encoding of a character (`not_utf8_isPrefix_drop`), and it starts a text's
encoding only where the text starts with its characters (`utf8_isPrefix_iff`). So `firstMatch`
over the encodings reports the first occurrence that `breakOn?` finds among the characters, at
the byte length of the text before it (`firstMatch_utf8`).

Character boundaries are Lean's own `String.Pos.Raw.IsValid`: `splitAtByte?` succeeds exactly at
them (`splitAtByte?_isSome_iff`), so `sliceTo` and `sliceFrom` stop the program exactly at the
offsets that are none.
-/

namespace SwiftAccess.Text

/-! ## The encoding -/

theorem utf8_toByteArray (s : List Char) : (utf8 s).toByteArray = s.utf8Encode := rfl

theorem length_utf8 (s : List Char) : (utf8 s).length = (String.ofList s).utf8ByteSize := by
  rw [← String.size_toByteArray, String.toByteArray_ofList, ← utf8_toByteArray,
    List.size_toByteArray]

/-- UTF-8 is a prefix code: the encoding of a text starts with the encoding of another exactly when
the text starts with the other. -/
theorem utf8_isPrefix_iff {s t : List Char} : utf8 s <+: utf8 t ↔ s <+: t := by
  constructor
  · rintro ⟨x, hx⟩
    apply List.isPrefix_of_utf8Encode_append_eq_utf8Encode x.toByteArray
    rw [← utf8_toByteArray, ← utf8_toByteArray, ← hx, List.toByteArray_append']
    rfl
  · rintro ⟨x, rfl⟩
    exact ⟨utf8 x, (utf8_append s x).symm⟩

/-- The encoding of a non-empty text starts with a byte that can start a character. -/
theorem exists_utf8_eq_cons {s : List Char} (hs : s ≠ []) :
    ∃ b bs, utf8 s = b :: bs ∧ b.IsUTF8FirstByte := by
  obtain ⟨c, s, rfl⟩ := List.exists_cons_of_ne_nil hs
  obtain ⟨b, bs, he⟩ := List.exists_cons_of_ne_nil (String.utf8EncodeChar_ne_nil (c := c))
  have h0 : 0 < (String.utf8EncodeChar c).length := by simp [he]
  have hb : (String.utf8EncodeChar c)[0] = b := by simp [he]
  refine ⟨b, bs ++ utf8 s, by simp [he], ?_⟩
  rw [← hb, UInt8.isUTF8FirstByte_getElem_utf8EncodeChar]

/-- No encoding of a non-empty text starts inside the encoding of a character. -/
theorem not_utf8_isPrefix_drop {pat : List Char} (hp : pat ≠ []) {c : Char} {i : Nat}
    (y : List UInt8) (h0 : 0 < i) (hi : i < (String.utf8EncodeChar c).length) :
    ¬ utf8 pat <+: (String.utf8EncodeChar c ++ y).drop i := by
  obtain ⟨b, bs, hb, hf⟩ := exists_utf8_eq_cons hp
  rintro ⟨z, hz⟩
  have hhead : ((String.utf8EncodeChar c ++ y).drop i).head? =
      some ((String.utf8EncodeChar c)[i]) := by
    rw [List.drop_append_of_le_length hi.le, List.head?_append, List.head?_drop,
      List.getElem?_eq_getElem hi]
    rfl
  rw [← hz, hb, List.cons_append, List.head?_cons, Option.some.injEq] at hhead
  have hn : ¬ ((String.utf8EncodeChar c)[i]).IsUTF8FirstByte := by
    rw [UInt8.isUTF8FirstByte_getElem_utf8EncodeChar]
    omega
  exact hn (hhead ▸ hf)

/-! ## Byte search -/

section FirstMatch

variable {pat : List UInt8}

theorem firstMatch_of_isPrefix {hay : List UInt8} (h : pat <+: hay) : firstMatch pat hay = some 0 := by
  rw [firstMatch.eq_def, if_pos (List.isPrefixOf_iff_prefix.2 h)]

theorem firstMatch_cons_of_not_isPrefix {b : UInt8} {bs : List UInt8} (h : ¬ pat <+: b :: bs) :
    firstMatch pat (b :: bs) = (firstMatch pat bs).map (· + 1) := by
  rw [firstMatch.eq_def pat (b :: bs), if_neg (fun h' => h (List.isPrefixOf_iff_prefix.1 h'))]

theorem firstMatch_nil (hp : pat ≠ []) : firstMatch pat [] = none := by
  obtain ⟨b, bs, rfl⟩ := List.exists_cons_of_ne_nil hp
  rfl

/-- A search that finds nothing starting in `x` goes on in `y`. -/
theorem firstMatch_append : ∀ {x : List UInt8} (y : List UInt8),
    (∀ i < x.length, ¬ pat <+: (x ++ y).drop i) →
      firstMatch pat (x ++ y) = (firstMatch pat y).map (· + x.length)
  | [], y, _ => by simp
  | b :: x, y, h => by
    have h0 : ¬ pat <+: b :: (x ++ y) := h 0 (by simp)
    have hx : ∀ i < x.length, ¬ pat <+: (x ++ y).drop i := fun i hi =>
      h (i + 1) (by simp only [List.length_cons]; omega)
    rw [List.cons_append, firstMatch_cons_of_not_isPrefix h0, firstMatch_append y hx,
      Option.map_map]
    rfl

/-- A search finds an occurrence at or before any given one. -/
theorem exists_firstMatch_le (y : List UInt8) : ∀ x : List UInt8,
    ∃ i, firstMatch pat (x ++ (pat ++ y)) = some i ∧ i ≤ x.length
  | [] => ⟨0, firstMatch_of_isPrefix (List.prefix_append pat y), le_rfl⟩
  | b :: x => by
    by_cases h : pat <+: b :: (x ++ (pat ++ y))
    · exact ⟨0, firstMatch_of_isPrefix h, Nat.zero_le _⟩
    · obtain ⟨i, hi, hle⟩ := exists_firstMatch_le y x
      refine ⟨i + 1, ?_, by simp only [List.length_cons]; omega⟩
      rw [List.cons_append, firstMatch_cons_of_not_isPrefix h, hi]
      rfl

end FirstMatch

/-- Searching the encodings finds the first occurrence among the characters, at the byte length
of the text before it. -/
theorem firstMatch_utf8 {pat : List Char} (hp : pat ≠ []) :
    ∀ s : List Char,
      firstMatch (utf8 pat) (utf8 s) = (breakOn? pat s).map fun r => (utf8 r.1).length
  | [] => by
    have hn : pat.isPrefixOf [] = false := by
      cases pat with
      | nil => exact absurd rfl hp
      | cons => rfl
    have hu : utf8 pat ≠ [] := fun h => by simpa [h] using length_utf8_pos hp
    rw [utf8_nil, firstMatch_nil hu, breakOn?, hn]
    rfl
  | c :: s => by
    by_cases h : pat.isPrefixOf (c :: s)
    · rw [breakOn?, if_pos h,
        firstMatch_of_isPrefix (utf8_isPrefix_iff.2 (List.isPrefixOf_iff_prefix.1 h))]
      rfl
    · have hs : ∀ i < (String.utf8EncodeChar c).length,
          ¬ utf8 pat <+: (String.utf8EncodeChar c ++ utf8 s).drop i := by
        intro i hi
        rcases Nat.eq_zero_or_pos i with rfl | h0
        · rw [List.drop_zero, ← utf8_cons, utf8_isPrefix_iff]
          exact fun h' => h (List.isPrefixOf_iff_prefix.2 h')
        · exact not_utf8_isPrefix_drop hp _ h0 hi
      rw [utf8_cons, firstMatch_append _ hs, firstMatch_utf8 hp s, breakOn?, if_neg h,
        Option.map_map, Option.map_map]
      congr 1
      funext r
      simp only [Function.comp, utf8_cons, List.length_append, String.length_utf8EncodeChar]
      omega

/-! ## Character boundaries -/

theorem splitAtByte?_eq_some_iff {i : Nat} {s b a : List Char} :
    splitAtByte? i s = some (b, a) ↔ s = b ++ a ∧ (utf8 b).length = i :=
  ⟨splitAtByte?_eq_some, by rintro ⟨rfl, rfl⟩; exact splitAtByte?_utf8_length b a⟩

/-- A text splits at a byte offset exactly when the offset is a character boundary of it. -/
theorem splitAtByte?_isSome_iff {i : Nat} {s : List Char} :
    (splitAtByte? i s).isSome ↔ String.Pos.Raw.IsValid (String.ofList s) ⟨i⟩ := by
  rw [String.Pos.Raw.isValid_ofList]
  constructor
  · intro h
    obtain ⟨⟨b, a⟩, hs⟩ := Option.isSome_iff_exists.1 h
    obtain ⟨rfl, rfl⟩ := splitAtByte?_eq_some hs
    exact ⟨b.length, by simp [length_utf8]⟩
  · rintro ⟨k, hk⟩
    have : splitAtByte? i s = some (s.take k, s.drop k) :=
      splitAtByte?_eq_some_iff.2 ⟨(List.take_append_drop k s).symm, by rw [length_utf8]; exact hk.symm⟩
    simp [this]

/-- Slicing from an offset stops the program exactly when the offset is no character boundary. -/
theorem sliceFrom_isOk_iff {i : Nat} {s : List Char} :
    (∃ r, sliceFrom s i = .ok r) ↔ String.Pos.Raw.IsValid (String.ofList s) ⟨i⟩ := by
  rw [← splitAtByte?_isSome_iff, sliceFrom]
  cases splitAtByte? i s <;> simp [pure, Except.pure, throw, throwThe, MonadExceptOf.throw]

/-- Slicing up to an offset stops the program exactly when the offset is no character boundary. -/
theorem sliceTo_isOk_iff {i : Nat} {s : List Char} :
    (∃ r, sliceTo s i = .ok r) ↔ String.Pos.Raw.IsValid (String.ofList s) ⟨i⟩ := by
  rw [← splitAtByte?_isSome_iff, sliceTo]
  cases splitAtByte? i s <;> simp [pure, Except.pure, throw, throwThe, MonadExceptOf.throw]

/-- A byte search for a text reports character boundaries: the offset where the occurrence
starts, and the offset just past it. -/
theorem firstMatch_utf8_isValid {pat s : List Char} {i : Nat} (hp : pat ≠ [])
    (h : firstMatch (utf8 pat) (utf8 s) = some i) :
    String.Pos.Raw.IsValid (String.ofList s) ⟨i⟩ ∧
      String.Pos.Raw.IsValid (String.ofList s) ⟨i + (utf8 pat).length⟩ := by
  rw [firstMatch_utf8 hp] at h
  obtain ⟨⟨b, a⟩, hb, rfl⟩ := Option.map_eq_some_iff.1 h
  have hs := breakOn?_eq_some hb
  have h1 : splitAtByte? (utf8 b).length s = some (b, pat ++ a) :=
    splitAtByte?_eq_some_iff.2 ⟨by simp [hs], rfl⟩
  have h2 : splitAtByte? ((utf8 b).length + (utf8 pat).length) s = some (b ++ pat, a) :=
    splitAtByte?_eq_some_iff.2 ⟨hs, by simp⟩
  exact ⟨splitAtByte?_isSome_iff.1 (by simp [h1]), splitAtByte?_isSome_iff.1 (by simp [h2])⟩

end SwiftAccess.Text
