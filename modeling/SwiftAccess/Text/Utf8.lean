/-!
# Texts as UTF-8 bytes

The program addresses its lines by byte offsets into their UTF-8 encoding, as Rust's `str` does,
while this library reads a text as its list of characters; `Text.utf8` is the encoding between the
two. A byte offset is a character boundary of a text when it ends the encoding of some prefix of
its characters.

Slicing a `str` at an offset (`&s[..i]`, `&s[i..]`, `&s[i..j]`) is `Text.sliceTo`,
`Text.sliceFrom` and `Text.slice`: they cut the characters where `Text.splitAtByte?` finds the
boundary, and stop the program with `Panic.charBoundary` where `str` panics, at an offset inside a
character or past the end.
`Text.firstMatch` is `str::find` on bytes: the offset of the first occurrence of a pattern's
bytes among a text's bytes.
-/

namespace SwiftAccess

/-- Why the program stops. -/
inductive Panic where
  /-- A text was sliced at a byte offset that is not a character boundary of it. -/
  | charBoundary (offset : Nat)
  /-- A machine-word counter was increased past its largest value. -/
  | addOverflow
  /-- A machine-word counter was decreased below zero. -/
  | subOverflow
  deriving DecidableEq, Repr

namespace Text

/-- The UTF-8 encoding of a text. -/
def utf8 (s : List Char) : List UInt8 := s.flatMap String.utf8EncodeChar

@[simp] theorem utf8_nil : utf8 [] = [] := rfl

@[simp] theorem utf8_cons (c : Char) (s : List Char) :
    utf8 (c :: s) = String.utf8EncodeChar c ++ utf8 s := rfl

@[simp] theorem utf8_append (s t : List Char) : utf8 (s ++ t) = utf8 s ++ utf8 t :=
  List.flatMap_append

theorem length_utf8_pos {s : List Char} (h : s ≠ []) : 0 < (utf8 s).length := by
  obtain ⟨c, s, rfl⟩ := List.exists_cons_of_ne_nil h
  have := c.utf8Size_pos
  simp only [utf8_cons, List.length_append, String.length_utf8EncodeChar]
  omega

/-- The text before byte offset `i` and the text from it, when `i` is a character boundary of
`s`; `none` at an offset inside a character or past the end. -/
def splitAtByte? : Nat → List Char → Option (List Char × List Char)
  | 0, s => some ([], s)
  | _ + 1, [] => none
  | i + 1, c :: s =>
    if c.utf8Size ≤ i + 1 then (splitAtByte? (i + 1 - c.utf8Size) s).map fun r => (c :: r.1, r.2)
    else none

/-- `&s[..i]`: the text before byte offset `i`. -/
def sliceTo (s : List Char) (i : Nat) : Except Panic (List Char) :=
  match splitAtByte? i s with
  | some r => pure r.1
  | none => throw (.charBoundary i)

/-- `&s[i..]`: the text from byte offset `i`. -/
def sliceFrom (s : List Char) (i : Nat) : Except Panic (List Char) :=
  match splitAtByte? i s with
  | some r => pure r.2
  | none => throw (.charBoundary i)

/-- `&s[i..j]`: the text between byte offsets `i` and `j`. -/
def slice (s : List Char) (i j : Nat) : Except Panic (List Char) := do
  sliceFrom (← sliceTo s j) i

theorem splitAtByte?_eq_some :
    ∀ {i : Nat} {s b a : List Char}, splitAtByte? i s = some (b, a) →
      s = b ++ a ∧ (utf8 b).length = i
  | 0, s, b, a, h => by
    simp only [splitAtByte?, Option.some.injEq, Prod.mk.injEq] at h
    obtain ⟨rfl, rfl⟩ := h
    simp
  | _ + 1, [], _, _, h => by simp [splitAtByte?] at h
  | i + 1, c :: s, b, a, h => by
    simp only [splitAtByte?] at h
    split at h
    · next hc =>
      obtain ⟨⟨b', a'⟩, hr, he⟩ := Option.map_eq_some_iff.1 h
      simp only [Prod.mk.injEq] at he
      obtain ⟨rfl, rfl⟩ := he
      obtain ⟨rfl, hl⟩ := splitAtByte?_eq_some hr
      refine ⟨rfl, ?_⟩
      simp only [utf8_cons, List.length_append, String.length_utf8EncodeChar]
      omega
    · cases h

/-- A text splits at the end of the encoding of each of its prefixes. -/
theorem splitAtByte?_utf8_length :
    ∀ (b a : List Char), splitAtByte? (utf8 b).length (b ++ a) = some (b, a)
  | [], a => by simp [splitAtByte?]
  | c :: b, a => by
    have hc := c.utf8Size_pos
    obtain ⟨n, hn⟩ : ∃ n, (utf8 (c :: b)).length = n + 1 :=
      ⟨(utf8 (c :: b)).length - 1, by simp; omega⟩
    have hb : n + 1 - c.utf8Size = (utf8 b).length := by
      simp only [utf8_cons, List.length_append, String.length_utf8EncodeChar] at hn
      omega
    have hle : c.utf8Size ≤ n + 1 := by
      simp only [utf8_cons, List.length_append, String.length_utf8EncodeChar] at hn
      omega
    rw [hn, List.cons_append, splitAtByte?, if_pos hle, hb, splitAtByte?_utf8_length b a]
    rfl

@[simp] theorem sliceTo_utf8_length (b a : List Char) :
    sliceTo (b ++ a) (utf8 b).length = .ok b := by
  rw [sliceTo, splitAtByte?_utf8_length]
  rfl

@[simp] theorem sliceFrom_utf8_length (b a : List Char) :
    sliceFrom (b ++ a) (utf8 b).length = .ok a := by
  rw [sliceFrom, splitAtByte?_utf8_length]
  rfl

@[simp] theorem sliceTo_utf8_length_add (b m a : List Char) :
    sliceTo (b ++ (m ++ a)) ((utf8 b).length + (utf8 m).length) = .ok (b ++ m) := by
  simpa using sliceTo_utf8_length (b ++ m) a

@[simp] theorem sliceFrom_utf8_length_add (b m a : List Char) :
    sliceFrom (b ++ (m ++ a)) ((utf8 b).length + (utf8 m).length) = .ok a := by
  simpa using sliceFrom_utf8_length (b ++ m) a

/-- Slicing from a byte offset leaves a suffix of the text, a shorter one past offset zero. -/
theorem sliceFrom_eq_ok {s r : List Char} {i : Nat} (h : sliceFrom s i = .ok r) :
    ∃ b, s = b ++ r ∧ (utf8 b).length = i := by
  unfold sliceFrom at h
  split at h
  · next r' hr =>
    cases h
    exact ⟨r'.1, splitAtByte?_eq_some hr⟩
  · cases h

theorem length_sliceFrom_lt {s r : List Char} {i : Nat} (h : sliceFrom s i = .ok r) (hi : 0 < i) :
    r.length < s.length := by
  obtain ⟨b, rfl, hb⟩ := sliceFrom_eq_ok h
  have : b ≠ [] := by rintro rfl; simp at hb; omega
  simp [List.length_pos_iff.2 this]

/-- The offset of the first occurrence of `pat` in `hay`. -/
def firstMatch (pat hay : List UInt8) : Option Nat :=
  if pat.isPrefixOf hay then some 0
  else match hay with
    | [] => none
    | _ :: bs => (firstMatch pat bs).map (· + 1)

/-- An occurrence that `firstMatch` finds lies within the text searched. -/
theorem firstMatch_le : ∀ {pat hay : List UInt8} {i : Nat}, firstMatch pat hay = some i →
    i + pat.length ≤ hay.length
  | pat, hay, i, h => by
    unfold firstMatch at h
    split at h
    · next hp =>
      cases h
      simpa using (List.isPrefixOf_iff_prefix.1 hp).length_le
    · split at h
      · cases h
      · next bs =>
        obtain ⟨j, hj, rfl⟩ := Option.map_eq_some_iff.1 h
        have := firstMatch_le hj
        simp only [List.length_cons]
        omega

end Text

end SwiftAccess
