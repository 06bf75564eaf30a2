import SwiftAccess.Proofs.CodeWords
import SwiftAccess.Edit

/-!
# Finding an anchor in a text cut at white space

`Edit.locate` scans a whole line for an anchor, so an edit elsewhere on the line could in principle
move what a later search finds. It cannot when the anchor has no white space and the edit changes
only whole words: an occurrence of such an anchor never spans a blank, and whether it stands on
its own depends only on its neighbours, which a blank shields from the rest.

`Edit.locate_append` makes this precise: for a text `x ++ y` whose two parts meet at white space,
the anchor is found in `x` if it is found there, and otherwise where it is found in `y`. A search
in an edited line is then a search in its unedited pieces.
-/

namespace SwiftAccess

namespace Text

theorem toNat_of_isNameChar {c : Char} (h : isNameChar c = true) :
    (48 ≤ c.toNat ∧ c.toNat ≤ 57) ∨ (65 ≤ c.toNat ∧ c.toNat ≤ 90) ∨
      (97 ≤ c.toNat ∧ c.toNat ≤ 122) ∨ c.toNat = 95 := by
  simp only [isNameChar, Char.isAlphanum, Char.isAlpha, Char.isUpper, Char.isLower,
    Char.isDigit, Bool.or_eq_true, Bool.and_eq_true, decide_eq_true_eq, beq_iff_eq,
    UInt32.le_iff_toNat_le] at h
  rcases h with ((⟨h1, h2⟩ | ⟨h1, h2⟩) | ⟨h1, h2⟩) | rfl
  · simp at h1 h2; omega
  · simp at h1 h2; omega
  · simp at h1 h2; omega
  · decide

/-- White space is never part of a name. -/
theorem isNameChar_of_isBlank {c : Char} (h : isBlank c = true) : isNameChar c = false := by
  cases hn : isNameChar c
  · rfl
  · have := toNat_of_isNameChar hn
    simp only [isBlank, blankRanges, CodeRanges.contains_iff, List.mem_cons, List.not_mem_nil,
      or_false, exists_eq_or_imp, exists_eq_left] at h
    omega

end Text

namespace Edit

open Text

/-- A text that is not empty and holds no white space. -/
def Solid (p : List Char) : Prop := p ≠ [] ∧ ∀ c ∈ p, isBlank c = false

theorem nameCharAt?_of_blank {o : Option Char} (h : o.all isBlank = true) : nameCharAt? o = false := by
  cases o with
  | none => rfl
  | some c => simpa [nameCharAt?] using isNameChar_of_isBlank (by simpa using h)

/-- Whether an occurrence stands on its own is decided by the characters next to it, so text beyond
a blank after it does not matter. -/
theorem fits_append_right {anchor b a y : List Char} (hs : Solid anchor)
    (h : Apart (anchor ++ a) y) : fits anchor b (a ++ y) = fits anchor b a := by
  have hcond : (a ≠ [] ∧ a.getLast?.all isBlank = true) ∨ y.head?.all isBlank = true := by
    cases a with
    | nil =>
      rcases h with h | h
      · obtain ⟨c, w, rfl⟩ := List.exists_cons_of_ne_nil hs.1
        have hl := List.getLast_mem (l := c :: w) (by simp)
        simp only [List.append_nil, List.getLast?_eq_some_getLast (List.cons_ne_nil c w),
          Option.all_some] at h
        simp [hs.2 _ hl] at h
      · exact .inr h
    | cons d a =>
      rcases h with h | h
      · rw [List.getLast?_append_of_ne_nil _ (List.cons_ne_nil d a)] at h
        exact .inl ⟨by simp, h⟩
      · exact .inr h
  have hset : setterSuffix.isPrefixOf (a ++ y) = setterSuffix.isPrefixOf a :=
    isPrefixOf_append_apart y (forall_not_blank_of_all (by decide)) hcond
  have hhead : nameCharAt? (a ++ y).head? = nameCharAt? a.head? := by
    cases a with
    | nil =>
      rcases hcond with ⟨h, -⟩ | h
      · exact absurd rfl h
      · rw [List.nil_append, nameCharAt?_of_blank h]; rfl
    | cons d a => rfl
  simp only [fits, hset, hhead]

/-- The same holds on the left: text before a non-empty stretch, or before a blank, does not
matter. -/
theorem fits_append_left {anchor p q a : List Char}
    (h : q ≠ [] ∨ p.getLast?.all isBlank = true) : fits anchor (p ++ q) a = fits anchor q a := by
  have : nameCharAt? (p ++ q).getLast? = nameCharAt? q.getLast? := by
    rcases h with h | h
    · rw [List.getLast?_append, List.getLast?_eq_some_getLast h]; rfl
    · cases q with
      | nil => rw [List.append_nil, nameCharAt?_of_blank h]; rfl
      | cons c q => rw [List.getLast?_append, List.getLast?_eq_some_getLast (List.cons_ne_nil c q)]; rfl
  simp only [fits, this]

/-- `locateFrom` unfolded once. -/
theorem locateFrom_eq (anchor : List Char) (h : anchor ≠ []) (passed rest : List Char) :
    locateFrom anchor h passed rest = match breakOn? anchor rest with
      | none => none
      | some (b, a) =>
        if fits anchor (passed ++ b) a then some (passed ++ b, a)
        else locateFrom anchor h (passed ++ b ++ anchor) a := by
  rw [locateFrom]
  split <;> next hb => rw [hb]

/-- A search that has passed a non-empty text, or a text ending at a blank, finds what a fresh
search finds, shifted. -/
theorem locateFrom_shift {anchor : List Char} (hs : Solid anchor) (p : List Char) :
    ∀ (q y : List Char), q ≠ [] ∨ p.getLast?.all isBlank = true ∨ y.head?.all isBlank = true →
      locateFrom anchor hs.1 (p ++ q) y = (locateFrom anchor hs.1 q y).map fun r => (p ++ r.1, r.2)
  | q, y, hq => by
    rw [locateFrom_eq, locateFrom_eq]
    cases hb : breakOn? anchor y with
    | none => rfl
    | some r =>
      obtain ⟨b, a⟩ := r
      have hy := breakOn?_eq_some hb
      have hfit : fits anchor (p ++ q ++ b) a = fits anchor (q ++ b) a := by
        rw [List.append_assoc]
        apply fits_append_left
        rcases hq with hq | hq | hq
        · exact .inl (by simp [hq])
        · exact .inr hq
        · cases q with
          | cons c q => exact .inl (by simp)
          | nil =>
            cases b with
            | cons c b => exact .inl (by simp)
            | nil =>
              obtain ⟨c, w, hc⟩ := List.exists_cons_of_ne_nil hs.1
              rw [hy, hc] at hq
              simp [hs.2 c (by simp [hc])] at hq
      simp only [hfit]
      split
      · simp
      · have hlen : a.length < y.length := breakOn?_length hs.1 hb
        rw [List.append_assoc, List.append_assoc,
          locateFrom_shift hs p (q ++ (b ++ anchor)) a (.inl (by simp [hs.1]))]
        simp [List.append_assoc]
termination_by _ y => y.length

/-- In a text cut at white space, the anchor is found in the first part if it is there, and
otherwise where the second part alone would have it. -/
theorem locateFrom_append {anchor : List Char} (hs : Solid anchor) :
    ∀ (passed x y : List Char), Apart x y →
      locateFrom anchor hs.1 passed (x ++ y) = match locateFrom anchor hs.1 passed x with
        | some (b, a) => some (b, a ++ y)
        | none => locateFrom anchor hs.1 (passed ++ x) y
  | passed, x, y, h => by
    rw [locateFrom_eq anchor hs.1 passed (x ++ y), locateFrom_eq anchor hs.1 passed x,
      breakOn?_append_apart hs.2 y h]
    cases hb : breakOn? anchor x with
    | some r =>
      obtain ⟨b, a⟩ := r
      have hx := breakOn?_eq_some hb
      have hapart : Apart (anchor ++ a) y := by
        rcases h with h | h
        · left
          rwa [hx, List.append_assoc, List.getLast?_append_of_ne_nil _ (by simp [hs.1])] at h
        · exact .inr h
      simp only [fits_append_right hs hapart]
      split
      · rfl
      · have hlen : a.length < x.length := breakOn?_length hs.1 hb
        rw [locateFrom_append hs (passed ++ b ++ anchor) a y (by
          rcases h with h | h
          · cases a with
            | nil => exact .inl rfl
            | cons d a =>
              left
              rwa [hx, List.getLast?_append_of_ne_nil _ (List.cons_ne_nil d a)] at h
          · exact .inr h)]
        cases locateFrom anchor hs.1 (passed ++ b ++ anchor) a with
        | some r => rfl
        | none => simp [hx, List.append_assoc]
    | none =>
      simp only
      rw [locateFrom_eq anchor hs.1 (passed ++ x) y]
      cases breakOn? anchor y with
      | none => rfl
      | some r => simp [List.append_assoc]
termination_by _ x => x.length

/-- `Edit.locate` on a text whose two parts meet at white space. -/
theorem locate_append {anchor x y : List Char} (hs : Solid anchor) (h : Apart x y) :
    locate (x ++ y) anchor = match locate x anchor with
      | some (b, a) => some (b, a ++ y)
      | none => (locate y anchor).map fun r => (x ++ r.1, r.2) := by
  simp only [locate, dif_neg hs.1]
  rw [locateFrom_append hs [] x y h]
  cases locateFrom anchor hs.1 [] x with
  | some r => rfl
  | none =>
    simp only [List.nil_append]
    have := locateFrom_shift hs x [] y (by rcases h with h | h <;> simp [h])
    simpa using this

/-- An anchor is found at the start of a text that is the anchor alone. -/
theorem locate_self {anchor : List Char} (hs : Solid anchor) : locate anchor anchor = some ([], []) := by
  simp only [locate, dif_neg hs.1]
  rw [locateFrom_eq]
  have : breakOn? anchor anchor = some ([], []) := by
    obtain ⟨c, w, rfl⟩ := List.exists_cons_of_ne_nil hs.1
    simp [breakOn?, List.isPrefixOf_iff_prefix]
  rw [this]
  simp [fits, nameCharAt?, setterSuffix]

/-- An anchor longer than a text is not found in it. -/
theorem locate_of_length_lt {anchor line : List Char} (h : line.length < anchor.length) :
    locate line anchor = none := by
  have hb : ∀ s : List Char, s.length < anchor.length → breakOn? anchor s = none := by
    intro s
    induction s with
    | nil =>
      intro hs
      cases anchor with
      | nil => simp at hs
      | cons a as => rfl
    | cons c s ih =>
      intro hs
      have hnp : anchor.isPrefixOf (c :: s) = false := by
        cases hq : anchor.isPrefixOf (c :: s)
        · rfl
        · have := (List.isPrefixOf_iff_prefix.1 hq).length_le; omega
      simp [breakOn?, hnp, ih (by simp at hs; omega)]
  unfold locate
  split
  · rfl
  · rw [locateFrom_eq, hb line h]

/-! ## Two whole words on one line -/

/-- A text found in two parts meeting at white space is found in neither part. -/
theorem locate_eq_none_of_append {anchor x y : List Char} (hs : Solid anchor) (h : Apart x y)
    (hn : locate (x ++ y) anchor = none) : locate x anchor = none ∧ locate y anchor = none := by
  rw [locate_append hs h] at hn
  cases hx : locate x anchor with
  | some r => rw [hx] at hn; cases hn
  | none =>
    rw [hx] at hn
    exact ⟨rfl, Option.map_eq_none_iff.1 hn⟩

/-- A text found in neither of two parts meeting at white space is not found in their join. -/
theorem locate_append_eq_none {anchor x y : List Char} (hs : Solid anchor) (h : Apart x y)
    (hx : locate x anchor = none) (hy : locate y anchor = none) : locate (x ++ y) anchor = none := by
  rw [locate_append hs h, hx, hy]
  rfl

/-- Where the editor finds a whole word, it finds nothing in the text before it. -/
theorem locate_prefix_eq_none {anchor b a : List Char} (hs : Solid anchor)
    (h : locate (b ++ anchor ++ a) anchor = some (b, a)) (hbe : b.getLast?.all isBlank = true) :
    locate b anchor = none := by
  have hsplit := locate_append hs (x := b) (y := anchor ++ a) (.inl hbe)
  rw [← List.append_assoc, h] at hsplit
  cases hb : locate b anchor with
  | none => rfl
  | some r =>
    -- an occurrence inside `b` would end before the whole word starts
    obtain ⟨rb, ra⟩ := r
    rw [hb] at hsplit
    simp only [Option.some.injEq, Prod.mk.injEq] at hsplit
    have hlen := congrArg List.length (locate_eq_some hb).1
    rw [← hsplit.1] at hlen
    simp only [List.length_append] at hlen
    have := List.length_pos_of_ne_nil hs.1
    omega

/-- Where the editor finds a whole word, it finds it again after the text before it changes, if
the new text holds no occurrence. -/
theorem locate_of_prefix {anchor b' a : List Char} (hs : Solid anchor)
    (hb' : locate b' anchor = none) (hbe : b'.getLast?.all isBlank = true)
    (ha : a.head?.all isBlank = true) : locate (b' ++ anchor ++ a) anchor = some (b', a) := by
  have hself : locate (anchor ++ a) anchor = some ([], a) := by
    rw [locate_append hs (.inr ha), locate_self hs]
    rfl
  rw [List.append_assoc, locate_append hs (.inl hbe), hb', hself]
  simp

/-- Where the editor finds a whole word, it finds it again after the text behind it changes. -/
theorem locate_of_suffix {anchor b a a' : List Char} (hs : Solid anchor)
    (h : locate (b ++ anchor ++ a) anchor = some (b, a)) (hbe : b.getLast?.all isBlank = true)
    (ha' : a'.head?.all isBlank = true) : locate (b ++ anchor ++ a') anchor = some (b, a') :=
  locate_of_prefix hs (locate_prefix_eq_none hs h hbe) hbe ha'

/-- Two solid words followed by white space at one place are one word. -/
theorem eq_of_append_eq_append_solid {A B a a' : List Char} (hA : Solid A) (hB : Solid B)
    (ha : a.head?.all isBlank = true) (ha' : a'.head?.all isBlank = true) (h : A ++ a = B ++ a') :
    A = B := by
  rcases List.append_eq_append_iff.1 h with ⟨m, rfl, hm⟩ | ⟨m, rfl, hm⟩
  · cases m with
    | nil => simp
    | cons c m =>
      -- the rest of `B` would start `a'`
      subst hm
      exact absurd ha (by simp [hB.2 c (by simp)])
  · cases m with
    | nil => simp
    | cons c m =>
      subst hm
      exact absurd ha' (by simp [hA.2 c (by simp)])

theorem head_append_solid {B : List Char} (hB : Solid B) (x : List Char) :
    (B ++ x).head?.all isBlank = false := by
  obtain ⟨c, w, rfl⟩ := List.exists_cons_of_ne_nil hB.1
  simp [hB.2 c (by simp)]

/-- A text ending in white space does not end inside a solid word. -/
theorem not_blank_end_of_inside {A m y b : List Char} (hA : Solid A) (hm : m ≠ []) (hy : A = m ++ y)
    (hb : (b ++ m).getLast?.all isBlank = true) : False := by
  have hlast : (b ++ m).getLast? = m.getLast? := List.getLast?_append_of_ne_nil _ hm
  obtain ⟨c, hc⟩ := Option.isSome_iff_exists.1 (List.getLast?_isSome.2 hm)
  rw [hlast, hc] at hb
  have hmem : c ∈ A := hy ▸ List.mem_append_left _ (List.mem_of_getLast? hc)
  simp [hA.2 c hmem] at hb

/-- Two different whole words of a line stand one before the other. -/
theorem whole_words_ordered {A B b a b' a' : List Char} (hA : Solid A) (hB : Solid B)
    (hne : A ≠ B) (h : b ++ A ++ a = b' ++ B ++ a')
    (hb : b.getLast?.all isBlank = true) (ha : a.head?.all isBlank = true)
    (hb' : b'.getLast?.all isBlank = true) (ha' : a'.head?.all isBlank = true) :
    (∃ n, b' = b ++ A ++ n ∧ a = n ++ B ++ a') ∨ (∃ n, b = b' ++ B ++ n ∧ a' = n ++ A ++ a) := by
  simp only [List.append_assoc] at h
  rcases List.append_eq_append_iff.1 h with ⟨m, rfl, hm⟩ | ⟨m, rfl, hm⟩
  · -- `B` starts at or after `A`
    rcases List.append_eq_append_iff.1 hm with ⟨n, rfl, hn⟩ | ⟨y, hy, hy'⟩
    · exact .inl ⟨n, by simp, by simp [hn]⟩
    · cases m with
      | nil => exact absurd (eq_of_append_eq_append_solid hA hB ha ha' (by simpa using hm)) hne
      | cons c m =>
        cases y with
        | nil =>
          have : a = B ++ a' := by simpa using hy'.symm
          rw [this, head_append_solid hB] at ha
          cases ha
        | cons d y => exact (not_blank_end_of_inside hA (List.cons_ne_nil c m) hy (by simpa using hb')).elim
  · -- `A` starts after `B`
    rcases List.append_eq_append_iff.1 hm with ⟨n, rfl, hn⟩ | ⟨y, hy, hy'⟩
    · exact .inr ⟨n, by simp, by simp [hn]⟩
    · cases m with
      | nil => exact absurd (eq_of_append_eq_append_solid hB hA ha' ha (by simpa using hm)).symm hne
      | cons c m =>
        cases y with
        | nil =>
          have : a' = A ++ a := by simpa using hy'.symm
          rw [this, head_append_solid hA] at ha'
          cases ha'
        | cons d y => exact (not_blank_end_of_inside hB (List.cons_ne_nil c m) hy (by simpa using hb)).elim

end Edit

end SwiftAccess
