import SwiftAccess.Proofs.CommentsAsBlanks

/-!
# Selections written as text

A range is written `L:C-L:C` (`Host.TextRange.label`) and read back by `Host.TextRange.parse`; a
range of whole lines is written `FIRST-LAST` or `N` and read by `Host.TextRange.parseLines`. This
module says what the two readers accept and what they give.

Numbers are machine words, read by `Text.parseWord?` after `Text.trim`. A word's decimal numeral
holds digits only, so it reads back as the word (`Text.parseNumber?_toDigits`) and holds none of
the separators `:` and `-`; cutting a label at its first separators therefore gives back its
numerals. So a range of machine words reads back from its label exactly when its start does not
come after its end in the order of lines, then columns (`TextPosition.key`), and a range that the
reader accepts never ends before it starts (`parse_label_ordered`).

The texts that name whole lines are described by `WholeLinesText`, without reference to the
reader. Such a text is read as the range from column 0 of its first line to column 0 of the line
after its last, which selects exactly the lines from the first to the last. The one exception is a
text whose last line is the largest line number: no line follows it, and the program stops there
(`parseLines_whole_lines`, and `last_line_number_overflows` for the text of that number alone).
Last, `selectedLines` lists the lines of several ranges in increasing order, each once.
-/

namespace SwiftAccess

namespace Text

theorem digitsValue_eq_ofDigitChars (acc : Nat) (cs : List Char) :
    digitsValue acc cs = Nat.ofDigitChars 10 cs acc := by
  induction cs generalizing acc with
  | nil => rfl
  | cons c cs ih =>
    have hstep : digitsValue acc (c :: cs) =
        digitsValue (acc * 10 + (c.toNat - '0'.toNat)) cs := rfl
    rw [hstep, Nat.ofDigitChars_cons, ih, Nat.mul_comm acc 10]

theorem isBlank_of_isDigit {c : Char} (h : c.isDigit = true) : isBlank c = false := by
  simp only [Char.isDigit, Bool.and_eq_true, decide_eq_true_eq] at h
  have hc : 48 ≤ c.toNat ∧ c.toNat ≤ 57 := ⟨h.1, h.2⟩
  simp [isBlank, CodeRanges.contains, blankRanges]
  omega

theorem trim_of_forall_not_blank {cs : List Char} (h : ∀ c ∈ cs, isBlank c = false) :
    trim cs = cs := by
  have hd : ∀ l : List Char, (∀ c ∈ l, isBlank c = false) → l.dropWhile isBlank = l :=
    fun l hl => List.dropWhile_eq_self_iff.2 fun hpos => by
      simp [hl l[0] (List.getElem_mem hpos)]
  rw [trim, hd cs h, hd cs.reverse (fun c hc => h c (List.mem_reverse.1 hc)), List.reverse_reverse]

/-- The decimal numeral of a number holds digits only. -/
theorem isDigit_of_mem_toDigits {n : Nat} {c : Char} (h : c ∈ Nat.toDigits 10 n) :
    c.isDigit = true :=
  Nat.isDigit_of_mem_toDigits (by decide) (by decide) h

/-- A numeral that `parseWord?` reads is below `wordLimit`. -/
theorem lt_wordLimit_of_parseWord? {s : List Char} {n : Nat} (h : parseWord? s = some n) :
    n < wordLimit := by
  unfold parseWord? at h
  dsimp only at h
  split_ifs at h with h1 h2
  cases h
  exact h2

/-- A machine word's decimal numeral reads back as the word. -/
theorem parseWord?_toDigits {n : Nat} (hn : n < wordLimit) : parseWord? (Nat.toDigits 10 n) = some n := by
  obtain ⟨d, ds, hds⟩ := List.exists_cons_of_ne_nil (Nat.toDigits_ne_nil (n := n) (b := 10))
  -- the numeral starts with a digit, so it has no sign to drop
  have hd : d ≠ '+' := fun e => by
    have := isDigit_of_mem_toDigits (n := n) (c := d) (by rw [hds]; exact List.mem_cons_self ..)
    rw [e] at this
    exact absurd this (by decide)
  have hall : (Nat.toDigits 10 n).all Char.isDigit = true :=
    List.all_eq_true.2 fun c hc => isDigit_of_mem_toDigits hc
  have hval : digitsValue 0 (Nat.toDigits 10 n) = n := by
    rw [digitsValue_eq_ofDigitChars, Nat.ofDigitChars_ten_toDigits]
  unfold parseWord?
  rw [hds] at hall hval ⊢
  simp [hd, hall, hval, hn]

theorem parseNumber?_toDigits {n : Nat} (hn : n < wordLimit) :
    Host.parseNumber? (Nat.toDigits 10 n) = some n := by
  rw [Host.parseNumber?, trim_of_forall_not_blank fun c hc => isBlank_of_isDigit
    (isDigit_of_mem_toDigits hc), parseWord?_toDigits hn]

theorem not_mem_toDigits_of_not_isDigit {n : Nat} {c : Char} (hc : c.isDigit = false) :
    c ∉ Nat.toDigits 10 n := fun h => by
  rw [isDigit_of_mem_toDigits h] at hc
  cases hc

end Text

namespace Host

open Text

/-! ## Cutting at the first separator -/

/-- Cutting at the first `c`: a text that starts with `c` is cut there, and otherwise its first
character stays in front of the cut of the rest. -/
theorem splitOnce?_cons (c a : Char) (l : List Char) :
    splitOnce? c (a :: l) =
      if a = c then some ([], l) else (splitOnce? c l).map fun r => (a :: r.1, r.2) := by
  unfold splitOnce?
  simp only [List.span_eq_takeWhile_dropWhile, List.takeWhile_cons, List.dropWhile_cons]
  by_cases h : a = c
  · simp [h]
  · simp only [h, ne_eq, not_false_eq_true, decide_true, if_true, if_false]
    rcases List.dropWhile _ l with _ | ⟨d, y⟩ <;> rfl

theorem splitOnce?_append_cons {c : Char} {x : List Char} (hx : c ∉ x) (y : List Char) :
    splitOnce? c (x ++ c :: y) = some (x, y) := by
  induction x with
  | nil => simp [splitOnce?_cons]
  | cons a x ih =>
    have ha : a ≠ c := fun e => hx (e ▸ List.mem_cons_self ..)
    rw [List.cons_append, splitOnce?_cons, if_neg ha, ih (fun h => hx (List.mem_cons_of_mem _ h))]
    rfl

theorem splitOnce?_eq_none_iff {c : Char} : ∀ {s : List Char}, splitOnce? c s = none ↔ c ∉ s
  | [] => by simp [splitOnce?]
  | a :: l => by
    rw [splitOnce?_cons]
    by_cases h : a = c
    · simp [h]
    · simp [h, splitOnce?_eq_none_iff, Ne.symm h]

theorem eq_of_splitOnce? {c : Char} : ∀ {s a b : List Char}, splitOnce? c s = some (a, b) →
    s = a ++ c :: b ∧ c ∉ a
  | [], _, _, h => by simp [splitOnce?] at h
  | d :: l, a, b, h => by
    rw [splitOnce?_cons] at h
    by_cases hd : d = c
    · rw [if_pos hd] at h
      cases h
      simp [hd]
    · rw [if_neg hd] at h
      obtain ⟨⟨a', b'⟩, h', he⟩ := Option.map_eq_some_iff.1 h
      cases he
      obtain ⟨rfl, ha⟩ := eq_of_splitOnce? h'
      simp [ha, Ne.symm hd]

/-! ## Ranges read back from their labels -/

/-- Both coordinates of a position are machine words. -/
def TextPosition.Fits (p : TextPosition) : Prop := p.line < wordLimit ∧ p.column < wordLimit

/-- A position as a key of the lexicographic order: by line, then by column. -/
def TextPosition.key (p : TextPosition) : Lex (Nat × Nat) := toLex (p.line, p.column)

/-- `lt` is the strict lexicographic order of positions. -/
theorem TextPosition.lt_eq_false_iff {p q : TextPosition} : q.lt p = false ↔ p.key ≤ q.key := by
  simp only [TextPosition.lt, TextPosition.key, Prod.Lex.le_iff, ofLex_toLex, Bool.or_eq_false_iff,
    decide_eq_false_iff_not, Bool.and_eq_false_iff, beq_eq_false_iff_ne]
  omega

theorem TextPosition.label_toList (p : TextPosition) :
    p.label.toList = Nat.toDigits 10 p.line ++ ':' :: Nat.toDigits 10 p.column := by
  simp [TextPosition.label, Nat.toString_eq_repr, Nat.toList_repr]

theorem TextPosition.parse_label {p : TextPosition} (hp : p.Fits) :
    TextPosition.parse p.label.toList = .ok p := by
  rw [TextPosition.parse, label_toList, splitOnce?_append_cons
    (not_mem_toDigits_of_not_isDigit (by decide))]
  simp only [parseNumber?_toDigits hp.1, parseNumber?_toDigits hp.2]

/-- A label cut at its first `-` gives the labels of its start and its end. -/
theorem TextRange.splitOnce?_label (r : TextRange) :
    splitOnce? '-' r.label.toList = some (r.start.label.toList, r.stop.label.toList) := by
  have hs : '-' ∉ r.start.label.toList := by
    rw [TextPosition.label_toList]
    simp only [List.mem_append, List.mem_cons, not_or]
    exact ⟨not_mem_toDigits_of_not_isDigit (by decide), by decide,
      not_mem_toDigits_of_not_isDigit (by decide)⟩
  rw [← splitOnce?_append_cons hs]
  simp [TextRange.label]

/-- A range that the reader accepts starts no later than it ends. -/
theorem TextRange.key_le_of_parse {s : String} {r : TextRange} (h : TextRange.parse s = .ok r) :
    r.start.key ≤ r.stop.key := by
  unfold TextRange.parse at h
  split at h
  · cases h
  split at h
  · cases h
  split at h
  · cases h
  · next start _ stop _ =>
    split at h
    · cases h
    · next hlt =>
      cases h
      exact TextPosition.lt_eq_false_iff.1 (Bool.eq_false_iff.2 hlt)

/-- **Labels read back.** A range of machine words reads back from its label `L:C-L:C` when its
start comes no later than its end, in the order of lines and then columns, and is refused with its
label otherwise; and no text reads as a range that ends before it starts. -/
theorem parse_label_ordered :
    (∀ r : TextRange, r.start.Fits → r.stop.Fits →
      TextRange.parse r.label = if r.start.key ≤ r.stop.key then .ok r else .error ⟨r.label⟩) ∧
    ∀ (s : String) (r : TextRange), TextRange.parse s = .ok r → r.start.key ≤ r.stop.key := by
  refine ⟨fun r hs he => ?_, fun s r h => TextRange.key_le_of_parse h⟩
  rw [TextRange.parse, TextRange.splitOnce?_label]
  simp only [TextPosition.parse_label hs, TextPosition.parse_label he]
  by_cases hle : r.start.key ≤ r.stop.key
  · rw [if_pos hle, if_neg (by simpa using TextPosition.lt_eq_false_iff.2 hle)]
  · rw [if_neg hle, if_pos (by simpa using mt TextPosition.lt_eq_false_iff.1 hle)]

/-- The range from line 3, column 7 to the start of line 5 reads back from its label `3:7-5:0`;
the range the other way round is refused. -/
theorem range_label_read_back :
    TextRange.parse (⟨⟨3, 7⟩, ⟨5, 0⟩⟩ : TextRange).label = .ok ⟨⟨3, 7⟩, ⟨5, 0⟩⟩ ∧
      TextRange.parse (⟨⟨5, 0⟩, ⟨3, 7⟩⟩ : TextRange).label =
        .error ⟨(⟨⟨5, 0⟩, ⟨3, 7⟩⟩ : TextRange).label⟩ := by
  have hfits : ∀ p : TextPosition, p.line < 6 → p.column < 8 → p.Fits := fun p hl hc =>
    ⟨by unfold wordLimit; omega, by unfold wordLimit; omega⟩
  exact ⟨(parse_label_ordered.1 _ (hfits _ (by decide) (by decide))
      (hfits _ (by decide) (by decide))).trans (if_pos (by decide)),
    (parse_label_ordered.1 _ (hfits _ (by decide) (by decide))
      (hfits _ (by decide) (by decide))).trans (if_neg (by decide))⟩

/-! ## Ranges of whole lines -/

/-- A text that names the whole lines from `first` to `last`: two numbers around the text's first
`-`, or a single number `N` for the one line `N`. A number is a machine word with white space
around it. -/
inductive WholeLinesText : List Char → Nat → Nat → Prop
  | range {a b : List Char} {first last : Nat} : '-' ∉ a → parseNumber? a = some first →
      parseNumber? b = some last → WholeLinesText (a ++ '-' :: b) first last
  | single {a : List Char} {n : Nat} : '-' ∉ a → parseNumber? a = some n → WholeLinesText a n n

/-- The numbers the reader of whole lines finds are those the text names. -/
theorem wholeLinesText_iff {s : List Char} {first last : Nat} :
    WholeLinesText s first last ↔
      parseNumber? ((splitOnce? '-' s).getD (s, s)).1 = some first ∧
        parseNumber? ((splitOnce? '-' s).getD (s, s)).2 = some last := by
  constructor
  · rintro (⟨ha, h1, h2⟩ | ⟨ha, h⟩)
    · rw [splitOnce?_append_cons ha]
      exact ⟨h1, h2⟩
    · rw [splitOnce?_eq_none_iff.2 ha]
      exact ⟨h, h⟩
  · intro h
    cases hs : splitOnce? '-' s with
    | some p =>
      obtain ⟨a, b⟩ := p
      obtain ⟨rfl, ha⟩ := eq_of_splitOnce? hs
      rw [hs] at h
      exact .range ha h.1 h.2
    | none =>
      -- a text without `-` is one number, read twice
      simp only [hs, Option.getD_none] at h
      obtain ⟨h1, h2⟩ := h
      rw [h1, Option.some.injEq] at h2
      subst h2
      exact .single (splitOnce?_eq_none_iff.1 hs) h1

/-- A text that names whole lines is refused when they run backwards, read as the range from column 0
of `first` to column 0 of the line after `last`, and stops the program when no line follows
`last`. -/
theorem parseLines_of_text {s : String} {first last : Nat} (h : WholeLinesText s.toList first last) :
    TextRange.parseLines s =
      if last < first then .error (.invalid ⟨s⟩)
      else if last + 1 < wordLimit then .ok ⟨⟨first, 0⟩, ⟨last + 1, 0⟩⟩
      else .error .lastLineOverflow := by
  obtain ⟨h1, h2⟩ := wholeLinesText_iff.1 h
  unfold TextRange.parseLines
  rcases hp : (splitOnce? '-' s.toList).getD (s.toList, s.toList) with ⟨a, b⟩
  rw [hp] at h1 h2
  simp only [h1, h2, TextRange.wholeLines?]
  split_ifs <;> rfl

/-- A text that names no whole lines is refused. -/
theorem parseLines_of_not_text {s : String} (h : ∀ first last, ¬WholeLinesText s.toList first last) :
    TextRange.parseLines s = .error (.invalid ⟨s⟩) := by
  unfold TextRange.parseLines
  rcases hp : (splitOnce? '-' s.toList).getD (s.toList, s.toList) with ⟨a, b⟩
  dsimp only
  split
  · next first last h1 h2 =>
    exact absurd (wholeLinesText_iff.2 (by rw [hp]; exact ⟨h1, h2⟩)) (h first last)
  · rfl

/-- A text that the reader does not refuse as invalid names whole lines. -/
theorem exists_wholeLinesText {s : String} (h : TextRange.parseLines s ≠ .error (.invalid ⟨s⟩)) :
    ∃ first last, WholeLinesText s.toList first last :=
  Classical.byContradiction fun hex =>
    h (parseLines_of_not_text fun first last ht => hex ⟨first, last, ht⟩)

/-- The whole lines from `first` to `last` select exactly those lines. -/
theorem TextRange.lines_wholeLines {first last : Nat} (h : first ≤ last) :
    TextRange.lines ⟨⟨first, 0⟩, ⟨last + 1, 0⟩⟩ = List.range' first (last + 1 - first) := by
  have hne : TextRange.isEmpty ⟨⟨first, 0⟩, ⟨last + 1, 0⟩⟩ = false := by
    simp [TextRange.isEmpty]
    omega
  -- the range ends at column 0 of the line after `last`, which it leaves out
  have hlast : TextRange.lastLine ⟨⟨first, 0⟩, ⟨last + 1, 0⟩⟩ = last := by
    simp only [TextRange.lastLine, true_and]
    rw [if_pos (by omega)]
    rfl
  simp only [TextRange.lines, TextRange.lineCount, hne, hlast, Bool.false_eq_true, if_false]

theorem WholeLinesText.lt_wordLimit {s : List Char} {first last : Nat}
    (h : WholeLinesText s first last) : first < wordLimit ∧ last < wordLimit := by
  cases h with
  | range _ h1 h2 => exact ⟨lt_wordLimit_of_parseWord? h1, lt_wordLimit_of_parseWord? h2⟩
  | single _ h => exact ⟨lt_wordLimit_of_parseWord? h, lt_wordLimit_of_parseWord? h⟩

/-- Reading whole lines stops exactly on a text whose last line is the largest line number. -/
theorem parseLines_eq_overflow_iff {s : String} :
    TextRange.parseLines s = .error .lastLineOverflow ↔
      ∃ first, WholeLinesText s.toList first (wordLimit - 1) := by
  constructor
  · intro h
    obtain ⟨first, last, ht⟩ := exists_wholeLinesText (by rw [h]; exact fun e => by cases e)
    obtain ⟨-, hl⟩ := ht.lt_wordLimit
    rw [parseLines_of_text ht] at h
    have h1 : ¬last < first := fun h1 => by rw [if_pos h1] at h; cases h
    have h2 : ¬last + 1 < wordLimit := fun h2 => by rw [if_neg h1, if_pos h2] at h; cases h
    -- the last line has no successor among the machine words
    exact ⟨first, (show last = wordLimit - 1 by omega) ▸ ht⟩
  · rintro ⟨first, ht⟩
    obtain ⟨hf, -⟩ := ht.lt_wordLimit
    rw [parseLines_of_text ht, if_neg (by omega), if_neg (by omega)]

/-- A range read from a text selects the lines from the first to the last that the text names. -/
theorem lines_of_parseLines {s : String} {r : TextRange} (h : TextRange.parseLines s = .ok r) :
    ∃ first last, WholeLinesText s.toList first last ∧ first ≤ last ∧
      r.lines = List.range' first (last + 1 - first) := by
  obtain ⟨first, last, ht⟩ := exists_wholeLinesText (by rw [h]; exact fun e => by cases e)
  rw [parseLines_of_text ht] at h
  have h1 : ¬last < first := fun h1 => by rw [if_pos h1] at h; cases h
  have h2 : last + 1 < wordLimit :=
    Classical.byContradiction fun h2 => by rw [if_neg h1, if_neg h2] at h; cases h
  rw [if_neg h1, if_pos h2] at h
  cases h
  exact ⟨first, last, ht, by omega, TextRange.lines_wholeLines (by omega)⟩

theorem parseLines_ok_of_text {s : String} {first last : Nat} (ht : WholeLinesText s.toList first last)
    (hle : first ≤ last) (hlast : last + 1 < wordLimit) : ∃ r, TextRange.parseLines s = .ok r := by
  rw [parseLines_of_text ht, if_neg (by omega), if_pos hlast]
  exact ⟨_, rfl⟩

theorem mem_selectedLines {ranges : List TextRange} {n : Nat} :
    n ∈ selectedLines ranges ↔ ∃ r ∈ ranges, n ∈ r.lines := by
  simp [selectedLines, LineSet.mem_ofList]

/-- **Whole lines.** A text that names whole lines up to the largest line number stops the
program, since no line follows its last, and no other text does. A range read from a text selects
exactly the lines from the first to the last that the text names, and every text that names lines
from `first` to `last`, with `first ≤ last` and a line after `last`, is read. The lines that several
ranges select are listed in increasing order, each once. -/
theorem parseLines_whole_lines (s : String) :
    (TextRange.parseLines s = .error .lastLineOverflow ↔
      ∃ first, WholeLinesText s.toList first (wordLimit - 1)) ∧
    (∀ r, TextRange.parseLines s = .ok r →
      ∃ first last, WholeLinesText s.toList first last ∧ first ≤ last ∧
        r.lines = List.range' first (last + 1 - first)) ∧
    (∀ first last, WholeLinesText s.toList first last → first ≤ last → last + 1 < wordLimit →
      ∃ r, TextRange.parseLines s = .ok r) ∧
    ∀ ranges : List TextRange, (selectedLines ranges).Pairwise (· < ·) ∧
      ∀ n, n ∈ selectedLines ranges ↔ ∃ r ∈ ranges, n ∈ r.lines :=
  ⟨parseLines_eq_overflow_iff, fun _ => lines_of_parseLines,
    fun _ _ => parseLines_ok_of_text,
    fun _ => ⟨LineSet.pairwise_ofList _, fun _ => mem_selectedLines⟩⟩

/-- The text `2-4` is read as the range that selects the lines 2, 3 and 4. -/
theorem lines_two_to_four :
    ∃ r, TextRange.parseLines "2-4" = .ok r ∧ r.lines = [2, 3, 4] := by
  have ht : WholeLinesText "2-4".toList 2 4 := by
    rw [show "2-4".toList = ['2'] ++ '-' :: ['4'] by decide]
    exact .range (by decide) (by decide) (by decide)
  obtain ⟨r, hr⟩ := (parseLines_whole_lines "2-4").2.2.1 2 4 ht (by decide) (by decide)
  obtain ⟨first, last, hw, -, hlines⟩ := (parseLines_whole_lines "2-4").2.1 r hr
  -- the text names the lines 2 and 4 only
  obtain ⟨h₁, h₂⟩ := wholeLinesText_iff.1 hw
  obtain ⟨h₁', h₂'⟩ := wholeLinesText_iff.1 ht
  obtain rfl : first = 2 := Option.some.inj (h₁.symm.trans h₁')
  obtain rfl : last = 4 := Option.some.inj (h₂.symm.trans h₂')
  exact ⟨r, hr, hlines⟩

/-- The largest line number names no range of whole lines: no line follows it. -/
theorem last_line_number_overflows :
    WholeLinesText "18446744073709551615".toList 18446744073709551615 18446744073709551615 ∧
      TextRange.parseLines "18446744073709551615" = .error .lastLineOverflow := by
  have ht : WholeLinesText "18446744073709551615".toList 18446744073709551615 18446744073709551615 :=
    .single (by decide) (by decide)
  exact ⟨ht, parseLines_eq_overflow_iff.2 ⟨_, ht⟩⟩

end Host

end SwiftAccess
