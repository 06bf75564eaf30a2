import SwiftAccess.Proofs.CommentedWords

/-!
# Comments read as white space

Blanking a buffer's comments (`Comments.blankLines`) leaves what the lexer reads unchanged: the
same tokens on every line, and the same state after every line but for the comment flag, which
the blanked buffer never sets (`comments_lex_as_blanks`). This holds under three conditions on the
code of each line, the text after the `*/` that closes a comment the line starts in
(`Comments.linesReadable`):

* every `"` in it lies in a `//` comment. The lexer cuts string literals and finds an opening
  `"""` before it looks for comments, so a quote in a block comment can pair with a quote in
  another one and cut out the code between them;
* the lexer resumes cleanly in the block comments it is in at the start of a word or opens
  (`Comments.wordReadable`, after `Lexer.scanChars_blank`); it does not in `/* a /*/ b */`;
* no piece of code that a comment touches within a word spells a parenthesised keyword such as
  `private(set)`, which the lexer reads whole only as a word of its own.

`blanked_lines_read_otherwise` has a line that breaks each condition and lexes otherwise than its
blanked copy.

The proof follows the lexer's own layers. `Lexer.scanWords_blank` goes through the words of the
code, one word at a time by `Lexer.scanWord_blank`, until the word where a `//` comment begins;
that word is also where the first quote can stand, and what follows it is cut by
`stripLiterals` without changing the word's reading (`Comments.wordReadable_append_of_line`).
`Lexer.scanLine_blank` adds the line's start inside a block comment and the check for an opening
multiline string, and `Lexer.scanLines_blank` threads the lines.
-/

namespace SwiftAccess

open Text Lexer

namespace Comments

/-- Whether each of the words, read from mode `m` on, is readable in the mode the scan is in at
its start. -/
def wordsReadable : Mode → List (List Char) → Bool
  | _, [] => true
  | m, w :: ws => wordReadable m w && wordsReadable (scan m w).2 ws

/-- Code whose comments the lexer reads as the scan does: its quotes lie in `//` comments, and
its words are readable. -/
def codeReadable (cs : List Char) : Bool :=
  quotesInLineComments .code cs && wordsReadable .code (words cs)

/-- The code of a line read from mode `m`: all of it, or what follows the `*/` closing the block
comment it starts in; none when that comment goes on past the line. -/
def codeAfter : Mode → List Char → Option (List Char)
  | .block, line => (breakOn? blockCloseMark line).map Prod.snd
  | _, line => some line

/-- Whether consecutive lines, from mode `m`, have readable code, the scan going on from line to
line. -/
def linesReadable : Mode → List (List Char) → Bool
  | _, [] => true
  | m, l :: ls => (codeAfter m l).all codeReadable && linesReadable (scan m l).2.next ls

theorem Mode.next_ne_line (m : Mode) : m.next ≠ .line := by
  cases m <;> simp [Mode.next]

theorem Mode.next_beq_block (m : Mode) : (m.next == .block) = (m == .block) := by
  cases m <;> rfl

/-! ## White space -/

/-- White space is read in the mode the scan is in, and leaves it there. -/
theorem scan_blanks (m : Mode) : ∀ {b : List Char}, (∀ c ∈ b, isBlank c = true) →
    scan m b = (b.map (·, m), m)
  | [], _ => rfl
  | c :: b, hb => by
    obtain ⟨hs, ht⟩ := ne_slash_of_isBlank (hb c (List.mem_cons_self ..))
    rw [scan_cons_of_ne m hs ht, scan_blanks m fun d hd => hb d (List.mem_cons_of_mem _ hd)]
    rfl

theorem blank_blanks (m : Mode) {b : List Char} (hb : ∀ c ∈ b, isBlank c = true) :
    ∀ d ∈ blank m b, isBlank d = true := by
  intro d hd
  simp only [blank, scan_blanks m hb, List.map_map, List.mem_map, Function.comp_apply,
    blankChar] at hd
  obtain ⟨c, hc, rfl⟩ := hd
  split
  · exact hb c hc
  · exact isBlank_space

/-- White space at the start of a text cuts no word. -/
theorem words_blanks_append : ∀ {b : List Char}, (∀ c ∈ b, isBlank c = true) → ∀ y : List Char,
    words (b ++ y) = words y
  | [], _, _ => rfl
  | c :: b, hb, y => by
    rw [List.cons_append, words_cons_blank (hb c (List.mem_cons_self ..))]
    exact words_blanks_append (fun d hd => hb d (List.mem_cons_of_mem _ hd)) y

theorem quote_not_mem_of_blanks {b : List Char} (hb : ∀ c ∈ b, isBlank c = true) : '"' ∉ b :=
  fun h => absurd (hb _ h) (by decide)

theorem isBlank_of_mem_replicate {n : Nat} : ∀ c ∈ List.replicate n ' ', isBlank c = true :=
  fun c hc => by rw [List.eq_of_mem_replicate hc]; exact isBlank_space

/-- The blanked text starts at white space where the text does. -/
theorem head?_blank_of_blank (m : Mode) {r : List Char} (hr : r.head?.all isBlank = true) :
    (blank m r).head?.all isBlank = true := by
  cases r with
  | nil => rfl
  | cons b r =>
    obtain ⟨d, hd, he⟩ := blank_cons_blank m (by simpa using hr) r
    simp [he, hd]

/-- The words of a text with no comment marker have none either. -/
theorem markerFree_of_mem_words (y : List Char) (hm : markerFree y = true) :
    ∀ v ∈ words y, markerFree v = true := by
  fun_induction words y with
  | case1 y h => simp
  | case2 y c rest h ih =>
    have hsuf : c :: rest <:+ y := by rw [← h]; exact List.dropWhile_suffix _
    have hm' := markerFree_of_suffix hsuf hm
    intro v hv
    rcases List.mem_cons.1 hv with rfl | hv
    · have hsplit : c :: rest = (c :: rest.takeWhile (!isBlank ·)) ++ rest.dropWhile (!isBlank ·) := by
        simp
      exact markerFree_left_of_append (hsplit ▸ hm')
    · exact ih (markerFree_of_suffix ((List.dropWhile_suffix _).trans (List.suffix_cons _ _)) hm') v hv

/-! ## Quotes -/

/-- Where two texts meet at a seam, their quotes lie in `//` comments if those of each do. -/
theorem quotesInLineComments_append (m : Mode) {a b : List Char} (h : Seam a b) :
    quotesInLineComments m (a ++ b) =
      (quotesInLineComments m a && quotesInLineComments (scan m a).2 b) := by
  simp [quotesInLineComments, scan_append m a b h, List.all_append]

theorem quotesInLineComments_of_not_mem {m : Mode} {cs : List Char} (h : '"' ∉ cs) :
    quotesInLineComments m cs = true := by
  simp only [quotesInLineComments, List.all_eq_true, Bool.or_eq_true, bne_iff_ne, ne_eq]
  intro p hp
  left
  rintro hq
  apply h
  rw [← map_fst_scan m cs, ← hq]
  exact List.mem_map_of_mem hp

/-- A text holds a first quote, with no quote before it. -/
theorem exists_first_quote : ∀ {w : List Char}, '"' ∈ w → ∃ u v, w = u ++ '"' :: v ∧ '"' ∉ u
  | c :: w, h => by
    by_cases hc : c = '"'
    · exact ⟨[], w, by rw [hc]; rfl, by simp⟩
    · have hw : '"' ∈ w := by
        rcases List.mem_cons.1 h with h | h
        · exact absurd h.symm hc
        · exact h
      obtain ⟨u, v, rfl, hu⟩ := exists_first_quote hw
      exact ⟨c :: u, v, rfl, by simp [hu, Ne.symm hc]⟩

/-! ## A text cut at its first word

`words` cuts a text into white space `bl`, a word `w` and the rest `r`, which starts at white
space. The scan, its quote check and the blanked text's words all go through the cut.
-/

theorem Seam.of_blanks {bl : List Char} (hbl : ∀ d ∈ bl, isBlank d = true) (y : List Char) :
    Seam bl y := by
  refine Seam.of_apart (.inl ?_)
  cases hb : bl.getLast? with
  | none => rfl
  | some d => simpa using hbl d (List.mem_of_getLast? hb)

theorem scan_blanks_snd (m : Mode) {bl : List Char} (hbl : ∀ d ∈ bl, isBlank d = true) :
    (scan m bl).2 = m := by
  rw [scan_blanks m hbl]

theorem scan_cut (m : Mode) {bl w r : List Char} (hbl : ∀ d ∈ bl, isBlank d = true)
    (hr0 : r.head?.all isBlank = true) : (scan m (bl ++ (w ++ r))).2 = (scan (scan m w).2 r).2 := by
  rw [scan_append m _ _ (Seam.of_blanks hbl _), scan_blanks_snd m hbl,
    scan_append m _ _ (Seam.of_apart (.inr hr0))]

theorem quotesInLineComments_cut (m : Mode) {bl w r : List Char}
    (hbl : ∀ d ∈ bl, isBlank d = true) (hr0 : r.head?.all isBlank = true) :
    quotesInLineComments m (bl ++ (w ++ r)) =
      (quotesInLineComments m w && quotesInLineComments (scan m w).2 r) := by
  have hq : quotesInLineComments m bl = true :=
    quotesInLineComments_of_not_mem (quote_not_mem_of_blanks hbl)
  rw [quotesInLineComments_append m (Seam.of_blanks hbl _), scan_blanks_snd m hbl, hq,
    Bool.true_and, quotesInLineComments_append m (Seam.of_apart (.inr hr0))]

/-- The blanked text's words are the blanked word's, then those of the rest blanked from where
the word leaves the scan. -/
theorem words_blank_cut (m : Mode) {bl w r : List Char} (hbl : ∀ d ∈ bl, isBlank d = true)
    (hr0 : r.head?.all isBlank = true) :
    words (blank m (bl ++ (w ++ r))) = words (blank m w) ++ words (blank (scan m w).2 r) := by
  rw [blank_append m (Seam.of_blanks hbl _), scan_blanks_snd m hbl,
    words_blanks_append (blank_blanks m hbl), blank_append m (Seam.of_apart (.inr hr0)),
    words_append _ _ (.inr (head?_blank_of_blank _ hr0))]

/-! ## A word that runs into a `//` comment -/

/-- A block comment the scan leaves for a `//` comment settles the lexer's resumption before the
text ends. -/
theorem resumesClean_append_of_line {u : List Char} (h : (scan .block u).2 = .line)
    (s : List Char) : resumesClean (u ++ s) = resumesClean u := by
  fun_induction resumesClean u with
  | case1 rest ih =>
    have hslash : '/' = '*' → ∀ x : List Char, ('*' :: x).head? ≠ some '/' :=
      fun h => absurd h (by decide)
    cases rest with
    | nil =>
      rw [scan_block_cons (hslash · []), scan_block_cons (by simp)] at h
      simp at h
    | cons d t =>
      by_cases hd : d = '/'
      · subst hd
        rfl
      · have hstar : '*' = '*' → (d :: t).head? ≠ some '/' := by simpa using hd
        rw [scan_block_cons (hslash · _), scan_block_cons hstar] at h
        rw [List.cons_append, List.cons_append, resumesClean_open, ih h]
        rfl
  | case2 u hne =>
    -- the comment closes after two characters at least, and these are no `/*`
    rcases u with _ | ⟨a, _ | ⟨b, t⟩⟩
    · simp at h
    · rw [scan_block_cons (by simp)] at h
      simp at h
    · have hne' : ∀ r, a :: b :: (t ++ s) = '/' :: '*' :: r → False := by
        intro r hr
        simp only [List.cons.injEq] at hr
        obtain ⟨rfl, rfl, -⟩ := hr
        exact hne t rfl
      rw [List.cons_append, List.cons_append, resumesClean.eq_2 _ hne']

/-- What follows a `//` comment leaves the lexer's clean resumptions as they are. -/
theorem opensClean_append_of_line {m : Mode} {u : List Char} (h : (scan m u).2 = .line)
    (s : List Char) : opensClean m (u ++ s) = opensClean m u := by
  fun_induction scan m u with
  | case1 m => subst h; simp
  | case2 rest r ih =>
    rw [List.cons_append, List.cons_append, opensClean_code_open, opensClean_code_open,
      resumesClean_append_of_line h, ih h]
  | case3 rest r ih => rfl
  | case4 c rest h1 h2 r ih =>
    have hne : rest ≠ [] := by rintro rfl; simp [r] at h
    have hc := startsNoMarker_of_cases h1 h2
    rw [List.cons_append, opensClean_code_cons (by rwa [List.head?_append_of_ne_nil _ hne]),
      opensClean_code_cons hc, ih h]
  | case5 rest r ih =>
    rw [List.cons_append, List.cons_append, opensClean_block_close, opensClean_block_close, ih h]
  | case6 c rest h1 r ih =>
    have hne : rest ≠ [] := by rintro rfl; simp [r] at h
    have hc := startsNoClose_of_cases h1
    rw [List.cons_append, opensClean_block_cons (by rwa [List.head?_append_of_ne_nil _ hne]),
      opensClean_block_cons hc, ih h]
  | case7 c rest r ih => simp

/-- What follows a `//` comment is blanked to spaces. -/
theorem blank_append_of_line {m : Mode} {u : List Char} (h : (scan m u).2 = .line)
    (s : List Char) : blank m (u ++ s) = blank m u ++ List.replicate s.length ' ' := by
  simp [blank, scan_append_of_line h s, blankChar, Function.comp_def, List.map_const']

theorem words_blank_append_of_line {m : Mode} {u : List Char} (h : (scan m u).2 = .line)
    (s : List Char) : words (blank m (u ++ s)) = words (blank m u) := by
  rw [blank_append_of_line h, words_append _ _ (.inr ?_), words_eq_nil isBlank_of_mem_replicate,
    List.append_nil]
  cases s <;> simp [List.replicate_succ, isBlank_space]

/-- A text the scan leaves in a `//` comment holds a comment marker. -/
theorem markerFree_eq_false_of_line {m : Mode} {u : List Char} (h : (scan m u).2 = .line)
    (hm : m ≠ .line) : markerFree u = false := by
  obtain ⟨p, q, rfl⟩ := exists_lineComment_of_scan h hm
  cases hf : markerFree (p ++ '/' :: '/' :: q) with
  | false => rfl
  | true =>
    have := markerFree_of_suffix (List.suffix_append p _) hf
    simp [markerFree] at this

/-- **A word reads as its part up to a `//` comment.** Whatever follows the comment's start, the
word is readable exactly when its part up to there is. -/
theorem wordReadable_append_of_line {m : Mode} {u : List Char} (hm : m ≠ .line)
    (h : (scan m u).2 = .line) (s : List Char) : wordReadable m (u ++ s) = wordReadable m u := by
  have hus : (scan m (u ++ s)).2 = .line := by rw [scan_append_of_line h]
  -- blanking changes a word that holds a `//` comment
  have hchanged : ∀ {x : List Char}, (scan m x).2 = .line → (blank m x == x) = false := by
    intro x hx
    rw [beq_eq_false_iff_ne]
    intro he
    have := markerFree_blank m x
    rw [he, markerFree_eq_false_of_line hx hm] at this
    cases this
  have hres : (m != .block || resumesClean (u ++ s)) = (m != .block || resumesClean u) := by
    cases m with
    | code => rfl
    | block => rw [resumesClean_append_of_line h]
    | line => exact absurd rfl hm
  simp only [wordReadable, hres, opensClean_append_of_line h, words_blank_append_of_line h,
    hchanged h, hchanged hus]

end Comments

namespace Lexer

open Comments

/-! ## Words -/

/-- **A word that opens a `//` comment ends what the lexer reads.** When the first word `u` of a
text, after white space `bl`, holds no quote and leaves the scan in a `//` comment, the lexer
reads that word, run into whatever cutting string literals leaves after it, and stops there; and
blanking removes everything after the word's comment, so the two readings agree. -/
theorem scanWords_blank_of_line (st : State) (m : Mode) (hst : st.inComment = (m == .block))
    (hl : m ≠ .line) {bl u : List Char} (s : List Char) (hbl : ∀ d ∈ bl, isBlank d = true)
    (hu : ∀ d ∈ u, isBlank d = false) (hqu : '"' ∉ u) (hur : wordReadable m u = true)
    (hline : (scan m u).2 = .line) :
    scanWords { st with inComment := false } (words (blank m (bl ++ (u ++ s)))) =
        ((scanWords st (words (stripLiterals (bl ++ (u ++ s))))).1,
          { (scanWords st (words (stripLiterals (bl ++ (u ++ s))))).2 with inComment := false }) ∧
      (scanWords st (words (stripLiterals (bl ++ (u ++ s))))).2.inComment =
        ((scan m (bl ++ (u ++ s))).2 == .block) := by
  have hune : u ≠ [] := by rintro rfl; exact hl hline
  have hblank : words (blank m (bl ++ (u ++ s))) = words (blank m u) := by
    rw [blank_append m (Seam.of_blanks hbl _), scan_blanks_snd m hbl,
      words_blanks_append (blank_blanks m hbl), words_blank_append_of_line hline]
  have hscan : (scan m (bl ++ (u ++ s))).2 = .line := by
    rw [scan_append m _ _ (Seam.of_blanks hbl _), scan_blanks_snd m hbl, scan_append_of_line hline]
  have hstrip : stripLiterals (bl ++ (u ++ s)) = bl ++ (u ++ stripLiterals s) := by
    rw [← List.append_assoc,
      stripLiterals_append (by simp [quote_not_mem_of_blanks hbl, hqu]), List.append_assoc]
  rw [hblank, hscan, hstrip]
  generalize stripLiterals s = S
  obtain ⟨c', u', rfl⟩ := List.exists_cons_of_ne_nil hune
  have hu'nb : ∀ d ∈ u', (!isBlank d) = true := fun d hd => by simpa using hu d (by simp [hd])
  rw [words_blanks_append hbl, List.cons_append, words_cons_word (hu c' (by simp)),
    List.takeWhile_append_of_pos hu'nb, List.dropWhile_append_of_pos hu'nb, ← List.cons_append,
    ← words_blank_append_of_line hline (S.takeWhile (!isBlank ·))]
  -- the word the lexer reads is `u` running into the cut text, readable as `u` is
  have hUr : wordReadable m ((c' :: u') ++ S.takeWhile (!isBlank ·)) = true := by
    rwa [wordReadable_append_of_line hl hline]
  have hUnb : ∀ d ∈ (c' :: u') ++ S.takeWhile (!isBlank ·), isBlank d = false := by
    intro d hd
    rcases List.mem_append.1 hd with hd | hd
    · exact hu d hd
    · simpa using List.mem_takeWhile_imp hd
  obtain ⟨hW1, hW2, hW3⟩ := scanWord_blank st m hst hl (by simp) hUnb hUr
  have hUline : (scan m ((c' :: u') ++ S.takeWhile (!isBlank ·))).2 = .line := by
    rw [scan_append_of_line hline]
  rw [hW1, scanWords_cons_lineComment (hW3.2 hUline)]
  exact ⟨rfl, hW2.trans (by rw [hUline])⟩

/-- **The words of code read as the words of its blanked code.** From mode `m`, with the comment
flag to match, the lexer reads the words of a text with its string literals cut out as it reads
the words of the blanked text from the flag cleared, when the text's quotes lie in `//` comments
and its words are readable; and it ends with the scan's comment flag. -/
theorem scanWords_blank (x : List Char) (st : State) (m : Mode)
    (hst : st.inComment = (m == .block)) (hl : m ≠ .line) (hq : quotesInLineComments m x = true)
    (hr : wordsReadable m (words x) = true) :
    scanWords { st with inComment := false } (words (blank m x)) =
        ((scanWords st (words (stripLiterals x))).1,
          { (scanWords st (words (stripLiterals x))).2 with inComment := false }) ∧
      (scanWords st (words (stripLiterals x))).2.inComment = ((scan m x).2 == .block) := by
  fun_induction words x generalizing st m with
  | case1 x h =>
    have hblank : ∀ c ∈ x, isBlank c = true := by simpa using List.dropWhile_eq_nil_iff.1 h
    rw [stripLiterals_of_no_quote (quote_not_mem_of_blanks hblank), words_eq_nil hblank,
      words_eq_nil (blank_blanks m hblank), scan_blanks m hblank]
    exact ⟨rfl, hst⟩
  | case2 x c rest h ih =>
    -- `x` is white space `bl`, the first word `w`, and the text `r` after it, at white space
    obtain ⟨hx, hbl, hwnb, hr0⟩ := words_cut h
    have hwne : c :: rest.takeWhile (!isBlank ·) ≠ [] := List.cons_ne_nil _ _
    simp only [wordsReadable, Bool.and_eq_true] at hr
    obtain ⟨hwr, hrr⟩ := hr
    generalize x.takeWhile isBlank = bl at hbl hx
    generalize c :: rest.takeWhile (!isBlank ·) = w at hwnb hx hwr hwne hrr
    generalize rest.dropWhile (!isBlank ·) = r at hr0 hx hrr ih
    subst hx
    rw [quotesInLineComments_cut m hbl hr0, Bool.and_eq_true] at hq
    obtain ⟨hqw, hqr⟩ := hq
    by_cases hqw' : '"' ∈ w
    · -- the first quote is in this word, inside its `//` comment: the lexer stops in this word
      obtain ⟨u, v, rfl, hu⟩ := exists_first_quote hqw'
      have hline : (scan m u).2 = .line := scan_line_of_quote hqw
      rw [List.append_assoc]
      exact scanWords_blank_of_line st m hst hl _ hbl (fun d hd => hwnb d (by simp [hd])) hu
        (by rwa [wordReadable_append_of_line hl hline] at hwr) hline
    by_cases hline : (scan m w).2 = .line
    · -- the word holds no quote and opens a `//` comment: the lexer stops after it
      exact scanWords_blank_of_line st m hst hl r hbl hwnb hqw' hwr hline
    -- otherwise the word is read as it is, and the lexer goes on after it from the state it leaves
    have hsplit := (scanWords_append_of_markerFree { st with inComment := false } rfl
      (words (blank m w)) (words (blank (scan m w).2 r))
      (markerFree_of_mem_words _ (markerFree_blank m w))).1
    rw [words_blank_cut m hbl hr0, hsplit, scan_cut m hbl hr0]
    have hstrip : stripLiterals (bl ++ (w ++ r)) = bl ++ (w ++ stripLiterals r) := by
      rw [← List.append_assoc,
        stripLiterals_append (by simp [quote_not_mem_of_blanks hbl, hqw']), List.append_assoc]
    obtain ⟨c', w', rfl⟩ := List.exists_cons_of_ne_nil hwne
    have hw'nb : ∀ d ∈ w', isBlank d = false := fun d hd => hwnb d (List.mem_cons_of_mem _ hd)
    rw [hstrip, words_blanks_append hbl, words_word_append (hwnb c' (List.mem_cons_self ..)) hw'nb
      (stripLiterals_head_blank hr0)]
    obtain ⟨hW1, hW2, hW3⟩ := scanWord_blank st m hst hl (List.cons_ne_nil _ _) hwnb hwr
    have hflow : (scanWord st (c' :: w')).2.2 = .next := by
      cases hf : (scanWord st (c' :: w')).2.2 with
      | lineComment => exact absurd (hW3.1 hf) hline
      | next => rfl
    obtain ⟨i1, i2⟩ := ih _ _ hW2 hline hqr hrr
    rw [hW1]
    dsimp only
    rw [scanWords_cons_next hflow, i1]
    exact ⟨rfl, i2⟩

/-! ## Lines -/

theorem scanWords_inString_false {st : State} (hs : st.inString = false) (ws : List (List Char)) :
    (scanWords st ws).2.inString = false :=
  (scanWords_inString_eq st ws).trans hs

/-- A line whose quotes all lie in `//` comments opens no multiline string. -/
theorem afterString_of_quotes {st : State} (hs : st.inString = false) {x : List Char}
    (h : quotesInLineComments .code x = true) : afterString st x = (some x, st) := by
  have hopen : multilineOpening? x = none := by
    unfold multilineOpening?
    cases hb : breakOn? tripleQuote x with
    | none => rfl
    | some p =>
      -- the quote of the `"""` lies in a `//` comment, which starts before it
      obtain ⟨before, after⟩ := p
      have hx : x = before ++ '"' :: ('"' :: '"' :: after) := by
        rw [breakOn?_eq_some hb]
        simp [tripleQuote]
      rw [hx] at h
      obtain ⟨p, q, rfl⟩ := exists_lineComment_of_scan (scan_line_of_quote h) (by simp)
      have hc : occursIn lineCommentMark (p ++ '/' :: '/' :: q) = true := by
        simpa [lineCommentMark] using occursIn_append lineCommentMark p q
      simp [hc]
  simp [afterString, hs, hopen]

/-- Outside comments and multiline strings, a line whose quotes all lie in `//` comments is read
word by word with its string literals cut out. -/
theorem scanLine_of_quotes {st : State} (hc : st.inComment = false) (hs : st.inString = false)
    {x : List Char} (h : quotesInLineComments .code x = true) :
    scanLine st x = (demoteOpen (scanWords st (words (stripLiterals x))).1,
      (scanWords st (words (stripLiterals x))).2) := by
  simp only [scanLine, codeOf, hc, Bool.false_eq_true, if_false, afterString_of_quotes hs h]

theorem scanLine_of_not_mem {st : State} (hc : st.inComment = false) (hs : st.inString = false)
    {y : List Char} (h : '"' ∉ y) :
    scanLine st y = (demoteOpen (scanWords st (words y)).1, (scanWords st (words y)).2) := by
  rw [scanLine_of_quotes hc hs (quotesInLineComments_of_not_mem h), stripLiterals_of_no_quote h]

/-- A line that starts in a block comment closing on it is read from after the `*/`. -/
theorem scanLine_close {st : State} (hc : st.inComment = true) {line pre after : List Char}
    (h : breakOn? blockCloseMark line = some (pre, after)) :
    scanLine st line = scanLine { st with inComment := false } after := by
  simp only [scanLine, codeOf, hc, if_true, h, Bool.false_eq_true, if_false]

theorem scanLine_unclosed {st : State} (hc : st.inComment = true) {line : List Char}
    (h : breakOn? blockCloseMark line = none) : scanLine st line = ([], st) := by
  simp only [scanLine, codeOf, hc, if_true, h]

/-- **Code reads as its blanked code.** Outside comments and multiline strings, the lexer reads
readable code as it reads the code with its comments blanked: the same tokens, and the same state
but for the comment flag. -/
theorem scanLine_blank_code {st : State} (hc : st.inComment = false) (hs : st.inString = false)
    {x : List Char} (hx : codeReadable x = true) :
    scanLine st (blank .code x) = ((scanLine st x).1, { (scanLine st x).2 with inComment := false }) ∧
      (scanLine st x).2.inComment = ((scan .code x).2 == .block) ∧
      (scanLine st x).2.inString = false := by
  simp only [codeReadable, Bool.and_eq_true] at hx
  obtain ⟨hq, hr⟩ := hx
  obtain ⟨h1, h2⟩ := scanWords_blank x st .code (hc.trans (by decide)) (by simp) hq hr
  rw [State.with_inComment_of_eq hc] at h1
  rw [scanLine_of_not_mem hc hs (quote_not_mem_blank hq), scanLine_of_quotes hc hs hq, h1]
  exact ⟨rfl, h2, scanWords_inString_false hs _⟩

/-- **A line reads as its blanked line.** From mode `m`, with the comment flag to match and
outside multiline strings, the lexer reads a line whose code is readable as it reads the blanked
line from the flag cleared: the same tokens, and the same state but for the comment flag, which
it leaves as the scan does. -/
theorem scanLine_blank (st : State) (m : Mode) (line : List Char)
    (hst : st.inComment = (m == .block)) (hs : st.inString = false) (hl : m ≠ .line)
    (hr : (codeAfter m line).all codeReadable = true) :
    scanLine { st with inComment := false } (blank m line) =
        ((scanLine st line).1, { (scanLine st line).2 with inComment := false }) ∧
      (scanLine st line).2.inComment = ((scan m line).2 == .block) ∧
      (scanLine st line).2.inString = false := by
  cases m with
  | code =>
    have hc : st.inComment = false := hst.trans (by decide)
    rw [State.with_inComment_of_eq hc]
    exact scanLine_blank_code hc hs (by simpa [codeAfter] using hr)
  | block =>
    -- past the `*/`, the lexer reads on with the comment flag cleared
    have hc : ({ st with inComment := false } : State).inComment = false := rfl
    cases hb : breakOn? blockCloseMark line with
    | none =>
      -- the whole line is comment
      have hq : '"' ∉ List.replicate line.length ' ' := by simp
      rw [scanLine_unclosed hst hb, blank_block_of_breakOn_none hb, scan_block_of_breakOn_none hb,
        scanLine_of_not_mem hc hs hq, words_eq_nil isBlank_of_mem_replicate]
      exact ⟨rfl, hst, hs⟩
    | some p =>
      -- the line's code follows the `*/`, after as many spaces as the comment had characters
      obtain ⟨pre, after⟩ := p
      have hx : codeReadable after = true := by simpa [codeAfter, hb] using hr
      obtain ⟨h1, h2, h3⟩ := scanLine_blank_code hc hs hx
      have hq := quote_not_mem_blank (m := .code) (by simp [codeReadable] at hx; exact hx.1)
      have hq' : '"' ∉ List.replicate (pre.length + 2) ' ' ++ blank .code after := by simp [hq]
      rw [scanLine_close hst hb, blank_block_of_breakOn hb, scan_block_of_breakOn hb,
        scanLine_of_not_mem hc hs hq', words_blanks_append isBlank_of_mem_replicate,
        ← scanLine_of_not_mem hc hs hq, h1]
      exact ⟨rfl, h2, h3⟩
  | line => exact absurd rfl hl

/-- **Lines read as their blanked lines.** From mode `m`, with the comment flag to match and
outside multiline strings, the lexer reads readable lines as it reads them with their comments
blanked, from the flag cleared: line by line the same tokens, and the same state but for the
comment flag. -/
theorem scanLines_blank : ∀ (lines : List (List Char)) (st : State) (m : Mode),
    st.inComment = (m == .block) → st.inString = false → m ≠ .line →
    linesReadable m lines = true →
    List.Forall₂ (fun r r' => r'.1 = r.1 ∧ r'.2 = { r.2 with inComment := false })
      (scanLines st lines) (scanLines { st with inComment := false } (blankLines m lines))
  | [], _, _, _, _, _, _ => .nil
  | l :: ls, st, m, hst, hs, hl, h => by
    simp only [linesReadable, Bool.and_eq_true] at h
    obtain ⟨e1, e2, e3⟩ := scanLine_blank st m l hst hs hl h.1
    simp only [scanLines, blankLines]
    rw [e1]
    refine .cons ⟨rfl, rfl⟩ ?_
    exact scanLines_blank ls _ _ (by rw [e2, Mode.next_beq_block]) e3 (Mode.next_ne_line _) h.2

end Lexer

open Comments in
/-- **Comments read as white space.** The lexer reads a buffer, from the start of a file, as it
reads the buffer with its comments blanked: the same tokens on every line, and the same state
after every line but for the comment flag, which the blanked buffer never sets. This holds where
the code of every line has its quotes in `//` comments, and the lexer resumes cleanly in the
comments it skips and reads no parenthesised keyword out of a word a comment touches
(`Comments.linesReadable`). -/
theorem comments_lex_as_blanks (lines : List (List Char)) (h : linesReadable .code lines = true) :
    List.Forall₂ (fun r r' => r'.1 = r.1 ∧ r'.2 = { r.2 with inComment := false })
      (Lexer.scanLines .initial lines) (Lexer.scanLines .initial (blankLines .code lines)) :=
  Lexer.scanLines_blank lines .initial .code rfl rfl (by simp) h

/-- A block comment over two lines, with a quote in it and a `(` the lexer would count, a quote in
a `//` comment, a comment inside a word, and a parenthesised keyword as a word of its own. -/
theorem commented_struct_lexes_as_blanked :
    let lines := ["public func f() /* open (".toList,
      "  still \"quoted\" */ var x = 1 // \"q\"".toList, "  let/*c*/z = 2".toList,
      "  private(set) var y = 3".toList]
    Comments.linesReadable .code lines = true ∧
      List.Forall₂ (fun r r' => r'.1 = r.1 ∧ r'.2 = { r.2 with inComment := false })
        (Lexer.scanLines .initial lines) (Lexer.scanLines .initial (Comments.blankLines .code lines)) :=
  ⟨by cbv, comments_lex_as_blanks _ (by cbv)⟩

/-- Three lines with every quote inside a comment that the lexer reads otherwise than their
blanked copies. Quotes in two block comments pair up into a string literal that the lexer cuts out
before it looks for comments, and the code between the comments goes with it: the blanked line
reads `func` where the line reads nothing. A `/*/` inside a block comment: the scan reads its `*/`
as the comment's end, while the lexer, which looks for a new `/*` first, opens the comment again,
so the code between is lost to the lexer but read from the blanked line. And a comment glued to a
parenthesised keyword: the lexer reads the word with the comment in it as `private`, a name and a
comment, while the blanked word is the keyword `private(set)`. The last two lines do not resume
cleanly (`Comments.linesReadable` fails). -/
theorem blanked_lines_read_otherwise :
    (let line := "/* \" */ func /* \" */".toList
     (Comments.scan .code line).1.all (fun p => p.1 != '"' || p.2 != .code) = true ∧
        (Lexer.scanLines .initial [line]).map Prod.fst = [[]] ∧
        (Lexer.scanLines .initial (Comments.blankLines .code [line])).map Prod.fst =
          [[.keyword .func]]) ∧
    (let line := "/* a /*/ b */ c".toList
     (Comments.scan .code line).1.all (fun p => p.1 != '"' || p.2 != .code) = true ∧
        Comments.linesReadable .code [line] = false ∧
        (Lexer.scanLines .initial [line]).map Prod.fst = [[.identifier "c"]] ∧
        (Lexer.scanLines .initial (Comments.blankLines .code [line])).map Prod.fst =
          [[.identifier "b", .identifier "c"]]) ∧
    (let line := "private(set)/*c*/ var x".toList
     (Comments.scan .code line).1.all (fun p => p.1 != '"' || p.2 != .code) = true ∧
        Comments.linesReadable .code [line] = false ∧
        (Lexer.scanLines .initial [line]).map Prod.fst =
          [[.keyword .private, .identifier "set", .keyword .var, .identifier "x"]] ∧
        (Lexer.scanLines .initial (Comments.blankLines .code [line])).map Prod.fst =
          [[.keyword .privateSet, .keyword .var, .identifier "x"]]) :=
  ⟨⟨by cbv, by cbv, by cbv⟩, ⟨by cbv, by cbv, by cbv, by cbv⟩, ⟨by cbv, by cbv, by cbv, by cbv⟩⟩

end SwiftAccess
