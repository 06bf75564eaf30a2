import SwiftAccess.Proofs.EditOffsets
import SwiftAccess.Lexer.Offsets

/-!
# The lexer's offsets are character boundaries

The program lexes a line through byte offsets (`Lexer.Offsets`), and each slice it takes stops it
unless the offset is a character boundary. This module shows that no slice ever stops it: the
offsets it finds with `str::find` are those of the markers among the characters
(`afterFirst_eq`, `stringOpener_eq`), and the loop over a word steps past whole characters. So the
program computes in bytes what `Lexer.scanLine` computes in characters, and the one way it stops
is the count of open parentheses leaving its machine word, exactly when `Lexer.scanLine` records
an overflow (`analyse_eq`).

The loop of `read_by_characters` goes on only after a pass that strips a leading `/*`, jumps past a
`*/`, consumes what a token pattern matched, or skips one character (`readPass_next`); each of
these shortens the text, so the loop ends.

The unbounded count of `Lexer.State` keeps its overflow once set (`scanChars_overflow` and the
lemmas after it), which is what lets a run of the program that stops at the first overflow be
compared with a run of `Lexer.scanLine` that goes on to the end of the line.
-/

namespace SwiftAccess.Lexer

open Text

/-! ## The overflow flag -/

@[simp] theorem State.record_overflow (st : State) (t : Token) :
    (st.record t).2.overflow = st.overflow := by
  simp only [State.record]
  split <;> split <;> rfl

theorem State.overflow_of_record {st st' : State} {t t' : Token} (hr : st.record t = (t', st')) :
    st'.overflow = st.overflow := by
  rw [← State.record_overflow st t, hr]

theorem State.skip_overflow (st : State) (c : Char) :
    (st.skip c).overflow = (st.overflow || decide (c = '(' ∧ depthLimit ≤ st.parenDepth)) := by
  unfold State.skip
  by_cases h : c = '('
  · simp [h]
  · by_cases h' : c = ')' <;> simp [h, h']

/-- Once the count has overflowed, it stays overflowed through the rest of a word. -/
theorem scanChars_overflow {st : State} {cs : List Char} (h : st.overflow = true) :
    (scanChars st cs).2.1.overflow = true := by
  fun_induction scanChars st cs with
  | case1 => exact h
  | case2 st rest ih => exact ih h
  | case3 st c rest _ _ _ after _ ih => exact ih h
  | case4 => exact h
  | case5 => exact h
  | case6 st c rest _ _ _ t after _ t' st' hr ts st'' flow hs ih =>
    simpa [hs] using ih ((State.overflow_of_record hr).trans h)
  | case7 st c rest _ _ _ _ ih => exact ih (by simp [State.skip_overflow, h])

theorem scanWord_overflow {st : State} {w : List Char} (h : st.overflow = true) :
    (scanWord st w).2.1.overflow = true := by
  unfold scanWord
  split
  · exact scanChars_overflow h
  · split
    · simpa using h
    · exact scanChars_overflow h

theorem scanWords_overflow {st : State} {ws : List (List Char)} (h : st.overflow = true) :
    (scanWords st ws).2.overflow = true := by
  induction ws generalizing st with
  | nil => exact h
  | cons w ws ih =>
    have hw := scanWord_overflow (w := w) h
    simp only [scanWords]
    split
    · simpa using hw
    · exact ih hw

theorem afterString_overflow (st : State) (line : List Char) :
    (afterString st line).2.overflow = st.overflow := by
  unfold afterString
  split
  · split <;> rfl
  · split <;> rfl

theorem codeOf_overflow (st : State) (line : List Char) :
    (codeOf st line).2.overflow = st.overflow := by
  unfold codeOf
  split
  · split
    · exact afterString_overflow _ _
    · rfl
  · exact afterString_overflow _ _

end SwiftAccess.Lexer

namespace SwiftAccess.Lexer.Offsets

open Text

/-! ## Markers -/

/-- `str::find` of a marker and the slice past it give the text after the marker's first
occurrence among the characters. -/
theorem afterFirst_eq {mark : List Char} (hm : mark ≠ []) (text : List Char) :
    afterFirst mark text = .ok ((breakOn? mark text).map Prod.snd) := by
  unfold afterFirst
  rw [firstMatch_utf8 hm]
  cases hb : breakOn? mark text with
  | none => rfl
  | some r =>
    obtain ⟨b, a⟩ := r
    obtain rfl := breakOn?_eq_some hb
    simp [Functor.map, Except.map]

/-- The first `//` of a line comes before a `"""` exactly when one occurs in the text before it. -/
theorem firstMatch_lineComment_lt (before after : List Char) :
    (firstMatch (utf8 lineCommentMark) (utf8 (before ++ tripleQuote ++ after))).any
      (· < (utf8 before).length) = occursIn lineCommentMark before := by
  cases hc : occursIn lineCommentMark before with
  | false =>
    -- every `//` of the line lies past the first quote
    have hq : '"' ∉ lineCommentMark := by decide
    have hl : before ++ tripleQuote ++ after = before ++ '"' :: (['"', '"'] ++ after) := by
      simp [tripleQuote]
    rw [hl, firstMatch_utf8 (by simp [lineCommentMark]), breakOn?_append_cons_of_not_mem hq _ hc]
    cases breakOn? lineCommentMark (['"', '"'] ++ after) <;> simp
  | true =>
    obtain ⟨⟨b, a⟩, hb⟩ := Option.isSome_iff_exists.1 hc
    obtain rfl := breakOn?_eq_some hb
    obtain ⟨i, hi, hle⟩ := exists_firstMatch_le (utf8 (a ++ tripleQuote ++ after)) (utf8 b)
    have hmark : (utf8 lineCommentMark).length = 2 := rfl
    simp only [List.append_assoc, utf8_append] at hi ⊢
    rw [hi]
    simp only [List.length_append, Option.any_some, decide_eq_true_eq]
    omega

/-- `multiline_string_opener` reports the byte offset of the opener that `multilineOpening?`
finds among the characters. -/
theorem stringOpener_eq (line : List Char) :
    stringOpener line = .ok ((multilineOpening? line).map fun before => (utf8 before).length) := by
  unfold stringOpener
  rw [firstMatch_utf8 (by simp [tripleQuote])]
  cases hb : breakOn? tripleQuote line with
  | none => rw [multilineOpening?_of_breakOn?_none hb]; rfl
  | some r =>
    obtain ⟨before, after⟩ := r
    rw [multilineOpening?_of_breakOn? hb]
    obtain rfl := breakOn?_eq_some hb
    simp only [Option.map_some, firstMatch_lineComment_lt]
    cases occursIn lineCommentMark before
    · simp only [Bool.false_eq_true, if_false, List.append_assoc, sliceFrom_utf8_length_add, bind,
        Except.bind, pure, Except.pure]
      cases after.all isBlank <;> rfl
    · rfl

/-! ## One pass of the loop

Each lemma reads one branch of `readPass` off the branch of `scanChars` that handles the same text;
the hypothesis `hb`, that the text does not start with `/*`, is the one the recursion of
`scanChars` states for every branch but its second. -/

section Pass

variable {st : State} {c : Char} {cs : List Char}

theorem not_blockOpen (hb : ∀ r, c = '/' → cs = '*' :: r → False) :
    ∀ after, c :: cs = '/' :: '*' :: after → False := fun after e =>
  hb after (List.cons.inj e).1 (List.cons.inj e).2

theorem lineCommentMark_isPrefixOf_cons :
    lineCommentMark.isPrefixOf (c :: cs) = decide (c = '/' ∧ cs.head? = some '/') := by
  cases cs with
  | nil => simp [lineCommentMark, List.isPrefixOf]
  | cons d ds => simp [lineCommentMark, List.isPrefixOf, beq_eq_decide, eq_comm]

/-- The count of a character that starts no token, while no overflow has been recorded: the
program stops where `State.skip` records one. -/
theorem countParen_some (ho : st.overflow = false) :
    countParen st (some c) =
      if c = '(' ∧ depthLimit ≤ st.parenDepth then .error .addOverflow else .ok (st.skip c) := by
  by_cases hl : c = '('
  · subst hl
    by_cases hd : depthLimit ≤ st.parenDepth
    · simp [countParen, hd]; rfl
    · simp [countParen, State.skip, hd, ho]; rfl
  · by_cases hr : c = ')'
    · subst hr
      simp [countParen, State.skip]; rfl
    · simp [countParen, State.skip, hl, hr]; rfl

theorem readPass_blockOpen (after : List Char) :
    readPass st ('/' :: '*' :: after) = .ok (.next none { st with inComment := true } after) := rfl

theorem readPass_close (hb : ∀ r, c = '/' → cs = '*' :: r → False) (hc : st.inComment = true)
    {x after : List Char} (h : breakOn? blockCloseMark (c :: cs) = some (x, after)) :
    readPass st (c :: cs) = .ok (.next none { st with inComment := false } after) := by
  rw [readPass.eq_2 st _ (not_blockOpen hb), if_pos hc, afterFirst_eq (by simp [blockCloseMark]),
    h]
  rfl

theorem readPass_unclosed (hb : ∀ r, c = '/' → cs = '*' :: r → False) (hc : st.inComment = true)
    (h : breakOn? blockCloseMark (c :: cs) = none) :
    readPass st (c :: cs) = .ok (.stop .next) := by
  rw [readPass.eq_2 st _ (not_blockOpen hb), if_pos hc, afterFirst_eq (by simp [blockCloseMark]),
    h]
  rfl

theorem readPass_lineComment (hb : ∀ r, c = '/' → cs = '*' :: r → False)
    (hc : ¬st.inComment = true) (h : c = '/' ∧ cs.head? = some '/') :
    readPass st (c :: cs) = .ok (.stop .lineComment) := by
  rw [readPass.eq_2 st _ (not_blockOpen hb), if_neg hc, lineCommentMark_isPrefixOf_cons,
    decide_eq_true h, if_pos rfl]
  rfl

theorem readPass_token (hb : ∀ r, c = '/' → cs = '*' :: r → False) (hc : ¬st.inComment = true)
    (hl : ¬(c = '/' ∧ cs.head? = some '/')) {t t' : Token} {st' : State} {after : List Char}
    (h : readToken? (c :: cs) = some (t, after)) (hr : st.record t = (t', st')) :
    readPass st (c :: cs) = .ok (.next (some t') st' after) := by
  obtain ⟨x, hx⟩ := readToken?_suffix h
  have hk : readToken (c :: cs) = some (t, (utf8 x).length) := by
    rw [readToken, h, Option.map_some, ← hx, utf8_append, List.length_append, Nat.add_sub_cancel]
  rw [readPass.eq_2 st _ (not_blockOpen hb), if_neg hc, lineCommentMark_isPrefixOf_cons,
    decide_eq_false hl, if_neg Bool.false_ne_true, hk]
  dsimp only
  rw [hr, ← hx, sliceFrom_utf8_length]
  rfl

theorem readPass_skip (hb : ∀ r, c = '/' → cs = '*' :: r → False) (hc : ¬st.inComment = true)
    (hl : ¬(c = '/' ∧ cs.head? = some '/')) (h : readToken? (c :: cs) = none) :
    readPass st (c :: cs) = (countParen st (some c)).map fun st' => .next none st' cs := by
  have hs : sliceFrom (c :: cs) c.utf8Size = .ok cs := by
    simpa using sliceFrom_utf8_length [c] cs
  rw [readPass.eq_2 st _ (not_blockOpen hb), if_neg hc, lineCommentMark_isPrefixOf_cons,
    decide_eq_false hl, if_neg Bool.false_ne_true, readToken, h, Option.map_none]
  simp only [List.head?_cons]
  cases countParen st (some c) with
  | error e => rfl
  | ok st' =>
    simp only [bind, Except.bind, hs, pure, Except.pure]
    rfl

/-- Every pass that goes on strips a leading `/*`, jumps past a `*/`, consumes the non-empty text a
token pattern matched, or skips one character. -/
theorem readPass_next {st' : State} {rest rest' : List Char} {t : Option Token}
    (hr : rest ≠ []) (h : readPass st rest = .ok (.next t st' rest')) :
    rest = blockOpenMark ++ rest' ∨ (∃ x, rest = x ++ blockCloseMark ++ rest') ∨
      (∃ tok x, x ≠ [] ∧ rest = x ++ rest' ∧ readToken? rest = some (tok, rest')) ∨
      ∃ c, rest = c :: rest' := by
  obtain ⟨c, cs, rfl⟩ := List.exists_cons_of_ne_nil hr
  by_cases hbo : ∃ r, c = '/' ∧ cs = '*' :: r
  · obtain ⟨r, rfl, rfl⟩ := hbo
    rw [readPass_blockOpen] at h
    cases h
    exact Or.inl rfl
  have hb : ∀ r, c = '/' → cs = '*' :: r → False := fun r h1 h2 => hbo ⟨r, h1, h2⟩
  by_cases hc : st.inComment = true
  · cases hk : breakOn? blockCloseMark (c :: cs) with
    | none =>
      rw [readPass_unclosed hb hc hk] at h
      cases h
    | some r =>
      rw [readPass_close hb hc hk] at h
      cases h
      exact Or.inr (Or.inl ⟨r.1, breakOn?_eq_some hk⟩)
  by_cases hl : c = '/' ∧ cs.head? = some '/'
  · rw [readPass_lineComment hb hc hl] at h
    cases h
  cases hk : readToken? (c :: cs) with
  | some r =>
    obtain ⟨tok, after⟩ := r
    rcases hrec : st.record tok with ⟨t', st''⟩
    rw [readPass_token hb hc hl hk hrec] at h
    cases h
    obtain ⟨x, hx⟩ := readToken?_suffix hk
    have hx0 : x ≠ [] := by
      rintro rfl
      have := readToken?_length hk
      simp [← hx] at this
    exact Or.inr (Or.inr (Or.inl ⟨tok, x, hx0, hx.symm, rfl⟩))
  | none =>
    rw [readPass_skip hb hc hl hk] at h
    cases hp : countParen st (some c) with
    | error e =>
      rw [hp] at h
      cases h
    | ok st0 =>
      rw [hp] at h
      cases h
      exact Or.inr (Or.inr (Or.inr ⟨c, rfl⟩))

end Pass

/-! ## The loop over a word -/

section Loop

variable {st st' : State} {rest rest' : List Char}

theorem readByCharacters_nil (st : State) : readByCharacters st [] = .ok ([], st, .next) := by
  rw [readByCharacters.eq_1, dif_pos rfl]
  rfl

theorem readByCharacters_of_stop (hr : rest ≠ []) {flow : Flow}
    (h : readPass st rest = .ok (.stop flow)) : readByCharacters st rest = .ok ([], st, flow) := by
  rw [readByCharacters.eq_1, dif_neg hr]
  split <;> simp_all
  rfl

theorem readByCharacters_of_error (hr : rest ≠ []) {e : Panic}
    (h : readPass st rest = .error e) : readByCharacters st rest = .error e := by
  rw [readByCharacters.eq_1, dif_neg hr]
  split <;> simp_all
  rfl

theorem readByCharacters_of_next (hr : rest ≠ []) {t : Option Token}
    (h : readPass st rest = .ok (.next t st' rest')) :
    readByCharacters st rest =
      (readByCharacters st' rest').map fun r => (t.toList ++ r.1, r.2) := by
  rw [readByCharacters.eq_1 st rest, dif_neg hr]
  split
  · simp_all
  · simp_all
  · next t0 st0 rest0 h0 =>
    rw [h] at h0
    cases h0
    cases readByCharacters st' rest' <;> rfl

/-- Checking the count of a run commutes with putting a token in front of its tokens. -/
theorem map_prepend_guard (t : Option Token) (r : List Token × State × Flow) :
    (if r.2.1.overflow then .error .addOverflow else .ok r : Except Panic _).map
        (fun r => (t.toList ++ r.1, r.2)) =
      if r.2.1.overflow then .error .addOverflow else .ok (t.toList ++ r.1, r.2) := by
  split <;> rfl

/-- The loop of `read_by_characters` computes in bytes what `scanChars` computes in characters, and
stops only where `scanChars` records an overflow of the count. -/
theorem readByCharacters_eq (ho : st.overflow = false) :
    readByCharacters st rest =
      if (scanChars st rest).2.1.overflow then .error .addOverflow else .ok (scanChars st rest) := by
  -- one case for each branch of `scanChars`, each read off the matching pass of the loop
  fun_induction scanChars st rest with
  | case1 st => rw [readByCharacters_nil, if_neg (by simp [ho])]
  | case2 st after ih =>
    rw [readByCharacters_of_next (List.cons_ne_nil _ _) (readPass_blockOpen after), ih ho,
      map_prepend_guard]
    rfl
  | case3 st c cs hb hc x after h ih =>
    rw [readByCharacters_of_next (List.cons_ne_nil _ _) (readPass_close hb hc h), ih ho,
      map_prepend_guard]
    rfl
  | case4 st c cs hb hc h =>
    rw [readByCharacters_of_stop (List.cons_ne_nil _ _) (readPass_unclosed hb hc h),
      if_neg (by simp [ho])]
  | case5 st c cs hb hc hl =>
    rw [readByCharacters_of_stop (List.cons_ne_nil _ _) (readPass_lineComment hb hc hl),
      if_neg (by simp [ho])]
  | case6 st c cs hb hc hl t after h t' st' hr ts st'' flow hs ih =>
    rw [readByCharacters_of_next (List.cons_ne_nil _ _) (readPass_token hb hc hl h hr),
      ih ((State.overflow_of_record hr).trans ho),
      hs, map_prepend_guard]
    rfl
  | case7 st c cs hb hc hl h ih =>
    -- an opening parenthesis at the limit stops the program and sets the flag for good
    have hpass : readPass st (c :: cs) = _ := readPass_skip hb hc hl h
    rw [countParen_some ho] at hpass
    by_cases hp : c = '(' ∧ depthLimit ≤ st.parenDepth
    · have hov : (scanChars (st.skip c) cs).2.1.overflow = true :=
        scanChars_overflow (by simp [State.skip_overflow, hp])
      rw [if_pos hp] at hpass
      rw [readByCharacters_of_error (List.cons_ne_nil _ _) hpass, if_pos hov]
    · have ho' : (st.skip c).overflow = false := by simp [State.skip_overflow, ho, hp]
      rw [if_neg hp] at hpass
      rw [readByCharacters_of_next (List.cons_ne_nil _ _) hpass, ih ho', map_prepend_guard]
      rfl

end Loop

/-! ## Lines -/

section Line

variable {st : State}

theorem tokenise_eq (ho : st.overflow = false) (word : List Char) :
    tokenise st word =
      if (scanWord st word).2.1.overflow then .error .addOverflow else .ok (scanWord st word) := by
  unfold tokenise scanWord
  by_cases hc : st.inComment = true
  · rw [if_pos hc, if_pos hc]
    exact readByCharacters_eq ho
  · rw [if_neg hc, if_neg hc]
    cases hw : wholeToken? word with
    | none => exact readByCharacters_eq ho
    | some t =>
      rw [if_neg (by simp [ho])]
      rfl

theorem tokeniseWords_eq (ho : st.overflow = false) (ws : List (List Char)) :
    tokeniseWords st ws =
      if (scanWords st ws).2.overflow then .error .addOverflow else .ok (scanWords st ws) := by
  induction ws generalizing st with
  | nil => rw [tokeniseWords, scanWords, if_neg (by simp [ho])]; rfl
  | cons w ws ih =>
    rw [tokeniseWords, scanWords, tokenise_eq ho]
    obtain ⟨ts, st', flow⟩ := scanWord st w
    cases hov : st'.overflow
    · cases flow with
      | lineComment => simp [hov]; rfl
      | next =>
        have hrest := ih hov
        rcases hws : scanWords st' ws with ⟨rest, st''⟩
        rw [hws] at hrest
        simp only [Bool.false_eq_true, if_false, bind, Except.bind, hrest, hws]
        cases st''.overflow <;> rfl
    · -- the word overflows, and the rest of the line keeps the flag
      have hws : (scanWords st' ws).2.overflow = true := scanWords_overflow hov
      cases flow <;> simp [hov, hws] <;> rfl

theorem codeTokens_eq (ho : st.overflow = false) (code : List Char) :
    codeTokens st code =
      if (scanWords st (words (stripLiterals code))).2.overflow then .error .addOverflow
      else .ok (demoteOpen (scanWords st (words (stripLiterals code))).1,
        (scanWords st (words (stripLiterals code))).2) := by
  unfold codeTokens
  rw [tokeniseWords_eq ho]
  split <;> rfl

theorem multilineOpening?_prefix {line before : List Char}
    (h : multilineOpening? line = some before) : before <+: line := by
  unfold multilineOpening? at h
  split at h
  · cases h
  · next b a hb =>
    split at h
    · cases h
    · split at h
      · cases h
        exact ⟨tripleQuote ++ a, by rw [breakOn?_eq_some hb, List.append_assoc]⟩
      · cases h

/-- Past an open block comment, the program lexes what `afterString` leaves of the line. -/
theorem analyseCode_eq (line : List Char) :
    analyseCode st line =
      match afterString st line with
      | (none, st) => .ok ([], st)
      | (some code, st) => codeTokens st code := by
  unfold analyseCode afterString
  by_cases hs : st.inString = true
  · rw [if_pos hs, if_pos hs, afterFirst_eq (by simp [tripleQuote])]
    cases breakOn? tripleQuote line <;> rfl
  · rw [if_neg hs, if_neg hs, stringOpener_eq]
    cases hm : multilineOpening? line with
    | none => rfl
    | some before =>
      -- the code before the opener is sliced off at the opener's offset
      obtain ⟨a, rfl⟩ := multilineOpening?_prefix hm
      simp only [Option.map_some, bind, Except.bind, sliceTo_utf8_length]

/-- `analyse` lexes what `codeOf` leaves of the line. -/
theorem analyse_eq_codeOf (line : List Char) :
    analyse st line =
      match codeOf st line with
      | (none, st) => .ok ([], st)
      | (some code, st) => codeTokens st code := by
  unfold analyse codeOf
  by_cases hc : st.inComment = true
  · rw [if_pos hc, if_pos hc, afterFirst_eq (by simp [blockCloseMark])]
    cases breakOn? blockCloseMark line with
    | none => rfl
    | some r => exact analyseCode_eq r.2
  · rw [if_neg hc, if_neg hc]
    exact analyseCode_eq line

/-- `analyse` computes in bytes what `scanLine` computes in characters, and stops only where
`scanLine` records an overflow of the count: every offset it slices at is a character boundary. -/
theorem analyse_eq (ho : st.overflow = false) (line : List Char) :
    analyse st line =
      if (scanLine st line).2.overflow then .error .addOverflow else .ok (scanLine st line) := by
  rw [analyse_eq_codeOf]
  unfold scanLine
  have hov := codeOf_overflow st line
  rcases hc : codeOf st line with ⟨_ | code, st'⟩ <;> rw [hc] at hov <;> dsimp only at hov ⊢
  · rw [if_neg (by simp [hov, ho])]
  · rw [codeTokens_eq (hov.trans ho)]

end Line

/-! ## The lexer's byte arithmetic -/

/-- The lexer's byte arithmetic is sound, and its one way to stop is the count of open parentheses.
For every text and every state the program can hold: the offsets its searches report are
character boundaries, and the comment and string markers are cut where the lexing in characters
cuts them; each pass of the loop over a word that goes on shortens the text, by a leading `/*`, up
to a `*/`, by what a token pattern matched or by one character; and the text is lexed as a word by
`scanChars` and as a line by `scanLine`, except that the program stops where they record that an
opening parenthesis takes the count past `depthLimit`. -/
theorem lexer_byte_offsets_sound (st : State) (text : List Char) (ho : st.overflow = false) :
    (∀ (mark : List Char) (i : Nat), mark ≠ [] → firstMatch (utf8 mark) (utf8 text) = some i →
      String.Pos.Raw.IsValid (String.ofList text) ⟨i⟩ ∧
        String.Pos.Raw.IsValid (String.ofList text) ⟨i + (utf8 mark).length⟩) ∧
    afterFirst blockCloseMark text = .ok ((breakOn? blockCloseMark text).map Prod.snd) ∧
    afterFirst tripleQuote text = .ok ((breakOn? tripleQuote text).map Prod.snd) ∧
    stringOpener text = .ok ((multilineOpening? text).map fun before => (utf8 before).length) ∧
    (∀ (t : Option Token) (st' : State) (rest : List Char), text ≠ [] →
      readPass st text = .ok (.next t st' rest) →
        rest.length < text.length ∧
          (text = blockOpenMark ++ rest ∨ (∃ x, text = x ++ blockCloseMark ++ rest) ∨
            (∃ tok x, x ≠ [] ∧ text = x ++ rest ∧ readToken? text = some (tok, rest)) ∨
            ∃ c, text = c :: rest)) ∧
    readByCharacters st text =
      (if (scanChars st text).2.1.overflow then .error .addOverflow else .ok (scanChars st text)) ∧
    analyse st text =
      (if (scanLine st text).2.overflow then .error .addOverflow else .ok (scanLine st text)) :=
  ⟨fun _ _ hm h => firstMatch_utf8_isValid hm h, afterFirst_eq (by simp [blockCloseMark]) text,
    afterFirst_eq (by simp [tripleQuote]) text, stringOpener_eq text,
    fun _ _ _ hr h => ⟨readPass_shortens hr h, readPass_next hr h⟩, readByCharacters_eq ho,
    analyse_eq ho text⟩

/-- A comment that closes inside a word, after a character of two bytes. -/
theorem accented_comment_word_lexes :
    analyse {} "/*é*/func".toList = .ok ([.keyword .func], {}) := by
  have h : scanLine {} "/*é*/func".toList = ([.keyword .func], {}) := by cbv
  rw [(lexer_byte_offsets_sound {} "/*é*/func".toList rfl).2.2.2.2.2.2, h]
  rfl

/-- Opening a parenthesis when the count is at `depthLimit` stops the program. -/
theorem open_paren_at_depth_limit_stops :
    analyse { parenDepth := depthLimit } ['('] = .error .addOverflow := by
  rw [analyse_eq rfl]
  cbv

end SwiftAccess.Lexer.Offsets
