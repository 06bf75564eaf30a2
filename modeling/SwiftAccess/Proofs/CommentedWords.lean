import SwiftAccess.Proofs.MarkerFreeScan

/-!
# Words with comments in them

The lexer finds comments with two readings of its own. Inside a block comment it looks for the
first `*/`, as `Comments.scan` does; but wherever it starts reading inside the comment (at a word,
or right after a `/*`) it first skips a `/*` standing there. The scan reads the `*` of that `/*`
as comment text, which can start the `*/` that closes the comment: `/*/` is a whole comment to the
scan and an open one to the lexer. `Comments.resumesClean` and `Comments.opensClean` rule this
out, and under them the lexer reads a text with its comments as it reads the text with its
comments blanked, up to the comment flag it carries (`Lexer.scanChars_blank`).

A word the lexer reads in one piece, a whole keyword or punctuation, holds no comment marker. A
word with a comment in it is read by characters, and read the same when its comments are blanked
and the pieces of code left are read as words of their own, unless one of these pieces spells a
keyword with a parenthesis such as `private(set)` (`Lexer.scanWord_blank`).
-/

namespace SwiftAccess

open Text Lexer

theorem Text.isWordChar_space : isWordChar ' ' = false := by decide +kernel

theorem Text.isWordChar_slash : isWordChar '/' = false := by decide +kernel

namespace Comments

/-- Whether the lexer, resuming inside a block comment at the start of `cs`, sees the comment as
the scan does: wherever it skips a `/*` there, no `/` follows, since the scan reads that `*` and
the `/` as the `*/` closing the comment. -/
def resumesClean : List Char → Bool
  | '/' :: '*' :: rest => rest.head? != some '/' && resumesClean rest
  | _ => true

/-- Whether every block comment the scan opens in `cs`, from mode `m`, is resumed cleanly by the
lexer right after its `/*`. -/
def opensClean : Mode → List Char → Bool
  | _, [] => true
  | .code, '/' :: '*' :: rest => resumesClean rest && opensClean .block rest
  | .code, '/' :: '/' :: _ => true
  | .code, _ :: rest => opensClean .code rest
  | .block, '*' :: '/' :: rest => opensClean .code rest
  | .block, _ :: rest => opensClean .block rest
  | .line, _ :: _ => true

/-- A word, read from mode `m`, that the lexer reads as the scan does: it resumes cleanly in the
comments it starts in or opens, and if a comment touches it, no piece of it left by blanking
spells a parenthesised keyword. -/
def wordReadable (m : Mode) (w : List Char) : Bool :=
  (m != .block || resumesClean w) && opensClean m w &&
    (blank m w == w || (words (blank m w)).all fun v => !spellsParenthesised v)

/-! ## The clean checks, one step at a time -/

theorem resumesClean_open (rest : List Char) :
    resumesClean ('/' :: '*' :: rest) = (rest.head? != some '/' && resumesClean rest) := rfl

theorem opensClean_code_open (rest : List Char) :
    opensClean .code ('/' :: '*' :: rest) = (resumesClean rest && opensClean .block rest) := rfl

theorem opensClean_code_cons {c : Char} {rest : List Char}
    (h : c = '/' → rest.head? ≠ some '*' ∧ rest.head? ≠ some '/') :
    opensClean .code (c :: rest) = opensClean .code rest := by
  rw [opensClean.eq_4 c rest]
  · rintro _ rfl rfl; simp at h
  · rintro _ rfl rfl; simp at h

theorem opensClean_block_close (rest : List Char) :
    opensClean .block ('*' :: '/' :: rest) = opensClean .code rest := rfl

theorem opensClean_block_cons {c : Char} {rest : List Char} (h : c = '*' → rest.head? ≠ some '/') :
    opensClean .block (c :: rest) = opensClean .block rest := by
  rw [opensClean.eq_6 c rest]
  rintro _ rfl rfl; simp at h

@[simp] theorem opensClean_line (cs : List Char) : opensClean .line cs = true := by
  cases cs <;> simp [opensClean]

/-- The lexer resumes in a block comment's code after its `*/` where the scan does. -/
theorem opensClean_block_of_breakOn : ∀ {cs pre after : List Char},
    breakOn? blockCloseMark cs = some (pre, after) → opensClean .block cs = opensClean .code after
  | [], _, _, h => by simp [breakOn?, blockCloseMark] at h
  | c :: cs, pre, after, h => by
    rcases breakOn?_close_cons h with ⟨rfl, rfl, rfl⟩ | ⟨hc, pre', h', rfl⟩
    · rfl
    · rw [opensClean_block_cons hc, opensClean_block_of_breakOn h']

/-! ## Code with no slash -/

/-- Code with no `/` in it starts no comment. -/
theorem scan_code_append_of_slash : ∀ {a : List Char}, '/' ∉ a → ∀ b : List Char,
    scan .code (a ++ b) = (a.map (·, .code) ++ (scan .code b).1, (scan .code b).2)
  | [], _, _ => rfl
  | c :: a, ha, b => by
    have hc : c ≠ '/' := fun h => ha (h ▸ List.mem_cons_self ..)
    rw [List.cons_append, scan_code_cons (fun h => absurd h hc),
      scan_code_append_of_slash (fun h => ha (List.mem_cons_of_mem _ h)) b]
    rfl

theorem blank_code_append_of_slash {a : List Char} (ha : '/' ∉ a) (b : List Char) :
    blank .code (a ++ b) = a ++ blank .code b := by
  simp [blank, scan_code_append_of_slash ha b, blankChar, Function.comp_def]

theorem opensClean_code_append_of_slash : ∀ {a : List Char}, '/' ∉ a → ∀ b : List Char,
    opensClean .code (a ++ b) = opensClean .code b
  | [], _, _ => rfl
  | c :: a, ha, b => by
    have hc : c ≠ '/' := fun h => ha (h ▸ List.mem_cons_self ..)
    rw [List.cons_append, opensClean_code_cons (fun h => absurd h hc),
      opensClean_code_append_of_slash (fun h => ha (List.mem_cons_of_mem _ h)) b]

/-! ## The blanked text, as the lexer looks at it -/

/-- A block comment that closes is blanked with its `*/`, and what follows is scanned as code. -/
theorem blank_block_of_breakOn {cs pre after : List Char}
    (h : breakOn? blockCloseMark cs = some (pre, after)) :
    blank .block cs = List.replicate (pre.length + 2) ' ' ++ blank .code after := by
  simp [blank, scan_block_of_breakOn h, blankChar, Function.comp_def, List.map_const',
    List.replicate_add]

theorem blank_block_of_breakOn_none {cs : List Char} (h : breakOn? blockCloseMark cs = none) :
    blank .block cs = List.replicate cs.length ' ' := by
  simp [blank, scan_block_of_breakOn_none h, blankChar, Function.comp_def, List.map_const']

/-- A blanked block comment starts with a space. -/
theorem head?_blank_block (c : Char) (rest : List Char) :
    (blank .block (c :: rest)).head? = some ' ' := by
  by_cases hc : c = '*' ∧ rest.head? = some '/'
  · obtain ⟨rfl, hr⟩ := hc
    obtain ⟨t, rfl⟩ : ∃ t, rest = '/' :: t := by
      cases rest with
      | nil => simp at hr
      | cons d t => simp at hr; exact ⟨t, hr ▸ rfl⟩
    rw [blank_block_close]
    rfl
  · rw [blank_block_cons fun h h' => hc ⟨h, h'⟩]
    rfl

/-- Blanking keeps the characters of a text and the modes it reads them in. -/
@[simp] theorem map_fst_scan (m : Mode) (cs : List Char) : (scan m cs).1.map Prod.fst = cs := by
  fun_induction scan m cs with
  | case1 m => rfl
  | case2 rest r ih => simp [r, ih]
  | case3 rest r ih => simp [r, Function.comp_def]
  | case4 c rest h1 h2 r ih => simp [r, ih]
  | case5 rest r ih => simp [r, ih]
  | case6 c rest h1 r ih => simp [r, ih]
  | case7 c rest r ih => simp [r, Function.comp_def]

/-- The white space a blanked word holds is the spaces blanking put there. -/
theorem isWordChar_of_mem_blank {m : Mode} {w : List Char} (hw : ∀ d ∈ w, isBlank d = false) :
    ∀ d ∈ blank m w, isBlank d = true → isWordChar d = false := by
  intro d hd hb
  obtain ⟨p, hp, rfl⟩ := List.mem_map.1 hd
  unfold blankChar at hb ⊢
  by_cases hc : p.2 = .code
  · have hmem : p.1 ∈ w := by
      rw [← map_fst_scan m w]
      exact List.mem_map_of_mem hp
    rw [if_pos hc] at hb
    simp [hw _ hmem] at hb
  · rw [if_neg hc]
    exact isWordChar_space

/-- Code with no comment marker is all code. -/
theorem scan_code_of_markerFree : ∀ {w : List Char}, markerFree w = true →
    scan .code w = (w.map (·, .code), .code)
  | [], _ => rfl
  | c :: w, h => by
    obtain ⟨hc, hw⟩ := markerFree_cons.1 h
    rw [scan_code_cons hc, scan_code_of_markerFree hw]
    rfl

theorem blank_code_of_markerFree {w : List Char} (h : markerFree w = true) : blank .code w = w := by
  simp [blank, scan_code_of_markerFree h, blankChar, Function.comp_def]

/-- Blanking keeps the word characters at the start of code: a comment starts at a `/`. -/
theorem takeWhile_blank_code : ∀ x : List Char,
    (blank .code x).takeWhile isWordChar = x.takeWhile isWordChar
  | [] => rfl
  | d :: t => by
    by_cases hm : d = '/' ∧ (t.head? = some '*' ∨ t.head? = some '/')
    · -- a marker starts here: neither `/` nor the space it becomes is a word character
      obtain ⟨rfl, ht⟩ := hm
      obtain ⟨e, t', rfl, he⟩ : ∃ e t', t = e :: t' ∧ (e = '*' ∨ e = '/') := by
        cases t with
        | nil => simp at ht
        | cons e t' => exact ⟨e, t', rfl, by simpa using ht⟩
      rcases he with rfl | rfl
      · rw [blank_code_open]; simp [isWordChar_slash, isWordChar_space]
      · rw [blank_code_lineComment]; simp [isWordChar_slash, isWordChar_space]
    · rw [blank_code_cons fun h => ⟨fun h' => hm ⟨h, .inl h'⟩, fun h' => hm ⟨h, .inr h'⟩⟩]
      simp only [List.takeWhile_cons]
      rw [takeWhile_blank_code t]

end Comments

namespace Lexer

open Comments

/-! ## Blanks in place of comments -/

theorem scanChars_cons_isBlank (st : State) (hc : st.inComment = false) {b : Char}
    (hb : isBlank b = true) (z : List Char) : scanChars st (b :: z) = scanChars st z :=
  scanChars_blanks st hc (b := [b]) (by simpa using hb) z

theorem scanChars_spaces (st : State) (hc : st.inComment = false) (n : Nat) (z : List Char) :
    scanChars st (List.replicate n ' ' ++ z) = scanChars st z :=
  scanChars_blanks st hc (fun d hd => by rw [List.eq_of_mem_replicate hd]; exact isBlank_space) z

theorem scanChars_replicate (st : State) (hc : st.inComment = false) (n : Nat) :
    scanChars st (List.replicate n ' ') = ([], st, .next) := by
  simpa [scanChars] using scanChars_spaces st hc n []

/-- A token takes its first character and some of the word characters after it. -/
theorem readToken?_consumed {c : Char} {r after : List Char} {t : Token}
    (h : readToken? (c :: r) = some (t, after)) :
    r.length - after.length ≤ (r.takeWhile isWordChar).length := by
  have hw : r.takeWhile isWordChar = (r.takeWhile isWordChar).takeWhile isWordChar := by
    simp [List.takeWhile_takeWhile]
  have e := readToken?_congr c hw
  rw [h] at e
  obtain ⟨⟨t', after'⟩, -, he⟩ := Option.map_eq_some_iff.1 e.symm
  simp only [Prod.mk.injEq] at he
  omega

/-- The characters of a token after its first are word characters. -/
theorem isWordChar_of_mem_consumed {c : Char} {r after : List Char} {t : Token}
    (h : readToken? (c :: r) = some (t, after)) :
    ∀ d ∈ r.take (r.length - after.length), isWordChar d = true := by
  intro d hd
  have hpre : r.takeWhile isWordChar = r.take (r.takeWhile isWordChar).length :=
    List.prefix_iff_eq_take.1 (List.takeWhile_prefix isWordChar)
  have htake : r.take (r.length - after.length) =
      (r.takeWhile isWordChar).take (r.length - after.length) := by
    rw [hpre, List.take_take, Nat.min_eq_left (readToken?_consumed h)]
  rw [htake] at hd
  exact List.mem_takeWhile_imp (List.mem_of_mem_take hd)

/-- A token holds no `/`, so no comment starts inside it: the token is read the same when the
comments after it are blanked, and leaves the blanked rest. -/
theorem readToken?_blank_code {c : Char} {rest after : List Char} {t : Token}
    (hread : readToken? (c :: rest) = some (t, after)) :
    ∃ w, '/' ∉ c :: w ∧ rest = w ++ after ∧
      readToken? (c :: (w ++ blank .code after)) = some (t, blank .code after) := by
  have hs : c ≠ '/' := by rintro rfl; rw [readToken?_slash] at hread; cases hread
  have hafter : after = rest.drop (rest.length - after.length) := readToken?_eq_drop hread
  have htok := isWordChar_of_mem_consumed hread
  have hlen := List.IsSuffix.length_le (readToken?_suffix hread)
  -- the token is `c` and `n` word characters after it
  generalize hn : rest.length - after.length = n at hafter htok
  have hslash : '/' ∉ c :: rest.take n := by
    intro h
    rcases List.mem_cons.1 h with h | h
    · exact hs h.symm
    · simpa [isWordChar_slash] using htok _ h
  have hword : rest.takeWhile isWordChar =
      (rest.take n ++ blank .code after).takeWhile isWordChar := by
    conv_lhs => rw [← List.take_append_drop n rest, ← hafter]
    rw [List.takeWhile_append_of_pos htok, List.takeWhile_append_of_pos htok,
      takeWhile_blank_code]
  have hread' := readToken?_some_congr hword hread
  rw [hn, List.drop_left' (by simp at hlen ⊢; omega)] at hread'
  exact ⟨rest.take n, hslash, by rw [hafter, List.take_append_drop], hread'⟩

/-- **The lexer reads blanked comments as it reads comments.** From mode `m` with the comment
flag to match, and where it resumes comments cleanly, the lexer reads a text with its comments
blanked, with the flag cleared, as it reads the text: the same tokens, the same state up to the
flag, and the text goes on to the next word. The flag it ends with is the scan's, and it ends the
line exactly where the scan is in a `//` comment. -/
theorem scanChars_blank (st : State) (m : Mode) (cs : List Char)
    (hst : st.inComment = (m == .block)) (hl : m ≠ .line)
    (hres : m = .block → resumesClean cs = true) (hopen : opensClean m cs = true) :
    scanChars { st with inComment := false } (blank m cs) =
        ((scanChars st cs).1, { (scanChars st cs).2.1 with inComment := false }, .next) ∧
      (scanChars st cs).2.1.inComment = ((scan m cs).2 == .block) ∧
      ((scanChars st cs).2.2 = .lineComment ↔ (scan m cs).2 = .line) := by
  induction st, cs using scanChars.induct generalizing m with
  | case1 st =>
    rw [scanChars.eq_1]
    refine ⟨scanChars.eq_1 _, hst, ?_⟩
    simp [hl]
  | case2 st rest ih =>
    rw [scanChars.eq_2]
    cases m with
    | code =>
      rw [opensClean_code_open, Bool.and_eq_true] at hopen
      obtain ⟨h1, h2, h3⟩ := ih .block rfl (by simp) (fun _ => hopen.1) hopen.2
      rw [blank_code_open, scanChars_cons_isBlank _ rfl isBlank_space,
        scanChars_cons_isBlank _ rfl isBlank_space]
      exact ⟨h1, h2, h3⟩
    | block =>
      -- the lexer skips the `/*` and stays in the comment; the scan reads it as comment text
      have hr := hres rfl
      rw [resumesClean_open, Bool.and_eq_true, bne_iff_ne, ne_eq] at hr
      have hslash : '/' = '*' → ('*' :: rest).head? ≠ some '/' := fun h => absurd h (by decide)
      have hstar : '*' = '*' → rest.head? ≠ some '/' := fun _ => hr.1
      rw [opensClean_block_cons hslash, opensClean_block_cons hstar] at hopen
      obtain ⟨h1, h2, h3⟩ := ih .block rfl (by simp) (fun _ => hr.2) hopen
      rw [blank_block_cons hslash, blank_block_cons hstar, scanChars_cons_isBlank _ rfl isBlank_space,
        scanChars_cons_isBlank _ rfl isBlank_space, scan_block_cons hslash, scan_block_cons hstar]
      exact ⟨h1, h2, h3⟩
    | line => exact absurd rfl hl
  | case3 st c rest hne hcomm pre after hbreak ih =>
    obtain rfl : m = .block := by cases m <;> simp_all
    rw [opensClean_block_of_breakOn hbreak] at hopen
    obtain ⟨h1, h2, h3⟩ := ih .code rfl (by simp) (by simp) hopen
    rw [scanChars_close hcomm hne hbreak, blank_block_of_breakOn hbreak, scanChars_spaces _ rfl,
      scan_block_of_breakOn hbreak]
    exact ⟨h1, h2, h3⟩
  | case4 st c rest hne hcomm hbreak =>
    obtain rfl : m = .block := by cases m <;> simp_all
    rw [scanChars_unclosed hcomm hne hbreak, blank_block_of_breakOn_none hbreak,
      scan_block_of_breakOn_none hbreak, scanChars_replicate _ rfl]
    simp [hcomm]
  | case5 st c rest hne hcomm hslash =>
    obtain rfl : m = .code := by cases m <;> simp_all
    rw [scanChars_lineComment (Bool.eq_false_iff.2 hcomm) hslash]
    obtain ⟨rfl, hr⟩ := hslash
    obtain ⟨t, rfl⟩ : ∃ t, rest = '/' :: t := by
      cases rest with
      | nil => simp at hr
      | cons d t => simp at hr; exact ⟨t, hr ▸ rfl⟩
    rw [blank_code_lineComment, blank_line, scanChars_cons_isBlank _ rfl isBlank_space,
      scanChars_cons_isBlank _ rfl isBlank_space, scanChars_replicate _ rfl]
    simp [hcomm]
  | case6 st c rest hne hcomm hslash t after hread t₁ st₁ hrec ts st₂ flow hscan ih =>
    obtain rfl : m = .code := by cases m <;> simp_all
    obtain ⟨w, hw, rfl, hread'⟩ := readToken?_blank_code hread
    rw [← List.cons_append, opensClean_code_append_of_slash hw] at hopen
    obtain ⟨h1, h2, h3⟩ :=
      ih .code ((State.inComment_of_record hrec).trans hst) (by simp) (by simp) hopen
    rw [hscan] at h1 h2 h3
    have hrec' : ({ st with inComment := false }).record t = (t₁, { st₁ with inComment := false }) := by
      rw [State.record_inComment_eq, hrec]
    -- no comment starts inside the token, so blanking keeps it and the mode after it
    have hblank : blank .code (c :: (w ++ after)) = c :: (w ++ blank .code after) := by
      rw [← List.cons_append, blank_code_append_of_slash hw, List.cons_append]
    have hmode : (scan .code (c :: (w ++ after))).2 = (scan .code after).2 := by
      rw [← List.cons_append, scan_code_append_of_slash hw]
    rw [hblank, scanChars_token rfl hread', hrec', h1, scanChars_token (by simpa using hcomm) hread,
      hmode]
    simp only [hrec, hscan]
    exact ⟨trivial, h2, h3⟩
  | case7 st c rest hne hcomm hslash hread ih =>
    obtain rfl : m = .code := by cases m <;> simp_all
    have hstart : c = '/' → rest.head? ≠ some '*' ∧ rest.head? ≠ some '/' :=
      startsNoMarker_of_cases hne fun r hs hr => hslash ⟨hs, by simp [hr]⟩
    -- a `/` that starts no marker is kept, and so is what follows it
    have hstart' : c = '/' → (blank .code rest).head? ≠ some '*' ∧
        (blank .code rest).head? ≠ some '/' := by
      intro hs
      cases rest with
      | nil => simp [blank]
      | cons d t =>
        have hd : d ≠ '/' := by simpa using (hstart hs).2
        rw [head?_blank_code hd t]
        exact hstart hs
    rw [opensClean_code_cons hstart] at hopen
    obtain ⟨h1, h2, h3⟩ := ih .code (by rw [State.skip_inComment]; exact hst) (by simp) (by simp) hopen
    have hread' := readToken?_none_congr (takeWhile_blank_code rest).symm hread
    rw [blank_code_cons hstart, scanChars_skip rfl hstart' hread', State.skip_inComment_eq,
      scanChars_skip (by simpa using hcomm) hstart hread, scan_code_cons hstart]
    exact ⟨h1, h2, h3⟩

/-! ## Words -/

/-- Clearing a flag that is already clear changes nothing. -/
theorem State.with_inComment_of_eq {st : State} {b : Bool} (h : st.inComment = b) :
    { st with inComment := b } = st := by
  cases st
  cases h
  rfl

theorem Keyword.markerFree_spelling (k : Keyword) : markerFree k.spelling.toList = true := by
  cases k <;> decide

/-- A word the lexer reads in one piece holds no comment marker. -/
theorem markerFree_of_wholeToken? {w : List Char} {t : Token} (h : wholeToken? w = some t) :
    markerFree w = true := by
  rcases wholeToken?_eq_some h with ⟨c, p, rfl, -, -⟩ | ⟨k, hk, -⟩
  · simp [markerFree]
  · have hw : k.spelling.toList = w := by rw [Keyword.ofWord?_eq_some hk, String.toList_ofList]
    rw [← hw]
    exact Keyword.markerFree_spelling k

/-- **A word reads as its blanked pieces.** From mode `m`, with the comment flag to match, the
lexer reads a readable word as it reads the words of the blanked word from the flag cleared: the
same tokens, and the same state up to the flag. The flag it ends with is the scan's, and it ends
the line exactly where the scan is in a `//` comment. -/
theorem scanWord_blank (st : State) (m : Mode) {w : List Char} (hst : st.inComment = (m == .block))
    (hl : m ≠ .line) (hne : w ≠ []) (hw : ∀ d ∈ w, isBlank d = false)
    (hr : wordReadable m w = true) :
    scanWords { st with inComment := false } (words (blank m w)) =
        ((scanWord st w).1, { (scanWord st w).2.1 with inComment := false }) ∧
      (scanWord st w).2.1.inComment = ((scan m w).2 == .block) ∧
      ((scanWord st w).2.2 = .lineComment ↔ (scan m w).2 = .line) := by
  simp only [wordReadable, Bool.and_eq_true, Bool.or_eq_true, bne_iff_ne, ne_eq, beq_iff_eq,
    List.all_eq_true, Bool.not_eq_eq_eq_not, Bool.not_true] at hr
  obtain ⟨⟨hres, hopen⟩, hglue⟩ := hr
  obtain ⟨c, w', rfl⟩ := List.exists_cons_of_ne_nil hne
  by_cases hplain : m = .code ∧ markerFree (c :: w') = true
  · -- a word with no comment in it is its own blanked text, and one word
    obtain ⟨rfl, hm⟩ := hplain
    have hc : st.inComment = false := hst.trans (by decide)
    have hword : words (c :: w') = [c :: w'] :=
      words_single (hw c (List.mem_cons_self ..)) fun d hd => hw d (List.mem_cons_of_mem _ hd)
    obtain ⟨hflow, hc'⟩ := scanWord_markerFree st _ hc hm
    rw [blank_code_of_markerFree hm, hword, State.with_inComment_of_eq hc,
      scan_code_of_markerFree hm]
    rw [scanWords_cons_next hflow, State.with_inComment_of_eq hc']
    simp [scanWords, hc', hflow]
  · -- otherwise the lexer reads the word by characters
    have hchars : scanWord st (c :: w') = scanChars st (c :: w') := by
      unfold scanWord
      split
      · rfl
      · next hcomm =>
        split
        · next t ht =>
          have hm : m = .code := by cases m <;> simp_all
          exact absurd ⟨hm, markerFree_of_wholeToken? ht⟩ hplain
        · rfl
    obtain ⟨h1, h2, h3⟩ :=
      scanChars_blank st m (c :: w') hst hl (fun h => by simpa [h] using hres) hopen
    have hpieces : ∀ v ∈ words (blank m (c :: w')), spellsParenthesised v = false := by
      rcases hglue with hsame | hall
      · -- a word that blanking leaves as it is holds no comment
        exfalso
        cases m with
        | code => exact hplain ⟨rfl, hsame ▸ markerFree_blank .code _⟩
        | block =>
          have hhead := head?_blank_block c w'
          rw [hsame] at hhead
          have hc : c = ' ' := by simpa using hhead
          exact absurd (hw c (List.mem_cons_self ..)) (by rw [hc, isBlank_space]; decide)
        | line => exact absurd rfl hl
      · exact hall
    rw [hchars, scanWords_words _ _ rfl (markerFree_blank m _) (isWordChar_of_mem_blank hw) hpieces,
      h1]
    exact ⟨rfl, h2, h3⟩

end Lexer

end SwiftAccess
