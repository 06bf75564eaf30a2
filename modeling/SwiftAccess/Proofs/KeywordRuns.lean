import SwiftAccess.Proofs.LineLayout

/-!
# Keywords are whole names

The lexer reads names as runs of name characters, the ASCII letters, digits and `_`
(`isNameChar`), and a run is a keyword only when all of it spells one. This module shows that no
keyword is read out of part of a name: on a line whose string literals, once cut out, join no
names (`Lexer.LiteralsJoinNoNames`; every line without quotes), from any state, every keyword
token comes from a maximal run of name characters of the line that spells a keyword
(`Lexer.keyword_token_has_run`), so a line in which no such run spells a keyword gives no keyword
token (`no_keyword_token_of_no_keyword_run`).

The proof follows the scanner. Each token `Lexer.readToken?` reads ends where a name ends, or is
followed by no name character (`Lexer.readToken?_split`), and a name it reads runs to the end of
the name; comment markers and skipped characters are no name characters either. So, by induction
over the scan of a word, each keyword read is a maximal run of the word
(`Lexer.scanChars_keyword_run`), and a word read whole is a keyword's spelling, whose name part is
one. Words lie between white space, and the code of a quote-free line starts the line or follows a
comment's `*/`, so a maximal run of a word is one of the line.

Both limits are real. A letter of another script is no name character, so `doña` reads as the
keyword `do` and the name `a`; and a string literal is cut out of its line before names are read,
so `pub""lic` reads as `public` (`keywords_read_inside_names`).
-/

namespace SwiftAccess

namespace Text

/-- `r` is a maximal run of name characters of `cs`: a non-empty stretch of name characters with
no name character right before or after it. -/
def IsNameRun (cs r : List Char) : Prop :=
  ∃ a b, cs = a ++ r ++ b ∧ r ≠ [] ∧ (∀ c ∈ r, isNameChar c = true) ∧
    (∀ c ∈ a.getLast?, isNameChar c = false) ∧ (∀ c ∈ b.head?, isNameChar c = false)

/-- Some maximal run of name characters of `cs` spells a keyword. -/
def HasKeywordRun (cs : List Char) : Prop :=
  ∃ r, IsNameRun cs r ∧ ∃ k : Keyword, String.ofList r = k.spelling

/-- A run stays maximal behind text that ends in no name character, or when it does not start the
text. -/
theorem IsNameRun.append_left {cs r : List Char} (h : IsNameRun cs r) {x : List Char}
    (hx : (∀ c ∈ x.getLast?, isNameChar c = false) ∨ ∀ c ∈ cs.head?, isNameChar c = false) :
    IsNameRun (x ++ cs) r := by
  obtain ⟨a, b, rfl, hne, hr, ha, hb⟩ := h
  refine ⟨x ++ a, b, by simp, hne, hr, ?_, hb⟩
  cases a with
  | nil =>
    rcases hx with hx | hx
    · simpa using hx
    · -- the text starts with the run, whose first character is a name character
      obtain ⟨c, r', rfl⟩ := List.exists_cons_of_ne_nil hne
      have := hx c (by simp)
      simp [hr c (List.mem_cons_self ..)] at this
  | cons d a =>
    intro c hc
    rw [List.getLast?_append_of_ne_nil _ (List.cons_ne_nil d a)] at hc
    exact ha c hc

theorem HasKeywordRun.append_left {cs : List Char} (h : HasKeywordRun cs) {x : List Char}
    (hx : (∀ c ∈ x.getLast?, isNameChar c = false) ∨ ∀ c ∈ cs.head?, isNameChar c = false) :
    HasKeywordRun (x ++ cs) := by
  obtain ⟨r, hr, k⟩ := h
  exact ⟨r, hr.append_left hx, k⟩

/-- A run stays maximal before text that starts with no name character. -/
theorem IsNameRun.append_right {cs r : List Char} (h : IsNameRun cs r) {y : List Char}
    (hy : ∀ c ∈ y.head?, isNameChar c = false) : IsNameRun (cs ++ y) r := by
  obtain ⟨a, b, rfl, hne, hr, ha, hb⟩ := h
  refine ⟨a, b ++ y, by simp, hne, hr, ha, ?_⟩
  cases b with
  | nil => simpa using hy
  | cons d b => simpa using hb

/-- The one maximal run of a text made of name characters is the whole text. -/
theorem IsNameRun.eq_of_all {cs r : List Char} (h : IsNameRun cs r)
    (hall : ∀ c ∈ cs, isNameChar c = true) : r = cs := by
  obtain ⟨a, b, rfl, -, -, ha, hb⟩ := h
  have ha' : a = [] := by
    cases a using List.reverseRecOn with
    | nil => rfl
    | append_singleton a c =>
      have := ha c (by simp)
      simp [hall c (by simp)] at this
  have hb' : b = [] := by
    cases b with
    | nil => rfl
    | cons c b =>
      have := hb c (by simp)
      simp [hall c (by simp)] at this
  simp [ha', hb']

/-- Every name character is a Unicode word character. -/
theorem isWordChar_of_isNameChar {c : Char} (h : isNameChar c = true) : isWordChar c = true := by
  have hr : wordRanges = (0x30, 0x39) :: (0x41, 0x5A) :: (0x5F, 0x5F) :: (0x61, 0x7A) ::
      wordRanges.drop 4 := rfl
  rw [isWordChar, hr, CodeRanges.contains_iff]
  rcases toNat_of_isNameChar h with h | h | h | h
  · exact ⟨_, List.mem_cons_self .., by simp; omega⟩
  · exact ⟨_, List.mem_cons_of_mem _ (List.mem_cons_self ..), by simp; omega⟩
  · exact ⟨_, List.mem_cons_of_mem _ (List.mem_cons_of_mem _ (List.mem_cons_of_mem _
      (List.mem_cons_self ..))), by simp; omega⟩
  · exact ⟨_, List.mem_cons_of_mem _ (List.mem_cons_of_mem _ (List.mem_cons_self ..)),
      by simp; omega⟩

/-- A word of a text stands between white space or the text's ends, and holds no white space. -/
theorem mem_words_split {cs w : List Char} (h : w ∈ words cs) :
    ∃ x y, cs = x ++ w ++ y ∧ w ≠ [] ∧ (∀ c ∈ w, isBlank c = false) ∧
      (∀ c ∈ x.getLast?, isBlank c = true) ∧ ∀ c ∈ y.head?, isBlank c = true := by
  fun_induction words cs with
  | case1 cs hcs => simp at h
  | case2 cs c rest hcs ih =>
    -- the text is white space, the first word, and the rest
    have hsplit : cs = cs.takeWhile isBlank ++ (c :: rest.takeWhile (!isBlank ·)) ++
        rest.dropWhile (!isBlank ·) := by
      conv => lhs; rw [← List.takeWhile_append_dropWhile (p := isBlank) (l := cs), hcs]
      simp
    have hc : isBlank c = false := by
      have := List.head?_dropWhile_not isBlank cs
      rw [hcs] at this
      simpa using this
    have hpre : ∀ d ∈ (cs.takeWhile isBlank).getLast?, isBlank d = true := fun d hd =>
      List.all_eq_true.1 List.all_takeWhile d (List.mem_of_getLast? hd)
    have hword : ∀ d ∈ c :: rest.takeWhile (!isBlank ·), isBlank d = false := by
      intro d hd
      rcases List.mem_cons.1 hd with rfl | hd
      · exact hc
      · simpa using List.all_eq_true.1 List.all_takeWhile d hd
    have hpost : ∀ d ∈ (rest.dropWhile (!isBlank ·)).head?, isBlank d = true := by
      intro d hd
      have := List.head?_dropWhile_not (!isBlank ·) rest
      rw [hd] at this
      simpa using this
    rcases List.mem_cons.1 h with rfl | h
    · exact ⟨_, _, hsplit, List.cons_ne_nil _ _, hword, hpre, hpost⟩
    · obtain ⟨x, y, hxy, hne, hw, hx, hy⟩ := ih h
      refine ⟨cs.takeWhile isBlank ++ (c :: rest.takeWhile (!isBlank ·)) ++ x, y, ?_, hne, hw, ?_, hy⟩
      · exact hsplit.trans (by rw [hxy]; simp)
      · -- the later word does not start the rest, which starts with white space
        cases x using List.reverseRecOn with
        | nil =>
          obtain ⟨d, w', rfl⟩ := List.exists_cons_of_ne_nil hne
          have := hpost d (by simp [hxy])
          simp [hw d (List.mem_cons_self ..)] at this
        | append_singleton x d =>
          intro e he
          simp only [← List.append_assoc, List.getLast?_append_of_ne_nil _ (List.cons_ne_nil d []),
            List.getLast?_singleton] at he
          simpa using hx e (by simp [he])

/-- A maximal run of a word is one of the text the word belongs to. -/
theorem HasKeywordRun.of_mem_words {cs w : List Char} (hw : w ∈ words cs) (h : HasKeywordRun w) :
    HasKeywordRun cs := by
  obtain ⟨x, y, rfl, -, -, hx, hy⟩ := mem_words_split hw
  obtain ⟨r, hr, k⟩ := h
  refine ⟨r, (hr.append_left (.inl fun c hc => isNameChar_of_isBlank (hx c hc))).append_right
    fun c hc => isNameChar_of_isBlank (hy c hc), k⟩

end Text

/-- The name part of a keyword's spelling, before any parenthesis, is itself a keyword's spelling:
`private(set)` starts with `private`. -/
theorem Keyword.hasKeywordRun_spelling (k : Keyword) : Text.HasKeywordRun k.spelling.toList := by
  have h : k.spelling.toList.takeWhile isNameChar ≠ [] ∧
      (Keyword.ofWord? (String.ofList (k.spelling.toList.takeWhile isNameChar))).isSome = true := by
    cases k <;> decide
  obtain ⟨k', hk'⟩ := Option.isSome_iff_exists.1 h.2
  refine ⟨_, ⟨[], k.spelling.toList.dropWhile isNameChar, by simp, h.1,
    fun c hc => List.all_eq_true.1 List.all_takeWhile c hc, by simp, fun c hc => ?_⟩,
    k', (Keyword.ofWord?_eq_some hk').symm⟩
  have := List.head?_dropWhile_not isNameChar k.spelling.toList
  rw [hc] at this
  simpa using this

namespace Lexer

open Text

theorem State.record_fst_keyword {st : State} {t : Token} {k : Keyword}
    (h : (st.record t).1 = .keyword k) : t = .keyword k := by
  simp only [State.record] at h
  split at h
  · split at h
    · cases h
    · exact h
  · exact h

/-- What `readToken?` reads is a stretch at the start of the text that ends in no name character
or is followed by none; a keyword it reads is a maximal run of the text. -/
theorem readToken?_split {cs after : List Char} {t : Token} (h : readToken? cs = some (t, after)) :
    ∃ x, cs = x ++ after ∧
      ((∀ c ∈ x.getLast?, isNameChar c = false) ∨ ∀ c ∈ after.head?, isNameChar c = false) ∧
      ∀ k, t = .keyword k → IsNameRun cs x ∧ String.ofList x = k.spelling := by
  -- a name or attribute ends where its name characters do
  have hstop : ∀ rest : List Char, ∀ d ∈ (rest.dropWhile isNameChar).head?,
      isNameChar d = false := by
    intro rest d hd
    have := List.head?_dropWhile_not isNameChar rest
    rw [hd] at this
    simpa using this
  rcases readToken?_cases h with ⟨c, p, rfl, hp, rfl⟩ | ⟨rest, rfl, rfl, rfl⟩ |
    ⟨c, rest, rfl, hn, rfl, rfl⟩ | ⟨rfl, hend, rfl⟩
  · -- punctuation is no name character
    have hc : isNameChar c = false := by
      cases hn : isNameChar c
      · rfl
      · rw [Punct.ofChar?_of_isNameChar hn] at hp; cases hp
    exact ⟨[c], rfl, .inl (by simpa using hc), fun k hk => by cases hk⟩
  · exact ⟨'@' :: rest.takeWhile isNameChar, by simp, .inr (hstop rest), fun k hk => by cases hk⟩
  · refine ⟨c :: rest.takeWhile isNameChar, by simp, .inr (hstop rest), fun k hk => ?_⟩
    have hw : Keyword.ofWord? (String.ofList (c :: rest.takeWhile isNameChar)) = some k := by
      unfold nameToken at hk
      split at hk
      · next k' hk' => cases hk; exact hk'
      · cases hk
    refine ⟨⟨[], _, by simp, List.cons_ne_nil _ _, fun d hd => ?_, by simp, hstop rest⟩,
      (Keyword.ofWord?_eq_some hw).symm⟩
    rcases List.mem_cons.1 hd with rfl | hd
    · exact hn
    · exact List.all_eq_true.1 List.all_takeWhile d hd
  · -- `.init` is followed by no word character
    refine ⟨['.', 'i', 'n', 'i', 't'], by simp, .inr fun d hd => ?_, fun k hk => by cases hk⟩
    cases after with
    | nil => cases hd
    | cons e after =>
      simp only [List.head?_cons, Option.mem_def, Option.some.injEq] at hd
      subst hd
      simp only [endsWord, Bool.not_eq_true'] at hend
      cases hn : isNameChar e
      · rfl
      · rw [isWordChar_of_isNameChar hn] at hend; cases hend

/-- Every keyword read from a stretch of a word, in any state, is a maximal run of name characters
of that stretch that spells a keyword. The induction follows the scan: each step reads past a
comment marker, a token or a skipped character, none of which a later run can extend. -/
theorem scanChars_keyword_run {st : State} {cs : List Char} {k : Keyword}
    (h : Token.keyword k ∈ (scanChars st cs).1) : HasKeywordRun cs := by
  induction st, cs using scanChars.induct with
  | case1 st => simp [scanChars] at h
  | case2 st rest ih =>
    simp only [scanChars] at h
    exact (ih h).append_left (x := ['/', '*']) (.inl (by simp; decide))
  | case3 st c rest hne hcomm pre after hbreak ih =>
    rw [scanChars_close hcomm hne hbreak] at h
    rw [breakOn?_eq_some hbreak]
    exact (ih h).append_left (x := pre ++ blockCloseMark) (.inl (by simp [blockCloseMark]; decide))
  | case4 st c rest hne hcomm hbreak =>
    rw [scanChars_unclosed hcomm hne hbreak] at h
    cases h
  | case5 st c rest hne hcomm hslash =>
    rw [scanChars_lineComment (Bool.eq_false_iff.2 hcomm) hslash] at h
    cases h
  | case6 st c rest hne hcomm hslash t after hread t₁ st₁ hrec ts st₂ flow hscan ih =>
    obtain ⟨x, hx, hbound, hkey⟩ := readToken?_split hread
    rw [scanChars_token (Bool.eq_false_iff.2 hcomm) hread] at h
    simp only [hrec, hscan, List.mem_cons] at h
    rcases h with h | h
    · -- the keyword is the token just read
      obtain ⟨hrun, hsp⟩ := hkey k (State.record_fst_keyword (by rw [hrec]; exact h.symm))
      exact ⟨x, hrun, k, hsp⟩
    · have := ih (by rw [hscan]; exact h)
      rw [hx]
      exact this.append_left hbound
  | case7 st c rest hne hcomm hslash hread ih =>
    rw [scanChars_skip (Bool.eq_false_iff.2 hcomm) (startsNoMarker_of_guards hne hslash) hread] at h
    -- a skipped character is no name character, or it would start a name
    have hc : isNameChar c = false := by
      cases hn : isNameChar c
      · rfl
      · have hat : c ≠ '@' := by rintro rfl; exact absurd hn (by decide)
        simp [readToken?, Punct.ofChar?_of_isNameChar hn, hat, hn] at hread
    exact (ih h).append_left (x := [c]) (.inl (by simpa using hc))

theorem wholeToken?_keyword {w : List Char} {k : Keyword} (h : wholeToken? w = some (.keyword k)) :
    Keyword.ofWord? (String.ofList w) = some k := by
  rcases wholeToken?_eq_some h with ⟨c, p, -, -, hp⟩ | ⟨k', hk', hk⟩
  · cases hp
  · cases hk
    exact hk'

/-- A keyword read from a word is a maximal run of the word that spells a keyword. -/
theorem scanWord_keyword_run {st : State} {w : List Char} {k : Keyword}
    (h : Token.keyword k ∈ (scanWord st w).1) : HasKeywordRun w := by
  unfold scanWord at h
  split at h
  · exact scanChars_keyword_run h
  · split at h
    · next t ht =>
      -- a whole word that is a keyword is a keyword's spelling
      simp only [List.mem_singleton] at h
      rw [State.record_fst_keyword h.symm] at ht
      have hw := congrArg String.toList (Keyword.ofWord?_eq_some (wholeToken?_keyword ht))
      rw [String.toList_ofList] at hw
      rw [← hw]
      exact k.hasKeywordRun_spelling
    · exact scanChars_keyword_run h

theorem scanWords_keyword_run :
    ∀ {st : State} {ws : List (List Char)} {k : Keyword},
      Token.keyword k ∈ (scanWords st ws).1 → ∃ w ∈ ws, HasKeywordRun w
  | _, [], _, h => by simp [scanWords] at h
  | st, w :: ws, k, h => by
    unfold scanWords at h
    rcases hw : scanWord st w with ⟨ts, st', flow⟩
    rw [hw] at h
    have hword : Token.keyword k ∈ ts → HasKeywordRun w := fun ht =>
      scanWord_keyword_run (by rw [hw]; exact ht)
    cases flow with
    | lineComment => exact ⟨w, List.mem_cons_self .., hword h⟩
    | next =>
      rcases List.mem_append.1 h with h | h
      · exact ⟨w, List.mem_cons_self .., hword h⟩
      · obtain ⟨v, hv, hrun⟩ := scanWords_keyword_run h
        exact ⟨v, List.mem_cons_of_mem _ hv, hrun⟩

/-- The contextual `open` rule only turns keywords into names. -/
theorem mem_demoteOpen_go {k : Keyword} :
    ∀ {prev : Option Token} {ts : List Token}, Token.keyword k ∈ demoteOpen.go prev ts →
      Token.keyword k ∈ ts
  | _, [], h => by simp [demoteOpen.go] at h
  | prev, t :: ts, h => by
    simp only [demoteOpen.go, List.mem_cons] at h
    -- the token written is the token read, or the name `open`
    have hsel : ∀ b : Bool, Token.keyword k = (if b = true then .identifier "open" else t) →
        t = .keyword k := by
      intro b hb
      cases b <;> simp_all
    rcases h with h | h
    · exact hsel _ h ▸ List.mem_cons_self ..
    · exact List.mem_cons_of_mem _ (mem_demoteOpen_go h)

/-- Without quotes, a line's code is the line itself, or the part after the `*/` that closes a
comment left open. -/
theorem codeOf_of_no_quote {st st' : State} {line code : List Char} (hq : '"' ∉ line)
    (h : codeOf st line = (some code, st')) :
    ∃ x, line = x ++ code ∧ ∀ c ∈ x.getLast?, isNameChar c = false := by
  have hstring : ∀ {s : State} {z : List Char}, '"' ∉ z → (afterString s z).1 = some code →
      code = z := by
    intro s z hz hs
    have hnone : breakOn? tripleQuote z = none := by
      cases hb : breakOn? tripleQuote z with
      | none => rfl
      | some r =>
        have := breakOn?_eq_some hb
        exact absurd (this ▸ by simp [tripleQuote]) hz
    unfold afterString at hs
    split at hs
    · rw [hnone] at hs; cases hs
    · simp only [multilineOpening?, hnone] at hs
      cases hs
      rfl
  unfold codeOf at h
  split at h
  · split at h
    · next pre after hb =>
      have hsplit := breakOn?_eq_some hb
      have hq' : '"' ∉ after := fun hc => hq (hsplit ▸ by simp [hc])
      refine ⟨pre ++ blockCloseMark, ?_, by simp [blockCloseMark]; decide⟩
      rw [hstring hq' (congrArg Prod.fst h), hsplit]
    · cases h
  · exact ⟨[], by rw [hstring hq (congrArg Prod.fst h)]; rfl, by simp⟩

/-- The string literals that the lexer cuts out of a line, read from `st`, join no names: every
maximal run of name characters in the code it reads, its literals cut out, is a maximal run of
the line. -/
def LiteralsJoinNoNames (st : State) (line : List Char) : Prop :=
  ∀ code st', codeOf st line = (some code, st') →
    ∀ r, IsNameRun (stripLiterals code) r → IsNameRun line r

/-- A line without quotes has no literals to cut: from any state, the code the lexer reads starts
the line or follows a comment's `*/`, so its maximal runs are the line's. -/
theorem literalsJoinNoNames_of_no_quote {st : State} {line : List Char} (hq : '"' ∉ line) :
    LiteralsJoinNoNames st line := by
  intro code st' hcode r hr
  obtain ⟨x, rfl, hx⟩ := codeOf_of_no_quote hq hcode
  have hq' : '"' ∉ code := fun hc => hq (List.mem_append_right _ hc)
  rw [stripLiterals_of_no_quote hq'] at hr
  exact hr.append_left (.inl hx)

/-- Where the literals cut out join no names, from any state, every keyword token is a maximal run
of name characters of the line that spells a keyword. -/
theorem keyword_token_has_run {st : State} {line : List Char} (hlit : LiteralsJoinNoNames st line)
    {k : Keyword} (h : Token.keyword k ∈ (scanLine st line).1) : HasKeywordRun line := by
  unfold scanLine at h
  split at h
  · simp at h
  · next code st' hcode =>
    obtain ⟨w, hw, hrun⟩ := scanWords_keyword_run (mem_demoteOpen_go h)
    obtain ⟨r, hr, hk⟩ := hrun.of_mem_words hw
    exact ⟨r, hlit code st' hcode r hr, hk⟩

end Lexer

/-- From any lexer state, on a line whose string literals, once the lexer cuts them out, join no
names (every line without quotes, `Lexer.literalsJoinNoNames_of_no_quote`): when no maximal run
of ASCII letters, digits and `_` spells a keyword (the name part of a parenthesised keyword such as
`private(set)` is a keyword's spelling itself), the line gives no keyword token. A name is never
split into a keyword. -/
theorem no_keyword_token_of_no_keyword_run (st : Lexer.State) (line : List Char)
    (hlit : Lexer.LiteralsJoinNoNames st line)
    (hruns : ∀ r, Text.IsNameRun line r → ∀ k : Keyword, String.ofList r ≠ k.spelling) :
    ∀ k : Keyword, Token.keyword k ∉ (Lexer.scanLine st line).1 := by
  intro k hk
  obtain ⟨r, hr, k', hk'⟩ := Lexer.keyword_token_has_run hlit hk
  exact hruns r hr k' hk'

/-- `my_var` holds the keyword spelling `var`, but only as part of a name: it gives no keyword. -/
theorem underscored_name_no_keyword :
    (Lexer.LiteralsJoinNoNames .initial "my_var".toList ∧
        ∀ r, Text.IsNameRun "my_var".toList r → ∀ k : Keyword, String.ofList r ≠ k.spelling) ∧
      ∀ k : Keyword, Token.keyword k ∉ (Lexer.scanLine .initial "my_var".toList).1 := by
  have hlit : Lexer.LiteralsJoinNoNames .initial "my_var".toList :=
    Lexer.literalsJoinNoNames_of_no_quote (by simp)
  have hruns : ∀ r, Text.IsNameRun "my_var".toList r → ∀ k : Keyword,
      String.ofList r ≠ k.spelling := by
    intro r hr k hk
    rw [hr.eq_of_all (List.all_eq_true.1 (by decide)), String.ofList_toList] at hk
    cases k <;> simp [Keyword.spelling] at hk
  exact ⟨⟨hlit, hruns⟩, no_keyword_token_of_no_keyword_run .initial _ hlit hruns⟩

/-- Two lines where no name spells a keyword, yet the lexer reads one. `doña` is one name in
Unicode, all word characters and no keyword; the lexer, whose names are ASCII, reads the keyword
`do` and then the name `a`. `pub""lic` holds the names `pub` and `lic`, neither a keyword; the
lexer cuts out the empty literal between them and reads the keyword `public`: the literal joins two
names, which is what `Lexer.LiteralsJoinNoNames` rules out. -/
theorem keywords_read_inside_names :
    ("doña".toList.all Text.isWordChar = true ∧ Keyword.ofWord? "doña" = none ∧
      (Lexer.scanLine .initial "doña".toList).1 = [.keyword .«do», .identifier "a"]) ∧
    (Keyword.ofWord? "pub" = none ∧ Keyword.ofWord? "lic" = none ∧
      ¬ Lexer.LiteralsJoinNoNames .initial "pub\"\"lic".toList ∧
      (Lexer.scanLine .initial "pub\"\"lic".toList).1 = [.keyword .public]) := by
  refine ⟨⟨by decide, by decide, by cbv⟩, by decide, by decide, fun hlit => ?_, by cbv⟩
  have hcode : Lexer.codeOf .initial "pub\"\"lic".toList = (some "pub\"\"lic".toList, .initial) := by
    cbv
  -- what the lexer reads is the one name `public`, which the line does not hold
  have hrun : Text.IsNameRun (Lexer.stripLiterals "pub\"\"lic".toList) "public".toList := by
    rw [show Lexer.stripLiterals "pub\"\"lic".toList = "public".toList by cbv]
    exact ⟨[], [], by simp, by simp, List.all_eq_true.1 (by decide), by simp, by simp⟩
  obtain ⟨a, b, he, -⟩ := hlit _ _ hcode _ hrun
  have hinfix : "public".toList <:+: "pub\"\"lic".toList := ⟨a, b, he.symm⟩
  exact absurd hinfix (by decide)

end SwiftAccess
