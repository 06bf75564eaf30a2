import SwiftAccess.Proofs.CommentScan

/-!
# Scanning text that holds no comment marker

Where a text holds no `/*` and no `//` (`Comments.markerFree`), the lexer reads it by characters
without ever entering a comment or ending the line (`Lexer.scanChars_markerFree`). What a token is
depends only on its first character and the word characters after it (`Lexer.readToken?_congr`),
so no token spans a character that is no word character, and the scan of a text is the scan of
its parts where the second starts at such a character (`Lexer.scanChars_append`).

The lexer reads a line word by word, and a word that is a whole keyword or punctuation in one
piece (`Lexer.wholeToken?`). Read by characters, such a word gives the same token, unless it spells
a keyword with a parenthesis such as `private(set)`: characters give `private` and the identifier
`set` (`Lexer.scanWord_eq_scanChars`). So when no word spells one, the scan of a text's words is the
scan of its characters (`Lexer.scanWords_words`).

The comment flag of the lexer state is carried through a scan and changes nothing else
(`Lexer.State.record_inComment_eq`, `Lexer.State.skip_inComment_eq`).
-/

namespace SwiftAccess

open Text Comments

/-- A keyword whose spelling holds a parenthesis: `private(set)`, `unowned(safe)` and the like. -/
def Keyword.parenthesised (k : Keyword) : Bool := k.spelling.toList.contains '('

/-- Whether a text spells a keyword with a parenthesis. -/
def spellsParenthesised (w : List Char) : Bool :=
  (Keyword.ofWord? (String.ofList w)).any Keyword.parenthesised

theorem Keyword.all_isNameChar {k : Keyword} (hk : k.parenthesised = false) :
    k.spelling.toList.all isNameChar = true := by
  revert hk
  cases k <;> decide

namespace Lexer

/-! ## The comment flag -/

namespace State

/-- Recording a token does not look at the comment flag, and keeps it. -/
theorem record_inComment_eq (st : State) (b : Bool) (t : Token) :
    ({ st with inComment := b }).record t =
      ((st.record t).1, { (st.record t).2 with inComment := b }) := by
  simp only [record]
  split <;> split <;> simp_all

/-- The state after a recorded token has the comment flag of the state before. -/
theorem inComment_of_record {st st₁ : State} {t t₁ : Token} (h : st.record t = (t₁, st₁)) :
    st₁.inComment = st.inComment := by
  have := record_inComment st t
  rwa [h] at this

/-- Skipping a character does not look at the comment flag, and keeps it. -/
theorem skip_inComment_eq (st : State) (b : Bool) (c : Char) :
    ({ st with inComment := b }).skip c = { st.skip c with inComment := b } := by
  unfold skip
  split
  · rfl
  · split <;> rfl

end State

/-! ## Tokens -/

theorem endsWord_eq (x : List Char) : endsWord x = (x.takeWhile isWordChar).isEmpty := by
  cases x with
  | nil => rfl
  | cons c x => cases h : isWordChar c <;> simp [endsWord, h]

/-- A run of name characters lies within the run of word characters. -/
theorem takeWhile_isNameChar_eq (r : List Char) :
    r.takeWhile isNameChar = (r.takeWhile isWordChar).takeWhile isNameChar := by
  induction r with
  | nil => rfl
  | cons c r ih =>
    by_cases hn : isNameChar c = true
    · simp [hn, isWordChar_of_isNameChar hn, ih]
    · cases hw : isWordChar c <;> simp [hn, hw]

theorem length_sub_dropWhile (p : Char → Bool) (x : List Char) :
    x.length - (x.dropWhile p).length = (x.takeWhile p).length := by
  have := congrArg List.length (List.takeWhile_append_dropWhile (p := p) (l := x))
  simp only [List.length_append] at this
  omega

theorem isWordChar_i : isWordChar 'i' = true := by decide
theorem isWordChar_n : isWordChar 'n' = true := by decide
theorem isWordChar_t : isWordChar 't' = true := by decide

/-- A text starts with `init` exactly when its run of word characters does. -/
theorem startsInit_iff (r : List Char) :
    (∃ after, r = 'i' :: 'n' :: 'i' :: 't' :: after) ↔
      ∃ w, r.takeWhile isWordChar = 'i' :: 'n' :: 'i' :: 't' :: w := by
  constructor
  · rintro ⟨after, rfl⟩
    exact ⟨after.takeWhile isWordChar, by simp [isWordChar_i, isWordChar_n, isWordChar_t]⟩
  · rintro ⟨w, hw⟩
    have := List.takeWhile_append_dropWhile (p := isWordChar) (l := r)
    rw [hw] at this
    exact ⟨_, this.symm⟩

/-- What `readToken?` reads depends only on the first character and the word characters right
after it: texts that agree there give the same token, after the same number of characters. -/
theorem readToken?_congr (c : Char) {r r' : List Char}
    (h : r.takeWhile isWordChar = r'.takeWhile isWordChar) :
    (readToken? (c :: r)).map (fun p => (p.1, r.length - p.2.length)) =
      (readToken? (c :: r')).map (fun p => (p.1, r'.length - p.2.length)) := by
  have hname : r.takeWhile isNameChar = r'.takeWhile isNameChar := by
    rw [takeWhile_isNameChar_eq r, takeWhile_isNameChar_eq r', h]
  simp only [readToken?]
  split
  · simp
  · split
    · simp [length_sub_dropWhile, hname]
    · split
      · simp [length_sub_dropWhile, hname]
      · split
        · -- `.init`: both texts start with `init`, or neither does
          by_cases hi : ∃ after, r = 'i' :: 'n' :: 'i' :: 't' :: after
          · obtain ⟨after, rfl⟩ := hi
            obtain ⟨w, hw⟩ := (startsInit_iff _).1 ⟨after, rfl⟩
            obtain ⟨after', rfl⟩ := (startsInit_iff r').2 ⟨w, h ▸ hw⟩
            have hafter : after.takeWhile isWordChar = after'.takeWhile isWordChar := by
              simpa [isWordChar_i, isWordChar_n, isWordChar_t] using h
            have h4 : ∀ n : Nat, n + 1 + 1 + 1 + 1 - n = 4 := by omega
            simp [endsWord_eq, hafter, h4]
          · have hi' : ¬∃ after, r' = 'i' :: 'n' :: 'i' :: 't' :: after := fun h' =>
              hi ((startsInit_iff r).2 (h ▸ (startsInit_iff r').1 h'))
            split
            · exact absurd ⟨_, rfl⟩ hi
            · split
              · exact absurd ⟨_, rfl⟩ hi'
              · rfl
        · rfl

/-- What `readToken?` leaves of a text after its first character is a suffix of the rest. -/
theorem readToken?_eq_drop {c : Char} {r after : List Char} {t : Token}
    (h : readToken? (c :: r) = some (t, after)) : after = r.drop (r.length - after.length) := by
  have hlen := readToken?_length h
  have hk : (c :: r).length - after.length = (r.length - after.length) + 1 := by
    simp only [List.length_cons] at hlen ⊢
    omega
  calc after = (c :: r).drop ((c :: r).length - after.length) :=
        List.suffix_iff_eq_drop.1 (readToken?_suffix h)
    _ = r.drop (r.length - after.length) := by rw [hk]; rfl

theorem readToken?_some_congr {c : Char} {r r' after : List Char} {t : Token}
    (h : r.takeWhile isWordChar = r'.takeWhile isWordChar) (hr : readToken? (c :: r) = some (t, after)) :
    readToken? (c :: r') = some (t, r'.drop (r.length - after.length)) := by
  have e := readToken?_congr c h
  rw [hr] at e
  obtain ⟨⟨t', after'⟩, h', he⟩ := Option.map_eq_some_iff.1 e.symm
  simp only [Prod.mk.injEq] at he
  obtain ⟨rfl, hn⟩ := he
  rw [h', readToken?_eq_drop h', hn]

theorem readToken?_none_congr {c : Char} {r r' : List Char}
    (h : r.takeWhile isWordChar = r'.takeWhile isWordChar) (hr : readToken? (c :: r) = none) :
    readToken? (c :: r') = none := by
  have e := readToken?_congr c h
  rw [hr] at e
  simpa using e.symm

/-- The run of word characters is not changed by what follows a character that is no word
character. -/
theorem takeWhile_append_of_head {r z : List Char} (hz : ∀ c ∈ z.head?, isWordChar c = false) :
    (r ++ z).takeWhile isWordChar = r.takeWhile isWordChar := by
  rw [List.takeWhile_append]
  split
  · next hr =>
    -- all of `r` are word characters, and `z` starts with none
    have hz' : z.takeWhile isWordChar = [] := by
      cases z with
      | nil => rfl
      | cons d z => simp [hz d rfl]
    rw [hz', List.append_nil, (List.takeWhile_prefix isWordChar).eq_of_length hr]
  · rfl

/-! ## White space -/

theorem readToken?_of_isBlank {b : Char} (hb : isBlank b = true) (r : List Char) :
    readToken? (b :: r) = none := by
  have hp : Punct.ofChar? b = none := by
    cases hp : Punct.ofChar? b with
    | none => rfl
    | some p =>
      obtain rfl := Punct.ofChar?_eq_some.1 hp
      revert hb
      cases p <;> decide
  have hat : b ≠ '@' := by rintro rfl; exact absurd hb (by decide)
  have hdot : b ≠ '.' := by rintro rfl; exact absurd hb (by decide)
  simp [readToken?, hp, hat, hdot, isNameChar_of_isBlank hb]

theorem State.skip_of_isBlank (st : State) {b : Char} (hb : isBlank b = true) : st.skip b = st := by
  have h1 : b ≠ '(' := by rintro rfl; exact absurd hb (by decide)
  have h2 : b ≠ ')' := by rintro rfl; exact absurd hb (by decide)
  simp [State.skip, h1, h2]

/-! ## Scanning by characters -/

theorem markerFree_of_suffix {x y : List Char} (h : x <:+ y) (hy : markerFree y = true) :
    markerFree x = true := by
  obtain ⟨p, rfl⟩ := h
  induction p with
  | nil => exact hy
  | cons c p ih => exact ih (markerFree_cons.1 hy).2

/-- Outside a comment, a text with no comment marker neither opens a comment nor ends the line. -/
theorem scanChars_markerFree (st : State) (cs : List Char) (hc : st.inComment = false)
    (hm : markerFree cs = true) :
    (scanChars st cs).2.2 = .next ∧ (scanChars st cs).2.1.inComment = false := by
  induction st, cs using scanChars.induct with
  | case1 st => simp [scanChars, hc]
  | case2 st rest => simp [markerFree] at hm
  | case3 st c rest _ hcomm => simp_all
  | case4 st c rest _ hcomm _ => simp_all
  | case5 st c rest _ hcomm hslash => simp_all [markerFree_cons]
  | case6 st c rest hne hcomm hslash t after hread t₁ st₁ hrec ts st₂ flow hscan ih =>
    have hc₁ : st₁.inComment = false := (State.inComment_of_record hrec).trans hc
    have := ih hc₁ (markerFree_of_suffix (readToken?_suffix hread) hm)
    rw [hscan] at this
    rw [scanChars_token hc hread, hrec, hscan]
    exact this
  | case7 st c rest hne hcomm hslash hread ih =>
    have hm' := markerFree_cons.1 hm
    rw [scanChars_skip hc hm'.1 hread]
    exact ih (by simpa using hc) hm'.2

/-- Outside a comment, where the second text starts with a character that is no word character
and no marker spans the join, the scan of joined texts is the scan of the first and then of the
second. -/
theorem scanChars_append (st : State) (x z : List Char) (hc : st.inComment = false)
    (hm : markerFree (x ++ z) = true) (hz : ∀ c ∈ z.head?, isWordChar c = false) :
    scanChars st (x ++ z) =
      ((scanChars st x).1 ++ (scanChars (scanChars st x).2.1 z).1,
        (scanChars (scanChars st x).2.1 z).2) := by
  induction st, x using scanChars.induct with
  | case1 st => simp [scanChars]
  | case2 st rest => simp [markerFree] at hm
  | case3 st c rest _ hcomm => simp_all
  | case4 st c rest _ hcomm _ => simp_all
  | case5 st c rest _ hcomm hslash =>
    obtain ⟨rfl, hr⟩ := hslash
    cases rest with
    | nil => simp at hr
    | cons d rest => simp at hr; subst hr; simp [markerFree] at hm
  | case6 st c rest hne hcomm hslash t after hread t₁ st₁ hrec ts st₂ flow hscan ih =>
    -- the token reads the same when `z` follows, and leaves `after ++ z`
    have hread' := readToken?_some_congr
      (show rest.takeWhile isWordChar = (rest ++ z).takeWhile isWordChar from
        (takeWhile_append_of_head hz).symm) hread
    have hlen := List.IsSuffix.length_le (readToken?_suffix hread)
    rw [List.drop_append_of_le_length (by simp at hlen; omega), ← readToken?_eq_drop hread] at hread'
    have hc₁ : st₁.inComment = false := (State.inComment_of_record hrec).trans hc
    have hm₁ : markerFree (after ++ z) = true :=
      markerFree_of_suffix ((readToken?_suffix hread').trans (by simp)) hm
    rw [List.cons_append, scanChars_token hc hread', scanChars_token hc hread, hrec]
    simp only [ih hc₁ hm₁, hscan, List.cons_append]
  | case7 st c rest hne hcomm hslash hread ih =>
    rw [List.cons_append] at hm
    have hm' := markerFree_cons.1 hm
    have hread' := readToken?_none_congr
      (show rest.takeWhile isWordChar = (rest ++ z).takeWhile isWordChar from
        (takeWhile_append_of_head hz).symm) hread
    rw [List.cons_append, scanChars_skip hc hm'.1 hread',
      scanChars_skip hc (startsNoMarker_of_guards hne hslash) hread]
    exact ih (by simpa using hc) hm'.2

/-- Outside a comment, white space at the start of a text is skipped. -/
theorem scanChars_blanks (st : State) (hc : st.inComment = false) :
    ∀ {b : List Char}, (∀ c ∈ b, isBlank c = true) → ∀ z, scanChars st (b ++ z) = scanChars st z
  | [], _, _ => rfl
  | c :: b, hb, z => by
    have hc' := hb c (List.mem_cons_self ..)
    have hs : c ≠ '/' := (ne_slash_of_isBlank hc').1
    rw [List.cons_append, scanChars_skip hc (fun h => absurd h hs) (readToken?_of_isBlank hc' _),
      State.skip_of_isBlank st hc']
    exact scanChars_blanks st hc (fun d hd => hb d (List.mem_cons_of_mem _ hd)) z

/-! ## Words -/

/-- A word of letters, digits and underscores is one name token. -/
theorem readToken?_of_all_isNameChar {c : Char} {rest : List Char}
    (h : (c :: rest).all isNameChar = true) : readToken? (c :: rest) = some (nameToken (c :: rest), []) := by
  simp only [List.all_cons, Bool.and_eq_true] at h
  have hat : c ≠ '@' := by rintro rfl; exact absurd h.1 (by decide)
  have hall : ∀ d ∈ rest, isNameChar d = true := by simpa using h.2
  simp [readToken?, Punct.ofChar?_of_isNameChar h.1, hat, h.1, List.takeWhile_eq_self_iff.2 hall,
    List.dropWhile_eq_nil_iff.2 hall]

/-- Outside a comment, a word with no marker that spells no parenthesised keyword is read by
characters as the lexer reads it. -/
theorem scanWord_eq_scanChars (st : State) (hc : st.inComment = false) {w : List Char}
    (hp : spellsParenthesised w = false) : scanWord st w = scanChars st w := by
  unfold scanWord
  simp only [hc, Bool.false_eq_true, if_false]
  split
  · next t ht =>
    rcases wholeToken?_eq_some ht with ⟨c, p, rfl, hp', rfl⟩ | ⟨k, hk, rfl⟩
    · rw [scanChars_token hc (by simp [readToken?, hp'] : readToken? [c] = some (.punct p, []))]
      simp [scanChars]
    · -- a keyword spelled by name characters is read as one name
      have hw : k.spelling.toList = w := by
        rw [Keyword.ofWord?_eq_some hk, String.toList_ofList]
      have hpar : k.parenthesised = false := by simpa [spellsParenthesised, hk] using hp
      have hall := Keyword.all_isNameChar hpar
      rw [hw] at hall
      obtain ⟨c, rest, rfl⟩ := List.exists_cons_of_ne_nil (hw ▸ (Keyword.spelling_word k).1)
      rw [scanChars_token hc (readToken?_of_all_isNameChar hall)]
      simp only [nameToken, hk]
      simp [scanChars]
  · rfl

theorem markerFree_left_of_append {x y : List Char} (h : markerFree (x ++ y) = true) :
    markerFree x = true := by
  induction x with
  | nil => rfl
  | cons c x ih =>
    rw [List.cons_append] at h
    obtain ⟨hc, hxy⟩ := markerFree_cons.1 h
    refine markerFree_cons.2 ⟨fun hs => ?_, ih hxy⟩
    cases x with
    | nil => simp
    | cons d x => simpa using hc hs

/-- Outside a comment, a word with no marker neither opens a comment nor ends the line. -/
theorem scanWord_markerFree (st : State) (w : List Char) (hc : st.inComment = false)
    (hm : markerFree w = true) :
    (scanWord st w).2.2 = .next ∧ (scanWord st w).2.1.inComment = false := by
  unfold scanWord
  simp only [hc, Bool.false_eq_true, if_false]
  split
  · simp [hc]
  · exact scanChars_markerFree st w hc hm

theorem scanWords_cons_lineComment {st : State} {w : List Char}
    (h : (scanWord st w).2.2 = .lineComment) (ws : List (List Char)) :
    scanWords st (w :: ws) = ((scanWord st w).1, (scanWord st w).2.1) := by
  rcases hs : scanWord st w with ⟨ts, st', flow⟩
  rw [hs] at h
  subst h
  simp [scanWords, hs]

theorem scanWords_cons_next {st : State} {w : List Char} (h : (scanWord st w).2.2 = .next)
    (ws : List (List Char)) :
    scanWords st (w :: ws) =
      ((scanWord st w).1 ++ (scanWords (scanWord st w).2.1 ws).1,
        (scanWords (scanWord st w).2.1 ws).2) := by
  rcases hs : scanWord st w with ⟨ts, st', flow⟩
  rw [hs] at h
  subst h
  simp [scanWords, hs]

/-- Words with no marker are scanned one after the other, and the scan goes on after them from
the state they leave. -/
theorem scanWords_append_of_markerFree (st : State) (hc : st.inComment = false) :
    ∀ (ws vs : List (List Char)), (∀ w ∈ ws, markerFree w = true) →
      scanWords st (ws ++ vs) =
        ((scanWords st ws).1 ++ (scanWords (scanWords st ws).2 vs).1,
          (scanWords (scanWords st ws).2 vs).2) ∧
      (scanWords st ws).2.inComment = false
  | [], vs, _ => ⟨rfl, hc⟩
  | w :: ws, vs, hs => by
    obtain ⟨hflow, hc'⟩ := scanWord_markerFree st w hc (hs w (List.mem_cons_self ..))
    obtain ⟨happ, hc''⟩ := scanWords_append_of_markerFree _ hc' ws vs
      (fun v hv => hs v (List.mem_cons_of_mem _ hv))
    rw [List.cons_append, scanWords_cons_next hflow, scanWords_cons_next hflow, happ]
    exact ⟨by simp, hc''⟩

/-- The cut `words` makes at the first word of a text: white space, the word, and the rest, which
starts at white space. -/
theorem words_cut {x rest : List Char} {c : Char} (h : x.dropWhile isBlank = c :: rest) :
    x = x.takeWhile isBlank ++ ((c :: rest.takeWhile (!isBlank ·)) ++ rest.dropWhile (!isBlank ·)) ∧
      (∀ d ∈ x.takeWhile isBlank, isBlank d = true) ∧
      (∀ d ∈ c :: rest.takeWhile (!isBlank ·), isBlank d = false) ∧
      (rest.dropWhile (!isBlank ·)).head?.all isBlank = true := by
  refine ⟨?_, fun d hd => List.all_eq_true.1 (List.all_takeWhile (l := x)) d hd, ?_, ?_⟩
  · rw [List.cons_append, List.takeWhile_append_dropWhile, ← h, List.takeWhile_append_dropWhile]
  · intro d hd
    rcases List.mem_cons.1 hd with rfl | hd
    · have := List.head?_dropWhile_not isBlank x
      rw [h] at this
      simpa using this
    · simpa using List.mem_takeWhile_imp hd
  · cases hd : rest.dropWhile (!isBlank ·) with
    | nil => rfl
    | cons d t =>
      have := List.head?_dropWhile_not (fun x => !isBlank x) rest
      rw [hd] at this
      simpa using this

/-- Outside a comment, the scan of a text's words is the scan of its characters, when the text
holds no marker, its white space is no word character, and none of its words spells a
parenthesised keyword. -/
theorem scanWords_words (y : List Char) (st : State) (hc : st.inComment = false)
    (hm : markerFree y = true) (hb : ∀ c ∈ y, isBlank c = true → isWordChar c = false)
    (hp : ∀ v ∈ words y, spellsParenthesised v = false) :
    scanWords st (words y) = ((scanChars st y).1, (scanChars st y).2.1) := by
  fun_induction words y generalizing st with
  | case1 y h =>
    have hblank : ∀ c ∈ y, isBlank c = true := by simpa using List.dropWhile_eq_nil_iff.1 h
    rw [← List.append_nil y, scanChars_blanks st hc hblank]
    simp [scanWords, scanChars]
  | case2 y c rest h ih =>
    -- the first word `w`, after white space, and the text `r` after it, which starts at white space
    obtain ⟨hy, hblank, -, hr0⟩ := words_cut h
    have hmwr := markerFree_of_suffix ⟨_, hy.symm⟩ hm
    have hsub : ∀ d ∈ rest.dropWhile (!isBlank ·), d ∈ y := by
      intro d hd
      rw [hy]
      exact List.mem_append_right _ (List.mem_append_right _ hd)
    have hhead : ∀ d ∈ (rest.dropWhile (!isBlank ·)).head?, isWordChar d = false := by
      intro d hd
      rw [Option.mem_def.1 hd] at hr0
      exact hb d (hsub d (List.mem_of_mem_head? hd)) (by simpa using hr0)
    have hpw := hp _ (List.mem_cons_self ..)
    obtain ⟨hflow, hc'⟩ := scanChars_markerFree st _ hc (markerFree_left_of_append hmwr)
    rw [hy, scanChars_blanks st hc hblank, scanChars_append st _ _ hc hmwr hhead]
    simp only [scanWords, scanWord_eq_scanChars st hc hpw, hflow]
    rw [ih _ hc' (markerFree_of_suffix ⟨_, rfl⟩ hmwr) (fun d hd => hb d (hsub d hd))
      (fun v hv => hp v (List.mem_cons_of_mem _ hv))]

end Lexer

end SwiftAccess
