import SwiftAccess.Proofs.CodeWords

/-!
# Scanning plain words

`Lexer.scanWords` reads a line's words from left to right, threading the lexer state, and stops
at a `//` comment. Words without a slash neither start a comment nor end the line, so a scan over
such words followed by others is the scan of the first words followed by the scan of the others
from the state they leave (`Lexer.scanWords_append`).

Each branch of `Lexer.scanChars` on a non-empty text has its own lemma, under the guards the
branch tests (`Lexer.scanChars_close`, `Lexer.scanChars_unclosed`, `Lexer.scanChars_lineComment`,
`Lexer.scanChars_token`, `Lexer.scanChars_skip`); every induction over the scan cites them.

A word that spells a keyword is one token, recorded in the state before it, and leaves that state
alone (`Lexer.scanWord_keyword`): this is what lets a keyword word be inserted, replaced or removed
without touching how the words around it are read. The first token of a word that starts with a
name character is likewise recorded in the state before the word (`Lexer.scanWord_head`), and a
recorded keyword stays a keyword only outside parentheses (`Lexer.State.depth_of_record_keyword`).
-/

namespace SwiftAccess

/-- A word is a keyword only by spelling it. -/
theorem Keyword.ofWord?_eq_some {w : String} {k : Keyword} (h : Keyword.ofWord? w = some k) :
    k.spelling = w := by
  have := List.find?_some h
  simpa using this

namespace Lexer

open Text

namespace State

@[simp] theorem record_keyword_snd (st : State) (k : Keyword) : (st.record (.keyword k)).2 = st := by
  simp only [record]
  split <;> simp

theorem record_keyword_fst (st : State) (k : Keyword) :
    (st.record (.keyword k)).1 = if 0 < st.parenDepth then .identifier k.spelling else .keyword k :=
  rfl

/-- A token recorded as a keyword was recorded outside parentheses. -/
theorem depth_of_record_keyword {st : State} {t : Token} {k : Keyword}
    (h : (st.record t).1 = .keyword k) : st.parenDepth = 0 := by
  simp only [record] at h
  split at h
  · split at h
    · cases h
    · omega
  · cases h; simp_all

end State

/-! ## One step of the scan

One lemma for each branch of `scanChars` on a non-empty text, under the guards the branch tests.
The inductions over the scan cite these and do not unfold it. -/

/-- Inside a comment, the lexer goes on after the first `*/`. -/
theorem scanChars_close {st : State} (hc : st.inComment = true) {c : Char}
    {rest pre after : List Char} (hne : ∀ r, c = '/' → rest = '*' :: r → False)
    (h : breakOn? blockCloseMark (c :: rest) = some (pre, after)) :
    scanChars st (c :: rest) = scanChars { st with inComment := false } after := by
  rw [scanChars.eq_3 _ _ _ hne]
  simp only [hc, if_true]
  split
  · next pre' after' heq => rw [h] at heq; cases heq; rfl
  · next heq => rw [h] at heq; cases heq

/-- Inside a comment that does not close, the lexer reads nothing more. -/
theorem scanChars_unclosed {st : State} (hc : st.inComment = true) {c : Char} {rest : List Char}
    (hne : ∀ r, c = '/' → rest = '*' :: r → False)
    (h : breakOn? blockCloseMark (c :: rest) = none) : scanChars st (c :: rest) = ([], st, .next) := by
  rw [scanChars.eq_3 _ _ _ hne]
  simp only [hc, if_true]
  split
  · next pre' after' heq => rw [h] at heq; cases heq
  · rfl

/-- Outside a comment, `//` ends the line. -/
theorem scanChars_lineComment {st : State} (hc : st.inComment = false) {c : Char}
    {rest : List Char} (h : c = '/' ∧ rest.head? = some '/') :
    scanChars st (c :: rest) = ([], st, .lineComment) := by
  have hne : ∀ r, c = '/' → rest = '*' :: r → False := fun r _ hr => by simp [hr] at h
  rw [scanChars.eq_3 _ _ _ hne]
  simp only [hc, Bool.false_eq_true, if_false, h, and_self, if_true]

theorem readToken?_slash (r : List Char) : readToken? ('/' :: r) = none := by
  simp [readToken?, Punct.ofChar?, show isNameChar '/' = false by decide]

/-- Outside a comment, a token read at the start of a text is recorded, and the scan goes on after
it. -/
theorem scanChars_token {st : State} (hc : st.inComment = false) {c : Char}
    {rest after : List Char} {t : Token} (hread : readToken? (c :: rest) = some (t, after)) :
    scanChars st (c :: rest) =
      ((st.record t).1 :: (scanChars (st.record t).2 after).1,
        (scanChars (st.record t).2 after).2) := by
  have hs : c ≠ '/' := by rintro rfl; rw [readToken?_slash] at hread; cases hread
  rw [scanChars.eq_3 _ _ _ (fun _ h _ => hs h)]
  simp only [hc, Bool.false_eq_true, if_false, hs, false_and]
  split
  · next t' after' heq =>
    rw [hread] at heq
    simp only [Option.some.injEq, Prod.mk.injEq] at heq
    obtain ⟨rfl, rfl⟩ := heq
    rfl
  · next heq => rw [hread] at heq; cases heq

/-- Outside a comment, a character that starts no marker and no token is skipped. -/
theorem scanChars_skip {st : State} (hc : st.inComment = false) {c : Char} {rest : List Char}
    (h : c = '/' → rest.head? ≠ some '*' ∧ rest.head? ≠ some '/')
    (hread : readToken? (c :: rest) = none) : scanChars st (c :: rest) = scanChars (st.skip c) rest := by
  have hne : ∀ r, c = '/' → rest = '*' :: r → False := fun r hs hr => (h hs).1 (by simp [hr])
  have hline : ¬(c = '/' ∧ rest.head? = some '/') := fun h' => (h h'.1).2 h'.2
  rw [scanChars.eq_3 _ _ _ hne]
  simp only [hc, Bool.false_eq_true, if_false, hline]
  split
  · next t' after' heq => rw [hread] at heq; cases heq
  · rfl

/-- The hypotheses under which a scan reads a character in code as code: no `/*` and no `//`
starts at it. -/
theorem startsNoMarker_of_cases {c : Char} {rest : List Char}
    (h1 : ∀ r, c = '/' → rest = '*' :: r → False) (h2 : ∀ r, c = '/' → rest = '/' :: r → False) :
    c = '/' → rest.head? ≠ some '*' ∧ rest.head? ≠ some '/' := by
  intro hs
  cases rest with
  | nil => simp
  | cons d t =>
    constructor
    · intro hd; cases hd; exact h1 t hs rfl
    · intro hd; cases hd; exact h2 t hs rfl

/-- The guards of the skip branch of `scanChars`, as its induction states them. -/
theorem startsNoMarker_of_guards {c : Char} {rest : List Char}
    (hne : ∀ r, c = '/' → rest = '*' :: r → False) (hslash : ¬(c = '/' ∧ rest.head? = some '/')) :
    c = '/' → rest.head? ≠ some '*' ∧ rest.head? ≠ some '/' :=
  startsNoMarker_of_cases hne fun _ hs hr => hslash ⟨hs, by simp [hr]⟩

/-- Reading characters without a slash outside a comment starts no comment and never ends the
line. -/
theorem scanChars_plain (st : State) (cs : List Char) (hc : st.inComment = false)
    (hs : '/' ∉ cs) : (scanChars st cs).2.2 = .next ∧ (scanChars st cs).2.1.inComment = false := by
  induction st, cs using scanChars.induct with
  | case1 st => simp [scanChars, hc]
  | case2 st rest => simp at hs
  | case3 st c rest _ hcomm => simp_all
  | case4 st c rest _ hcomm _ => simp_all
  | case5 st c rest _ hcomm hslash => simp_all
  | case6 st c rest hne hcomm hslash t after hread t₁ st₁ hrec ts st₂ flow hscan ih =>
    have hsuf := readToken?_suffix hread
    have hc₁ : st₁.inComment = false := by
      have := State.record_inComment st t
      rw [hrec] at this
      simpa [hc] using this
    have := ih hc₁ (fun h => hs (hsuf.subset h))
    rw [hscan] at this
    rw [scanChars_token hc hread, hrec, hscan]
    exact this
  | case7 st c rest hne hcomm hslash hread ih =>
    rw [scanChars_skip hc (startsNoMarker_of_guards hne hslash) hread]
    exact ih (by simpa using hc) (fun h => hs (List.mem_cons_of_mem _ h))

theorem scanWord_plain (st : State) (w : List Char) (hc : st.inComment = false) (hs : '/' ∉ w) :
    (scanWord st w).2.2 = .next ∧ (scanWord st w).2.1.inComment = false := by
  unfold scanWord
  simp only [hc, Bool.false_eq_true, if_false]
  split
  · simp [hc]
  · exact scanChars_plain st w hc hs

/-- Words without a slash are scanned one after the other, and the scan goes on after them from
the state they leave. -/
theorem scanWords_append (st : State) (hc : st.inComment = false) :
    ∀ (ws vs : List (List Char)), (∀ w ∈ ws, '/' ∉ w) →
      scanWords st (ws ++ vs) =
        ((scanWords st ws).1 ++ (scanWords (scanWords st ws).2 vs).1,
          (scanWords (scanWords st ws).2 vs).2) ∧
      (scanWords st ws).2.inComment = false
  | [], vs, _ => ⟨rfl, hc⟩
  | w :: ws, vs, hs => by
    obtain ⟨hflow, hc'⟩ := scanWord_plain st w hc (hs w (List.mem_cons_self ..))
    rcases h : scanWord st w with ⟨ts, st', flow⟩
    rw [h] at hflow hc'
    simp only at hflow hc'
    subst hflow
    obtain ⟨happ, hc''⟩ := scanWords_append st' hc' ws vs
      (fun v hv => hs v (List.mem_cons_of_mem _ hv))
    refine ⟨?_, by simpa [scanWords, h] using hc''⟩
    simp only [List.cons_append, scanWords, h, happ, List.append_assoc]

/-! ## Keyword words -/

/-- A keyword's spelling is a non-empty plain word. -/
theorem Keyword.spelling_word (k : Keyword) :
    k.spelling.toList ≠ [] ∧ (∀ d ∈ k.spelling.toList, isBlank d = false) ∧
      Plain k.spelling.toList := by
  have h : k.spelling.toList ≠ [] ∧ k.spelling.toList.all (!isBlank ·) = true ∧
      Plain k.spelling.toList := by
    cases k <;> decide
  exact ⟨h.1, forall_not_blank_of_all h.2.1, h.2.2⟩

theorem Keyword.wholeToken?_spelling (k : Keyword) :
    wholeToken? k.spelling.toList = some (.keyword k) := by
  cases k <;> decide

theorem words_spelling (k : Keyword) : words k.spelling.toList = [k.spelling.toList] := by
  obtain ⟨hne, hnb, -⟩ := Keyword.spelling_word k
  obtain ⟨c, w, hw⟩ := List.exists_cons_of_ne_nil hne
  rw [hw] at hnb ⊢
  exact words_single (hnb c (List.mem_cons_self ..)) fun d hd => hnb d (List.mem_cons_of_mem _ hd)

/-- A keyword word is one token, recorded in the state before it, and leaves that state alone. -/
theorem scanWord_keyword (st : State) (hc : st.inComment = false) (k : Keyword) :
    scanWord st k.spelling.toList = ([(st.record (.keyword k)).1], st, .next) := by
  simp [scanWord, hc, Keyword.wholeToken?_spelling]

theorem scanWords_keyword (st : State) (hc : st.inComment = false) (k : Keyword)
    (vs : List (List Char)) :
    scanWords st (k.spelling.toList :: vs) =
      ((st.record (.keyword k)).1 :: (scanWords st vs).1, (scanWords st vs).2) := by
  simp [scanWords, scanWord_keyword st hc k]

/-! ## The first token of a word -/

/-- A word read in one piece is one punctuation character or a keyword's spelling. -/
theorem wholeToken?_eq_some {w : List Char} {t : Token} (h : wholeToken? w = some t) :
    (∃ c p, w = [c] ∧ Punct.ofChar? c = some p ∧ t = .punct p) ∨
      ∃ k, Keyword.ofWord? (String.ofList w) = some k ∧ t = .keyword k := by
  unfold wholeToken? at h
  split at h
  · next c =>
    split at h
    · next p hp => cases h; exact .inl ⟨c, p, rfl, hp, rfl⟩
    · obtain ⟨k, hk, rfl⟩ := Option.map_eq_some_iff.1 h
      exact .inr ⟨k, hk, rfl⟩
  · obtain ⟨k, hk, rfl⟩ := Option.map_eq_some_iff.1 h
    exact .inr ⟨k, hk, rfl⟩

/-- A character is read as punctuation exactly when it is that punctuation's character. -/
theorem Punct.ofChar?_eq_some {c : Char} {p : Punct} : Punct.ofChar? c = some p ↔ c = p.char := by
  constructor
  · intro h
    unfold Punct.ofChar? at h
    split at h <;> cases h <;> rfl
  · rintro rfl
    cases p <;> rfl

theorem Punct.ofChar?_of_isNameChar {c : Char} (h : isNameChar c = true) : Punct.ofChar? c = none := by
  cases hp : Punct.ofChar? c with
  | none => rfl
  | some p =>
    -- no punctuation character is a name character
    obtain rfl := Punct.ofChar?_eq_some.1 hp
    revert h
    cases p <;> decide

/-- The first token of a word that starts with a name character is recorded in the state before
the word. -/
theorem scanWord_head (st : State) (hc : st.inComment = false) {c : Char} (hn : isNameChar c = true)
    (w : List Char) : ∃ t ts, (scanWord st (c :: w)).1 = (st.record t).1 :: ts := by
  unfold scanWord
  simp only [hc, Bool.false_eq_true, if_false]
  split
  · exact ⟨_, [], rfl⟩
  · -- a name character starts a token
    have hat : c ≠ '@' := by rintro rfl; exact absurd hn (by decide)
    cases hread : readToken? (c :: w) with
    | some p => exact ⟨_, _, by rw [scanChars_token hc hread]⟩
    | none => simp [readToken?, Punct.ofChar?_of_isNameChar hn, hat, hn] at hread

end Lexer

end SwiftAccess
