import SwiftAccess.Lexer.Line
import Mathlib

/-!
# The words of a line's code

Before any token is read, a line goes through three text stages: `Lexer.codeOf` cuts off what a
comment or multiline string hides, `Lexer.stripLiterals` removes string literals, and `Text.words`
cuts the rest at white space. `Lexer.codeWords` is the result, and `Lexer.scanLine_eq` says that a
line's tokens are the scan of these words, followed by the contextual `open` rule.

A stretch of text is `Lexer.Plain` when it holds no quote and no slash: no literal, comment or
multiline string can start inside it. `Lexer.PlainCode` widens this to text with string literals
in it: each literal it opens closes inside it, nothing but plain text is left once they are cut
out (`Lexer.stripLiterals_append_of_closed`), and no `//` or `"""` hides in a literal to change
whether the line opens a multiline string. The main fact is `Lexer.codeWords_append_code`: a
start of a line that is plain code, set off from the rest by white space, passes through all three
stages as itself with its literals cut out, while the rest is cut as if it stood alone. Edits
that change only such a start of a line therefore change the line's words in a way that can be
read off the text.
-/

namespace SwiftAccess

namespace Text

/-- The boundary between two texts falls at white space or at an end, so no word spans it. -/
def Apart (x z : List Char) : Prop := x.getLast?.all isBlank = true ∨ z.head?.all isBlank = true

/-- A text with no white space, checked by evaluating `List.all`. With the whole library in scope
the bounded statement itself is decided by trying every character, so it is not decided directly. -/
theorem forall_not_blank_of_all {cs : List Char} (h : cs.all (!isBlank ·) = true) :
    ∀ c ∈ cs, isBlank c = false := by
  simpa using List.all_eq_true.1 h

/-- `words` unfolded once: the first word starts at the first character that is not white
space. -/
theorem words_eq (cs : List Char) : words cs = match cs.dropWhile isBlank with
    | [] => []
    | c :: rest => (c :: rest.takeWhile (!isBlank ·)) :: words (rest.dropWhile (!isBlank ·)) := by
  rw [words]
  split <;> next h => rw [h]

@[simp] theorem words_nil : words [] = [] := by rw [words_eq]; rfl

theorem words_cons_blank {c : Char} (hc : isBlank c = true) (cs : List Char) :
    words (c :: cs) = words cs := by
  rw [words_eq, words_eq cs]
  simp only [List.dropWhile_cons, hc, if_true]

theorem words_cons_word {c : Char} (hc : isBlank c = false) (cs : List Char) :
    words (c :: cs) = (c :: cs.takeWhile (!isBlank ·)) :: words (cs.dropWhile (!isBlank ·)) := by
  rw [words_eq]
  simp only [List.dropWhile_cons, hc, Bool.false_eq_true, if_false]

theorem words_eq_nil : ∀ {cs : List Char}, (∀ c ∈ cs, isBlank c = true) → words cs = []
  | [], _ => words_nil
  | c :: cs, h => by
    rw [words_cons_blank (h c (List.mem_cons_self ..))]
    exact words_eq_nil fun d hd => h d (List.mem_cons_of_mem _ hd)

/-- A word followed by white space or nothing is the first word. -/
theorem words_word_append {c : Char} {w : List Char} (hc : isBlank c = false)
    (hw : ∀ d ∈ w, isBlank d = false) {rest : List Char} (hr : rest.head?.all isBlank = true) :
    words (c :: w ++ rest) = (c :: w) :: words rest := by
  have hw' : ∀ d ∈ w, (!isBlank d) = true := by simpa using hw
  have hstop : ∀ d r, rest = d :: r → isBlank d = true := by
    intro d r hd; simpa [hd] using hr
  rw [List.cons_append, words_cons_word hc, List.takeWhile_append_of_pos hw',
    List.dropWhile_append_of_pos hw']
  cases rest with
  | nil => simp
  | cons d r => simp [hstop d r rfl]

theorem Apart.of_cons {c : Char} {x z : List Char} (h : Apart (c :: x) z) : Apart x z := by
  cases x with
  | nil => exact .inl rfl
  | cons d x =>
    rcases h with h | h
    · left; simpa [List.getLast?_cons] using h
    · exact .inr h

theorem words_single {c : Char} {w : List Char} (hc : isBlank c = false)
    (hw : ∀ d ∈ w, isBlank d = false) : words (c :: w) = [c :: w] := by
  simpa using @words_word_append _ _ hc hw [] rfl

/-- Texts that meet at white space are cut into words one after the other. -/
theorem words_append : ∀ (x z : List Char), Apart x z → words (x ++ z) = words x ++ words z
  | [], z, _ => by simp
  | c :: x, z, h => by
    cases hc : isBlank c with
    | true =>
      rw [List.cons_append, words_cons_blank hc, words_cons_blank hc]
      exact words_append x z h.of_cons
    | false =>
      -- `c :: x` is its first word `c :: w` and a rest, empty or starting at white space
      have hw : ∀ d ∈ x.takeWhile (!isBlank ·), isBlank d = false := fun d hd => by
        simpa using List.mem_takeWhile_imp hd
      have hx := (List.takeWhile_append_dropWhile (p := (!isBlank ·)) (l := x)).symm
      generalize x.takeWhile (!isBlank ·) = w at hw hx
      cases hd : x.dropWhile (!isBlank ·) with
      | nil =>
        rw [hd, List.append_nil] at hx
        subst x
        -- `c :: w` is a single word, so `z` starts at white space
        have hz : z.head?.all isBlank = true := by
          refine h.resolve_left fun hl => ?_
          obtain ⟨d, hl'⟩ :=
            Option.isSome_iff_exists.1 (List.getLast?_isSome.2 (List.cons_ne_nil c w))
          rw [hl'] at hl
          rcases List.mem_cons.1 (List.mem_of_getLast? hl') with rfl | hdm
          · simp [hc] at hl
          · simp [hw d hdm] at hl
        rw [words_word_append hc hw hz, words_single hc hw]
        rfl
      | cons b r =>
        rw [hd] at hx
        have hb : (b :: r).head?.all isBlank = true := by
          simpa [hd] using List.head_dropWhile_not (!isBlank ·) (l := x) (by simp [hd])
        -- the rest meets `z` where `c :: x` does
        have hap : Apart (x.dropWhile (!isBlank ·)) z := h.imp (fun hl => by
          rwa [hx, ← List.cons_append, List.getLast?_append_of_ne_nil _ (List.cons_ne_nil b r),
            ← hd] at hl) id
        have ih := words_append (x.dropWhile (!isBlank ·)) z hap
        rw [hd] at ih
        rw [hx, ← List.cons_append, List.append_assoc, words_word_append hc hw (by simpa using hb),
          words_word_append hc hw hb, ih]
        rfl
termination_by x => x.length
decreasing_by
  all_goals
    have := (List.dropWhile_sublist (p := (!isBlank ·)) (l := x)).length_le
    simp only [List.length_cons]
    omega

/-- A pattern without white space is a prefix of `a ++ y` only if it is a prefix of `a`, when `a`
ends at white space or `y` starts at it. -/
theorem isPrefixOf_append_apart :
    ∀ {pat a : List Char} (y : List Char), (∀ c ∈ pat, isBlank c = false) →
      (a ≠ [] ∧ a.getLast?.all isBlank = true) ∨ y.head?.all isBlank = true →
      pat.isPrefixOf (a ++ y) = pat.isPrefixOf a
  | [], _, _, _, _ => by simp [List.isPrefixOf]
  | p :: ps, [], y, hp, h => by
    have hy : y.head?.all isBlank = true := by simpa using h
    cases y with
    | nil => rfl
    | cons d y =>
      have hd : isBlank d = true := by simpa using hy
      have : (p == d) = false := by
        simp only [beq_eq_false_iff_ne]
        rintro rfl
        simp [hp p (List.mem_cons_self ..)] at hd
      simp [List.isPrefixOf, this]
  | p :: ps, c :: a, y, hp, h => by
    simp only [List.cons_append, List.isPrefixOf]
    by_cases hpc : p = c
    · subst hpc
      have h' : (a ≠ [] ∧ a.getLast?.all isBlank = true) ∨ y.head?.all isBlank = true := by
        cases a with
        | nil =>
          rcases h with ⟨-, h⟩ | h
          · simp [hp p (List.mem_cons_self ..)] at h
          · exact .inr h
        | cons d a =>
          rcases h with ⟨-, h⟩ | h
          · exact .inl ⟨by simp, by simpa [List.getLast?_cons] using h⟩
          · exact .inr h
      rw [isPrefixOf_append_apart y (fun c hc => hp c (List.mem_cons_of_mem _ hc)) h']
    · have : (p == c) = false := beq_eq_false_iff_ne.2 hpc
      simp [this]

/-- In texts that meet at white space, a pattern without white space is found in the first text
if it occurs there, and in the second otherwise. -/
theorem breakOn?_append_apart {pat : List Char} (hp : ∀ c ∈ pat, isBlank c = false) :
    ∀ {x : List Char} (y : List Char), Apart x y →
      breakOn? pat (x ++ y) = match breakOn? pat x with
        | some (b, a) => some (b, a ++ y)
        | none => (breakOn? pat y).map fun r => (x ++ r.1, r.2)
  | [], y, _ => by
    cases pat with
    | nil => simp [breakOn?]; cases y <;> simp [breakOn?, List.isPrefixOf]
    | cons p ps => simp [breakOn?, List.isPrefixOf]
  | c :: x, y, h => by
    have hpre : pat.isPrefixOf (c :: x ++ y) = pat.isPrefixOf (c :: x) :=
      isPrefixOf_append_apart y hp (by
      rcases h with h | h
      · exact .inl ⟨by simp, h⟩
      · exact .inr h)
    rw [List.cons_append, breakOn?, breakOn?, ← List.cons_append, hpre]
    split
    · next hps =>
      have hle : pat.length ≤ (c :: x).length :=
        (List.isPrefixOf_iff_prefix.1 hps).length_le
      rw [List.drop_append_of_le_length hle]
    · rw [breakOn?_append_apart hp y h.of_cons]
      cases breakOn? pat x with
      | some r => rfl
      | none => cases breakOn? pat y <;> rfl

end Text

namespace Lexer

open Text

/-- A text in which no string literal, comment or multiline string can start: it holds no quote
and no slash. -/
def Plain (cs : List Char) : Prop := ∀ c ∈ cs, c ≠ '"' ∧ c ≠ '/'

instance (cs : List Char) : Decidable (Plain cs) := List.decidableBAll _ cs

theorem Plain.append {x y : List Char} (hx : Plain x) (hy : Plain y) : Plain (x ++ y) := by
  intro c hc
  rcases List.mem_append.1 hc with hc | hc
  · exact hx c hc
  · exact hy c hc

theorem Plain.left {x y : List Char} (h : Plain (x ++ y)) : Plain x :=
  fun c hc => h c (List.mem_append_left _ hc)

theorem Plain.right {x y : List Char} (h : Plain (x ++ y)) : Plain y :=
  fun c hc => h c (List.mem_append_right _ hc)

/-- A marker whose first character does not occur in `x` is found in `x ++ z` where it is found
in `z`. -/
theorem breakOn?_append {pat : List Char} {p : Char} (hp : pat.head? = some p) :
    ∀ {x : List Char} (z : List Char), p ∉ x →
      breakOn? pat (x ++ z) = (breakOn? pat z).map fun r => (x ++ r.1, r.2)
  | [], z, _ => by simp
  | c :: x, z, hx => by
    have hc : pat.isPrefixOf (c :: (x ++ z)) = false := by
      obtain ⟨q, pat', rfl⟩ : ∃ q pat', pat = q :: pat' := by
        cases pat with
        | nil => simp at hp
        | cons q pat' => exact ⟨q, pat', rfl⟩
      simp only [List.head?_cons, Option.some.injEq] at hp
      subst hp
      have hqc : (q == c) = false := by
        simpa using fun h : q = c => hx (h ▸ List.mem_cons_self ..)
      simp [List.isPrefixOf, hqc]
    rw [List.cons_append, breakOn?, hc, if_neg Bool.false_ne_true,
      breakOn?_append hp z (fun h => hx (List.mem_cons_of_mem _ h))]
    cases breakOn? pat z <;> rfl

theorem multilineOpening?_append {x : List Char} (hx : Plain x) (z : List Char) :
    multilineOpening? (x ++ z) = (multilineOpening? z).map (x ++ ·) := by
  have hq : '"' ∉ x := fun h => (hx _ h).1 rfl
  have hs : '/' ∉ x := fun h => (hx _ h).2 rfl
  unfold multilineOpening?
  rw [breakOn?_append (show tripleQuote.head? = some '"' from rfl) z hq]
  cases breakOn? tripleQuote z with
  | none => rfl
  | some r =>
    obtain ⟨before, after⟩ := r
    have hc : occursIn lineCommentMark (x ++ before) = occursIn lineCommentMark before := by
      simp only [occursIn, breakOn?_append (show lineCommentMark.head? = some '/' from rfl) before hs,
        Option.isSome_map]
    simp only [Option.map_some, hc]
    split <;> (try split) <;> rfl

/-- Outside comments and multiline strings, a plain start of a line is code. -/
theorem codeOf_append {st : State} (hc : st.inComment = false) (hs : st.inString = false)
    {x : List Char} (hx : Plain x) (z : List Char) :
    codeOf st (x ++ z) = ((codeOf st z).1.map (x ++ ·), (codeOf st z).2) := by
  simp only [codeOf, hc, Bool.false_eq_true, if_false, afterString, hs,
    multilineOpening?_append hx]
  cases multilineOpening? z <;> rfl

/-- Outside comments and multiline strings a line always has code. -/
theorem exists_codeOf_eq_some {st : State} (hc : st.inComment = false) (hs : st.inString = false)
    (z : List Char) : ∃ code, (codeOf st z).1 = some code := by
  simp only [codeOf, hc, Bool.false_eq_true, if_false, afterString, hs]
  cases multilineOpening? z <;> exact ⟨_, rfl⟩

theorem stripLiterals_append : ∀ {x : List Char}, '"' ∉ x → ∀ z : List Char,
    stripLiterals (x ++ z) = x ++ stripLiterals z
  | [], _, _ => rfl
  | c :: x, hx, z => by
    have hc : c ≠ '"' := fun h => hx (h ▸ List.mem_cons_self ..)
    rw [List.cons_append, stripLiterals, if_neg hc,
      stripLiterals_append (fun h => hx (List.mem_cons_of_mem _ h)) z]
    rfl

@[simp] theorem stripLiterals_nil : stripLiterals [] = [] := by rw [stripLiterals]

theorem stripLiterals_of_no_quote {cs : List Char} (hq : '"' ∉ cs) : stripLiterals cs = cs := by
  have := stripLiterals_append hq []
  rwa [List.append_nil, stripLiterals_nil, List.append_nil] at this

theorem Plain.stripLiterals_eq {cs : List Char} (h : Plain cs) : stripLiterals cs = cs :=
  stripLiterals_of_no_quote fun hc => (h _ hc).1 rfl

theorem stripLiterals_cons_of_ne {c : Char} (hc : c ≠ '"') (rest : List Char) :
    stripLiterals (c :: rest) = c :: stripLiterals rest := by
  rw [stripLiterals, if_neg hc]

/-- A line with a literal that closes: the literal is cut out, and the rest is read on. -/
theorem stripLiterals_quote_of_literalEnd? {rest after : List Char}
    (h : literalEnd? rest = some after) : stripLiterals ('"' :: rest) = stripLiterals after := by
  rw [stripLiterals, if_pos rfl]
  split
  · next a h' =>
    rw [h] at h'
    cases h'
    rfl
  · next h' =>
    rw [h] at h'
    cases h'

/-- A quote that opens no complete literal stays, and the search goes on after it. -/
theorem stripLiterals_quote_of_literalEnd?_none {rest : List Char} (h : literalEnd? rest = none) :
    stripLiterals ('"' :: rest) = '"' :: stripLiterals rest := by
  rw [stripLiterals, if_pos rfl]
  split
  · next a h' =>
    rw [h] at h'
    cases h'
  · rfl

/-- A literal that closes inside a text closes there whatever follows. -/
theorem literalEnd?_append_of_eq_some {r after : List Char} (h : literalEnd? r = some after)
    (z : List Char) : literalEnd? (r ++ z) = some (after ++ z) := by
  fun_induction literalEnd? r <;> simp_all <;> rw [literalEnd?.eq_def] <;> simp_all

/-- A character other than a quote closes no literal. -/
theorem literalEnd?_append_singleton {c : Char} (hc : c ≠ '"') (r : List Char) :
    literalEnd? (r ++ [c]) = (literalEnd? r).map (· ++ [c]) := by
  fun_induction literalEnd? r <;> simp_all <;> rw [literalEnd?.eq_def] <;> simp_all [literalEnd?]

/-- A text whose literals all close inside it, so that cutting them out leaves no quote, has them
cut out whatever follows it. -/
theorem stripLiterals_append_of_closed {x : List Char} (hx : '"' ∉ stripLiterals x)
    (z : List Char) : stripLiterals (x ++ z) = stripLiterals x ++ stripLiterals z := by
  -- the induction follows the literals `stripLiterals` cuts out of `x`
  induction x using stripLiterals.induct with
  | case1 => simp
  | case2 rest after h ih =>
    rw [stripLiterals_quote_of_literalEnd? h] at hx ⊢
    rw [List.cons_append, stripLiterals_quote_of_literalEnd? (literalEnd?_append_of_eq_some h z),
      ih hx]
  | case3 rest h ih =>
    rw [stripLiterals_quote_of_literalEnd?_none h] at hx
    exact absurd (List.mem_cons_self ..) hx
  | case4 c rest hc ih =>
    rw [stripLiterals_cons_of_ne hc] at hx ⊢
    rw [List.cons_append, stripLiterals_cons_of_ne hc,
      ih (fun h => hx (List.mem_cons_of_mem _ h)), List.cons_append]

/-- A last character that is no quote stays last once the literals are cut out. -/
theorem stripLiterals_append_singleton {c : Char} (hc : c ≠ '"') (x : List Char) :
    stripLiterals (x ++ [c]) = stripLiterals x ++ [c] := by
  induction x using stripLiterals.induct with
  | case1 => simp [stripLiterals_cons_of_ne hc]
  | case2 rest after h ih =>
    rw [List.cons_append, stripLiterals_quote_of_literalEnd? h,
      stripLiterals_quote_of_literalEnd? (by rw [literalEnd?_append_singleton hc, h]; rfl), ih]
  | case3 rest h ih =>
    rw [List.cons_append, stripLiterals_quote_of_literalEnd?_none h,
      stripLiterals_quote_of_literalEnd?_none (by rw [literalEnd?_append_singleton hc, h]; rfl),
      ih, List.cons_append]
  | case4 d rest hd ih =>
    rw [List.cons_append, stripLiterals_cons_of_ne hd, stripLiterals_cons_of_ne hd, ih,
      List.cons_append]

theorem stripLiterals_getLast_blank {x : List Char} (hx : x.getLast?.all isBlank = true) :
    (stripLiterals x).getLast?.all isBlank = true := by
  rcases List.eq_nil_or_concat x with rfl | ⟨y, c, rfl⟩
  · simp
  · have hc : isBlank c = true := by simpa using hx
    have hq : c ≠ '"' := by rintro rfl; exact absurd hc (by decide)
    simpa [stripLiterals_append_singleton hq] using hc

theorem stripLiterals_head_blank {z : List Char} (hz : z.head?.all isBlank = true) :
    (stripLiterals z).head?.all isBlank = true := by
  cases z with
  | nil => simp
  | cons c z =>
    have hc : c ≠ '"' := by rintro rfl; simp at hz; exact absurd hz (by decide)
    rw [stripLiterals, if_neg hc]
    simpa using hz

/-- Texts that meet at white space still do with their literals cut out. -/
theorem apart_stripLiterals {x z : List Char} (h : Apart x z) :
    Apart (stripLiterals x) (stripLiterals z) :=
  h.imp stripLiterals_getLast_blank stripLiterals_head_blank

/-- A start of a line that is read as code: the string literals in it close inside it, and once
they are cut out no quote or slash is left; nor does it hold a `//` or a `"""`, even inside a
literal, since the lexer looks for those on the line as it stands to decide whether the line
opens a multiline string. Plain text is plain code (`Lexer.Plain.plainCode`). -/
structure PlainCode (cs : List Char) : Prop where
  stripped : Plain (stripLiterals cs)
  noLineComment : occursIn lineCommentMark cs = false
  noTripleQuote : occursIn tripleQuote cs = false

theorem Plain.plainCode {cs : List Char} (h : Plain cs) : PlainCode cs := by
  have hq : '"' ∉ cs := fun hc => (h _ hc).1 rfl
  have hs : '/' ∉ cs := fun hc => (h _ hc).2 rfl
  refine ⟨by rwa [h.stripLiterals_eq], ?_, ?_⟩
  · simpa [occursIn, breakOn?, lineCommentMark, List.isPrefixOf] using
      breakOn?_append (show lineCommentMark.head? = some '/' from rfl) [] hs
  · simpa [occursIn, breakOn?, tripleQuote, List.isPrefixOf] using
      breakOn?_append (show tripleQuote.head? = some '"' from rfl) [] hq

theorem PlainCode.stripLiterals_append {x : List Char} (hx : PlainCode x) (z : List Char) :
    stripLiterals (x ++ z) = stripLiterals x ++ stripLiterals z :=
  stripLiterals_append_of_closed (fun h => (hx.stripped _ h).1 rfl) z

/-- The code of a line that starts outside comments and strings, with its string literals cut
out, as one text. -/
def codeText (st : State) (line : List Char) : List Char :=
  stripLiterals ((codeOf st line).1.getD [])

/-- The words the lexer reads on a line. -/
def codeWords (st : State) (line : List Char) : List (List Char) := words (codeText st line)

/-- The state in which the lexer starts reading a line's words. -/
def codeState (st : State) (line : List Char) : State := (codeOf st line).2

/-- The tokens of a line before the contextual `open` rule, with the state after the line. -/
def rawScan (st : State) (line : List Char) : List Token × State :=
  scanWords (codeState st line) (codeWords st line)

/-- A line's tokens are its code words scanned, with `open` demoted where it names something. -/
theorem scanLine_eq (st : State) (line : List Char) :
    scanLine st line = (demoteOpen (rawScan st line).1, (rawScan st line).2) := by
  unfold scanLine rawScan codeWords codeState codeText
  split
  · next st' h => simp [h, words_eq_nil, scanWords, demoteOpen, demoteOpen.go]
  · next code st' h => simp [h]

/-- The code before a multiline string's opening marker starts the line. -/
theorem multilineOpening?_prefix {z code : List Char} (h : multilineOpening? z = some code) :
    ∃ rest, z = code ++ rest := by
  unfold multilineOpening? at h
  split at h
  · cases h
  · next before after hb =>
    refine ⟨tripleQuote ++ after, ?_⟩
    have hz := breakOn?_eq_some hb
    split at h
    · cases h
    · split at h
      · cases h; simpa using hz
      · cases h

theorem head_blank_of_append {code rest : List Char}
    (h : (code ++ rest).head?.all isBlank = true) : code.head?.all isBlank = true := by
  cases code <;> simp_all

theorem codeOf_head_blank {st : State} (hc : st.inComment = false) (hs : st.inString = false)
    {z : List Char} (hz : z.head?.all isBlank = true) :
    ((codeOf st z).1.getD []).head?.all isBlank = true := by
  simp only [codeOf, hc, Bool.false_eq_true, if_false, afterString, hs]
  cases hm : multilineOpening? z with
  | none => simpa using hz
  | some code =>
    obtain ⟨rest, rfl⟩ := multilineOpening?_prefix hm
    simpa using head_blank_of_append hz

/-! ## Plain code before the rest of a line -/

theorem occursIn_append_right {pat : List Char} :
    ∀ (x : List Char) {y : List Char}, occursIn pat y = true → occursIn pat (x ++ y) = true
  | [], _, h => h
  | c :: x, y, h => by
    simp only [occursIn, List.cons_append, breakOn?]
    split
    · rfl
    · simpa [occursIn] using occursIn_append_right x h

/-- A pattern without white space that does not occur in `x` occurs in a text after `x` that
meets it at white space exactly where it occurs in that text. -/
theorem occursIn_append_apart {pat x z : List Char} (hp : ∀ c ∈ pat, isBlank c = false)
    (hx : occursIn pat x = false) (hxz : Apart x z) : occursIn pat (x ++ z) = occursIn pat z := by
  have hbx : breakOn? pat x = none := by simpa [occursIn] using hx
  simp only [occursIn, breakOn?_append_apart hp z hxz, hbx, Option.isSome_map]

theorem PlainCode.append {x y : List Char} (hx : PlainCode x) (hy : PlainCode y)
    (hxy : Apart x y) : PlainCode (x ++ y) where
  stripped := by
    rw [hx.stripLiterals_append]
    exact hx.stripped.append hy.stripped
  noLineComment := by
    rw [occursIn_append_apart (forall_not_blank_of_all (by decide)) hx.noLineComment hxy]
    exact hy.noLineComment
  noTripleQuote := by
    rw [occursIn_append_apart (forall_not_blank_of_all (by decide)) hx.noTripleQuote hxy]
    exact hy.noTripleQuote

/-- What follows plain code in plain code is plain code. -/
theorem PlainCode.of_append {x y : List Char} (hxy : PlainCode (x ++ y)) (hx : PlainCode x) :
    PlainCode y where
  stripped := by
    have := hxy.stripped
    rw [hx.stripLiterals_append] at this
    exact this.right
  noLineComment := Bool.eq_false_iff.2 fun h =>
    absurd (occursIn_append_right x h) (by rw [hxy.noLineComment]; decide)
  noTripleQuote := Bool.eq_false_iff.2 fun h =>
    absurd (occursIn_append_right x h) (by rw [hxy.noTripleQuote]; decide)

/-- Plain code that meets the rest of a line at white space decides nothing about a multiline
string: the line opens one where the rest does. -/
theorem multilineOpening?_append_code {x z : List Char} (hx : PlainCode x) (hxz : Apart x z) :
    multilineOpening? (x ++ z) = (multilineOpening? z).map (x ++ ·) := by
  have hbx : breakOn? tripleQuote x = none := by simpa [occursIn] using hx.noTripleQuote
  unfold multilineOpening?
  rw [breakOn?_append_apart (forall_not_blank_of_all (by decide)) z hxz, hbx]
  cases hz : breakOn? tripleQuote z with
  | none => rfl
  | some r =>
    obtain ⟨before, after⟩ := r
    -- the text before the `"""` still meets `x` at white space
    have hxb : Apart x before := hxz.imp id fun h => by
      rw [breakOn?_eq_some hz] at h
      cases before with
      | nil => simp [tripleQuote] at h; exact absurd h (by decide)
      | cons c b => simpa using h
    simp only [Option.map_some,
      occursIn_append_apart (forall_not_blank_of_all (by decide)) hx.noLineComment hxb]
    split <;> (try split) <;> rfl

/-- Plain code that meets the rest of a line at white space adds the words left once its
literals are cut out in front of the rest's, and leaves the state the rest is read in alone. -/
theorem codeWords_append_code {st : State} (hc : st.inComment = false) (hs : st.inString = false)
    {x z : List Char} (hx : PlainCode x) (hxz : Apart x z) :
    codeWords st (x ++ z) = words (stripLiterals x) ++ codeWords st z ∧
      codeState st (x ++ z) = codeState st z := by
  have hcode : codeOf st (x ++ z) = ((codeOf st z).1.map (x ++ ·), (codeOf st z).2) := by
    simp only [codeOf, hc, Bool.false_eq_true, if_false, afterString, hs,
      multilineOpening?_append_code hx hxz]
    cases multilineOpening? z <;> rfl
  obtain ⟨code, hcz⟩ := exists_codeOf_eq_some hc hs z
  refine ⟨?_, by simp [codeState, hcode]⟩
  have hxc : Apart x code := hxz.imp id fun h => by
    simpa [hcz] using codeOf_head_blank hc hs h
  simp only [codeWords, codeText, hcode, hcz, Option.map_some, Option.getD_some]
  rw [hx.stripLiterals_append, words_append _ _ (apart_stripLiterals hxc)]

end Lexer

end SwiftAccess
