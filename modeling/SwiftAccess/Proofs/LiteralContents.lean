import SwiftAccess.Proofs.PerformOutcome

/-!
# What a string literal's contents can change

A line loses its string literals before it is cut into words (`Lexer.stripLiterals`), so the
words the lexer reads never come from inside a literal. But whether the line opens a multiline
string is decided first, on the line as it stands (`Lexer.multilineOpening?`): a `"""` that ends
the line opens one unless a `//` comes before it, and that `//` is looked for in the whole text
before the `"""`, literals included. So a `//` inside a literal keeps a later `"""` from opening
a multiline string, and the lines after it are then read as code.

Take a line `p "c" q` that starts outside comments and multiline strings, where `p` holds no quote
and no `//`, `q` does not start with a quote, and the literal's text `c` holds no quote and no
backslash. The literal then closes at its second quote and is cut out whole
(`stripLiterals_literal`), and the first `"""` of the line, if any, lies in `q`
(`breakOn?_tripleQuote_literal`). The line opens a multiline string exactly when `q` opens one and
`c` holds no `//` (`multilineOpening?_literal`), and this is all of `c` that the lexer sees
(`codeText_literal`, `codeState_literal`). Hence `scanLine_literal_contents_iff`: two such lines
that differ only in their literal's text lex the same exactly when `q` opens no multiline string
or both texts hold a `//` or neither does. `line_comment_in_literal_hides_opener` is a pair that
does not.
-/

namespace SwiftAccess

namespace Text

/-- Where `s` is no character of `pat`, no occurrence of `pat` runs across `s`: `pat` is a prefix
of `x ++ s :: y` exactly when it is one of `x`. -/
theorem isPrefixOf_append_cons {s : Char} (y : List Char) :
    ∀ {pat x : List Char}, s ∉ pat → pat.isPrefixOf (x ++ s :: y) = pat.isPrefixOf x
  | [], _, _ => by simp [List.isPrefixOf]
  | p :: ps, [], hs => by
    have hp : (p == s) = false := by simpa using fun e : p = s => hs (e ▸ List.mem_cons_self ..)
    simp [List.isPrefixOf, hp]
  | p :: ps, a :: x, hs => by
    simp only [List.cons_append, List.isPrefixOf]
    rw [isPrefixOf_append_cons y fun h => hs (List.mem_cons_of_mem _ h)]

theorem isPrefixOf_eq_false_of_occursIn {pat x : List Char} (h : occursIn pat x = false) :
    pat.isPrefixOf x = false := by
  cases x <;>
  · simp only [occursIn, breakOn?] at h
    split at h
    · cases h
    · next hp => exact Bool.eq_false_iff.2 hp

/-- A marker that does not occur in `x` and does not contain `s` is found in `x ++ s :: y` where it
is found in `y`. -/
theorem breakOn?_append_cons_of_not_mem {pat : List Char} {s : Char} (hs : s ∉ pat)
    (y : List Char) : ∀ {x : List Char}, occursIn pat x = false →
      breakOn? pat (x ++ s :: y) = (breakOn? pat y).map fun r => (x ++ s :: r.1, r.2)
  | [], hx => by
    -- the marker is no prefix of the empty text, so it is not empty, and no prefix of `s :: y`
    have hsy : pat.isPrefixOf (s :: y) = false :=
      (isPrefixOf_append_cons y (x := []) hs).trans (isPrefixOf_eq_false_of_occursIn hx)
    rw [List.nil_append, breakOn?, hsy, if_neg Bool.false_ne_true]
    rfl
  | a :: x, hx => by
    have hp := isPrefixOf_eq_false_of_occursIn hx
    have hx' : occursIn pat x = false := by
      simp only [occursIn, breakOn?, hp, Bool.false_eq_true, if_false, Option.isSome_map] at hx
      exact hx
    have hpre : pat.isPrefixOf (a :: (x ++ s :: y)) = false :=
      (isPrefixOf_append_cons y (x := a :: x) hs).trans hp
    rw [List.cons_append, breakOn?, hpre, if_neg Bool.false_ne_true,
      breakOn?_append_cons_of_not_mem hs y hx']
    cases breakOn? pat y <;> rfl

theorem occursIn_append_cons_of_not_mem {pat x : List Char} {s : Char} (hs : s ∉ pat)
    (hx : occursIn pat x = false) (y : List Char) : occursIn pat (x ++ s :: y) = occursIn pat y := by
  simp [occursIn, breakOn?_append_cons_of_not_mem hs y hx]

theorem occursIn_append_of_occursIn {pat x : List Char} (h : occursIn pat x = true)
    (y : List Char) : occursIn pat (x ++ y) = true := by
  obtain ⟨⟨b, a⟩, hb⟩ := Option.isSome_iff_exists.1 h
  rw [breakOn?_eq_some hb, List.append_assoc (b ++ pat) a y]
  exact Comments.occursIn_append pat b (a ++ y)

end Text

namespace Lexer

open Text

section

variable {st : State} {p c q : List Char}

/-- A multiline string opens at the first `"""` of a line when no `//` comes before it and only
white space after it. -/
theorem multilineOpening?_of_breakOn? {line before after : List Char}
    (h : breakOn? tripleQuote line = some (before, after)) :
    multilineOpening? line =
      if occursIn lineCommentMark before then none
      else if after.all isBlank then some before else none := by
  simp only [multilineOpening?, h]

theorem multilineOpening?_of_breakOn?_none {line : List Char}
    (h : breakOn? tripleQuote line = none) : multilineOpening? line = none := by
  simp only [multilineOpening?, h]

/-- A literal whose text holds no quote and no backslash closes at the next quote. -/
theorem literalEnd?_append_quote (hq : '"' ∉ c) (hb : '\\' ∉ c) (r : List Char) :
    literalEnd? (c ++ '"' :: r) = some r := by
  induction c with
  | nil =>
    rw [List.nil_append, literalEnd?.eq_def]
    dsimp only
    rw [if_pos rfl]
  | cons d c ih =>
    have hdq : d ≠ '"' := fun e => hq (e ▸ List.mem_cons_self ..)
    have hdb : d ≠ '\\' := fun e => hb (e ▸ List.mem_cons_self ..)
    rw [List.cons_append, literalEnd?.eq_def]
    dsimp only
    rw [if_neg hdq, if_neg hdb,
      ih (fun h => hq (List.mem_cons_of_mem _ h)) (fun h => hb (List.mem_cons_of_mem _ h))]

/-- The literal `"c"` after a start without quotes is cut out whole. -/
theorem stripLiterals_literal (hp : '"' ∉ p) (hcq : '"' ∉ c) (hcb : '\\' ∉ c) (r : List Char) :
    stripLiterals (p ++ '"' :: c ++ '"' :: r) = p ++ stripLiterals r := by
  rw [List.append_assoc, stripLiterals_append hp, List.cons_append,
    stripLiterals_quote_of_literalEnd? (literalEnd?_append_quote hcq hcb r)]

/-- The `"""` marker starts no earlier than its quote: a quote followed by something other than
two quotes does not start it. -/
theorem tripleQuote_isPrefixOf_quote {x : List Char} (h : x.take 2 ≠ ['"', '"']) :
    tripleQuote.isPrefixOf ('"' :: x) = false := by
  match x, h with
  | [], _ => rfl
  | [_], _ => simp [tripleQuote, List.isPrefixOf]
  | d :: e :: x, h =>
    simp only [List.take_succ_cons, List.take_zero, ne_eq, List.cons.injEq, and_true, not_and] at h
    by_cases hd : d = '"'
    · have he : (('"' : Char) == e) = false := by
        simpa using fun e' : '"' = e => h hd e'.symm
      simp [tripleQuote, List.isPrefixOf, hd, he]
    · have hd' : (('"' : Char) == d) = false := by simpa using fun e' : '"' = d => hd e'.symm
      simp [tripleQuote, List.isPrefixOf, hd']

/-- A `//` before the line's `"""` lies in the literal's text or in `q`: none is in `p`, and none
runs across a quote. -/
theorem occursIn_lineComment_literal (hpc : occursIn lineCommentMark p = false) (b : List Char) :
    occursIn lineCommentMark (p ++ '"' :: c ++ '"' :: b) =
      (occursIn lineCommentMark c || occursIn lineCommentMark b) := by
  have hs : '"' ∉ lineCommentMark := by decide
  rw [List.append_assoc, List.cons_append, occursIn_append_cons_of_not_mem hs hpc]
  cases hc : occursIn lineCommentMark c with
  | true => exact occursIn_append_of_occursIn hc _
  | false => rw [occursIn_append_cons_of_not_mem hs hc, Bool.false_or]

variable (hp : '"' ∉ p) (hcq : '"' ∉ c) (hq : q.head? ≠ some '"')
include hp hcq hq

/-- No `"""` starts in `p "c"` or at its closing quote: the first one of the line lies in `q`. -/
theorem breakOn?_tripleQuote_literal :
    breakOn? tripleQuote (p ++ '"' :: c ++ '"' :: q) =
      (breakOn? tripleQuote q).map fun r => (p ++ '"' :: c ++ '"' :: r.1, r.2) := by
  have hhead : tripleQuote.head? = some '"' := rfl
  -- the opening quote is followed by the text, whose first character is no quote
  have hopen : tripleQuote.isPrefixOf ('"' :: (c ++ '"' :: q)) = false := by
    apply tripleQuote_isPrefixOf_quote
    cases c with
    | nil => cases q with
      | nil => simp
      | cons d q => simp [show d ≠ '"' by simpa using hq]
    | cons d c =>
      have hd : d ≠ '"' := fun e => hcq (e ▸ List.mem_cons_self ..)
      simp [hd]
  -- the closing quote is followed by `q`, which starts with no quote
  have hclose : tripleQuote.isPrefixOf ('"' :: q) = false := by
    apply tripleQuote_isPrefixOf_quote
    cases q with
    | nil => simp
    | cons d q => simp [show d ≠ '"' by simpa using hq]
  rw [List.append_assoc, breakOn?_append hhead _ hp, List.cons_append, breakOn?, hopen,
    if_neg Bool.false_ne_true, breakOn?_append hhead _ hcq, breakOn?, hclose,
    if_neg Bool.false_ne_true]
  cases breakOn? tripleQuote q <;> simp

variable (hpc : occursIn lineCommentMark p = false)
include hpc

/-- **The opener decision.** The line opens a multiline string exactly when `q` opens one and the
literal's text holds no `//`. -/
theorem multilineOpening?_literal :
    multilineOpening? (p ++ '"' :: c ++ '"' :: q) =
      if occursIn lineCommentMark c then none
      else (multilineOpening? q).map (p ++ '"' :: c ++ '"' :: ·) := by
  have hline := breakOn?_tripleQuote_literal hp hcq hq
  cases hb : breakOn? tripleQuote q with
  | none =>
    rw [hb, Option.map_none] at hline
    rw [multilineOpening?_of_breakOn?_none hline, multilineOpening?_of_breakOn?_none hb]
    split <;> rfl
  | some r =>
    obtain ⟨before, after⟩ := r
    rw [hb, Option.map_some] at hline
    rw [multilineOpening?_of_breakOn? hline, multilineOpening?_of_breakOn? hb,
      occursIn_lineComment_literal hpc]
    cases occursIn lineCommentMark c <;> cases occursIn lineCommentMark before <;>
      cases after.all isBlank <;> rfl

variable (hc : st.inComment = false) (hs : st.inString = false)
include hc hs

theorem codeOf_literal :
    codeOf st (p ++ '"' :: c ++ '"' :: q) =
      if occursIn lineCommentMark c then (some (p ++ '"' :: c ++ '"' :: q), st)
      else ((codeOf st q).1.map (p ++ '"' :: c ++ '"' :: ·), (codeOf st q).2) := by
  simp only [codeOf, hc, Bool.false_eq_true, if_false, afterString, hs,
    multilineOpening?_literal hp hcq hq hpc]
  cases occursIn lineCommentMark c with
  | true => rfl
  | false => cases multilineOpening? q <;> rfl

/-- The code the lexer reads on the line: `p`, then what it reads of `q` (all of `q` when the
literal's `//` keeps the line from opening a multiline string), literals cut out. -/
theorem codeText_literal (hcb : '\\' ∉ c) :
    codeText st (p ++ '"' :: c ++ '"' :: q) =
      p ++ if occursIn lineCommentMark c then stripLiterals q else codeText st q := by
  unfold codeText
  rw [codeOf_literal hp hcq hq hpc hc hs]
  cases occursIn lineCommentMark c with
  | true => simp only [if_true, Option.getD_some, stripLiterals_literal hp hcq hcb]
  | false =>
    obtain ⟨code, hcode⟩ := exists_codeOf_eq_some hc hs q
    simp only [Bool.false_eq_true, if_false, hcode, Option.map_some, Option.getD_some,
      stripLiterals_literal hp hcq hcb]

theorem codeState_literal :
    codeState st (p ++ '"' :: c ++ '"' :: q) =
      if occursIn lineCommentMark c then st else codeState st q := by
  unfold codeState
  rw [codeOf_literal hp hcq hq hpc hc hs]
  cases occursIn lineCommentMark c <;> rfl

end

section

variable {st : State} (hc : st.inComment = false) (hs : st.inString = false)
include hc hs

/-- A line that opens no multiline string is read whole. -/
theorem codeOf_of_multilineOpening?_none {q : List Char} (h : multilineOpening? q = none) :
    codeOf st q = (some q, st) := by
  simp only [codeOf, hc, Bool.false_eq_true, if_false, afterString, hs, h]

variable {p c q : List Char} (hp : '"' ∉ p) (hpc : occursIn lineCommentMark p = false)
  (hq : q.head? ≠ some '"') (hcq : '"' ∉ c)
include hp hpc hq hcq

/-- After the line, the lexer is inside a multiline string exactly when `q` opens one and the
literal's text holds no `//`. -/
theorem inString_scanLine_literal :
    (scanLine st (p ++ '"' :: c ++ '"' :: q)).2.inString =
      ((multilineOpening? q).isSome && !occursIn lineCommentMark c) := by
  rw [scanLine_eq]
  simp only [rawScan, scanWords_inString_eq, codeState_literal hp hcq hq hpc hc hs]
  cases occursIn lineCommentMark c with
  | true => simp [hs]
  | false => simp [codeState_eq hc hs]

/-- Two such lines lex the same when their literals' texts both hold a `//` or neither does, and
whatever they hold when `q` opens no multiline string: the rest of what the lexer reads is `p` and
its reading of `q`. -/
theorem scanLine_literal_congr {c' : List Char} (hcb : '\\' ∉ c) (hcq' : '"' ∉ c')
    (hcb' : '\\' ∉ c')
    (h : (multilineOpening? q).isSome = true →
      occursIn lineCommentMark c = occursIn lineCommentMark c') :
    scanLine st (p ++ '"' :: c ++ '"' :: q) = scanLine st (p ++ '"' :: c' ++ '"' :: q) := by
  rw [scanLine_eq, scanLine_eq]
  simp only [rawScan, codeWords, codeText_literal hp hcq hq hpc hc hs hcb,
    codeText_literal hp hcq' hq hpc hc hs hcb', codeState_literal hp hcq hq hpc hc hs,
    codeState_literal hp hcq' hq hpc hc hs]
  cases hm : multilineOpening? q with
  | none =>
    -- `q` is read whole from the state the line starts in, whatever the literals hold
    have hcode := codeOf_of_multilineOpening?_none hc hs hm
    have hct : codeText st q = stripLiterals q := by simp [codeText, hcode]
    have hcs : codeState st q = st := by simp [codeState, hcode]
    simp only [hct, hcs, ite_self]
  | some code => rw [h (by simp [hm])]

end

/-- **A literal's text matters only through a `//`.** Take a line `p "c" q` read from outside
comments and multiline strings, where `p` holds no quote and no `//`, `q` does not start with a
quote, and `c` holds no quote and no backslash. Two such lines that differ only in `c` give the
same tokens and the same state exactly when `q` opens no multiline string, or both texts hold a
`//`, or neither does: a `//` in the literal keeps the `"""` that ends `q` from opening one. -/
theorem scanLine_literal_contents_iff {st : State} (hc : st.inComment = false)
    (hs : st.inString = false) {p q c₁ c₂ : List Char} (hp : '"' ∉ p)
    (hpc : occursIn lineCommentMark p = false) (hq : q.head? ≠ some '"')
    (h₁ : '"' ∉ c₁ ∧ '\\' ∉ c₁) (h₂ : '"' ∉ c₂ ∧ '\\' ∉ c₂) :
    scanLine st (p ++ '"' :: c₁ ++ '"' :: q) = scanLine st (p ++ '"' :: c₂ ++ '"' :: q) ↔
      ((multilineOpening? q).isSome = true →
        occursIn lineCommentMark c₁ = occursIn lineCommentMark c₂) := by
  constructor
  · intro h hopen
    -- equal readings leave the same multiline string flag
    have hflag := congrArg (fun r : List Token × State => r.2.inString) h
    simp only [inString_scanLine_literal hc hs hp hpc hq h₁.1,
      inString_scanLine_literal hc hs hp hpc hq h₂.1, hopen, Bool.true_and] at hflag
    simpa using hflag
  · exact scanLine_literal_congr hc hs hp hpc hq h₁.1 h₁.2 h₂.1 h₂.2

/-- In `f("public func")` the literal's keywords change nothing: the line lexes as `f("")`. -/
theorem keyword_literal_contents_ignored :
    let p := ['f', '(']
    let q := [')']
    let c₁ := ['p', 'u', 'b', 'l', 'i', 'c', ' ', 'f', 'u', 'n', 'c']
    State.initial.inComment = false ∧ State.initial.inString = false ∧ '"' ∉ p ∧
      occursIn lineCommentMark p = false ∧ q.head? ≠ some '"' ∧ ('"' ∉ c₁ ∧ '\\' ∉ c₁) ∧
      ('"' ∉ ([] : List Char) ∧ '\\' ∉ ([] : List Char)) ∧
      (scanLine State.initial (p ++ '"' :: c₁ ++ '"' :: q) =
          scanLine State.initial (p ++ '"' :: [] ++ '"' :: q) ↔
        ((multilineOpening? q).isSome = true →
          occursIn lineCommentMark c₁ = occursIn lineCommentMark [])) := by
  intro p q c₁
  have hc : State.initial.inComment = false := rfl
  have hs : State.initial.inString = false := rfl
  have hp : '"' ∉ p := by decide
  have hpc : occursIn lineCommentMark p = false := by decide
  have hq : q.head? ≠ some '"' := by decide
  have h₁ : '"' ∉ c₁ ∧ '\\' ∉ c₁ := by decide
  have h₂ : '"' ∉ ([] : List Char) ∧ '\\' ∉ ([] : List Char) := by decide
  exact ⟨hc, hs, hp, hpc, hq, h₁, h₂, scanLine_literal_contents_iff hc hs hp hpc hq h₁ h₂⟩

/-- `"//" """` and `"" """` differ only in their literal's text, but the `//` in the first keeps
its `"""` from opening a multiline string, which the second opens. -/
theorem line_comment_in_literal_hides_opener :
    let q := [' ', '"', '"', '"']
    q.head? ≠ some '"' ∧ ('"' ∉ ['/', '/'] ∧ '\\' ∉ ['/', '/']) ∧
      scanLine State.initial ('"' :: ['/', '/'] ++ '"' :: q) ≠
        scanLine State.initial ('"' :: [] ++ '"' :: q) := by
  intro q
  have hq : q.head? ≠ some '"' := by decide
  have hopen : (multilineOpening? q).isSome = true := by decide
  have hflag : ∀ c : List Char, '"' ∉ c →
      (scanLine State.initial ([] ++ '"' :: c ++ '"' :: q)).2.inString =
        !occursIn lineCommentMark c := fun c hcq => by
    rw [inString_scanLine_literal rfl rfl (List.not_mem_nil) rfl hq hcq, hopen, Bool.true_and]
  refine ⟨hq, by decide, fun h => ?_⟩
  have h1 := hflag ['/', '/'] (by decide)
  have h2 := hflag [] (by decide)
  rw [List.nil_append] at h1 h2
  rw [h, h2] at h1
  exact absurd h1 (by decide)

end Lexer

end SwiftAccess
