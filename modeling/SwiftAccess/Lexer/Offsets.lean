import SwiftAccess.Lexer.Line
import SwiftAccess.Text.Utf8

/-!
# The lexer's byte offsets

The program lexes a line through byte offsets too. Comment and string markers are found by
`str::find`, and the text after a marker is sliced from the offset just past it; a multiline
string opened at the end of a line is cut off at the offset of its `"""`; and the loop of
`read_by_characters` moves through a word by slicing past a `/*`, past a `*/`, past the text a
token pattern matched, or past one character. Each slice stops the program unless its offset is
a character boundary. The count of open parentheses is a machine word: opening one at
`depthLimit` stops the program, and closing one at zero leaves the count at zero.

`Lexer.Offsets` follows that arithmetic step for step, and `Lexer.scanLine` says what the lexing
is in characters. The loop is `readByCharacters` over `readPass`, one pass of its body; a pass that
goes on always leaves a shorter text (`readPass_shortens`), which is why the loop ends.
-/

namespace SwiftAccess.Lexer.Offsets

open Text

/-- The text after the first occurrence of `mark`, as `after_multiline_comment_end` (with `*/`)
and `after_multiline_string_end` (with `"""`) slice it. -/
def afterFirst (mark text : List Char) : Except Panic (Option (List Char)) :=
  match firstMatch (utf8 mark) (utf8 text) with
  | none => pure none
  | some i => some <$> sliceFrom text (i + (utf8 mark).length)

/-- `multiline_string_opener`: the byte offset of a `"""` that opens a multiline string, when no
`//` starts before it and only white space follows it. -/
def stringOpener (line : List Char) : Except Panic (Option Nat) :=
  match firstMatch (utf8 tripleQuote) (utf8 line) with
  | none => pure none
  | some start =>
    if (firstMatch (utf8 lineCommentMark) (utf8 line)).any (· < start) then pure none
    else do
      let after ← sliceFrom line (start + (utf8 tripleQuote).length)
      pure (if after.all isBlank then some start else none)

/-- `read_token`: the token at the start of a text and the byte length of the text its pattern
matched. The patterns match whole characters, so that length is the encoding's of the characters
the token takes. -/
def readToken (s : List Char) : Option (Token × Nat) :=
  (readToken? s).map fun r => (r.1, (utf8 s).length - (utf8 r.2).length)

/-- The count after a character that starts no token: `(` opens one more parenthesis, which
overflows the machine word at `depthLimit`, and `)` closes one, changing nothing when none is
open. -/
def countParen (st : State) : Option Char → Except Panic State
  | some '(' =>
    if depthLimit ≤ st.parenDepth then throw .addOverflow
    else pure { st with parenDepth := st.parenDepth + 1 }
  | some ')' => pure { st with parenDepth := st.parenDepth - 1 }
  | _ => pure st

/-- What one pass of the loop in `read_by_characters` leaves: the loop returns a flow, or goes on
with a state and the text that remains, after recording a token or none. -/
inductive Pass where
  | stop (flow : Flow)
  | next (token : Option Token) (st : State) (rest : List Char)

/-- One pass of the loop over the text that remains of a word. -/
def readPass (st : State) (rest : List Char) : Except Panic Pass :=
  match rest with
  | '/' :: '*' :: after => pure (.next none { st with inComment := true } after)
  | _ =>
    if st.inComment then do
      match ← afterFirst blockCloseMark rest with
      | some after => pure (.next none { st with inComment := false } after)
      | none => pure (.stop .next)
    else if lineCommentMark.isPrefixOf rest then pure (.stop .lineComment)
    else
      match readToken rest with
      | some (t, length) => do
        let (t, st) := st.record t
        pure (.next (some t) st (← sliceFrom rest length))
      | none => do
        let st ← countParen st rest.head?
        let skip := match rest.head? with
          | some c => c.utf8Size
          | none => (utf8 rest).length
        pure (.next none st (← sliceFrom rest skip))

theorem afterFirst_shortens {mark text after : List Char} (hm : mark ≠ [])
    (h : afterFirst mark text = .ok (some after)) : after.length < text.length := by
  unfold afterFirst at h
  split at h
  · cases h
  · next i _ =>
    cases hs : sliceFrom text (i + (utf8 mark).length) with
    | error e => simp [hs, Functor.map, Except.map] at h
    | ok r =>
      simp only [hs, Functor.map, Except.map, Except.ok.injEq, Option.some.injEq] at h
      subst h
      exact length_sliceFrom_lt hs (by have := length_utf8_pos hm; omega)

/-- Every pass that goes on leaves a shorter text: it strips a leading `/*`, jumps past a `*/`,
consumes what a token pattern matched, or skips one character. -/
theorem readPass_shortens {st st' : State} {rest rest' : List Char} {t : Option Token}
    (hr : rest ≠ []) (h : readPass st rest = .ok (.next t st' rest')) :
    rest'.length < rest.length := by
  unfold readPass at h
  split at h
  · cases h
    simp only [List.length_cons]
    omega
  · split at h
    · cases ha : afterFirst blockCloseMark rest with
      | error e => simp [ha, bind, Except.bind] at h
      | ok o =>
        cases o with
        | none => simp [ha, bind, Except.bind, pure, Except.pure] at h
        | some after =>
          simp only [ha, bind, Except.bind, pure, Except.pure, Except.ok.injEq,
            Pass.next.injEq] at h
          obtain ⟨-, -, rfl⟩ := h
          exact afterFirst_shortens (by simp [blockCloseMark]) ha
    · split at h
      · cases h
      · split at h
        · next length hk =>
          simp only [bind, Except.bind] at h
          cases hs : sliceFrom rest length with
          | error e => simp [hs] at h
          | ok after =>
            simp only [hs, pure, Except.pure, Except.ok.injEq, Pass.next.injEq] at h
            obtain ⟨-, -, rfl⟩ := h
            obtain ⟨⟨t0, r⟩, hr0, hk'⟩ := Option.map_eq_some_iff.1 hk
            simp only [Prod.mk.injEq] at hk'
            obtain ⟨x, rfl⟩ := readToken?_suffix hr0
            have hx : x ≠ [] := by
              rintro rfl
              have := readToken?_length hr0
              simp at this
            have := length_utf8_pos hx
            refine length_sliceFrom_lt hs ?_
            simp only [← hk'.2, utf8_append, List.length_append]
            omega
        · obtain ⟨c, cs, rfl⟩ := List.exists_cons_of_ne_nil hr
          simp only [bind, Except.bind] at h
          cases hp : countParen st (some c) with
          | error e => simp [hp] at h
          | ok st0 =>
            cases hs : sliceFrom (c :: cs) c.utf8Size with
            | error e => simp [hp, hs] at h
            | ok after =>
              simp only [hp, hs, List.head?_cons, pure, Except.pure, Except.ok.injEq,
                Pass.next.injEq] at h
              obtain ⟨-, -, rfl⟩ := h
              exact length_sliceFrom_lt hs c.utf8Size_pos

/-- `read_by_characters`: the tokens of a word's text, the state after them, and whether a line
comment began. The loop runs while text remains. -/
def readByCharacters (st : State) (rest : List Char) :
    Except Panic (List Token × State × Flow) :=
  if hr : rest = [] then pure ([], st, .next)
  else
    match h : readPass st rest with
    | .error e => throw e
    | .ok (.stop flow) => pure ([], st, flow)
    | .ok (.next t st' rest') => do
      let (ts, st'', flow) ← readByCharacters st' rest'
      pure (t.toList ++ ts, st'', flow)
termination_by rest.length
decreasing_by exact readPass_shortens hr h

/-- `tokenise`: outside a comment, a word that is one punctuation character or a whole keyword is
one token; any other word is read by characters. -/
def tokenise (st : State) (word : List Char) : Except Panic (List Token × State × Flow) :=
  if st.inComment then readByCharacters st word
  else
    match wholeToken? word with
    | some t =>
      let (t, st) := st.record t
      pure ([t], st, .next)
    | none => readByCharacters st word

/-- The tokens of a line's words, read in order until a `//` comment begins. -/
def tokeniseWords (st : State) : List (List Char) → Except Panic (List Token × State)
  | [] => pure ([], st)
  | w :: ws => do
    let (ts, st, flow) ← tokenise st w
    match flow with
    | .lineComment => pure (ts, st)
    | .next =>
      let (rest, st) ← tokeniseWords st ws
      pure (ts ++ rest, st)

/-- The tokens of a line's code, which loses its string literals and is cut into words, with
`open` demoted where it names something. -/
def codeTokens (st : State) (code : List Char) : Except Panic (List Token × State) := do
  let (ts, st) ← tokeniseWords st (words (stripLiterals code))
  pure (demoteOpen ts, st)

/-- `analyse` once no block comment is open: an open multiline string runs to its `"""`, and one
opened at the end of the line hides what follows its opener. -/
def analyseCode (st : State) (line : List Char) : Except Panic (List Token × State) := do
  if st.inString then
    match ← afterFirst tripleQuote line with
    | some rest => codeTokens { st with inString := false } rest
    | none => pure ([], st)
  else
    match ← stringOpener line with
    | some opener => codeTokens { st with inString := true } (← sliceTo line opener)
    | none => codeTokens st line

/-- `analyse`: the tokens of a line and the state for the next line. An open block comment runs
to its `*/`. -/
def analyse (st : State) (line : List Char) : Except Panic (List Token × State) := do
  if st.inComment then
    match ← afterFirst blockCloseMark line with
    | some rest => analyseCode { st with inComment := false } rest
    | none => pure ([], st)
  else analyseCode st line

/-- The tokens of consecutive lines, each with the state after it, threading the state. -/
def analyseLines (st : State) : List (List Char) → Except Panic (List (List Token × State))
  | [] => pure []
  | line :: lines => do
    let r ← analyse st line
    pure (r :: (← analyseLines r.2 lines))

end SwiftAccess.Lexer.Offsets
