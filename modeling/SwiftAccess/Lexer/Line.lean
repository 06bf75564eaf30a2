import SwiftAccess.Lexer.Word
import SwiftAccess.Text.Blank

/-!
# Lexing a line

`Lexer.scanLine` turns one line into tokens and the state for the next line. A block comment or a
multiline string left open by the line before swallows text up to its closing marker, or the
whole line. A multiline string opened at the end of the line hides what follows. The rest loses
its string literals, is cut into words at white space, and each word is read by
`Lexer.scanWord` until a `//` comment begins.

Last, `open` is a modifier only where a keyword or attribute follows it and it does not name a
member (`func open()`, `var open = false`); elsewhere it is an identifier (`Lexer.demoteOpen`).
`Lexer.scanLines` lexes consecutive lines, threading the state; `Lexer.scanLinesBounded?` does the
same and gives nothing when the parenthesis depth leaves the program's counter.
-/

namespace SwiftAccess.Lexer

open Text

/-- The tokens of a line's words, read in order until a `//` comment begins. -/
def scanWords (st : State) : List (List Char) → List Token × State
  | [] => ([], st)
  | w :: ws =>
    let (ts, st, flow) := scanWord st w
    match flow with
    | .lineComment => (ts, st)
    | .next =>
      let (rest, st) := scanWords st ws
      (ts ++ rest, st)

/-- Whether a token before `open` makes it a member's name. -/
def namesMember : Option Token → Bool
  | some (.keyword .func) | some (.keyword .var) | some (.keyword .«let»)
  | some (.keyword .«case») => true
  | _ => false

/-- The keyword `open` becomes an identifier unless it modifies what follows: the token after it
is a keyword or an attribute, and the token before it does not declare a member. -/
def demoteOpen (ts : List Token) : List Token :=
  go none ts
where
  /-- The tokens after `prev`, with `open` demoted where it names something. -/
  go (prev : Option Token) : List Token → List Token
    | [] => []
    | t :: rest =>
      let modifies := match rest with
        | u :: _ => u.isKeywordOrAttribute
        | [] => false
      let t' := if t.isKeyword .«open» && (namesMember prev || !modifies)
        then .identifier "open" else t
      t' :: go (some t) rest

/-- The code of a line after an open multiline string or at its opening, with the state after
the string markers; `none` when the string does not close on this line. -/
def afterString (st : State) (line : List Char) : Option (List Char) × State :=
  if st.inString then
    match breakOn? tripleQuote line with
    | some (_, after) => (some after, { st with inString := false })
    | none => (none, st)
  else
    match multilineOpening? line with
    | some code => (some code, { st with inString := true })
    | none => (some line, st)

/-- The text of a line that is code, and the state after the line's comment and string markers:
an open block comment or multiline string runs to its closing marker, and a multiline string
opened at the end of the line hides the text after its code. `none` when the rest of the line is
inside a comment or string. -/
def codeOf (st : State) (line : List Char) : Option (List Char) × State :=
  if st.inComment then
    match breakOn? blockCloseMark line with
    | some (_, after) => afterString { st with inComment := false } after
    | none => (none, st)
  else afterString st line

/-- The tokens of a line and the state for the next line. -/
def scanLine (st : State) (line : List Char) : List Token × State :=
  match codeOf st line with
  | (none, st) => ([], st)
  | (some code, st) =>
    let (ts, st) := scanWords st (words (stripLiterals code))
    (demoteOpen ts, st)

/-- The tokens of consecutive lines, each with the state after it. -/
def scanLines (st : State) : List (List Char) → List (List Token × State)
  | [] => []
  | line :: lines =>
    let r := scanLine st line
    r :: scanLines r.2 lines

/-- The tokens of consecutive lines, each with the state after it, as the program lexes them:
`none` when a line opens a parenthesis past `depthLimit`, where the program stops. -/
def scanLinesBounded? (st : State) (lines : List (List Char)) : Option (List (List Token × State)) :=
  let rs := scanLines st lines
  if rs.any (·.2.overflow) then none else some rs

/-- The tokens of every line of a text, lexed from the start of a file. -/
def tokensOf (lines : List String) : List (List Token) :=
  (scanLines .initial (lines.map String.toList)).map Prod.fst

end SwiftAccess.Lexer
