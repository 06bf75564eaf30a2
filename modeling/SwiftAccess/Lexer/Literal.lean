import SwiftAccess.Text.Blank
import SwiftAccess.Text.Search

/-!
# String literals and comment markers

String contents must never be read as code, so a line loses its string literals before it is cut
into words (`Lexer.stripLiterals`). A literal is a `"` followed by characters other than `"` and
`\`, or escapes (a backslash and any character but a line feed), up to the next `"`. A quote that
opens no complete literal stays in the line, and the search goes on after it.

A multiline string starts at a `"""` that ends its line, when no `//` comment comes first
(`Lexer.multilineOpening?`); a `"""` with code after it on the same line counts as ordinary quotes.
-/

namespace SwiftAccess.Lexer

open Text

/-- The marker `"""` that opens and closes a multiline string. -/
def tripleQuote : List Char := ['"', '"', '"']

/-- The marker `//` of a comment that runs to the end of the line. -/
def lineCommentMark : List Char := ['/', '/']

/-- The marker `/*` that opens a block comment. -/
def blockOpenMark : List Char := ['/', '*']

/-- The marker `*/` that closes a block comment. -/
def blockCloseMark : List Char := ['*', '/']

/-- The text after a string literal whose opening quote has been read, if the literal closes. -/
def literalEnd? : List Char → Option (List Char)
  | [] => none
  | c :: rest =>
    if c = '"' then some rest
    else if c = '\\' then
      match rest with
      | [] => none
      | d :: more => if d = '\n' then none else literalEnd? more
    else literalEnd? rest

theorem literalEnd?_length {cs r : List Char} (h : literalEnd? cs = some r) :
    r.length < cs.length := by
  fun_induction literalEnd? cs generalizing r <;> simp_all <;> grind

/-- A line with its string literals cut out. -/
def stripLiterals : List Char → List Char
  | [] => []
  | c :: rest =>
    if c = '"' then
      match h : literalEnd? rest with
      | some after => stripLiterals after
      | none => c :: stripLiterals rest
    else c :: stripLiterals rest
termination_by cs => cs.length
decreasing_by
  · have := literalEnd?_length h; simp only [List.length_cons]; omega
  · simp
  · simp

/-- The code before the multiline string a line opens, if it opens one: the line ends with a
`"""` and white space, and no `//` comment starts before it. -/
def multilineOpening? (line : List Char) : Option (List Char) :=
  match breakOn? tripleQuote line with
  | none => none
  | some (before, after) =>
    if occursIn lineCommentMark before then none
    else if after.all isBlank then some before
    else none

end SwiftAccess.Lexer
