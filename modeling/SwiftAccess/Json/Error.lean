/-!
# Decoding errors and where they are found

A JSON document is read as a list of bytes, left to right. When reading fails, the error names what
went wrong (`Json.ErrorCode`) and where: a line, counted from 1, and a column, the number of bytes
between the start of that line and the position. A position is kept as the number of bytes still
unread there (`DecodeError.left`), which is enough to recover the line and column from the document
(`Json.locate`).

Two positions are used. An error found on a byte that has been consumed sits just after it
(`Json.failHere`); an error found by looking at the next byte without consuming it sits just after
that byte, or at the end of the document (`Json.failNext`). An error about the type of a value
(`Json.failCustom`) has no position of its own; the reader places it where it stands when the
error reaches it, before the byte it has not consumed (`DecodeError.place`).
-/

namespace SwiftAccess.Json

/-- The bytes of a document that are not read yet. -/
abbrev Input := List UInt8

/-- What went wrong while decoding. -/
inductive ErrorCode where
  | eofWhileParsingList
  | eofWhileParsingObject
  | eofWhileParsingString
  | eofWhileParsingValue
  | expectedColon
  | expectedListCommaOrEnd
  | expectedObjectCommaOrEnd
  | expectedSomeIdent
  | expectedSomeValue
  | invalidEscape
  | invalidNumber
  | numberOutOfRange
  | controlCharacterWhileParsingString
  | keyMustBeAString
  | loneLeadingSurrogateInHexEscape
  | trailingComma
  | trailingCharacters
  | unexpectedEndOfHexEscape
  /-- An error about the shape or type of the decoded value. -/
  | message (text : String)
  deriving DecidableEq, Repr

/-- How an error reads. -/
def ErrorCode.text : ErrorCode → String
  | .eofWhileParsingList => "EOF while parsing a list"
  | .eofWhileParsingObject => "EOF while parsing an object"
  | .eofWhileParsingString => "EOF while parsing a string"
  | .eofWhileParsingValue => "EOF while parsing a value"
  | .expectedColon => "expected `:`"
  | .expectedListCommaOrEnd => "expected `,` or `]`"
  | .expectedObjectCommaOrEnd => "expected `,` or `\x7d`"
  | .expectedSomeIdent => "expected ident"
  | .expectedSomeValue => "expected value"
  | .invalidEscape => "invalid escape"
  | .invalidNumber => "invalid number"
  | .numberOutOfRange => "number out of range"
  | .controlCharacterWhileParsingString =>
    "control character (\\u0000-\\u001F) found while parsing a string"
  | .keyMustBeAString => "key must be a string"
  | .loneLeadingSurrogateInHexEscape => "lone leading surrogate in hex escape"
  | .trailingComma => "trailing comma"
  | .trailingCharacters => "trailing characters"
  | .unexpectedEndOfHexEscape => "unexpected end of hex escape"
  | .message text => text

/-- A decoding error: what went wrong, and how many bytes were still unread where it was found. -/
structure DecodeError where
  code : ErrorCode
  /-- The bytes left after the position; `none` while the error is not placed yet. -/
  left : Option Nat
  deriving DecidableEq, Repr

/-- An error just after the last byte consumed, with `rest` unread. -/
def failHere (code : ErrorCode) (rest : Input) : DecodeError := ⟨code, some rest.length⟩

/-- An error found on the next byte of `rest`, which is not consumed: it sits after that byte, or
at the end of the document. -/
def failNext (code : ErrorCode) (rest : Input) : DecodeError := ⟨code, some (rest.length - 1)⟩

/-- An error about the decoded value, not placed yet. -/
def failCustom (text : String) : DecodeError := ⟨.message text, none⟩

/-- An error placed where the reader stands with `rest` unread, unless it has a position already. -/
def DecodeError.place (e : DecodeError) (rest : Input) : DecodeError :=
  match e.left with
  | some _ => e
  | none => { e with left := some rest.length }

/-- The line (from 1) and column (in bytes from the line's start) of the position `i` bytes into a
document. -/
def locate (doc : Input) (i : Nat) : Nat × Nat :=
  let before := doc.take i
  let lineStart := (before.reverse.takeWhile (· != 10)).length
  (1 + before.count 10, lineStart)

/-- How an error reads, with its position in `doc` when it has one. -/
def DecodeError.render (e : DecodeError) (doc : Input) : String :=
  match e.left with
  | none => e.code.text
  | some left =>
    let (line, column) := locate doc (doc.length - left)
    e.code.text ++ " at line " ++ toString line ++ " column " ++ toString column

end SwiftAccess.Json
