import SwiftAccess.Json.Error

/-!
# Scanning JSON bytes

The lexical pieces of a JSON document, read from a list of bytes: white space (space, tab, line
feed, carriage return), the words `null`, `true` and `false`, strings and numbers. Each reader
takes the bytes after the piece's first byte where that byte decides what the piece is, and
returns the bytes after the piece, or the error with its position (`Json.Error`).

Strings are read in two ways. `Json.readString` decodes a string as text: its escapes are
`\" \\ \/ \b \f \n \r \t` and `\u` with four hexadecimal digits, where a surrogate must come as a
high half followed by a low half, and a raw control character (below U+0020) is refused.
`Json.skipString` passes over a string whose text is not needed; it checks the same escapes and
control characters but lets a `\u` escape stand for any code unit. `Json.skipNumber` passes over a
number, checking only its syntax: an integer part without leading zeros, then an optional fraction
and exponent, each with at least one digit.
-/

namespace SwiftAccess.Json

/-- Whether a byte is JSON white space. -/
def isSpace (b : UInt8) : Bool := b == 0x20 || b == 0x0A || b == 0x09 || b == 0x0D

/-- Whether a byte is an ASCII digit. -/
def isDigit (b : UInt8) : Bool := 0x30 ≤ b && b ≤ 0x39

/-- The bytes after leading white space. -/
def skipSpace (input : Input) : Input := input.dropWhile isSpace

/-- The bytes after the rest of a word whose first byte has been read: each of `word` must follow,
or the word is cut short by the end of the document or by another byte. -/
def ident : List UInt8 → Input → Except DecodeError Input
  | [], input => .ok input
  | _ :: _, [] => .error (failHere .eofWhileParsingValue [])
  | w :: ws, b :: rest => if b == w then ident ws rest else .error (failHere .expectedSomeIdent rest)

/-- The value of a hexadecimal digit. -/
def hexDigit? (b : UInt8) : Option Nat :=
  if 0x30 ≤ b && b ≤ 0x39 then some (b.toNat - 0x30)
  else if 0x61 ≤ b && b ≤ 0x66 then some (b.toNat - 0x61 + 10)
  else if 0x41 ≤ b && b ≤ 0x46 then some (b.toNat - 0x41 + 10)
  else none

/-- The code unit of four hexadecimal digits. -/
def hexUnit? (a b c d : UInt8) : Option Nat := do
  pure ((((← hexDigit? a) * 16 + (← hexDigit? b)) * 16 + (← hexDigit? c)) * 16 + (← hexDigit? d))

/-- The byte an escape letter stands for, for every escape but `\u`. -/
def simpleEscape? (b : UInt8) : Option UInt8 :=
  if b == 0x22 then some 0x22
  else if b == 0x5C then some 0x5C
  else if b == 0x2F then some 0x2F
  else if b == 0x62 then some 0x08
  else if b == 0x66 then some 0x0C
  else if b == 0x6E then some 0x0A
  else if b == 0x72 then some 0x0D
  else if b == 0x74 then some 0x09
  else none

/-- Whether a code unit is the high half of a surrogate pair. -/
def isHighSurrogate (n : Nat) : Bool := 0xD800 ≤ n && n ≤ 0xDBFF

/-- Whether a code unit is the low half of a surrogate pair. -/
def isLowSurrogate (n : Nat) : Bool := 0xDC00 ≤ n && n ≤ 0xDFFF

/-- The UTF-8 bytes of a code point, which is not a surrogate. -/
def utf8Bytes (n : Nat) : List UInt8 :=
  (Char.ofNat n).toString.toUTF8.toList

/-- The bytes of a string's text after its opening quote, decoded: the text's bytes, reversed onto
`acc`, and the bytes after the closing quote. -/
def readString (acc : List UInt8) : Input → Except DecodeError (List UInt8 × Input)
  | [] => .error (failHere .eofWhileParsingString [])
  | b :: rest =>
    if b == 0x22 then .ok (acc.reverse, rest)
    else if b == 0x5C then
      match rest with
      | [] => .error (failHere .eofWhileParsingString [])
      | e :: more =>
        if e == 0x75 then
          match more with
          | h1 :: h2 :: h3 :: h4 :: tail =>
            match hexUnit? h1 h2 h3 h4 with
            | none => .error (failHere .invalidEscape tail)
            | some n =>
              if isLowSurrogate n then .error (failHere .loneLeadingSurrogateInHexEscape tail)
              else if !isHighSurrogate n then readString ((utf8Bytes n).reverse ++ acc) tail
              else
                match tail with
                | [] => .error (failHere .eofWhileParsingString [])
                | s :: tail2 =>
                  if s != 0x5C then .error (failHere .unexpectedEndOfHexEscape tail2)
                  else
                    match tail2 with
                    | [] => .error (failHere .eofWhileParsingString [])
                    | u :: tail3 =>
                      if u != 0x75 then .error (failHere .unexpectedEndOfHexEscape tail3)
                      else
                        match tail3 with
                        | l1 :: l2 :: l3 :: l4 :: tail4 =>
                          match hexUnit? l1 l2 l3 l4 with
                          | none => .error (failHere .invalidEscape tail4)
                          | some m =>
                            if !isLowSurrogate m then
                              .error (failHere .loneLeadingSurrogateInHexEscape tail4)
                            else
                              let c := (((n - 0xD800) * 0x400) + (m - 0xDC00)) + 0x10000
                              readString ((utf8Bytes c).reverse ++ acc) tail4
                        | _ => .error (failHere .eofWhileParsingString [])
          | _ => .error (failHere .eofWhileParsingString [])
        else
          match simpleEscape? e with
          | some c => readString (c :: acc) more
          | none => .error (failHere .invalidEscape more)
    else if b < 0x20 then .error (failHere .controlCharacterWhileParsingString rest)
    else readString (b :: acc) rest

/-- The bytes after a string whose opening quote has been read, passed over without decoding. A
raw control character is reported where it stands. -/
def skipString : Input → Except DecodeError Input
  | [] => .error (failHere .eofWhileParsingString [])
  | b :: rest =>
    if b == 0x22 then .ok rest
    else if b == 0x5C then
      match rest with
      | [] => .error (failHere .eofWhileParsingString [])
      | e :: more =>
        if e == 0x75 then
          match more with
          | h1 :: h2 :: h3 :: h4 :: tail =>
            match hexUnit? h1 h2 h3 h4 with
            | none => .error (failHere .invalidEscape tail)
            | some _ => skipString tail
          | _ => .error (failHere .eofWhileParsingString [])
        else if (simpleEscape? e).isSome then skipString more
        else .error (failHere .invalidEscape more)
    else if b < 0x20 then .error (failHere .controlCharacterWhileParsingString (b :: rest))
    else skipString rest

/-- The bytes after an exponent whose `e` has been read. -/
def skipExponent (input : Input) : Except DecodeError Input :=
  let input := match input with
    | s :: rest => if s == 0x2B || s == 0x2D then rest else input
    | [] => input
  match input with
  | [] => .error (failHere .invalidNumber [])
  | d :: rest =>
    if isDigit d then .ok (rest.dropWhile isDigit) else .error (failHere .invalidNumber rest)

/-- The bytes after a fraction whose `.` has been read, and the exponent after it. -/
def skipFraction (input : Input) : Except DecodeError Input :=
  let digits := input.takeWhile isDigit
  let rest := input.dropWhile isDigit
  if digits.isEmpty then .error (failNext .invalidNumber rest)
  else
    match rest with
    | e :: more => if e == 0x65 || e == 0x45 then skipExponent more else .ok rest
    | [] => .ok rest

/-- The bytes after a number's fraction or exponent, if one follows its integer part. -/
def skipNumberTail : Input → Except DecodeError Input
  | [] => .ok []
  | b :: rest =>
    if b == 0x2E then skipFraction rest
    else if b == 0x65 || b == 0x45 then skipExponent rest
    else .ok (b :: rest)

/-- The bytes after a number without its sign. -/
def skipNumber : Input → Except DecodeError Input
  | [] => .error (failHere .invalidNumber [])
  | b :: rest =>
    if b == 0x30 then
      match rest with
      | d :: _ => if isDigit d then .error (failNext .invalidNumber rest) else skipNumberTail rest
      | [] => .ok []
    else if isDigit b then skipNumberTail (rest.dropWhile isDigit)
    else .error (failHere .invalidNumber rest)

end SwiftAccess.Json
