import SwiftAccess.Json.Scan

/-!
# Passing over a JSON value

A reader that wants one part of a document passes over the values it does not need, checking that
they are well formed. `Json.skipValue` does this with a stack of the arrays and objects still open
(innermost first, `true` for an object) and a `Json.SkipStep` saying what comes next: a value, an
object key with its colon, the first element of a container just opened, or what may follow a
complete value (a comma or the closing bracket of the innermost container). When a value is
complete and no container is open, the bytes after it are returned.

Every step consumes at least one byte or ends the walk, except the step from a container just
opened to its first element, which is followed by one that does. So two steps per byte, plus two,
are never all used (`Json.skipValue` passes that bound).
-/

namespace SwiftAccess.Json

/-- What the skipping walk reads next. -/
inductive SkipStep where
  /-- A value. -/
  | value
  /-- An object key, then its colon. -/
  | key
  /-- The first element of a container just opened, or its end; `true` for an object. -/
  | opened (isObject : Bool)
  /-- A comma or the end of the innermost container, after a complete value. -/
  | after
  deriving DecidableEq, Repr

/-- The byte that closes an object (`true`) or an array. -/
def closer (isObject : Bool) : UInt8 := if isObject then 0x7D else 0x5D

/-- The error for a document that ends inside an object (`true`) or an array. -/
def eofInside (isObject : Bool) : ErrorCode :=
  if isObject then .eofWhileParsingObject else .eofWhileParsingList

/-- The bytes after the value being passed over, from the step `step` with the containers `stack`
open; `fuel` bounds the number of steps. -/
def skipWalk : Nat → List Bool → SkipStep → Input → Except DecodeError Input
  | 0, _, _, input => .error (failHere .eofWhileParsingValue input)
  | fuel + 1, stack, .value, input =>
    match skipSpace input with
    | [] => .error (failNext .eofWhileParsingValue [])
    | b :: rest =>
      let scalar (r : Except DecodeError Input) : Except DecodeError Input :=
        match r with
        | .ok r => skipWalk fuel stack .after r
        | .error e => .error e
      if b == 0x6E then scalar (ident [0x75, 0x6C, 0x6C] rest)
      else if b == 0x74 then scalar (ident [0x72, 0x75, 0x65] rest)
      else if b == 0x66 then scalar (ident [0x61, 0x6C, 0x73, 0x65] rest)
      else if b == 0x2D then scalar (skipNumber rest)
      else if isDigit b then scalar (skipNumber (b :: rest))
      else if b == 0x22 then scalar (skipString rest)
      else if b == 0x5B then skipWalk fuel stack (.opened false) rest
      else if b == 0x7B then skipWalk fuel stack (.opened true) rest
      else .error (failNext .expectedSomeValue (b :: rest))
  | fuel + 1, stack, .key, input =>
    match skipSpace input with
    | [] => .error (failNext .eofWhileParsingObject [])
    | b :: rest =>
      if b != 0x22 then .error (failNext .keyMustBeAString (b :: rest))
      else
        match skipString rest with
        | .error e => .error e
        | .ok r =>
          match skipSpace r with
          | [] => .error (failNext .eofWhileParsingObject [])
          | c :: r' =>
            if c == 0x3A then skipWalk fuel stack .value r'
            else .error (failNext .expectedColon (c :: r'))
  | fuel + 1, stack, .opened isObject, input =>
    match skipSpace input with
    | [] => .error (failNext (eofInside isObject) [])
    | b :: rest =>
      if b == closer isObject then skipWalk fuel stack .after rest
      else skipWalk fuel (isObject :: stack) (if isObject then .key else .value) (b :: rest)
  | _ + 1, [], .after, input => .ok input
  | fuel + 1, top :: stack, .after, input =>
    match skipSpace input with
    | [] => .error (failNext (eofInside top) [])
    | b :: rest =>
      if b == 0x2C then skipWalk fuel (top :: stack) (if top then .key else .value) rest
      else if b == closer top then skipWalk fuel stack .after rest
      else
        .error (failNext (if top then .expectedObjectCommaOrEnd else .expectedListCommaOrEnd)
          (b :: rest))

/-- The bytes after a well-formed value at the start of `input`, after white space. -/
def skipValue (input : Input) : Except DecodeError Input :=
  skipWalk (2 * input.length + 2) [] .value input

end SwiftAccess.Json
