import SwiftAccess.Json.Skip
import SwiftAccess.Json.Number
import SwiftAccess.Text.Printable
import SwiftAccess.Host.Config

/-!
# The extension manifest

An editor extension ships a manifest whose `CFBundleIdentifier` names the bundle that qualifies its
command identifiers. `Manifest.decode` reads a manifest as a record with that one field, and says
why a text is not one, with the line and column where that was found.

The record is a JSON object or an array. An object holds the key exactly once, with a string value;
other members are passed over but must be well formed (`Json.skipValue`); keys and the identifier
are decoded strictly (`Json.readString`). An array holds exactly the identifier. Nothing but white
space may follow the record.

A value of the wrong kind is reported by what it is, `invalid type: integer 1, expected a string`
(with the number between backquotes), after the value has been read. The errors about the record
as a whole (a missing or repeated field, an empty array) are placed where the reader stands once
the object or array has been closed, or has failed to close.
-/

namespace SwiftAccess.Host

open Json

/-- The key of the bundle identifier. -/
def bundleIdKey : String := "CFBundleIdentifier"

/-- What a manifest is expected to be. -/
def manifestExpected : String := "struct ExtensionManifest"

/-- The text of decoded string bytes. -/
def textOf (bytes : List UInt8) : String := (String.fromUTF8? ⟨bytes.toArray⟩).getD ""

/-- The error for a value that is not of the expected kind. -/
def invalidType (found expected : String) : DecodeError :=
  failCustom ("invalid type: " ++ found ++ ", expected " ++ expected)

/-- The error for the value at the start of `input` (after white space), which is not of the
expected kind: the value is read first, so a malformed one is reported as such. -/
def wrongKind (expected : String) : Input → DecodeError
  | [] => failNext .expectedSomeValue []
  | b :: rest =>
    let named (r : Except DecodeError Input) (found : String) : DecodeError :=
      match r with
      | .ok r => (invalidType found expected).place r
      | .error e => e
    let number (r : Except DecodeError (Number × Input)) : DecodeError :=
      match r with
      | .ok (n, r) => (invalidType n.describe expected).place r
      | .error e => e
    if b == 0x6E then named (ident [0x75, 0x6C, 0x6C] rest) "null"
    else if b == 0x74 then named (ident [0x72, 0x75, 0x65] rest) "boolean `true`"
    else if b == 0x66 then named (ident [0x61, 0x6C, 0x73, 0x65] rest) "boolean `false`"
    else if b == 0x2D then number (readNumber false rest)
    else if isDigit b then number (readNumber true (b :: rest))
    else if b == 0x22 then
      match readString [] rest with
      | .ok (s, r) => (invalidType ("string " ++ Text.quote (textOf s)) expected).place r
      | .error e => e
    else if b == 0x5B then (invalidType "sequence" expected).place (b :: rest)
    else if b == 0x7B then (invalidType "map" expected).place (b :: rest)
    else failNext .expectedSomeValue (b :: rest)

/-- A string value, after white space. -/
def readText (input : Input) : Except DecodeError (String × Input) :=
  match skipSpace input with
  | [] => .error (failNext .eofWhileParsingValue [])
  | b :: rest =>
    if b == 0x22 then (readString [] rest).map fun p => (textOf p.1, p.2)
    else .error (wrongKind "a string" (b :: rest))

/-- The colon after an object key. -/
def readColon (input : Input) : Except DecodeError Input :=
  match skipSpace input with
  | [] => .error (failNext .eofWhileParsingObject [])
  | b :: rest => if b == 0x3A then .ok rest else .error (failNext .expectedColon (b :: rest))

/-- The bytes after the opening quote of the next key of an object whose `{` has been read, or
`none` at its closing brace (which is not consumed); `first` before the first member. -/
def nextKey (first : Bool) (input : Input) : Except DecodeError (Option Input) :=
  match input with
  | [] => .error (failNext .eofWhileParsingObject [])
  | b :: rest =>
    if b == 0x7D then .ok none
    else if b == 0x2C && !first then
      match skipSpace rest with
      | [] => .error (failNext .eofWhileParsingValue [])
      | c :: r =>
        if c == 0x22 then .ok (some r)
        else if c == 0x7D then .error (failNext .trailingComma (c :: r))
        else .error (failNext .keyMustBeAString (c :: r))
    else if first then
      if b == 0x22 then .ok (some rest) else .error (failNext .keyMustBeAString input)
    else .error (failNext .expectedObjectCommaOrEnd input)

/-- The bundle identifier among the members of the manifest object, and the bytes from its closing
brace on; `found` is the identifier read so far. A failure comes with the bytes where the reader
stood. `fuel` bounds the number of members. -/
def readMembers : Nat → Option String → Bool → Input →
    Except (DecodeError × Input) (String × Input)
  | 0, _, _, input => .error (failHere .eofWhileParsingObject input, input)
  | fuel + 1, found, first, input =>
    let input := skipSpace input
    match nextKey first input with
    | .error e => .error (e, input)
    | .ok none =>
      match found with
      | some v => .ok (v, input)
      | none => .error (failCustom ("missing field `" ++ bundleIdKey ++ "`"), input)
    | .ok (some afterQuote) =>
      match readString [] afterQuote with
      | .error e => .error (e, afterQuote)
      | .ok (key, r) =>
        if key == bundleIdKey.toUTF8.toList then
          if found.isSome then .error (failCustom ("duplicate field `" ++ bundleIdKey ++ "`"), r)
          else
            match readColon r >>= readText with
            | .error e => .error (e, r)
            | .ok (v, r') => readMembers fuel (some v) false r'
        else
          match readColon r >>= skipValue with
          | .error e => .error (e, r)
          | .ok r' => readMembers fuel found false r'

/-- The identifier as the only element of the manifest array whose `[` has been read. -/
def readElements (input : Input) : Except (DecodeError × Input) (String × Input) :=
  match skipSpace input with
  | [] => .error (failNext .eofWhileParsingList [], [])
  | b :: rest =>
    if b == 0x5D then
      .error (failCustom ("invalid length 0, expected " ++ manifestExpected ++ " with 1 element"),
        b :: rest)
    else
      match readText (b :: rest) with
      | .ok r => .ok r
      | .error e => .error (e, b :: rest)

/-- The closing brace of the manifest object, and the bytes where the reader stands after it. -/
def closeObject (input : Input) : Except DecodeError Unit × Input :=
  match skipSpace input with
  | [] => (.error (failNext .eofWhileParsingObject []), [])
  | b :: rest =>
    if b == 0x7D then (.ok (), rest)
    else if b == 0x2C then (.error (failNext .trailingComma (b :: rest)), b :: rest)
    else (.error (failNext .trailingCharacters (b :: rest)), b :: rest)

/-- The closing bracket of the manifest array, and the bytes where the reader stands after it. -/
def closeArray (input : Input) : Except DecodeError Unit × Input :=
  match skipSpace input with
  | [] => (.error (failNext .eofWhileParsingList []), [])
  | b :: rest =>
    if b == 0x5D then (.ok (), rest)
    else if b == 0x2C then
      match skipSpace rest with
      | c :: r =>
        if c == 0x5D then (.error (failNext .trailingComma (c :: r)), c :: r)
        else (.error (failNext .trailingCharacters (c :: r)), c :: r)
      | [] => (.error (failNext .trailingCharacters []), [])
    else (.error (failNext .trailingCharacters (b :: rest)), b :: rest)

/-- The manifest record at the start of a document, and the bytes after it. -/
def readManifest (input : Input) : Except DecodeError (String × Input) :=
  match skipSpace input with
  | [] => .error (failNext .eofWhileParsingValue [])
  | b :: rest =>
    if b == 0x5B || b == 0x7B then
      let body := if b == 0x5B then readElements rest else readMembers (rest.length + 1) none true rest
      let stopped := match body with
        | .ok (_, s) => s
        | .error (_, s) => s
      let (closing, after) := if b == 0x5B then closeArray stopped else closeObject stopped
      match body, closing with
      | .ok (v, _), .ok () => .ok (v, after)
      | .ok _, .error e => .error e
      | .error (e, _), _ => .error (e.place after)
    else .error (wrongKind manifestExpected (b :: rest))

/-- The bundle identifier of a manifest document, or why the document is not a manifest. -/
def Manifest.decode (text : String) : Except DecodeError String := do
  let (v, rest) ← readManifest text.toUTF8.toList
  match skipSpace rest with
  | [] => pure v
  | r => throw (failNext .trailingCharacters r)

/-- The bundle identifier of a manifest document, or the message saying why it is not one. -/
def Manifest.read (text : String) : Except String String :=
  match Manifest.decode text with
  | .ok v => .ok v
  | .error e => .error (e.render text.toUTF8.toList)

/-- The bundle identifier a manifest names, if it is a well-formed manifest. -/
def Manifest.bundleId? (text : String) : Option String := (Manifest.decode text).toOption

/-- The configuration a manifest gives, if it is well formed. -/
def Manifest.config? (text : String) : Option HostConfig :=
  (Manifest.bundleId? text).map HostConfig.ofBundleId

end SwiftAccess.Host
