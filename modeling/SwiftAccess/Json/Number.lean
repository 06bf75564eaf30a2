import SwiftAccess.Json.Scan
import SwiftAccess.Text.Binary64

/-!
# Reading a JSON number

`Json.readNumber` reads a number whose sign has been read. An integer that fits an unsigned
64-bit word is kept as one (`Number.unsigned`), and a negative one that fits a signed word as that
(`Number.negative`); anything else becomes a double (`Number.float`). Minus zero is the double
`-0.0`.

A double is made from a decimal mantissa of at most 64 bits and a power of ten: the mantissa is
rounded to a double, then multiplied or divided by the double nearest to the power
(`Json.scaleByPow10`). Digits that no longer fit the mantissa are dropped and only move the
exponent. A power beyond `10 ^ 308` is applied in steps of `10 ^ 308` while the value is not zero.
A result too large for a double is refused (`number out of range`); a too small one becomes zero.
Exponents saturate at the limits of a signed 32-bit word.

`Number.describe` is how a number is named when it stands where another kind of value is expected.
-/

namespace SwiftAccess.Json

/-- A number read from a document. -/
inductive Number where
  /-- A non-negative integer below `2 ^ 64`. -/
  | unsigned (n : Nat)
  /-- A negative integer of at least `-2 ^ 63`. -/
  | negative (n : Int)
  /-- Any other number. -/
  | float (x : Float)

/-- How a number is named in an error. -/
def Number.describe : Number → String
  | .unsigned n => "integer `" ++ toString n ++ "`"
  | .negative n => "integer `" ++ toString n ++ "`"
  | .float x => "floating point `" ++ Text.shortestText x ++ "`"

/-- The largest unsigned 64-bit word. -/
def wordMax : Nat := 18446744073709551615

/-- The largest signed 32-bit word. -/
def exponentMax : Int := 2147483647

/-- A number clamped to the signed 32-bit words. -/
def saturate (e : Int) : Int := max (-exponentMax - 1) (min exponentMax e)

/-- The value of a digit byte. -/
def digitValue (b : UInt8) : Nat := b.toNat - 0x30

/-- A double scaled by a power of ten, in steps of `10 ^ 308` for a power beyond it; `none` when the
result is too large. -/
def scaleByPow10 : Nat → Float → Int → Option Float
  | 0, f, _ => some f
  | fuel + 1, f, e =>
    if e.natAbs ≤ 308 then
      if 0 ≤ e then
        let g := f * Text.pow10 e.toNat
        if g.isInf then none else some g
      else some (f / Text.pow10 e.natAbs)
    else if f == 0 then some f
    else if 0 ≤ e then none
    else scaleByPow10 fuel (f / Text.pow10 308) (e + 308)

/-- The double of a mantissa, a power of ten and a sign; `rest` is where a range error is reported. -/
def floatOf (positive : Bool) (mantissa : Nat) (e : Int) (rest : Input) :
    Except DecodeError (Float × Input) :=
  match scaleByPow10 8 mantissa.toUInt64.toFloat e with
  | none => .error (failHere .numberOutOfRange rest)
  | some f => .ok (if positive then f else -f, rest)

/-- The digits of an exponent after its first, with the value `e` so far. -/
def exponentDigits (positive : Bool) (mantissa : Nat) (start : Int) (up : Bool) :
    Nat → Input → Except DecodeError (Float × Input)
  | e, [] => floatOf positive mantissa (saturate (if up then start + e else start - e)) []
  | e, c :: rest =>
    if isDigit c then
      let e' := e * 10 + digitValue c
      if (e' : Int) > exponentMax then
        if mantissa != 0 && up then .error (failHere .numberOutOfRange rest)
        else .ok (if positive then 0.0 else -0.0, rest.dropWhile isDigit)
      else exponentDigits positive mantissa start up e' rest
    else floatOf positive mantissa (saturate (if up then start + e else start - e)) (c :: rest)

/-- An exponent whose `e` has been read, applied to the mantissa and the power `start`. -/
def readExponent (positive : Bool) (mantissa : Nat) (start : Int) (input : Input) :
    Except DecodeError (Float × Input) :=
  let (up, input) : Bool × Input := match input with
    | s :: rest => if s == 0x2B then (true, rest) else if s == 0x2D then (false, rest) else (true, input)
    | [] => (true, [])
  match input with
  | [] => .error (failHere .eofWhileParsingValue [])
  | d :: rest =>
    if isDigit d then exponentDigits positive mantissa start up (digitValue d) rest
    else .error (failHere .invalidNumber rest)

/-- What follows digits that no longer fit the mantissa: more digits, then an optional exponent. -/
def afterDroppedDigits (positive : Bool) (mantissa : Nat) (e : Int) (input : Input) :
    Except DecodeError (Float × Input) :=
  let rest := input.dropWhile isDigit
  match rest with
  | c :: more => if c == 0x65 || c == 0x45 then readExponent positive mantissa e more
                 else floatOf positive mantissa e rest
  | [] => floatOf positive mantissa e []

/-- The digits of a fraction, with the mantissa so far and the power `after` they have moved it. -/
def fractionDigits (positive : Bool) (before : Int) : Nat → Int → Input →
    Except DecodeError (Float × Input)
  | m, after, c :: rest =>
    if isDigit c then
      let m' := m * 10 + digitValue c
      if m' > wordMax then afterDroppedDigits positive m (before + after) (c :: rest)
      else fractionDigits positive before m' (after - 1) rest
    else if after == 0 then .error (failNext .invalidNumber (c :: rest))
    else if c == 0x65 || c == 0x45 then readExponent positive m (before + after) rest
    else floatOf positive m (before + after) (c :: rest)
  | m, after, [] =>
    if after == 0 then .error (failNext .eofWhileParsingValue [])
    else floatOf positive m (before + after) []

/-- Integer digits beyond what the mantissa holds, each raising the power by one. -/
def extraDigits (positive : Bool) (mantissa : Nat) : Int → Input →
    Except DecodeError (Float × Input)
  | e, c :: rest =>
    if isDigit c then extraDigits positive mantissa (e + 1) rest
    else if c == 0x2E then fractionDigits positive e mantissa 0 rest
    else if c == 0x65 || c == 0x45 then readExponent positive mantissa e rest
    else floatOf positive mantissa e (c :: rest)
  | e, [] => floatOf positive mantissa e []

/-- An integer part `n` and what may follow it: a fraction, an exponent, or nothing. -/
def afterInteger (positive : Bool) (n : Nat) (input : Input) : Except DecodeError (Number × Input) :=
  let asFloat (r : Except DecodeError (Float × Input)) := r.map fun p => (Number.float p.1, p.2)
  match input with
  | c :: rest =>
    if c == 0x2E then asFloat (fractionDigits positive 0 n 0 rest)
    else if c == 0x65 || c == 0x45 then asFloat (readExponent positive n 0 rest)
    else if positive then .ok (.unsigned n, input)
    else if n == 0 || n > 9223372036854775808 then .ok (.float (-n.toUInt64.toFloat), input)
    else .ok (.negative (-(n : Int)), input)
  | [] =>
    if positive then .ok (.unsigned n, [])
    else if n == 0 || n > 9223372036854775808 then .ok (.float (-n.toUInt64.toFloat), [])
    else .ok (.negative (-(n : Int)), [])

/-- Integer digits after the first, with the value `n` so far. -/
def integerDigits (positive : Bool) : Nat → Input → Except DecodeError (Number × Input)
  | n, c :: rest =>
    if isDigit c then
      let n' := n * 10 + digitValue c
      if n' > wordMax then
        (extraDigits positive n 0 (c :: rest)).map fun p => (Number.float p.1, p.2)
      else integerDigits positive n' rest
    else afterInteger positive n (c :: rest)
  | n, [] => afterInteger positive n []

/-- A number whose sign has been read, `positive` telling which. -/
def readNumber (positive : Bool) : Input → Except DecodeError (Number × Input)
  | [] => .error (failHere .eofWhileParsingValue [])
  | b :: rest =>
    if b == 0x30 then
      match rest with
      | d :: _ => if isDigit d then .error (failNext .invalidNumber rest) else afterInteger positive 0 rest
      | [] => afterInteger positive 0 []
    else if isDigit b then integerDigits positive (digitValue b) rest
    else .error (failHere .invalidNumber rest)

end SwiftAccess.Json
