/-!
# Double-precision numbers: rounding and shortest decimal text

`Text.natToFloat` is the double nearest to a natural number (ties to even), and `Text.pow10` the
double nearest to a power of ten; with them a decimal mantissa and exponent are turned into a
double the way a JSON reader does it.

`Text.shortestText` writes a finite double in the fewest significant digits that read back as the
same double. The digits are found in the interval of decimals that round to the double (its end
points included when the double's binary mantissa is even): as many trailing digits are dropped as
the interval allows, and the last digit is rounded to the nearest, ties to even. The text is
`digits.0` for an integer below `10 ^ 16`, a plain decimal fraction for a number of at least
`10 ^ -5`, and otherwise scientific with a signed exponent, `1.5e-7` or `1e+30`; zero is `0.0` or
`-0.0`.
-/

namespace SwiftAccess.Text

/-- The double nearest to a natural number, ties to even; infinite beyond the largest double. -/
def natToFloat (n : Nat) : Float :=
  if n < 9007199254740992 then n.toUInt64.toFloat
  else
    let shift := n.log2 - 52
    let m := n >>> shift
    let rem := n % (1 <<< shift)
    let half := 1 <<< (shift - 1)
    let m := if rem > half || (rem == half && m % 2 == 1) then m + 1 else m
    Float.scaleB m.toUInt64.toFloat shift

/-- The double nearest to `10 ^ k`. -/
def pow10 (k : Nat) : Float := natToFloat (Nat.pow 10 k)

/-- `⌊log₁₀ 2 ^ e⌋`, for `e ≤ 1650`. -/
def log10Pow2 (e : Nat) : Nat := (e * 78913) >>> 18

/-- `⌊log₁₀ 5 ^ e⌋`, for `e ≤ 2620`. -/
def log10Pow5 (e : Nat) : Nat := (e * 732923) >>> 20

/-- A decimal `digits × 10 ^ exponent`. -/
structure Decimal where
  digits : Nat
  exponent : Int
  deriving DecidableEq, Repr

/-- The state of the digit removal: the scaled value and the ends of its interval, whether the
digits removed from the low end and from the value were all zero, the last digit removed from the
value, and how many digits were removed. -/
structure Trim where
  vr : Nat
  vp : Nat
  vm : Nat
  vmZeros : Bool
  vrZeros : Bool
  lastRemoved : Nat
  removed : Nat

/-- One digit removed from all three numbers. -/
def Trim.drop (t : Trim) : Trim :=
  { vr := t.vr / 10, vp := t.vp / 10, vm := t.vm / 10,
    vmZeros := t.vmZeros && t.vm % 10 == 0,
    vrZeros := t.vrZeros && t.lastRemoved == 0,
    lastRemoved := t.vr % 10, removed := t.removed + 1 }

/-- Digits removed while the interval still holds a shorter decimal. -/
def Trim.shorten : Nat → Trim → Trim
  | 0, t => t
  | fuel + 1, t => if t.vp / 10 ≤ t.vm / 10 then t else Trim.shorten fuel t.drop

/-- Zero digits removed from the low end while it stays exact. -/
def Trim.dropZeros : Nat → Trim → Trim
  | 0, t => t
  | fuel + 1, t => if t.vm % 10 != 0 then t else Trim.dropZeros fuel t.drop

/-- The shortest decimal in the rounding interval of the double with these stored mantissa bits and
biased exponent, which is finite and not zero. -/
def shortestDecimal (ieeeMantissa ieeeExponent : Nat) : Decimal :=
  let e2 : Int := (if ieeeExponent == 0 then 1 else (ieeeExponent : Int)) - 1077
  let m2 := if ieeeExponent == 0 then ieeeMantissa else 4503599627370496 + ieeeMantissa
  let acceptBounds := m2 % 2 == 0
  let mv := 4 * m2
  let mmShift := if ieeeMantissa != 0 || ieeeExponent ≤ 1 then 1 else 0
  let mp := mv + 2
  let mm := mv - 1 - mmShift
  let start : Trim × Int :=
    if 0 ≤ e2 then
      let e := e2.toNat
      let q := log10Pow2 e - (if e > 3 then 1 else 0)
      let scale := fun v => v * Nat.pow 2 e / Nat.pow 10 q
      let five := Nat.pow 5 q
      let t : Trim := { vr := scale mv, vp := scale mp, vm := scale mm, vmZeros := false,
                        vrZeros := false, lastRemoved := 0, removed := 0 }
      let t :=
        if q ≤ 21 then
          if mv % 5 == 0 then { t with vrZeros := mv % five == 0 }
          else if acceptBounds then { t with vmZeros := mm % five == 0 }
          else { t with vp := t.vp - (if mp % five == 0 then 1 else 0) }
        else t
      (t, (q : Int))
    else
      let e := (-e2).toNat
      let q := log10Pow5 e - (if e > 1 then 1 else 0)
      let i := e - q
      let scale := fun v => v * Nat.pow 5 i / Nat.pow 2 q
      let t : Trim := { vr := scale mv, vp := scale mp, vm := scale mm, vmZeros := false,
                        vrZeros := false, lastRemoved := 0, removed := 0 }
      let t :=
        if q ≤ 1 then
          if acceptBounds then { t with vrZeros := true, vmZeros := mmShift == 1 }
          else { t with vrZeros := true, vp := t.vp - 1 }
        else if q < 63 then { t with vrZeros := mv % Nat.pow 2 q == 0 }
        else t
      (t, (q : Int) + e2)
  let (t, e10) := start
  let t := Trim.shorten 40 t
  let t := if t.vmZeros then Trim.dropZeros 40 t else t
  let last := if t.vrZeros && t.lastRemoved == 5 && t.vr % 2 == 0 then 4 else t.lastRemoved
  let up := (t.vr == t.vm && (!acceptBounds || !t.vmZeros)) || last ≥ 5
  { digits := t.vr + (if up then 1 else 0), exponent := e10 + t.removed }

/-- The decimal digits of a natural number. -/
def digitText (n : Nat) : String := toString n

/-- A decimal written as a double is written: plain up to 16 integer digits, as a fraction down to
`10 ^ -5`, and otherwise in scientific form, where a positive exponent has its sign. -/
def Decimal.text (d : Decimal) : String :=
  let ds := digitText d.digits
  let length : Int := ds.length
  let k := d.exponent
  let kk := length + k
  if 0 ≤ k && kk ≤ 16 then
    ds ++ String.ofList (List.replicate k.toNat '0') ++ ".0"
  else if 0 < kk && kk ≤ 16 then
    let (whole, frac) := ds.toList.splitAt kk.toNat
    String.ofList whole ++ "." ++ String.ofList frac
  else if -5 < kk && kk ≤ 0 then
    "0." ++ String.ofList (List.replicate (-kk).toNat '0') ++ ds
  else
    let exponent := "e" ++ (if 0 < kk - 1 then "+" else "") ++ toString (kk - 1)
    match ds.toList with
    | [c] => String.ofList [c] ++ exponent
    | c :: rest => String.ofList [c] ++ "." ++ String.ofList rest ++ exponent
    | [] => exponent

/-- The shortest text that reads back as the double `x`. -/
def shortestText (x : Float) : String :=
  let bits := x.toBits.toNat
  let negative := bits >>> 63 == 1
  let mantissa := bits % 4503599627370496
  let exponent := (bits >>> 52) % 2048
  let sign := if negative then "-" else ""
  if exponent == 2047 then
    if mantissa != 0 then "NaN" else sign ++ "inf"
  else if exponent == 0 && mantissa == 0 then sign ++ "0.0"
  else sign ++ (shortestDecimal mantissa exponent).text

end SwiftAccess.Text
