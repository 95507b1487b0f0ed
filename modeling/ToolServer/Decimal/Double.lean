import ToolServer.Decimal.Digits

/-!
# Double-precision numbers

A number of the binary64 format is kept as its 64 bits, so that its value `mantissa * 2 ^ exponent`,
its comparison with integers and both directions of its decimal text are exact arithmetic on
natural numbers.
-/

namespace ToolServer.Decimal

structure Double where
  bits : UInt64
deriving DecidableEq, Repr, Inhabited

namespace Double

def isNegative (x : Double) : Bool := x.bits.toNat / Nat.pow 2 63 == 1

def exponentField (x : Double) : Nat := x.bits.toNat / Nat.pow 2 52 % Nat.pow 2 11

def fraction (x : Double) : Nat := x.bits.toNat % Nat.pow 2 52

def isNan (x : Double) : Bool := x.exponentField == 2047 && x.fraction != 0

def isInfinite (x : Double) : Bool := x.exponentField == 2047 && x.fraction == 0

/-- Of a finite number, the magnitude is `mantissa * 2 ^ exponent`. -/
def mantissa (x : Double) : Nat :=
  if x.exponentField = 0 then x.fraction else Nat.pow 2 52 + x.fraction

def exponent (x : Double) : Int :=
  if x.exponentField = 0 then -1074 else (x.exponentField : Int) - 1075

def isZero (x : Double) : Bool := x.exponentField == 0 && x.fraction == 0

def ofMagnitude (negative : Bool) (magnitude : Nat) : Double :=
  ⟨UInt64.ofNat ((if negative then Nat.pow 2 63 else 0) + min magnitude (2047 * Nat.pow 2 52))⟩

def infinity (negative : Bool) : Double := ofMagnitude negative (2047 * Nat.pow 2 52)

def nan : Double := ⟨0x7ff8000000000000⟩

/-- A fraction as numerator and denominator, scaled by a power of two. -/
def scaled (num den : Nat) (k : Int) : Nat × Nat :=
  if k < 0 then (num * Nat.pow 2 k.natAbs, den) else (num, den * Nat.pow 2 k.natAbs)

/-- The number nearest to a fraction, of two equally near ones the even one. -/
def ofQuotient (negative : Bool) (num den : Nat) : Double :=
  if num = 0 then ofMagnitude negative 0
  else
    let guess : Int := max (-1074) ((num.log2 : Int) - (den.log2 : Int) - 53)
    let fits (k : Int) : Bool := (scaled num den k).1 / (scaled num den k).2 < Nat.pow 2 53
    let k := if fits guess then guess else guess + 1
    let (n, d) := scaled num den k
    let floor := n / d
    let rest := 2 * (n % d)
    let rounded := if rest > d || (rest == d && floor % 2 == 1) then floor + 1 else floor
    ofMagnitude negative ((k + 1074).toNat * Nat.pow 2 52 + rounded)

/-- The number nearest to `m * 10 ^ e`. -/
def ofDecimal (negative : Bool) (m : Nat) (e : Int) : Double :=
  let length : Int := (digits m).length
  if m = 0 then ofMagnitude negative 0
  else if length + e > 310 then infinity negative
  else if length + e < -330 then ofMagnitude negative 0
  else if e < 0 then ofQuotient negative m (Nat.pow 10 e.natAbs)
  else ofQuotient negative (m * Nat.pow 10 e.natAbs) 1

/-- The real numbers that round to a number, as multiples of `2 ^ (exponent - 2)`: the number itself
and the two ends of the interval. -/
def interval (x : Double) : Nat × Nat × Nat :=
  let m := x.mantissa
  let below := if x.fraction = 0 && x.exponentField > 1 then 4 * m - 1 else 4 * m - 2
  (4 * m, below, 4 * m + 2)

/-- The power of ten `e` with `10 ^ (e - 1) ≤ num / den < 10 ^ e`, searched upwards from a start. -/
def decimalExponent (num den : Nat) : Nat → Int → Int
  | 0, e => e
  | fuel + 1, e =>
    let below := if e < 0 then num * Nat.pow 10 e.natAbs < den else num < den * Nat.pow 10 e.natAbs
    if below then e else decimalExponent num den fuel (e + 1)

/-- The decimal of `places` digits in the interval that is nearest to the number. -/
def onGrid? (num den low high : Nat) (closed : Bool) (pointAt : Int) (places : Nat) : Option Nat :=
  let shift := pointAt - places
  let scale (n : Nat) : Nat := if shift < 0 then n * Nat.pow 10 shift.natAbs else n
  let unit := if shift < 0 then den else den * Nat.pow 10 shift.natAbs
  let inside (d : Nat) : Bool :=
    if closed then scale low ≤ d * unit && d * unit ≤ scale high
    else scale low < d * unit && d * unit < scale high
  let floor := scale num / unit
  let rest := 2 * (scale num % unit)
  let up := rest > unit || (rest == unit && floor % 2 == 1)
  let near := if up then floor + 1 else floor
  let far := if up then floor else floor + 1
  if inside near then some near else if inside far then some far else none

/-- The fewest digits that read back as the number, and where its decimal point stands:
`0.d₁d₂… * 10 ^ point`. -/
def shortest (x : Double) : List Char × Int :=
  let (v, lo, hi) := x.interval
  let q := x.exponent - 2
  let num := if q < 0 then v else v * Nat.pow 2 q.natAbs
  let low := if q < 0 then lo else lo * Nat.pow 2 q.natAbs
  let high := if q < 0 then hi else hi * Nat.pow 2 q.natAbs
  let den := if q < 0 then Nat.pow 2 q.natAbs else 1
  let guess : Int := (((num.log2 : Int) - (den.log2 : Int) - 1) * 30103) / 100000 - 1
  let point := decimalExponent num den 8 guess
  let closed := x.mantissa % 2 == 0
  match (List.range 17).findSome? fun i => (onGrid? num den low high closed point (i + 1)).map (i + 1, ·) with
  | none => ([], 0)
  | some (places, d) =>
    let ds := digits d
    let point := point + (ds.length : Int) - places
    ((ds.reverse.dropWhile (· == '0')).reverse, point)

/-- The digits with a point: positional from `10 ^ -4` up to `10 ^ 16`, else with an exponent of at
least two digits; a positional number always has a digit after its point. -/
def magnitudeText (ds : List Char) (point : Int) : List Char :=
  if -4 < point && point ≤ 16 then
    if point ≤ 0 then ['0', '.'] ++ List.replicate point.natAbs '0' ++ ds
    else
      let whole := ds.take point.natAbs ++ List.replicate (point.natAbs - ds.length) '0'
      let part := ds.drop point.natAbs
      whole ++ '.' :: (if part.isEmpty then ['0'] else part)
  else
    let e := point - 1
    let lead := match ds with
      | [] => []
      | [d] => [d]
      | d :: rest => d :: '.' :: rest
    lead ++ ['e', if e < 0 then '-' else '+'] ++ padded 2 e.natAbs

/-- The text of a finite number. -/
def finiteText (x : Double) : String :=
  let magnitude := if x.isZero then "0.0".toList else magnitudeText x.shortest.1 x.shortest.2
  String.ofList (if x.isNegative then '-' :: magnitude else magnitude)

/-- The text of any number, with words for the ones that are not finite. -/
def text (x : Double) : String :=
  if x.isNan then "nan"
  else if x.isInfinite then (if x.isNegative then "-inf" else "inf")
  else x.finiteText

/-- The value as a signed fraction of a finite number. -/
def quotient (x : Double) : Int × Nat :=
  let m : Int := if x.isNegative then -(x.mantissa : Int) else x.mantissa
  if x.exponent < 0 then (m, Nat.pow 2 x.exponent.natAbs) else (m * Nat.pow 2 x.exponent.natAbs, 1)

/-- Whether a number and an integer have one value. -/
def equalsInt (x : Double) (n : Int) : Bool :=
  x.exponentField != 2047 && x.quotient.1 == n * x.quotient.2

/-- Numerical equality: both zeros are equal, and a number that is none equals nothing. -/
def equals (x y : Double) : Bool :=
  !x.isNan && (x == y || (x.isZero && y.isZero))

end Double

end ToolServer.Decimal
