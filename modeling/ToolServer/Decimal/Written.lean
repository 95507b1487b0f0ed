import ToolServer.Decimal.Double
import ToolServer.Text.Class

/-!
# Numbers written by hand

The lenient reading of a number that stands in a text: blanks around it, a sign, digits of any script
and single underscores between digits are accepted.
-/

namespace ToolServer.Decimal

open Text (isBlank decimalDigit? hexDigit?)

/-- Blanks that may stand around a number: the ASCII separators are not among them. -/
def isSpaceAround (c : Char) : Bool := isBlank c && !(0x1c ≤ c.toNat && c.toNat ≤ 0x1f)

def trimAround (s : List Char) : List Char :=
  ((s.dropWhile isSpaceAround).reverse.dropWhile isSpaceAround).reverse

/-- A sign and what follows it. -/
def splitSign : List Char → Bool × List Char
  | '-' :: rest => (true, rest)
  | '+' :: rest => (false, rest)
  | rest => (false, rest)

/-- The value of a digit in a base. -/
def digitIn? (base : Nat) (c : Char) : Option Nat :=
  ((hexDigit? c).or (decimalDigit? c)).filter (· < base)

/-- Digits with single underscores between them; there is at least one digit. -/
def groupedDigits? (base : Nat) : List Char → Option (List Nat)
  | [] => none
  | [c] => (digitIn? base c).map ([·])
  | c :: '_' :: rest => do
    let d ← digitIn? base c
    return d :: (← groupedDigits? base rest)
  | c :: rest => do
    let d ← digitIn? base c
    return d :: (← groupedDigits? base rest)

/-- Drop the mark of a base, with an underscore after it. -/
def dropBaseMark (base : Nat) (s : List Char) : List Char :=
  let rest? := match s with
    | '0' :: c :: rest =>
      if (base == 2 && (c == 'b' || c == 'B')) || (base == 8 && (c == 'o' || c == 'O')) ||
          (base == 16 && (c == 'x' || c == 'X')) then some rest else none
    | _ => none
  match rest? with
  | some ('_' :: rest) => rest
  | some rest => rest
  | none => s

inductive Unreadable
  | notANumber
  | tooManyDigits (count : Nat)
deriving DecidableEq, Repr

def readInt (base : Nat) (s : List Char) : Except Unreadable Int :=
  let (negative, body) := splitSign (trimAround s)
  match groupedDigits? base (dropBaseMark base body) with
  | none => .error .notANumber
  | some ds =>
    if base = 10 && ds.length > integerLimit then .error (.tooManyDigits ds.length)
    else
      let n : Int := valueOf base ds
      .ok (if negative then -n else n)

/-- Digits at the start of a text, with single underscores between them. -/
def spanDigits : List Char → List Nat × List Char
  | [] => ([], [])
  | c :: '_' :: e :: rest =>
    match digitIn? 10 c, digitIn? 10 e with
    | none, _ => ([], c :: '_' :: e :: rest)
    | some d, none => ([d], '_' :: e :: rest)
    | some d, some _ =>
      let (ds, left) := spanDigits (e :: rest)
      (d :: ds, left)
  | c :: rest =>
    match digitIn? 10 c with
    | none => ([], c :: rest)
    | some d =>
      let (ds, left) := spanDigits rest
      (d :: ds, left)

/-- The exponent at the end of a number. -/
def readExponent? : List Char → Option Int
  | [] => some 0
  | c :: rest =>
    if c = 'e' || c = 'E' then
      let (negative, body) := splitSign rest
      match spanDigits body with
      | ([], _) => none
      | (ds, []) =>
        let n : Int := valueOf 10 ds
        some (if negative then -n else n)
      | _ => none
    else none

/-- The words for numbers that are not finite, in any case of letters. -/
def readWord? (negative : Bool) (s : List Char) : Option Double :=
  let word := s.map fun c => if Text.isAsciiUpper c then Char.ofNat (c.toNat + 32) else c
  if word = "inf".toList || word = "infinity".toList then some (Double.infinity negative)
  else if word = "nan".toList then some Double.nan
  else none

/-- A number with an optional point and exponent. -/
def readReal? (s : List Char) : Option Double :=
  let (negative, body) := splitSign (trimAround s)
  match readWord? negative body with
  | some x => some x
  | none =>
    let (whole, rest) := spanDigits body
    let (part, rest) := match rest with
      | '.' :: rest => spanDigits rest
      | rest => ([], rest)
    if whole.isEmpty && part.isEmpty then none
    else do
      let e ← readExponent? rest
      return Double.ofDecimal negative (valueOf 10 (whole ++ part)) (e - part.length)

end ToolServer.Decimal
