/-!
# Decimal digits

The digits of natural numbers and integers, and the number that a list of digits stands for.
-/

namespace ToolServer.Decimal

def digitChar (n : Nat) : Char := Char.ofNat (48 + n % 10)

/-- The digits of a number, most significant first; zero has one digit. -/
def digits (n : Nat) : List Char :=
  if n < 10 then [digitChar n] else digits (n / 10) ++ [digitChar n]

def natText (n : Nat) : String := String.ofList (digits n)

def intText (n : Int) : String :=
  if n < 0 then "-" ++ natText n.natAbs else natText n.natAbs

/-- The number that digits of a base stand for, most significant first. -/
def valueOf (base : Nat) (ds : List Nat) : Nat := ds.foldl (fun n d => n * base + d) 0

/-- The number of ASCII decimal digits. -/
def ofDigits (ds : List Char) : Nat := valueOf 10 (ds.map fun c => c.toNat - 48)

/-- The digits of a number with zeros in front up to a width. -/
def padded (width n : Nat) : List Char :=
  let ds := digits n
  List.replicate (width - ds.length) '0' ++ ds

/-- The most digits of an integer in base ten that are read or written. -/
def integerLimit : Nat := 4300

/-- Whether an integer has no more digits than are written. -/
def isWritable (n : Int) : Bool := (digits n.natAbs).length ≤ integerLimit

/-- What is said of an integer with more digits. -/
def tooManyDigitsMessage (count : Nat) : String :=
  "Exceeds the limit (" ++ natText integerLimit ++ " digits) for integer string conversion: value has " ++
    natText count ++ " digits; use sys.set_int_max_str_digits() to increase the limit"

end ToolServer.Decimal
