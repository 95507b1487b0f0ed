import ToolServer.Text.CaseTable
import ToolServer.Text.Class

/-!
# Small and capital letters

Case mapping of whole texts. ASCII is mapped by arithmetic, all else by the tables; a letter may
become several. A capital sigma at the end of a word has a small form of its own.
-/

namespace ToolServer.Text

/-- The image of a character in a table of runs. -/
def runImage? (runs : List (Nat × Nat × Nat × Nat)) (c : Char) : Option Char :=
  (runs.find? fun (first, last, step, _) =>
    first ≤ c.toNat && c.toNat ≤ last && (c.toNat - first) % step == 0).map
  fun (first, _, _, image) => Char.ofNat (image + (c.toNat - first))

def specialImage? (table : List (Nat × List Nat)) (c : Char) : Option (List Char) :=
  (table.lookup c.toNat).map (·.map Char.ofNat)

/-- The small form of one character, apart from its neighbours. -/
def lowerChar (c : Char) : List Char :=
  if c.toNat < 0x80 then [if isAsciiUpper c then Char.ofNat (c.toNat + 32) else c]
  else (specialImage? lowerSpecial c).getD [(runImage? lowerRuns c).getD c]

/-- The capital form of one character. -/
def upperChar (c : Char) : List Char :=
  if c.toNat < 0x80 then [if isAsciiLower c then Char.ofNat (c.toNat - 32) else c]
  else (specialImage? upperSpecial c).getD [(runImage? upperRuns c).getD c]

/-- Whether the nearest character that is not skipped has case. -/
def casedNext (cs : List Char) : Bool :=
  match cs.dropWhile (inRanges caseIgnorableRanges) with
  | [] => false
  | c :: _ => inRanges casedRanges c

/-- A sigma is final after a letter and before none. -/
def lowerSigma (before after : List Char) : Char :=
  if casedNext before && !casedNext after then 'ς' else 'σ'

/-- Lower a text, given the characters before it, the nearest first. -/
def lowerAfter (before : List Char) : List Char → List Char
  | [] => []
  | c :: cs =>
    (if c = 'Σ' then [lowerSigma before cs] else lowerChar c) ++ lowerAfter (c :: before) cs

def lower (s : String) : String := String.ofList (lowerAfter [] s.toList)

def upper (s : String) : String := String.ofList (s.toList.flatMap upperChar)

end ToolServer.Text
