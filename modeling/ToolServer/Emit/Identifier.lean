import ToolServer.Decimal.Digits
import ToolServer.Program.Token

/-!
# Identifiers

Names of functions and parameters in generated code: ASCII letters, digits and underscores, neither a
keyword nor a name that is taken.
-/

namespace ToolServer.Emit

open Text

/-- Words that the language keeps for itself, everywhere or in some places. -/
def keywords : List String := Program.keywords ++ Program.softKeywords

def isIdentifierChar (c : Char) : Bool := isAsciiLetter c || isAsciiDigit c || c == '_'

/-- A name as an identifier. -/
def identifier (name : String) : String :=
  let cs := name.toList.map fun c => if isIdentifierChar c then c else '_'
  let ident := match cs with
    | [] => "p_"
    | c :: rest => String.ofList (if isAsciiDigit c then 'p' :: '_' :: c :: rest else c :: rest)
  if keywords.contains ident then ident ++ "_" else ident

/-- An identifier or, if it is taken, one with an underscore or the first free number behind it. -/
def freeIdentifier (taken : List String) (base : String) : String :=
  let candidates := base :: (base ++ "_") ::
    (List.range (taken.length + 1)).map fun i => base ++ "_" ++ Decimal.natText (i + 2)
  (candidates.find? (!taken.contains ·)).getD base

/-- The identifiers of names, chosen one after the other; of a repeated name the last one counts. -/
def identifiersFrom (taken : List String) : List String → List (String × String)
  | [] => []
  | name :: rest =>
    let chosen := freeIdentifier taken (identifier name)
    (name, chosen) :: identifiersFrom (chosen :: taken) rest

end ToolServer.Emit
