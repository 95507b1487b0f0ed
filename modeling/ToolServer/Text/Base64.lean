import ToolServer.Text.Class

/-!
# Base64

Reading bytes written in groups of four letters. Characters outside the alphabet are skipped, and
padding after at least two letters of a group ends the text.
-/

namespace ToolServer.Text

def base64Digit? (c : Char) : Option Nat :=
  if isAsciiUpper c then some (c.toNat - 65)
  else if isAsciiLower c then some (c.toNat - 71)
  else if isAsciiDigit c then some (c.toNat + 4)
  else if c = '+' then some 62
  else if c = '/' then some 63
  else none

/-- Read the rest of a text: `place` letters of the current group are read and `left` holds their bits
that belong to no byte yet; `pads` padding marks have come since the last letter. -/
def base64From (place left pads : Nat) : List Char → Option (List UInt8)
  | [] => if place = 0 then some [] else none
  | c :: cs =>
    if c = '=' then
      if 2 ≤ place then
        if 4 ≤ place + (pads + 1) then some [] else base64From place left (pads + 1) cs
      else base64From place left pads cs
    else match base64Digit? c with
      | none => base64From place left pads cs
      | some d =>
        match place with
        | 0 => base64From 1 d 0 cs
        | 1 => (base64From 2 (d % 16) 0 cs).map (UInt8.ofNat (left * 4 + d / 16) :: ·)
        | 2 => (base64From 3 (d % 4) 0 cs).map (UInt8.ofNat (left * 16 + d / 4) :: ·)
        | _ => (base64From 0 0 0 cs).map (UInt8.ofNat (left * 64 + d) :: ·)

def ofBase64? (s : List Char) : Option (List UInt8) := base64From 0 0 0 s

end ToolServer.Text
