import ToolServer.Proofs.Program.Literal

/-!
# Strings and templates of a script

The strings in single quotes and the templates of a script in strict mode, read to their end with what they denote:
units of UTF-16, and in a template the expressions that it takes in. Of expressions there are names, members and
calls.
-/

namespace ToolServer.Script

open Text (hexDigit? isAsciiDigit isAsciiLetter)
open Program (hexValue? units)

/-! ## Escapes -/

def controlLetters : List (Char × Nat) := [('b', 8), ('t', 9), ('n', 10), ('v', 11), ('f', 12), ('r', 13)]

def isLineTerminator (c : Char) : Bool := c == '\n' || c == '\r' || c.toNat == 0x2028 || c.toNat == 0x2029

/-- A number of so many hexadecimal digits as a unit, and what follows it. -/
def unitEscape? (width : Nat) (text : List Char) : Option (List Nat × List Char) :=
  if text.length < width then none
  else (hexValue? (text.take width)).map fun n => ([n], text.drop width)

def codeUnits? (n : Nat) : Option (List Nat) :=
  if n < 0x10000 then some [n]
  else if n < 0x110000 then some (units (Char.ofNat n))
  else none

/-- A code point in hexadecimal digits up to a closing brace, and what follows it. -/
def codeEscape? (text : List Char) : Option (List Nat × List Char) :=
  let digits := text.takeWhile (· != '}')
  match digits, text.drop digits.length with
  | _ :: _, _ :: rest => ((hexValue? digits).bind codeUnits?).map (·, rest)
  | _, _ => none

/-- The units that the text behind a backslash stands for, and what follows. A digit is an escape only where it is a
zero on its own. -/
def escape? : List Char → Option (List Nat × List Char)
  | 'x' :: rest => unitEscape? 2 rest
  | 'u' :: '{' :: rest => codeEscape? rest
  | 'u' :: rest => unitEscape? 4 rest
  | '\r' :: '\n' :: rest => some ([], rest)
  | c :: rest =>
    if isLineTerminator c then some ([], rest)
    else if isAsciiDigit c then
      if c = '0' && !rest.head?.any isAsciiDigit then some ([0], rest) else none
    else some (((controlLetters.lookup c).map ([·])).getD (units c), rest)
  | [] => none

theorem length_unitEscape? {width : Nat} {text left : List Char} {us : List Nat}
    (h : unitEscape? width text = some (us, left)) : left.length ≤ text.length := by
  unfold unitEscape? at h
  split at h
  · cases h
  · obtain ⟨n, -, h⟩ := Option.map_eq_some_iff.mp h
    rw [← (Prod.mk.inj h).2]
    rw [List.length_drop]
    exact Nat.sub_le ..

theorem length_codeEscape? {text left : List Char} {us : List Nat} (h : codeEscape? text = some (us, left)) :
    left.length ≤ text.length := by
  unfold codeEscape? at h
  dsimp only at h
  split at h
  · rename_i rest _ hdrop
    obtain ⟨us, -, h⟩ := Option.map_eq_some_iff.mp h
    have hlength := congrArg List.length hdrop
    rw [List.length_drop, List.length_cons] at hlength
    rw [← (Prod.mk.inj h).2]
    omega
  · cases h

theorem length_escape? {text left : List Char} {us : List Nat} (h : escape? text = some (us, left)) :
    left.length < text.length := by
  unfold escape? at h
  split at h
  · exact Nat.lt_succ_of_le (length_unitEscape? h)
  · exact Nat.lt_succ_of_le (Nat.le_succ_of_le (length_codeEscape? h))
  · exact Nat.lt_succ_of_le (length_unitEscape? h)
  · rw [← (Prod.mk.inj (Option.some.inj h)).2]
    exact Nat.lt_succ_of_le (Nat.le_succ _)
  · split_ifs at h
    all_goals
      rw [← (Prod.mk.inj (Option.some.inj h)).2]
      simp
  · cases h

/-! ## Strings -/

/-- What a string denotes from behind its opening quote on, and what follows its closing one. -/
def stringBody? (text : List Char) : Option (List Nat × List Char) :=
  match text with
  | [] => none
  | c :: rest =>
    if c = '\'' then some ([], rest)
    else if c = '\n' || c = '\r' then none
    else if c = '\\' then
      match _ : escape? rest with
      | some (us, left) => (stringBody? left).map fun (value, rest) => (us ++ value, rest)
      | none => none
    else (stringBody? rest).map fun (value, rest) => (units c ++ value, rest)
termination_by text.length
decreasing_by
  · have := length_escape? ‹_›
    simp only [List.length_cons]
    omega
  · simp

def string? : List Char → Option (List Nat × List Char)
  | '\'' :: text => stringBody? text
  | _ => none

theorem length_stringBody? {text left : List Char} {value : List Nat} (h : stringBody? text = some (value, left)) :
    left.length < text.length := by
  fun_induction stringBody? text generalizing value left with
  | case1 | case3 => cases h
  | case2 => cases h; simp
  | case4 rest us left' hescape _ _ ih =>
    obtain ⟨⟨v, l⟩, hv, h⟩ := Option.map_eq_some_iff.mp h
    cases h
    exact (ih hv).trans ((length_escape? hescape).trans (Nat.lt_succ_self _))
  | case5 => cases h
  | case6 c rest _ _ _ ih =>
    obtain ⟨⟨v, l⟩, hv, h⟩ := Option.map_eq_some_iff.mp h
    cases h
    exact (ih hv).trans (Nat.lt_succ_self _)

theorem stringBody?_quote (rest : List Char) : stringBody? ('\'' :: rest) = some ([], rest) := by
  rw [stringBody?, if_pos rfl]

theorem stringBody?_plain {c : Char} (hquote : c ≠ '\'') (hfeed : c ≠ '\n') (hreturn : c ≠ '\r') (hslash : c ≠ '\\')
    (rest : List Char) :
    stringBody? (c :: rest) = (stringBody? rest).map fun (value, rest) => (units c ++ value, rest) := by
  rw [stringBody?, if_neg hquote, if_neg (by simp [hfeed, hreturn]), if_neg hslash]

theorem stringBody?_escape {us : List Nat} {text left : List Char} (h : escape? text = some (us, left)) :
    stringBody? ('\\' :: text) = (stringBody? left).map fun (value, rest) => (us ++ value, rest) := by
  rw [stringBody?, if_neg (by decide), if_neg (by decide), if_pos rfl]
  split
  · rename_i heq
    obtain ⟨rfl, rfl⟩ := Prod.mk.inj (Option.some.inj (h.symm.trans heq))
    rfl
  · rename_i heq
    rw [h] at heq
    cases heq

end ToolServer.Script
