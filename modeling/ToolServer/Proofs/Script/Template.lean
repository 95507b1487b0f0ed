import ToolServer.Proofs.Script.Literal

/-!
# Templates of a script

A template is text with expressions in it: names, members of what has a name, and calls of it with one argument.
Words are read as far as they go, so an expression ends where none of its signs follows.
-/

namespace ToolServer.Script

open Text (isAsciiDigit isAsciiLetter)
open Program (units)

/-! ## Expressions -/

inductive Expr
  | name (word : String)
  | member (object : String) (key : List Nat)
  | call (function : String) (argument : Expr)
deriving DecidableEq, Repr

def isWordStart (c : Char) : Bool := isAsciiLetter c || c == '_' || c == '$'

def isWordPart (c : Char) : Bool := isWordStart c || isAsciiDigit c

/-- Words that are names of nothing. -/
def reservedWords : List String := [
  "arguments", "await", "break", "case", "catch", "class", "const", "continue", "debugger", "default", "delete", "do",
  "else", "enum", "eval", "export", "extends", "false", "finally", "for", "function", "if", "implements", "import", "in",
  "instanceof", "interface", "let", "new", "null", "package", "private", "protected", "public", "return", "static",
  "super", "switch", "this", "throw", "true", "try", "typeof", "var", "void", "while", "with", "yield"]

def word? : List Char → Option (List Char × List Char)
  | c :: rest =>
    if isWordStart c then some (c :: rest.takeWhile isWordPart, rest.dropWhile isWordPart) else none
  | [] => none

theorem length_word? {text word left : List Char} (h : word? text = some (word, left)) : left.length < text.length := by
  cases text with
  | nil => cases h
  | cons c rest =>
    rw [word?] at h
    split_ifs at h
    rw [← (Prod.mk.inj (Option.some.inj h)).2]
    exact Nat.lt_succ_of_le (List.dropWhile_suffix isWordPart).length_le

def name? (text : List Char) : Option (String × List Char) :=
  (word? text).bind fun (word, rest) =>
    if reservedWords.contains (String.ofList word) then none else some (String.ofList word, rest)

theorem length_name? {text left : List Char} {name : String} (h : name? text = some (name, left)) :
    left.length < text.length := by
  obtain ⟨⟨word, l⟩, hword, h⟩ := Option.bind_eq_some_iff.mp h
  dsimp only at h
  split_ifs at h
  rw [← (Prod.mk.inj (Option.some.inj h)).2]
  exact length_word? hword

def expression? (text : List Char) : Option (Expr × List Char) :=
  match _ : name? text with
  | some (name, '.' :: rest) => (word? rest).map fun (key, rest) => (.member name (key.flatMap units), rest)
  | some (name, '[' :: rest) =>
    match string? rest with
    | some (key, ']' :: rest) => some (.member name key, rest)
    | _ => none
  | some (name, '(' :: rest) =>
    match expression? rest with
    | some (argument, ')' :: rest) => some (.call name argument, rest)
    | _ => none
  | some (name, rest) => some (.name name, rest)
  | none => none
termination_by text.length
decreasing_by
  have hname := length_name? ‹_›
  rw [List.length_cons] at hname
  omega

theorem length_string? {text left : List Char} {value : List Nat} (h : string? text = some (value, left)) :
    left.length < text.length := by
  unfold string? at h
  split at h
  · exact (length_stringBody? h).trans (Nat.lt_succ_self _)
  · cases h

theorem length_expression? {text left : List Char} {e : Expr} (h : expression? text = some (e, left)) :
    left.length < text.length := by
  fun_induction expression? text generalizing e left with
  | case1 text name rest hname =>
    obtain ⟨⟨key, l⟩, hkey, h⟩ := Option.map_eq_some_iff.mp h
    cases h
    exact ((length_word? hkey).trans (Nat.lt_succ_self _)).trans (length_name? hname)
  | case2 text name rest hname key l hkey =>
    cases h
    exact (Nat.lt_succ_self _).trans ((length_string? hkey).trans ((Nat.lt_succ_self _).trans (length_name? hname)))
  | case3 | case5 | case7 => cases h
  | case4 text name rest hname argument l hargument ih =>
    cases h
    exact (Nat.lt_succ_self _).trans ((ih hargument).trans ((Nat.lt_succ_self _).trans (length_name? hname)))
  | case6 text name rest _ _ _ hname =>
    cases h
    exact length_name? hname

def isWord : List Char → Bool
  | c :: cs => isWordStart c && cs.all isWordPart
  | [] => false

def endsWord (rest : List Char) : Bool := !rest.head?.any isWordPart

theorem word?_append {word rest : List Char} (hword : isWord word = true) (hrest : endsWord rest = true) :
    word? (word ++ rest) = some (word, rest) := by
  cases word with
  | nil => cases hword
  | cons c cs =>
    obtain ⟨hc, hcs⟩ := Bool.and_eq_true_iff.mp hword
    have hcs := List.all_eq_true.mp hcs
    have hstop : rest.takeWhile isWordPart = [] ∧ rest.dropWhile isWordPart = rest := by
      cases rest with
      | nil => exact ⟨rfl, rfl⟩
      | cons d rest =>
        have hd : ¬ isWordPart d = true := by simpa [endsWord] using hrest
        exact ⟨List.takeWhile_cons_of_neg hd, List.dropWhile_cons_of_neg hd⟩
    rw [List.cons_append, word?, if_pos hc, List.takeWhile_append_of_pos hcs, List.dropWhile_append_of_pos hcs,
      hstop.1, hstop.2, List.append_nil]

section
variable {name : String} (hword : isWord name.toList = true) (hname : name ∉ reservedWords)
include hword hname

theorem name?_append {rest : List Char} (hrest : endsWord rest = true) :
    name? (name.toList ++ rest) = some (name, rest) := by
  rw [name?, word?_append hword hrest, Option.bind_some]
  dsimp only
  rw [String.ofList_toList]
  exact if_neg (by simpa using hname)

theorem expression?_member {key rest : List Char} (hkey : isWord key = true) (hrest : endsWord rest = true) :
    expression? (name.toList ++ '.' :: (key ++ rest)) = some (.member name (key.flatMap units), rest) := by
  have hread := name?_append hword hname (show endsWord ('.' :: (key ++ rest)) = true from rfl)
  rw [expression?]
  split <;> simp_all [word?_append hkey hrest]

theorem expression?_index {key : List Nat} {text rest : List Char} (hkey : string? text = some (key, ']' :: rest)) :
    expression? (name.toList ++ '[' :: text) = some (.member name key, rest) := by
  have hread := name?_append hword hname (show endsWord ('[' :: text) = true from rfl)
  rw [expression?]
  split <;> simp_all

theorem expression?_call {argument : Expr} {text rest : List Char}
    (hargument : expression? text = some (argument, ')' :: rest)) :
    expression? (name.toList ++ '(' :: text) = some (.call name argument, rest) := by
  have hread := name?_append hword hname (show endsWord ('(' :: text) = true from rfl)
  rw [expression?]
  split <;> simp_all

theorem expression?_name {rest : List Char} :
    expression? (name.toList ++ '}' :: rest) = some (.name name, '}' :: rest) := by
  have hread := name?_append hword hname (show endsWord ('}' :: rest) = true from rfl)
  rw [expression?]
  split <;> simp_all

end

/-! ## Templates -/

/-- A part of a template: a unit of its text, or an expression whose text stands there. -/
inductive Part
  | unit (n : Nat)
  | hole (e : Expr)
deriving DecidableEq, Repr

/-- The parts of a template from behind its opening mark on, and what follows its closing one. Of a line end that is
written as it is, a carriage return is not part of the text. -/
def templateBody? (text : List Char) : Option (List Part × List Char) :=
  match text with
  | [] => none
  | c :: rest =>
    if c = '\x60' then some ([], rest)
    else if c = '\\' then
      match _ : escape? rest with
      | some (us, left) => (templateBody? left).map fun (ps, rest) => (us.map .unit ++ ps, rest)
      | none => none
    else if c = '$' && rest.head? = some '{' then
      match _ : expression? rest.tail with
      | some (e, '}' :: left) => (templateBody? left).map fun (ps, rest) => (.hole e :: ps, rest)
      | _ => none
    else if c = '\r' then
      (templateBody? rest).map fun (ps, left) => (if rest.head? = some '\n' then ps else .unit 10 :: ps, left)
    else (templateBody? rest).map fun (ps, rest) => ((units c).map .unit ++ ps, rest)
termination_by text.length
decreasing_by
  · have := length_escape? ‹_›
    simp only [List.length_cons]
    omega
  · have := length_expression? ‹_›
    have : rest.tail.length ≤ rest.length := (List.tail_suffix rest).length_le
    simp only [List.length_cons] at *
    omega
  · simp
  · simp

theorem templateBody?_mark (rest : List Char) : templateBody? ('\x60' :: rest) = some ([], rest) := by
  rw [templateBody?, if_pos rfl]

theorem templateBody?_plain {c : Char} (hmark : c ≠ '\x60') (hslash : c ≠ '\\') (hdollar : c ≠ '$') (hreturn : c ≠ '\r')
    (rest : List Char) :
    templateBody? (c :: rest) = (templateBody? rest).map fun (ps, rest) => ((units c).map .unit ++ ps, rest) := by
  rw [templateBody?, if_neg hmark, if_neg hslash, if_neg (by simp [hdollar]), if_neg hreturn]

theorem templateBody?_escape {us : List Nat} {text left : List Char} (h : escape? text = some (us, left)) :
    templateBody? ('\\' :: text) = (templateBody? left).map fun (ps, rest) => (us.map .unit ++ ps, rest) := by
  rw [templateBody?, if_neg (by decide), if_pos rfl]
  split <;> simp_all

theorem templateBody?_hole {e : Expr} {text left : List Char} (h : expression? text = some (e, '}' :: left)) :
    templateBody? ('$' :: '{' :: text) = (templateBody? left).map fun (ps, rest) => (.hole e :: ps, rest) := by
  rw [templateBody?, if_neg (by decide), if_neg (by decide), if_pos (by simp), List.tail_cons]
  split <;> simp_all

def template? : List Char → Option (List Part × List Char)
  | '\x60' :: text => templateBody? text
  | _ => none

end ToolServer.Script
