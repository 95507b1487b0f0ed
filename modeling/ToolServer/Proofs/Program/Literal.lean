import ToolServer.Program.Lexer
import ToolServer.Proofs.Emit.Manifest
import ToolServer.Proofs.Json.Spelling
import ToolServer.Proofs.Text.Class
import ToolServer.Proofs.Text.Piece

/-!
# JSON strings as string literals

A JSON string is a string literal of a program, which ends where it ends. It denotes the units of UTF-16 that it was
written by, so two surrogates where JSON wrote a character by two of them.
-/

namespace ToolServer.Program

open Json Text
open Toml (InOneUnit)

/-! ## Units -/

def units (c : Char) : List Nat :=
  if c.toNat < 0x10000 then [c.toNat]
  else [0xd800 + (c.toNat - 0x10000) / 0x400, 0xdc00 + (c.toNat - 0x10000) % 0x400]

theorem units_eq_codes_iff : ∀ {s : List Char}, s.flatMap units = s.map Char.toNat ↔ InOneUnit s
  | [] => ⟨fun _ => List.forall_mem_nil _, fun _ => rfl⟩
  | c :: s => by
    have hcons : InOneUnit (c :: s) ↔ c.toNat < 0x10000 ∧ InOneUnit s := List.forall_mem_cons
    rw [hcons, List.flatMap_cons, List.map_cons, ← units_eq_codes_iff, units]
    by_cases hc : c.toNat < 0x10000
    · simp [hc]
    · rw [if_neg hc]
      -- the first of two units is a surrogate, which is no character
      have hfirst : 0xd800 + (c.toNat - 0x10000) / 0x400 ≠ c.toNat := by omega
      simp [hc, hfirst]

theorem units_ne_nil (c : Char) : units c ≠ [] := by
  unfold units
  split_ifs <;> simp

/-- No unit that is a character of its own is the first of two. -/
theorem append_units_inj {c d : Char} {s t : List Nat} (h : units c ++ s = units d ++ t) : c = d ∧ s = t := by
  have hc : c.toNat < 0xd800 ∨ 0xdfff < c.toNat ∧ c.toNat < 0x110000 := c.valid
  have hd : d.toNat < 0xd800 ∨ 0xdfff < d.toNat ∧ d.toNat < 0x110000 := d.valid
  suffices heq : c.toNat = d.toNat by
    obtain rfl := Char.toNat_inj.mp heq
    exact ⟨rfl, List.append_cancel_left h⟩
  unfold units at h
  split_ifs at h
  all_goals
    simp only [List.cons_append, List.nil_append, List.cons.injEq] at h
    omega

theorem flatMap_units_inj : ∀ {s t : List Char}, s.flatMap units = t.flatMap units ↔ s = t
  | [], [] => by simp
  | [], d :: t => by simp [units_ne_nil]
  | c :: s, [] => by simp [units_ne_nil]
  | c :: s, d :: t => by
    refine ⟨fun h => ?_, fun h => h ▸ rfl⟩
    obtain ⟨hcd, hst⟩ := append_units_inj h
    rw [hcd, flatMap_units_inj.mp hst]

/-! ## The end of a literal -/

def StandsAlone (c : Char) : Prop := c ≠ '"' ∧ c ≠ '\\' ∧ c ≠ '\n'

theorem lineBody?_append {s : List Char} (h : ∀ c ∈ s, StandsAlone c) (rest : List Char) :
    lineBody? '"' (s ++ rest) = (lineBody? '"' rest).map fun (body, rest) => (s ++ body, rest) := by
  induction s with
  | nil => simp
  | cons c s ih =>
    obtain ⟨⟨hquote, hslash, hfeed⟩, h⟩ := List.forall_mem_cons.mp h
    rw [List.cons_append, lineBody?, if_neg hquote, if_neg hfeed, ih h]
    · cases lineBody? '"' rest <;> rfl
    · intro _ _ heq
      exact absurd heq hslash

theorem lineBody?_escape (x : Char) (rest : List Char) :
    lineBody? '"' ('\\' :: x :: rest) = (lineBody? '"' rest).map fun (body, rest) => ('\\' :: x :: body, rest) := by
  rw [lineBody?]

theorem standsAlone_hexText (n : Nat) : ∀ c ∈ hexText 4 n, StandsAlone c := by
  have hdigit : ∀ d < 16, hexChar d ≠ '"' ∧ hexChar d ≠ '\\' ∧ hexChar d ≠ '\n' := by decide
  exact forall_mem_hexText hdigit 4 n

theorem lineBody?_unicodeEscape (n : Nat) (rest : List Char) : lineBody? '"' (unicodeEscape n ++ rest) =
    (lineBody? '"' rest).map fun (body, rest) => (unicodeEscape n ++ body, rest) := by
  rw [unicodeEscape, List.cons_append, List.cons_append, lineBody?_escape,
    lineBody?_append (standsAlone_hexText n), Option.map_map]
  rfl

theorem lineBody?_stringChar (c : Char) (rest : List Char) : lineBody? '"' (stringChar c ++ rest) =
    (lineBody? '"' rest).map fun (body, rest) => (stringChar c ++ body, rest) := by
  have hspelling := spelling c
  generalize stringChar c = written at hspelling ⊢
  cases hspelling with
  | letter _ => exact lineBody?_escape _ rest
  | plain hquote hslash hlow _ =>
    refine lineBody?_append (fun d hd => ?_) rest
    obtain rfl := List.mem_singleton.mp hd
    exact ⟨hquote, hslash, fun h => by subst h; revert hlow; decide⟩
  | unit _ => exact lineBody?_unicodeEscape _ rest
  | units =>
    rw [List.append_assoc, lineBody?_unicodeEscape, lineBody?_unicodeEscape, Option.map_map]
    simp only [Function.comp_def, List.append_assoc]

theorem lineBody?_stringBody (rest : List Char) : ∀ s : List Char,
    lineBody? '"' (stringBody s ++ '"' :: rest) = some (stringBody s, rest)
  | [] => by simp [stringBody, lineBody?]
  | c :: s => by
    have ih := lineBody?_stringBody rest s
    unfold stringBody at ih ⊢
    rw [List.flatMap_cons, List.append_assoc, lineBody?_stringChar, ih]
    rfl

def quotedLiteral (s : String) : Literal := ⟨false, false, false, stringBody s.toList⟩

theorem body?_quoted (s : String) {rest : List Char} (h : rest.head? ≠ some '"') :
    body? ((quoted s).toList ++ rest) = some (stringBody s.toList, rest) := by
  rw [toList_quoted, List.cons_append, List.append_assoc, List.singleton_append, body?, if_neg]
  · exact lineBody?_stringBody rest s.toList
  · -- only a quote behind an empty string would open three quotes
    cases s.toList with
    | nil =>
      cases rest with
      | nil => simp [stringBody]
      | cons c rest =>
        have hc : '"' ≠ c := fun heq => h (congrArg some heq.symm)
        simp [stringBody, hc]
    | cons c s =>
      obtain ⟨x, written, hx, hquote⟩ := head_stringChar c
      simp [stringBody, hx, Ne.symm hquote]

/-- A quote opens a literal of no kind. -/
theorem literalAt?_quote {text body rest : List Char} (h : body? ('"' :: text) = some (body, rest)) :
    literalAt? ('"' :: text) = some (some (⟨false, false, false, body⟩, rest)) := by
  have hletters : (('"' :: text).take 2).takeWhile isAsciiLetter = [] := by
    rw [List.take_succ_cons, List.takeWhile_cons_of_neg (by decide)]
  have hquote : (('"' :: text).head?.map isQuote).getD false = true := rfl
  unfold literalAt?
  simp only [hletters, List.length_nil, List.drop_zero, hquote, if_true, h]
  rfl

theorem literalAt?_quoted (s : String) {rest : List Char} (h : rest.head? ≠ some '"') :
    literalAt? ((quoted s).toList ++ rest) = some (some (quotedLiteral s, rest)) := by
  have hbody := body?_quoted s h
  rw [toList_quoted, List.cons_append] at hbody ⊢
  exact literalAt?_quote hbody

/-! ## What a literal denotes -/

theorem pieces?_escape {c : Char} {rest left : List Char} {ps : List Piece} (fuel : Nat)
    (h : escape? false c rest = some (ps, left)) :
    pieces? false (fuel + 1) ('\\' :: c :: rest) = (pieces? false fuel left).map (ps ++ ·) := by
  rw [pieces?, h]
  exact (Option.map_eq_bind ..).symm

theorem pieces?_plain {c : Char} (h : c ≠ '\\') (fuel : Nat) (rest : List Char) :
    pieces? false (fuel + 1) (c :: rest) = (pieces? false fuel rest).map (.code c.toNat :: ·) := by
  rw [pieces?]
  · exact (Option.map_eq_bind ..).symm
  · exact fun _ _ heq _ => h heq
  · exact fun heq _ => h heq

theorem escape?_letter : ∀ e ∈ letterEscapes, ∀ rest, escape? false e.1 rest = some ([.code e.2.toNat], rest) := by
  intro e he rest
  have hletter : ∀ e ∈ letterEscapes, e.1 ≠ '\n' ∧ isOctal e.1 = false ∧ hexWidth? false e.1 = none ∧ e.1 ≠ 'N' ∧
      escapeImage? e.1 = some e.2.toNat := by decide
  obtain ⟨hfeed, hoctal, hwidth, hname, himage⟩ := hletter e he
  simp [escape?, hfeed, hoctal, hwidth, hname, himage]

theorem escape?_unicode {n : Nat} (h : n < 0x10000) (rest : List Char) :
    escape? false 'u' (hexText 4 n ++ rest) = some ([.code n], rest) := by
  obtain ⟨ds, hds, hn⟩ := mapM_hexDigit?_hexText h
  have hlength : (hexText 4 n).length = 4 := by simp [hexText_four]
  have hvalue : hexValue? (hexText 4 n) = some n := by
    rw [hexValue?, hds, ← hn]
    rfl
  have hwidth : hexWidth? false 'u' = some 4 := rfl
  unfold escape?
  rw [if_neg (by decide), if_neg (by decide), hwidth]
  dsimp only
  rw [if_neg (by simp [hlength]), List.take_left' hlength, List.drop_left' hlength, hvalue]
  exact if_pos (Nat.lt_trans h (by decide))

theorem pieces?_unicodeEscape {n : Nat} (h : n < 0x10000) (fuel : Nat) (rest : List Char) :
    pieces? false (fuel + 1) (unicodeEscape n ++ rest) = (pieces? false fuel rest).map (.code n :: ·) :=
  pieces?_escape fuel (escape?_unicode h rest)

theorem units_of_surrogates {c : Char} {high low : Nat} (hbeyond : 0x10000 ≤ c.toNat) (hhigh : 0xd800 ≤ high)
    (hlow : 0xdc00 ≤ low) (hlow' : low < 0xe000)
    (h : c.toNat = 0x10000 + (high - 0xd800) * 0x400 + (low - 0xdc00)) : units c = [high, low] := by
  have hfirst : 0xd800 + (c.toNat - 0x10000) / 0x400 = high := by omega
  have hsecond : 0xdc00 + (c.toNat - 0x10000) % 0x400 = low := by omega
  rw [units, if_neg (by omega), hfirst, hsecond]

/-- What is written for a character takes one step for each unit. -/
theorem pieces?_stringChar (c : Char) (fuel : Nat) (rest : List Char) :
    pieces? false (fuel + (units c).length) (stringChar c ++ rest) =
      (pieces? false fuel rest).map ((units c).map Piece.code ++ ·) := by
  have hspelling := spelling c
  generalize stringChar c = written at hspelling ⊢
  have hone : c.toNat < 0x10000 → units c = [c.toNat] := fun h => by rw [units, if_pos h]
  cases hspelling with
  | letter h =>
    have hlt : ∀ e ∈ letterEscapes, e.2.toNat < 0x10000 := by decide
    rw [hone (hlt _ h)]
    exact pieces?_escape fuel (escape?_letter _ h rest)
  | plain hquote hslash hlow hhigh =>
    rw [hone (by omega)]
    exact pieces?_plain hslash fuel rest
  | unit hlt =>
    rw [hone hlt]
    exact pieces?_unicodeEscape hlt fuel rest
  | units hbeyond hhigh hhigh' hlow hlow' heq =>
    rw [units_of_surrogates hbeyond hhigh hlow hlow' heq, List.append_assoc]
    refine (pieces?_unicodeEscape (by omega) (fuel + 1) _).trans ?_
    rw [pieces?_unicodeEscape (by omega), Option.map_map]
    rfl

theorem length_units_le (c : Char) : (units c).length ≤ (stringChar c).length := by
  have htwo : (units c).length ≤ 2 := by
    unfold units
    split <;> simp
  have hspelling := spelling c
  generalize stringChar c = written at hspelling ⊢
  cases hspelling with
  | letter _ => exact htwo
  | plain _ _ _ hhigh =>
    rw [units, if_pos (by omega)]
    exact Nat.le_refl 1
  | unit _ => exact Nat.le_trans htwo (by simp [unicodeEscape])
  | units => exact Nat.le_trans htwo (by simp [unicodeEscape])

theorem pieces?_stringBody : ∀ (s : List Char) (fuel : Nat), (stringBody s).length ≤ fuel →
    pieces? false fuel (stringBody s) = some ((s.flatMap units).map Piece.code)
  | [], fuel, _ => by cases fuel <;> rfl
  | c :: s, fuel, h => by
    have hcons : stringBody (c :: s) = stringChar c ++ stringBody s := List.flatMap_cons ..
    have hunits := length_units_le c
    rw [hcons, List.length_append] at h
    obtain ⟨left, rfl⟩ : ∃ left, fuel = left + (units c).length := ⟨fuel - (units c).length, by omega⟩
    rw [hcons, pieces?_stringChar, pieces?_stringBody s left (by omega), List.flatMap_cons, List.map_append]
    rfl

/-! ## Reading a literal -/

/-- At the front of a text a reader finds a literal that denotes code points, and goes on with a rest. -/
def ReadsAs (text : List Char) (codes : List Nat) (rest : List Char) : Prop :=
  ∃ l, literalAt? text = some (some (l, rest)) ∧ l.bytes = false ∧ l.formatted = false ∧
    l.denote? l.body = some (codes.map Piece.code)

theorem readsAs_quoted (s : String) {rest : List Char} (h : rest.head? ≠ some '"') :
    ReadsAs ((quoted s).toList ++ rest) (s.toList.flatMap units) rest :=
  ⟨quotedLiteral s, literalAt?_quoted s h, rfl, rfl, pieces?_stringBody _ _ (Nat.le_succ _)⟩

theorem ReadsAs.unique {text rest : List Char} {codes codes' : List Nat} (h : ReadsAs text codes rest)
    (h' : ReadsAs text codes' rest) : codes = codes' := by
  obtain ⟨l, hl, -, -, hcodes⟩ := h
  obtain ⟨l', hl', -, -, hcodes'⟩ := h'
  rw [hl] at hl'
  cases hl'
  rw [hcodes] at hcodes'
  exact List.map_injective_iff.mpr (fun _ _ h => Piece.code.inj h) (Option.some.inj hcodes')

/-- A JSON string denotes its text just when one unit writes each character. -/
theorem readsAs_text_iff (s : String) {rest : List Char} (h : rest.head? ≠ some '"') :
    ReadsAs ((quoted s).toList ++ rest) (s.toList.map Char.toNat) rest ↔ InOneUnit s.toList := by
  rw [← units_eq_codes_iff]
  constructor
  · exact (readsAs_quoted s h).unique
  · intro heq
    rw [← heq]
    exact readsAs_quoted s h

/-! ## A literal alone -/

/-- A text that one literal takes up is read as that literal on a line. -/
theorem tokens?_literal {text : List Char} {l : Literal} (hreturn : '\r' ∉ '"' :: text)
    (hlast : ('"' :: text).getLast? ≠ some '\n')
    (h : literalAt? ('"' :: text ++ ['\n']) = some (some (l, ['\n']))) :
    tokens? ('"' :: text) = some [.string l, .newline] := by
  have hlines : normalLines ('"' :: text) = '"' :: text ++ ['\n'] := by
    unfold normalLines
    rw [lineFeeds_eq_self hreturn, if_neg hlast]
  unfold tokens?
  rw [hlines]
  generalize 2 * ('"' :: text).length = fuel
  have hfirst : readLine? {} (fuel + 4) ('"' :: text ++ ['\n']) =
      readRest? {} false (fuel + 3) ('"' :: text ++ ['\n']) := by
    rw [readLine?]
    rfl
  have htoken : token? {} ('"' :: text ++ ['\n']) = some (Scan.emit {} (.string l), ['\n']) := by
    unfold token?
    rw [h]
    rfl
  have hrest : readRest? {} false (fuel + 3) ('"' :: text ++ ['\n']) =
      readRest? (Scan.emit {} (.string l)) false (fuel + 2) ['\n'] := by
    rw [readRest?]
    exact congrArg (Option.bind · _) htoken
  rw [hfirst, hrest]
  rfl

end ToolServer.Program
