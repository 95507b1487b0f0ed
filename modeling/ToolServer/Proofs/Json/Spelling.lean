import Mathlib.Tactic.SplitIfs
import ToolServer.Json.Writer

/-!
# Strings as JSON spells them

A character is written as itself, with one letter behind a backslash, or by the numbers of its UTF-16 units. Every
reader of such strings goes through these cases.
-/

namespace ToolServer.Json

def letterEscapes : List (Char × Char) := [
  ('"', '"'), ('\\', '\\'), ('n', '\n'), ('r', '\r'), ('t', '\t'), ('b', '\x08'), ('f', '\x0c')]

/-- The ways in which a character is written inside a string. -/
inductive Spelling (c : Char) : List Char → Prop
  | letter {x} : (x, c) ∈ letterEscapes → Spelling c ['\\', x]
  | plain : c ≠ '"' → c ≠ '\\' → 0x20 ≤ c.toNat → c.toNat < 0x7f → Spelling c [c]
  | unit : c.toNat < 0x10000 → Spelling c (unicodeEscape c.toNat)
  | units {high low} : 0x10000 ≤ c.toNat → 0xd800 ≤ high → high < 0xdc00 → 0xdc00 ≤ low → low < 0xe000 →
      c.toNat = 0x10000 + (high - 0xd800) * 0x400 + (low - 0xdc00) →
      Spelling c (unicodeEscape high ++ unicodeEscape low)

theorem spelling (c : Char) : Spelling c (stringChar c) := by
  have hlast : c.toNat < 0x110000 := by
    rcases c.valid with h | h
    · exact Nat.lt_trans h (by decide)
    · exact h.2
  unfold stringChar
  split_ifs with hquote hslash hline hreturn htab hback hfeed hplain hunit
  · exact .letter (by subst hquote; decide)
  · exact .letter (by subst hslash; decide)
  · exact .letter (by subst hline; decide)
  · exact .letter (by subst hreturn; decide)
  · exact .letter (by subst htab; decide)
  · exact .letter (by subst hback; decide)
  · exact .letter (by subst hfeed; decide)
  · simp only [Bool.and_eq_true, decide_eq_true_eq] at hplain
    exact .plain hquote hslash hplain.1 hplain.2
  · exact .unit hunit
  · refine .units ?_ ?_ ?_ ?_ ?_ ?_ <;> omega

theorem head_stringChar (c : Char) : ∃ x rest, stringChar c = x :: rest ∧ x ≠ '"' := by
  have hspelling := spelling c
  generalize stringChar c = written at hspelling ⊢
  cases hspelling with
  | letter _ => exact ⟨'\\', _, rfl, by decide⟩
  | plain hquote _ _ _ => exact ⟨c, [], rfl, hquote⟩
  | unit _ => exact ⟨'\\', _, rfl, by decide⟩
  | units => exact ⟨'\\', _, rfl, by decide⟩

theorem toList_quoted (s : String) : (quoted s).toList = '"' :: (stringBody s.toList ++ ['"']) :=
  String.toList_ofList

end ToolServer.Json
