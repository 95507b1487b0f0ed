import ToolServer.Decimal.Written
import ToolServer.Proofs.Decimal.Digits

/-!
# Reading what is written

A number is read from its decimal digits: no character of these is dropped as a blank, taken for a sign or for the
mark of a base, or passed over between digits.
-/

namespace ToolServer.Decimal

open Text

theorem isSpaceAround_of_isAsciiDigit {c : Char} (h : isAsciiDigit c = true) : isSpaceAround c = false := by
  obtain ⟨hlow, hhigh⟩ := isAsciiDigit_iff.mp h
  have hblank : isBlank c = false := by
    rw [← Bool.not_eq_true]
    simp only [isBlank, inRanges, blankRanges, List.any_cons, List.any_nil, Bool.or_eq_true, Bool.and_eq_true,
      decide_eq_true_eq, Bool.false_eq_true, or_false]
    omega
  rw [isSpaceAround, hblank, Bool.false_and]

theorem digitIn?_of_isAsciiDigit {c : Char} (h : isAsciiDigit c = true) : digitIn? 10 c = some (c.toNat - 48) := by
  obtain ⟨hlow, hhigh⟩ := isAsciiDigit_iff.mp h
  have hbelow : c.toNat - 48 < 10 := by omega
  simp [digitIn?, hexDigit?, h, hbelow]

section
variable {s : List Char} (hs : ∀ c ∈ s, isAsciiDigit c = true)
include hs

theorem trimAround_digits : trimAround s = s := by
  have hkeep : ∀ t : List Char, (∀ c ∈ t, isAsciiDigit c = true) → t.dropWhile isSpaceAround = t := by
    intro t ht
    cases t with
    | nil => rfl
    | cons c t =>
      rw [List.dropWhile_cons, isSpaceAround_of_isAsciiDigit (ht c (List.mem_cons_self ..))]
      rfl
  unfold trimAround
  rw [hkeep s hs, hkeep s.reverse fun c hc => hs c (List.mem_reverse.mp hc), List.reverse_reverse]

theorem splitSign_digits : splitSign s = (false, s) := by
  unfold splitSign
  split
  · exact absurd (hs '-' (List.mem_cons_self ..)) (by decide)
  · exact absurd (hs '+' (List.mem_cons_self ..)) (by decide)
  · rfl

end

theorem dropBaseMark_ten (s : List Char) : dropBaseMark 10 s = s := by
  unfold dropBaseMark
  split
  · simp
  · rfl

theorem groupedDigits?_digits : ∀ {s : List Char}, s ≠ [] → (∀ c ∈ s, isAsciiDigit c = true) →
    groupedDigits? 10 s = some (s.map fun c => c.toNat - 48)
  | [], hne, _ => absurd rfl hne
  | [c], _, h => by
    rw [groupedDigits?, digitIn?_of_isAsciiDigit (h c (List.mem_cons_self ..))]
    rfl
  | c :: d :: s, _, h => by
    obtain ⟨hc, hs⟩ := List.forall_mem_cons.mp h
    have hmark : d ≠ '_' := fun hd => absurd (hd ▸ hs d (List.mem_cons_self ..)) (by decide)
    rw [groupedDigits?, digitIn?_of_isAsciiDigit hc, groupedDigits?_digits (List.cons_ne_nil d s) hs]
    · rfl
    · simp
    · exact fun _ heq => hmark (List.cons.inj heq).1

theorem digits_ne_nil (n : Nat) : digits n ≠ [] := by
  rw [digits]
  split <;> simp

/-- **A number is read from its digits,** if they are not too many. -/
theorem readInt_digits {n : Nat} (h : (digits n).length ≤ integerLimit) : readInt 10 (digits n) = .ok n := by
  have hdigits : ∀ c ∈ digits n, isAsciiDigit c = true := isAsciiDigit_of_mem_digits
  have hvalue : valueOf 10 ((digits n).map fun c => c.toNat - 48) = n := ofDigits_digits n
  have hfew : ¬ integerLimit < (digits n).length := Nat.not_lt.mpr h
  unfold readInt
  simp only [trimAround_digits hdigits, splitSign_digits hdigits, dropBaseMark_ten,
    groupedDigits?_digits (digits_ne_nil n) hdigits, List.length_map, hvalue]
  simp [hfew]

end ToolServer.Decimal
