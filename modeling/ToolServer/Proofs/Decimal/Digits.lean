import Mathlib.Algebra.Group.Nat.Defs
import Mathlib.Data.List.Induction
import ToolServer.Decimal.Digits
import ToolServer.Proofs.Text.Class

/-!
# Laws of decimal digits

The digits of a number stand for it, and there are as many of them as powers of ten below it.
-/

namespace ToolServer.Decimal

open Text

theorem toNat_digitChar (n : Nat) : (digitChar n).toNat = 48 + n % 10 := toNat_ofNat_of_lt (by omega)

theorem isAsciiDigit_digitChar (n : Nat) : isAsciiDigit (digitChar n) = true := by
  rw [isAsciiDigit_iff, toNat_digitChar]
  omega

theorem isAsciiDigit_of_mem_digits {n : Nat} : ∀ c ∈ digits n, isAsciiDigit c = true := by
  fun_induction digits n with
  | case1 n _ =>
    intro c hc
    obtain rfl := List.mem_singleton.mp hc
    exact isAsciiDigit_digitChar n
  | case2 n _ ih =>
    intro c hc
    rcases List.mem_append.mp hc with hc | hc
    · exact ih c hc
    · obtain rfl := List.mem_singleton.mp hc
      exact isAsciiDigit_digitChar n

theorem ofDigits_snoc (ds : List Char) (d : Char) :
    ofDigits (ds ++ [d]) = ofDigits ds * 10 + (d.toNat - 48) := by
  simp [ofDigits, valueOf]

theorem ofDigits_digits (n : Nat) : ofDigits (digits n) = n := by
  fun_induction digits n with
  | case1 n h =>
    rw [← List.nil_append [digitChar n], ofDigits_snoc, toNat_digitChar]
    simp only [ofDigits, valueOf, List.map_nil, List.foldl_nil]
    omega
  | case2 n _ ih =>
    rw [ofDigits_snoc, ih, toNat_digitChar]
    omega

theorem digits_injective {m n : Nat} (h : digits m = digits n) : m = n := by
  rw [← ofDigits_digits m, h, ofDigits_digits]

theorem length_digits_le : ∀ {k n : Nat}, n < 10 ^ (k + 1) → (digits n).length ≤ k + 1
  | 0, n, h => by
    rw [digits, if_pos (by simpa using h)]
    exact Nat.le_refl 1
  | k + 1, n, h => by
    rw [digits]
    split
    · exact Nat.succ_le_succ (Nat.zero_le _)
    · have h' : n / 10 < 10 ^ (k + 1) := (Nat.div_lt_iff_lt_mul (by decide)).mpr (by rwa [Nat.pow_succ] at h)
      rw [List.length_append]
      exact Nat.succ_le_succ (length_digits_le h')

theorem ofDigits_lt {ds : List Char} (h : ∀ c ∈ ds, isAsciiDigit c = true) : ofDigits ds < 10 ^ ds.length := by
  induction ds using List.reverseRecOn with
  | nil => decide
  | append_singleton ds d ih =>
    obtain ⟨hds, hd⟩ := List.forall_mem_append.mp h
    obtain ⟨-, hhigh⟩ := isAsciiDigit_iff.mp (hd d (List.mem_singleton_self d))
    have hbelow : ofDigits ds < 10 ^ ds.length := ih hds
    rw [ofDigits_snoc, List.length_append, List.length_singleton, Nat.pow_succ]
    omega

/-- What is not too long to be read is not too long to be written. -/
theorem isWritable_of_natAbs {n : Int} {ds : List Char} (h : ∀ c ∈ ds, isAsciiDigit c = true)
    (hlength : ds.length ≤ integerLimit) (hn : n.natAbs = ofDigits ds) : isWritable n = true := by
  have hbelow : n.natAbs < 10 ^ integerLimit :=
    hn ▸ Nat.lt_of_lt_of_le (ofDigits_lt h) (Nat.pow_le_pow_right (by decide) hlength)
  exact decide_eq_true (length_digits_le hbelow)

end ToolServer.Decimal
