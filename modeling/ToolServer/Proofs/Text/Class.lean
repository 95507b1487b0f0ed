import ToolServer.Text.Class

/-!
# Ranges of the ASCII classes

The ASCII classes as ranges of code points, and the number that hexadecimal digits tell.
-/

namespace ToolServer.Text

theorem le_iff_toNat {c d : Char} : c ≤ d ↔ c.toNat ≤ d.toNat := Iff.rfl

theorem isAsciiDigit_iff {c : Char} : isAsciiDigit c = true ↔ 48 ≤ c.toNat ∧ c.toNat ≤ 57 := by
  simp [isAsciiDigit, le_iff_toNat]

theorem isAsciiLower_iff {c : Char} : isAsciiLower c = true ↔ 97 ≤ c.toNat ∧ c.toNat ≤ 122 := by
  simp [isAsciiLower, le_iff_toNat]

theorem isAsciiUpper_iff {c : Char} : isAsciiUpper c = true ↔ 65 ≤ c.toNat ∧ c.toNat ≤ 90 := by
  simp [isAsciiUpper, le_iff_toNat]

theorem toNat_ofNat_of_lt {n : Nat} (h : n < 0xd800) : (Char.ofNat n).toNat = n := by
  have hvalid : n.isValidChar := .inl h
  rw [Char.ofNat, dif_pos hvalid]
  rfl

/-! ## Hexadecimal digits -/

theorem hexDigit?_hexChar : ∀ {n : Nat}, n < 16 → hexDigit? (hexChar n) = some n := by
  decide

theorem hexText_four (n : Nat) : hexText 4 n =
    [hexChar (n / 4096 % 16), hexChar (n / 256 % 16), hexChar (n / 16 % 16), hexChar (n % 16)] := by
  simp [hexText, List.range, List.range.loop]

/-- What holds of each hexadecimal digit holds of every character of a number. -/
theorem forall_mem_hexText {P : Char → Prop} (h : ∀ d < 16, P (hexChar d)) (width n : Nat) :
    ∀ c ∈ hexText width n, P c := by
  intro c hc
  obtain ⟨i, -, rfl⟩ := List.mem_map.mp hc
  exact h _ (Nat.mod_lt _ (by decide))

/-- Four hexadecimal digits tell a number below their range. -/
theorem mapM_hexDigit?_hexText {n : Nat} (h : n < 0x10000) :
    ∃ ds, (hexText 4 n).mapM hexDigit? = some ds ∧ ds.foldl (fun n d => 16 * n + d) 0 = n := by
  have hdigit : ∀ k : Nat, hexDigit? (hexChar (k % 16)) = some (k % 16) := fun k =>
    hexDigit?_hexChar (Nat.mod_lt k (by decide))
  refine ⟨[n / 4096 % 16, n / 256 % 16, n / 16 % 16, n % 16], ?_, ?_⟩
  · simp [hexText_four, hdigit]
  · simp only [List.foldl_cons, List.foldl_nil]
    omega

end ToolServer.Text
