import ToolServer.Api.Parsing
import ToolServer.Naming
import ToolServer.Proofs.Decimal.Digits
import ToolServer.Proofs.Text.Piece

/-!
# Valid tool names

Whatever identifier or path an operation has, the name of its tool is valid.
-/

namespace ToolServer.Naming

open Text

def isNameChar (c : Char) : Bool := isAsciiLower c || isAsciiDigit c || c == '_' || c == '-'

/-- The names that a tool can have: from one to 64 small letters, digits, underscores and hyphens. -/
structure ValidToolName (name : String) : Prop where
  nonempty : 1 ≤ name.toList.length
  short : name.toList.length ≤ 64
  chars : ∀ c ∈ name.toList, isNameChar c = true

instance (name : String) : Decidable (ValidToolName name) :=
  decidable_of_iff (1 ≤ name.toList.length ∧ name.toList.length ≤ 64 ∧ name.toList.all isNameChar = true)
    ⟨fun ⟨h, h', h''⟩ => ⟨h, h', List.all_eq_true.mp h''⟩,
      fun ⟨h, h', h''⟩ => ⟨h, h', List.all_eq_true.mpr h''⟩⟩

theorem isNameChar_of_mem_lowerChar {c d : Char} (hc : isToolChar c = true ∨ c = '_') (hd : d ∈ lowerChar c) :
    isNameChar d = true := by
  have hascii : c.toNat < 0x80 := by
    rcases hc with hc | rfl
    · simp only [isToolChar, isAsciiLetter, Bool.or_eq_true, isAsciiLower_iff, isAsciiUpper_iff,
        isAsciiDigit_iff, beq_iff_eq] at hc
      rcases hc with ((hc | hc) | hc) | rfl
      · omega
      · omega
      · omega
      · decide
    · decide
  rw [lowerChar, if_pos hascii] at hd
  obtain rfl := List.mem_singleton.mp hd
  split
  · rename_i hu
    have hu := isAsciiUpper_iff.mp hu
    have : isAsciiLower (Char.ofNat (c.toNat + 32)) = true := by
      rw [isAsciiLower_iff, toNat_ofNat_of_lt (by omega)]
      omega
    simp [isNameChar, this]
  · rename_i hu
    rcases hc with hc | rfl
    · simp only [isToolChar, isAsciiLetter, Bool.not_eq_true] at hc hu
      simp only [hu, Bool.or_false] at hc
      simp only [isNameChar]
      grind
    · decide

theorem isNameChar_of_mem_toolChars {s : List Char} {c : Char} (h : c ∈ toolChars s) :
    isNameChar c = true := by
  obtain ⟨d, hd, hc⟩ := List.mem_flatMap.mp (List.mem_of_mem_take h)
  exact isNameChar_of_mem_lowerChar (mem_collapse (mem_stripWhile hd)) hc

theorem toolName_valid {s : String} (h : toolName s ≠ "") : ValidToolName (toolName s) := by
  have hchars : (toolName s).toList = toolChars s.toList := String.toList_ofList
  refine ⟨?_, ?_, ?_⟩
  · exact List.length_pos_iff.mpr fun hnil => h (String.toList_eq_nil_iff.mp hnil)
  · rw [hchars]
    exact List.length_take_le ..
  · rw [hchars]
    exact fun c hc => isNameChar_of_mem_toolChars hc

theorem verb_valid : ∀ method ∈ Api.methods, ValidToolName (verb method) := by decide +kernel

theorem operationName_valid {method : String} (hm : method ∈ Api.methods) (path : String)
    (operationId : Option String) : ValidToolName (operationName method path operationId) := by
  unfold operationName
  simp only [bne_iff_ne, ne_eq]
  split
  · rename_i h
    cases operationId with
    | none => exact absurd rfl h
    | some id => exact toolName_valid h
  · split
    · rename_i h
      exact toolName_valid h
    · exact verb_valid method hm

/-! ## Numbered names -/

theorem toList_numbered (name : String) (n : Nat) : (numbered name n).toList =
    name.toList.take (maxToolName - ('_' :: Decimal.digits n).length) ++ '_' :: Decimal.digits n :=
  String.toList_ofList

theorem numbered_chars {name : String} (n : Nat) (h : ∀ c ∈ name.toList, isNameChar c = true) :
    ∀ c ∈ (numbered name n).toList, isNameChar c = true := by
  rw [toList_numbered]
  intro c hc
  rcases List.mem_append.mp hc with hc | hc
  · exact h c (List.mem_of_mem_take hc)
  · rcases List.mem_cons.mp hc with rfl | hc
    · decide
    · simp [isNameChar, Decimal.isAsciiDigit_of_mem_digits c hc]

theorem numbered_valid {name : String} {n : Nat} (h : ValidToolName name) (hn : n < 10 ^ 63) :
    ValidToolName (numbered name n) := by
  have hd : ('_' :: Decimal.digits n).length ≤ maxToolName :=
    Nat.succ_le_succ (Decimal.length_digits_le (k := 62) hn)
  refine ⟨?_, ?_, numbered_chars n h.chars⟩
  · rw [toList_numbered, List.length_append, List.length_cons]
    omega
  · rw [toList_numbered, List.length_append, List.length_take]
    unfold maxToolName at hd ⊢
    omega

end ToolServer.Naming
