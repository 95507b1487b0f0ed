import Mathlib.Tactic.FinCases
import ToolServer.Emit.Literal
import ToolServer.Proofs.Program.Literal

/-!
# Documentation strings

Behind backslashes quotes do not end a literal, and backslashes stand for themselves. So a text that is written
between three quotes on each side is one literal up to the last three, and it denotes the text: `docString_denotes`.
-/

namespace ToolServer.Emit

open Program Text

def docString (s : String) : String := "\"\"\"" ++ docText s ++ "\"\"\""

/-! ## Characters -/

def docChar (c : Char) : List Char := if c = '\\' || c = '"' then ['\\', c] else [c]

/-- The characters that are written behind a backslash, in the order of their replacement, and what is written for
them. -/
def docEscapes : List (Char × Char) := [('\\', '\\'), ('"', '"')]

theorem escaped_docChar (c : Char) : Escaped docEscapes c (docChar c) := by
  unfold docChar
  split_ifs with hmark
  · simp only [Bool.or_eq_true, decide_eq_true_eq] at hmark
    rcases hmark with rfl | rfl
    all_goals exact .escape (by decide)
  · refine .plain fun e he heq => ?_
    subst heq
    fin_cases he <;> simp at hmark

theorem toList_docText (s : String) : (docText s).toList = s.toList.flatMap docChar := String.toList_ofList

theorem docText_eq_replaceEach (s : String) : (docText s).toList = replaceEach docEscapes s.toList := by
  rw [replaceEach_eq_flatMap, toList_docText]
  exact List.flatMap_congr fun c _ => (replaceEach_of_escaped (by decide) (escaped_docChar c)).symm

/-! ## The end of the literal -/

theorem longBody?_docChar (c : Char) (rest : List Char) : longBody? '"' (docChar c ++ rest) =
    (longBody? '"' rest).map fun (body, rest) => (docChar c ++ body, rest) := by
  have hspelling := escaped_docChar c
  generalize docChar c = written at hspelling ⊢
  cases hspelling with
  | escape _ => rw [List.cons_append, List.singleton_append, longBody?]; rfl
  | plain h =>
    -- the quotes that end the body would begin with this character
    have hquote : '"' ≠ c := (h ('"', '"') (by decide)).symm
    have hopen : ¬ ['"', '"', '"'].isPrefixOf (c :: rest) = true := by simp [hquote]
    rw [List.singleton_append, longBody?, if_neg hopen]
    · rfl
    · exact fun _ _ heq => absurd heq (h ('\\', '\\') (by decide))

theorem longBody?_docText (s : List Char) (rest : List Char) :
    longBody? '"' (s.flatMap docChar ++ '"' :: '"' :: '"' :: rest) = some (s.flatMap docChar, rest) := by
  have hclose : longBody? '"' ('"' :: '"' :: '"' :: rest) = some ([], rest) := by simp [longBody?]
  rw [read_flatMap _ fun c _ => longBody?_docChar c, hclose]
  simp

def docLiteral (s : String) : Literal := ⟨false, false, false, (docText s).toList⟩

theorem toList_docString (s : String) (rest : List Char) : (docString s).toList ++ rest =
    '"' :: '"' :: '"' :: (s.toList.flatMap docChar ++ '"' :: '"' :: '"' :: rest) := by
  simp [docString, toList_docText]

theorem literalAt?_docString (s : String) (rest : List Char) :
    literalAt? ((docString s).toList ++ rest) = some (some (docLiteral s, rest)) := by
  rw [toList_docString, docLiteral, toList_docText]
  exact literalAt?_quote (longBody?_docText s.toList rest)

/-! ## What the literal denotes -/

theorem length_docChar_pos (c : Char) : 0 < (docChar c).length := by
  unfold docChar
  split <;> exact Nat.succ_pos _

theorem pieces?_docChar (c : Char) (fuel : Nat) (rest : List Char) :
    pieces? false (fuel + 1) (docChar c ++ rest) = (pieces? false fuel rest).map (.code c.toNat :: ·) := by
  have hspelling := escaped_docChar c
  generalize docChar c = written at hspelling ⊢
  cases hspelling with
  | escape h =>
    have hletter : ∀ e ∈ docEscapes, (e.2, e.1) ∈ Json.letterEscapes := by decide
    exact pieces?_escape fuel (escape?_letter _ (hletter _ h) rest)
  | plain h => exact pieces?_plain (h ('\\', '\\') (by decide)) fuel rest

theorem pieces?_docText : ∀ (s : List Char) (fuel : Nat), (s.flatMap docChar).length ≤ fuel →
    pieces? false fuel (s.flatMap docChar) = some (s.map fun c => .code c.toNat)
  | [], fuel, _ => by cases fuel <;> rfl
  | c :: s, fuel, h => by
    have hpos := length_docChar_pos c
    rw [List.flatMap_cons, List.length_append] at h
    obtain ⟨left, rfl⟩ : ∃ left, fuel = left + 1 := ⟨fuel - 1, by omega⟩
    rw [List.flatMap_cons, pieces?_docChar, pieces?_docText s left (by omega)]
    rfl

theorem denote?_docLiteral (s : String) :
    (docLiteral s).denote? (docLiteral s).body = some (s.toList.map fun c => .code c.toNat) := by
  have hbody : (docLiteral s).body = s.toList.flatMap docChar := toList_docText s
  rw [hbody]
  exact pieces?_docText s.toList _ (Nat.le_succ _)

/-! ## The literal alone -/

theorem mem_docString {s : String} {c : Char} (h : c ∈ (docString s).toList) : c ∈ s.toList ∨ c = '"' ∨ c = '\\' := by
  rw [← List.append_nil (docString s).toList, toList_docString] at h
  simp only [List.mem_cons, List.mem_append, List.mem_flatMap, List.not_mem_nil, or_false] at h
  rcases h with h | h | h | ⟨d, hd, h⟩ | h
  · exact .inr (.inl h)
  · exact .inr (.inl h)
  · exact .inr (.inl h)
  · have hspelling := escaped_docChar d
    generalize docChar d = written at hspelling h
    cases hspelling with
    | escape hescape =>
      have hmark : ∀ e ∈ docEscapes, e.2 = '"' ∨ e.2 = '\\' := by decide
      rcases List.mem_cons.mp h with h | h
      · exact .inr (.inr h)
      · exact .inr (List.mem_singleton.mp h ▸ hmark _ hescape)
    | plain _ => exact .inl (List.mem_singleton.mp h ▸ hd)
  · exact .inr (.inl (by simpa using h))

theorem tokens?_docString {s : String} (h : '\r' ∉ s.toList) :
    tokens? (docString s).toList = some [.string (docLiteral s), .newline] := by
  have hreturn : '\r' ∉ (docString s).toList := fun hmem => by simpa [h] using mem_docString hmem
  have hlast : (docString s).toList.getLast? ≠ some '\n' := by
    rw [docString, String.toList_append, List.getLast?_append]
    exact fun heq => absurd (Option.some.inj heq) (by decide)
  have hliteral := literalAt?_docString s ['\n']
  obtain ⟨text, htext⟩ : ∃ text, (docString s).toList = '"' :: text := by
    rw [← List.append_nil (docString s).toList, toList_docString]
    exact ⟨_, rfl⟩
  rw [htext] at hreturn hlast hliteral ⊢
  exact tokens?_literal hreturn hlast hliteral

/-- **A text is what a documentation string denotes.** It is written by two replacements one after the other. The
literal ends at the last three quotes whatever follows, and is all that a reader of the whole finds. -/
theorem docString_denotes {s : String} (hnull : '\x00' ∉ s.toList) (hreturn : '\r' ∉ s.toList) :
    (docText s).toList = replaceEach docEscapes s.toList ∧
    '\x00' ∉ (docString s).toList ∧
    tokens? (docString s).toList = some [.string (docLiteral s), .newline] ∧
    (∀ rest, literalAt? ((docString s).toList ++ rest) = some (some (docLiteral s, rest))) ∧
    (docLiteral s).denote? (docLiteral s).body = some (s.toList.map fun c => .code c.toNat) := by
  refine ⟨docText_eq_replaceEach s, fun h => ?_, tokens?_docString hreturn, literalAt?_docString s,
    denote?_docLiteral s⟩
  simpa [hnull] using mem_docString h

/-- A text with three quotes in it that ends in a backslash. -/
theorem docString_denotes_marks : '\x00' ∉ "say \"\"\" \\".toList ∧ '\r' ∉ "say \"\"\" \\".toList ∧
    ∃ l : Literal, l.body = "say \\\"\\\"\\\" \\\\".toList ∧
      tokens? "\"\"\"say \\\"\\\"\\\" \\\\\"\"\"".toList = some [.string l, .newline] ∧
      l.denote? l.body = some ("say \"\"\" \\".toList.map fun c => .code c.toNat) := by
  have hnull : '\x00' ∉ "say \"\"\" \\".toList := by decide
  have hreturn : '\r' ∉ "say \"\"\" \\".toList := by decide
  obtain ⟨-, -, htokens, -, hvalue⟩ := docString_denotes hnull hreturn
  exact ⟨hnull, hreturn, docLiteral "say \"\"\" \\", by decide, htokens, hvalue⟩

end ToolServer.Emit
