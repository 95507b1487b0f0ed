import Mathlib.Tactic.ByContra
import ToolServer.Emit.Python
import ToolServer.Proofs.Json.Spelling
import ToolServer.Proofs.Text.Class
import ToolServer.Toml.Text

/-!
# Texts in manifests

A manifest is TOML, and the texts in it are written as JSON strings. The two agree on every character that one unit
of UTF-16 writes: what is written for it is read back. For any other character JSON writes two surrogates, and an
escape of TOML numbers no surrogate.
-/

namespace ToolServer.Toml

open Text Json

/-! ## Escapes -/

theorem hexImage?_hexText {n : Nat} (h : n < 0x10000) :
    hexImage? (hexText 4 n) = if isScalarValue n then some (Char.ofNat n) else none := by
  obtain ⟨ds, hds, hn⟩ := mapM_hexDigit?_hexText h
  unfold hexImage?
  rw [hds]
  simp [hn]

theorem basic?_plain {c : Char} (hquote : c ≠ '"') (hslash : c ≠ '\\') (h : isControl c = false)
    (rest : List Char) : basic? (c :: rest) = (basic? rest).map fun (s, rest) => (c :: s, rest) := by
  rw [basic?.eq_def]
  split <;> simp_all

theorem basic?_unicodeEscape {n : Nat} (h : n < 0x10000) (rest : List Char) :
    basic? (unicodeEscape n ++ rest) =
      if isScalarValue n then (basic? rest).map fun (s, rest) => (Char.ofNat n :: s, rest) else none := by
  rw [unicodeEscape, hexText_four]
  simp only [List.cons_append, List.nil_append]
  rw [basic?, ← hexText_four, hexImage?_hexText h]
  split
  · cases basic? rest <;> rfl
  · rfl

theorem basic?_letterEscape {x image : Char} (h : escapeImage? x = some image) (hu : x ≠ 'u') (hU : x ≠ 'U')
    (rest : List Char) :
    basic? ('\\' :: x :: rest) = (basic? rest).map fun (s, rest) => (image :: s, rest) := by
  rw [basic?, h]
  · cases basic? rest <;> rfl
  · intros
    contradiction
  · intros
    contradiction

theorem isScalarValue_toNat (c : Char) : isScalarValue c.toNat = true := by
  rcases c.valid with h | h
  · simp [isScalarValue, show c.toNat < 0xd800 from h]
  · have hlow : 0xe000 ≤ c.toNat := h.1
    simp [isScalarValue, hlow, show c.toNat < 0x110000 from h.2]

theorem letterEscapes_image : ∀ e ∈ letterEscapes,
    escapeImage? e.1 = some e.2 ∧ e.1 ≠ 'u' ∧ e.1 ≠ 'U' ∧ e.2.toNat < 0x10000 := by
  decide

/-- A character is read back from what is written for it, unless that is two units. -/
theorem basic?_stringChar (c : Char) (rest : List Char) : basic? (stringChar c ++ rest) =
    if c.toNat < 0x10000 then (basic? rest).map fun (s, rest) => (c :: s, rest) else none := by
  have hspelling := spelling c
  generalize stringChar c = written at hspelling ⊢
  cases hspelling with
  | letter h =>
    obtain ⟨himage, hu, hU, hlt⟩ := letterEscapes_image _ h
    rw [if_pos hlt]
    exact basic?_letterEscape himage hu hU rest
  | plain hquote hslash hlow hhigh =>
    have hcontrol : isControl c = false := by
      have htab : c ≠ '\x7f' := fun h => by subst h; revert hhigh; decide
      simp [isControl, htab]
      omega
    rw [if_pos (by omega)]
    exact basic?_plain hquote hslash hcontrol rest
  | unit hlt =>
    rw [if_pos hlt, basic?_unicodeEscape hlt, if_pos (isScalarValue_toNat c), Char.ofNat_toNat]
  | @units high low hlow hhigh hhigh' hlow' hlow'' heq =>
    have hsurrogate : isScalarValue high = false := by simp [isScalarValue]; omega
    rw [if_neg (by omega), List.append_assoc, basic?_unicodeEscape (by omega), hsurrogate]
    rfl

/-! ## Texts -/

/-- The characters that one unit of UTF-16 writes. -/
def InOneUnit (s : List Char) : Prop := ∀ c ∈ s, c.toNat < 0x10000

instance : DecidablePred InOneUnit := fun s => inferInstanceAs (Decidable (∀ c ∈ s, c.toNat < 0x10000))

theorem basic?_stringBody (rest : List Char) : ∀ s : List Char, basic? (stringBody s ++ '"' :: rest) =
    if InOneUnit s then some (s, rest) else none
  | [] => by simp [stringBody, basic?, InOneUnit]
  | c :: s => by
    have ih := basic?_stringBody rest s
    have hcons : InOneUnit (c :: s) ↔ c.toNat < 0x10000 ∧ InOneUnit s := List.forall_mem_cons
    unfold stringBody at ih ⊢
    rw [List.flatMap_cons, List.append_assoc, basic?_stringChar, ih]
    by_cases hc : c.toNat < 0x10000
    · by_cases hs : InOneUnit s
      · rw [if_pos hc, if_pos hs, if_pos (hcons.mpr ⟨hc, hs⟩)]
        rfl
      · rw [if_pos hc, if_neg hs, if_neg fun h => hs (hcons.mp h).2]
        rfl
    · rw [if_neg hc, if_neg fun h => hc (hcons.mp h).1]

/-- What is written for a text opens no text of several lines. -/
theorem quoted?_stringBody (s : List Char) {c : Char} (hc : c ≠ '"') (rest : List Char) :
    quoted? ('"' :: (stringBody s ++ '"' :: c :: rest)) = some (basic? (stringBody s ++ '"' :: c :: rest)) := by
  cases s with
  | nil =>
    rw [quoted?]
    · intro _ h
      simp [stringBody, hc] at h
  | cons d s =>
    obtain ⟨x, written, hx, hquote⟩ := head_stringChar d
    rw [stringBody, List.flatMap_cons, hx]
    rw [quoted?]
    · intro _ h
      simp [hquote] at h

/-- At the end of a line, a TOML reader takes a text for a basic text that denotes another. -/
def Denotes (written s : String) : Prop :=
  ∃ body, written.toList = '"' :: body ∧ ∀ rest,
    quoted? (written.toList ++ '\n' :: rest) = some (basic? (body ++ '\n' :: rest)) ∧
    basic? (body ++ '\n' :: rest) = some (s.toList, '\n' :: rest)

/-- At the end of a line, a TOML reader refuses a text that opens with a quote. -/
def Refused (written : String) : Prop := ∀ rest, quoted? (written.toList ++ '\n' :: rest) = some none

theorem quoted?_quoted (s : String) (rest : List Char) : quoted? ((quoted s).toList ++ '\n' :: rest) =
    some (if InOneUnit s.toList then some (s.toList, '\n' :: rest) else none) := by
  have hread := quoted?_stringBody s.toList (c := '\n') (by decide) rest
  rw [toList_quoted, List.cons_append, List.append_assoc, List.singleton_append, hread, basic?_stringBody]

theorem denotes_quoted_iff (s : String) : Denotes (quoted s) s ↔ InOneUnit s.toList := by
  constructor
  · rintro ⟨body, _, hread⟩
    obtain ⟨hquoted, hbasic⟩ := hread []
    by_contra h
    rw [quoted?_quoted, if_neg h, hbasic] at hquoted
    cases hquoted
  · intro h
    refine ⟨_, toList_quoted s, fun rest => ?_⟩
    have hbasic := basic?_stringBody ('\n' :: rest) s.toList
    rw [if_pos h] at hbasic
    rw [quoted?_quoted, if_pos h, List.append_assoc, List.singleton_append, hbasic]
    exact ⟨rfl, rfl⟩

theorem refused_quoted_iff (s : String) : Refused (quoted s) ↔ ¬ InOneUnit s.toList := by
  constructor
  · intro h hs
    have hread := h []
    rw [quoted?_quoted, if_pos hs] at hread
    cases hread
  · intro h rest
    rw [quoted?_quoted, if_neg h]

end ToolServer.Toml

namespace ToolServer.Emit.Python

open Toml

/-- **A manifest carries a version and a description just when one unit writes each of their characters.** Else
escapes of surrogates stand in it, which TOML refuses. -/
theorem manifest_denotes_iff (c : Config) :
    (∃ before next after, manifest c = joinLines (before ++
      ["version = " ++ Json.quoted c.version, "description = " ++ Json.quoted c.description, next] ++ after)) ∧
    (Denotes (Json.quoted c.version) c.version ↔ InOneUnit c.version.toList) ∧
    (Denotes (Json.quoted c.description) c.description ↔ InOneUnit c.description.toList) ∧
    (Refused (Json.quoted c.version) ↔ ¬ InOneUnit c.version.toList) ∧
    (Refused (Json.quoted c.description) ↔ ¬ InOneUnit c.description.toList) := by
  have hlines : ∃ before next after, manifest c = joinLines (before ++
      ["version = " ++ Json.quoted c.version, "description = " ++ Json.quoted c.description, next] ++ after) :=
    ⟨["[build-system]", "requires = [\"setuptools>=61\"]", "build-backend = \"setuptools.build_meta\"", "",
      "[project]", "name = \"mcp-" ++ c.name ++ "\""], "requires-python = \">=3.10\"", _, rfl⟩
  exact ⟨hlines, denotes_quoted_iff _, denotes_quoted_iff _, refused_quoted_iff _, refused_quoted_iff _⟩

example : Refused (Json.quoted "😀") := fun _ => rfl

end ToolServer.Emit.Python
