import Mathlib.Tactic.FinCases
import ToolServer.Proofs.Emit.Unbroken
import ToolServer.Proofs.Script.Template
import ToolServer.Proofs.Text.Piece

/-!
# Texts in scripts

The marks of strings and templates, the backslash and line ends are written behind a backslash. So a text that is
written into a string or a template is what a reader finds there, up to its own closing mark: `scriptText_denotes`.
-/

namespace ToolServer.Emit

open Text Script
open Program (units)

/-! ## Characters -/

def scriptEscapes : List (Char × Char) :=
  [('\\', '\\'), ('\'', '\''), ('\x60', '\x60'), ('$', '$'), ('\r', 'r'), ('\n', 'n')]

theorem escaped_scriptChar (c : Char) : Escaped scriptEscapes c (scriptChar c) := by
  unfold scriptChar
  split_ifs with hmark hreturn hfeed
  · simp only [Bool.or_eq_true, decide_eq_true_eq] at hmark
    rcases hmark with ((rfl | rfl) | rfl) | rfl
    all_goals exact .escape (by decide)
  · exact .escape (by subst hreturn; decide)
  · exact .escape (by subst hfeed; decide)
  · refine .plain fun e he heq => ?_
    subst heq
    fin_cases he <;> simp at hmark hreturn hfeed

theorem escape?_image : ∀ e ∈ scriptEscapes, ∀ rest, escape? (e.2 :: rest) = some (units e.1, rest) := by
  intro e he rest
  fin_cases he <;> rfl

theorem stringBody?_scriptChar (c : Char) (rest : List Char) : stringBody? (scriptChar c ++ rest) =
    (stringBody? rest).map fun (value, rest) => (units c ++ value, rest) := by
  have hspelling := escaped_scriptChar c
  generalize scriptChar c = written at hspelling ⊢
  cases hspelling with
  | escape h => exact stringBody?_escape (escape?_image _ h rest)
  | plain h =>
    exact stringBody?_plain (h ('\'', '\'') (by decide)) (h ('\n', 'n') (by decide)) (h ('\r', 'r') (by decide))
      (h ('\\', '\\') (by decide)) rest

theorem templateBody?_scriptChar (c : Char) (rest : List Char) : templateBody? (scriptChar c ++ rest) =
    (templateBody? rest).map fun (ps, rest) => ((units c).map .unit ++ ps, rest) := by
  have hspelling := escaped_scriptChar c
  generalize scriptChar c = written at hspelling ⊢
  cases hspelling with
  | escape h => exact templateBody?_escape (escape?_image _ h rest)
  | plain h =>
    exact templateBody?_plain (h ('\x60', '\x60') (by decide)) (h ('\\', '\\') (by decide)) (h ('$', '$') (by decide))
      (h ('\r', 'r') (by decide)) rest

/-! ## Texts -/

theorem toList_scriptText (s : String) : (scriptText s).toList = s.toList.flatMap scriptChar := String.toList_ofList

theorem toList_scriptString (s : String) : (scriptString s).toList = '\'' :: ((scriptText s).toList ++ ['\'']) := by
  rw [scriptString, String.toList_append, String.toList_append]
  rfl

theorem string?_scriptString (s : String) (rest : List Char) :
    string? ((scriptString s).toList ++ rest) = some (s.toList.flatMap units, rest) := by
  rw [toList_scriptString, toList_scriptText, List.cons_append, string?, List.append_assoc,
    read_flatMap _ fun c _ => stringBody?_scriptChar c, List.singleton_append, stringBody?_quote]
  simp

theorem template?_scriptText (s : String) (rest : List Char) :
    template? (("`" ++ scriptText s ++ "`").toList ++ rest) = some ((s.toList.flatMap units).map .unit, rest) := by
  have htext : ("`" ++ scriptText s ++ "`").toList ++ rest =
      '\x60' :: (s.toList.flatMap scriptChar ++ '\x60' :: rest) := by
    simp [toList_scriptText]
  rw [htext, template?, read_flatMap _ fun c _ => templateBody?_scriptChar c, templateBody?_mark, List.map_flatMap]
  simp

/-! ## Members -/

/-- Names that are written bare are words, which a line feed may follow. -/
theorem isBareMember_iff {s : List Char} : isBareMember s = true ↔
    ∃ word, isWord word = true ∧ (s = word ∨ s = word ++ ['\n']) := by
  constructor
  · intro h
    cases s with
    | nil => cases h
    | cons c rest =>
      obtain ⟨hstart, hrest⟩ := isBareMember_cons h
      refine ⟨c :: rest.takeWhile isMemberChar, Bool.and_eq_true_iff.mpr ⟨hstart, ?_⟩, hrest⟩
      exact List.all_eq_true.mpr fun d hd => List.mem_takeWhile_imp hd
  · rintro ⟨word, hword, hs⟩
    cases word with
    | nil => cases hword
    | cons c cs =>
      obtain ⟨hc, hcs⟩ := Bool.and_eq_true_iff.mp hword
      have hcs : ∀ d ∈ cs, isMemberChar d = true := List.all_eq_true.mp hcs
      rcases hs with rfl | rfl
      · have hdrop : cs.dropWhile isMemberChar = [] := List.dropWhile_eq_nil_iff.mpr hcs
        rw [isBareMember, hdrop]
        exact Bool.and_eq_true_iff.mpr ⟨hc, rfl⟩
      · have hdrop : (cs ++ ['\n']).dropWhile isMemberChar = ['\n'] := by
          rw [List.dropWhile_append_of_pos hcs]
          rfl
        rw [List.cons_append, isBareMember, hdrop]
        exact Bool.and_eq_true_iff.mpr ⟨hc, rfl⟩

theorem isWord_of_isBareMember {s : List Char} (h : isBareMember s = true) (hfeed : '\n' ∉ s) : isWord s = true := by
  obtain ⟨word, hword, rfl | rfl⟩ := isBareMember_iff.mp h
  · exact hword
  · exact absurd (List.mem_append_right _ (List.mem_singleton_self _)) hfeed

theorem expression?_memberAccess {object name : String} (hobject : isWord object.toList = true)
    (hname : object ∉ reservedWords) (hfeed : '\n' ∉ name.toList) {rest : List Char} (hrest : endsWord rest = true) :
    expression? ((memberAccess object name).toList ++ rest) =
      some (.member object (name.toList.flatMap units), rest) := by
  unfold memberAccess
  split
  · rename_i hbare
    have htext : (object ++ "." ++ name).toList ++ rest = object.toList ++ '.' :: (name.toList ++ rest) := by
      simp
    rw [htext]
    exact expression?_member hobject hname (isWord_of_isBareMember hbare hfeed) hrest
  · have htext : (object ++ "[" ++ scriptString name ++ "]").toList ++ rest =
        object.toList ++ '[' :: ((scriptString name).toList ++ ']' :: rest) := by
      simp
    rw [htext]
    exact expression?_index hobject hname (string?_scriptString name (']' :: rest))

/-- **A text is what a script reads where the text is written into a string or a template.** It is written by six
replacements one after the other. The literal ends at its own closing mark whatever follows, ends no line inside,
and as a template has no expression in it. -/
theorem scriptText_denotes (s : String) :
    (scriptText s).toList = replaceEach scriptEscapes s.toList ∧
    (∀ rest, string? ((scriptString s).toList ++ rest) = some (s.toList.flatMap units, rest)) ∧
    (∀ c ∈ (scriptString s).toList, c ≠ '\n' ∧ c ≠ '\r') ∧
    ∀ rest, template? (("`" ++ scriptText s ++ "`").toList ++ rest) =
      some ((s.toList.flatMap units).map .unit, rest) := by
  refine ⟨?_, string?_scriptString s, fun c hc => ?_, template?_scriptText s⟩
  · rw [replaceEach_eq_flatMap, toList_scriptText]
    exact List.flatMap_congr fun c _ => (replaceEach_of_escaped (by decide) (escaped_scriptChar c)).symm
  · have hc : isLineEnd c = false := breaks_eq_zero_iff.mp (breaks_scriptString s) c hc
    simpa [isLineEnd] using hc

end ToolServer.Emit
