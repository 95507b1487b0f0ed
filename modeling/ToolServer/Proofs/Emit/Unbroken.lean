import Mathlib.Algebra.Order.BigOperators.Group.List
import Mathlib.Data.List.TakeWhile
import ToolServer.Emit.TypeScript
import ToolServer.Proofs.Json.Ascii
import ToolServer.Proofs.Outcome
import ToolServer.Proofs.Text.Lines

/-!
# Texts that end no line

A string of a script and a JSON text on one line have no line end inside. A name has one only where it is written
bare with a line feed behind it: such a name is loose.
-/

namespace ToolServer.Emit

open Text Json
open Document (Value)

/-! ## Strings -/

theorem countP_scriptChar (c : Char) : (scriptChar c).countP isLineEnd = 0 := by
  unfold scriptChar
  split_ifs with hescape hreturn hfeed
  · have hc : isLineEnd c = false := by
      simp only [Bool.or_eq_true, decide_eq_true_eq] at hescape
      rcases hescape with ((rfl | rfl) | rfl) | rfl <;> rfl
    rw [List.countP_cons, List.countP_singleton, hc]
    rfl
  · rfl
  · rfl
  · simp [isLineEnd, hreturn, hfeed]

theorem breaks_scriptText (s : String) : breaks (scriptText s) = 0 := by
  rw [scriptText, breaks_ofList, List.countP_flatMap]
  simp [Function.comp_def, countP_scriptChar]

theorem breaks_scriptString (s : String) : breaks (scriptString s) = 0 := by
  rw [scriptString, breaks_append, breaks_append, breaks_scriptText, breaks_fixed ⟨['\''], rfl, rfl⟩]

/-! ## Names -/

/-- A name that is written bare although a line feed ends it. -/
def IsLoose (name : String) : Prop := isBareMember name.toList = true ∧ '\n' ∈ name.toList

instance : DecidablePred IsLoose := fun name =>
  inferInstanceAs (Decidable (isBareMember name.toList = true ∧ '\n' ∈ name.toList))

def looseBreaks (name : String) : Nat := if IsLoose name then 1 else 0

theorem isLineEnd_of_isMemberChar {c : Char} (h : isMemberChar c = true) : isLineEnd c = false := by
  rw [← Bool.not_eq_true, isLineEnd_iff]
  rintro (hc | hc) <;> rw [show c = Char.ofNat _ from hc ▸ (Char.ofNat_toNat c).symm] at h <;> revert h <;> decide

/-- Behind what the check takes for characters of an identifier there is at most a line feed. -/
theorem isBareMember_cons {c : Char} {rest : List Char} (h : isBareMember (c :: rest) = true) : isMemberStart c = true ∧
    (c :: rest = c :: rest.takeWhile isMemberChar ∨ c :: rest = (c :: rest.takeWhile isMemberChar) ++ ['\n']) := by
  obtain ⟨hstart, hrest⟩ := Bool.and_eq_true_iff.mp h
  refine ⟨hstart, ?_⟩
  have hsplit := List.takeWhile_append_dropWhile (p := isMemberChar) (l := rest)
  split at hrest
  · rename_i hdrop
    left
    rw [hdrop, List.append_nil] at hsplit
    rw [hsplit]
  · rename_i hdrop
    right
    rw [hdrop] at hsplit
    rw [List.cons_append, hsplit]
  · cases hrest

theorem eq_of_isBareMember {s : List Char} (h : isBareMember s = true) :
    ∃ front, (∀ c ∈ front, isLineEnd c = false) ∧ (s = front ∨ s = front ++ ['\n']) := by
  cases s with
  | nil => cases h
  | cons c rest =>
    obtain ⟨hstart, hrest⟩ := isBareMember_cons h
    refine ⟨c :: rest.takeWhile isMemberChar, List.forall_mem_cons.mpr ⟨isLineEnd_of_isMemberChar ?_, fun d hd =>
      isLineEnd_of_isMemberChar (List.mem_takeWhile_imp hd)⟩, hrest⟩
    rw [isMemberChar, hstart, Bool.true_or]

theorem breaks_of_isBareMember {name : String} (h : isBareMember name.toList = true) :
    breaks name = looseBreaks name := by
  obtain ⟨front, hfront, hname⟩ := eq_of_isBareMember h
  have hcount : front.countP isLineEnd = 0 := by simpa using hfront
  have hfeed : '\n' ∉ front := fun hmem => Bool.noConfusion (hfront _ hmem)
  rcases hname with hname | hname
  · have hloose : ¬ IsLoose name := fun hloose => hfeed (hname ▸ hloose.2)
    rw [breaks, hname, hcount, looseBreaks, if_neg hloose]
  · have hloose : IsLoose name := ⟨h, hname ▸ List.mem_append_right _ (List.mem_singleton_self _)⟩
    rw [breaks, hname, List.countP_append, hcount, looseBreaks, if_pos hloose]
    rfl

theorem looseBreaks_of_not_isBareMember {name : String} (h : ¬ isBareMember name.toList = true) :
    looseBreaks name = 0 := if_neg fun hloose => h hloose.1

theorem breaks_memberKey (name : String) : breaks (memberKey name) = looseBreaks name := by
  unfold memberKey
  split
  · rename_i h
    exact breaks_of_isBareMember h
  · rename_i h
    rw [breaks_scriptString, looseBreaks_of_not_isBareMember h]

theorem breaks_memberAccess (object name : String) :
    breaks (memberAccess object name) = breaks object + looseBreaks name := by
  unfold memberAccess
  split
  · rename_i h
    rw [breaks_append, breaks_append, breaks_fixed ⟨['.'], rfl, rfl⟩, breaks_of_isBareMember h]
    rfl
  · rename_i h
    rw [breaks_append, breaks_append, breaks_append, breaks_scriptString, looseBreaks_of_not_isBareMember h,
      breaks_fixed ⟨['['], rfl, rfl⟩, breaks_fixed ⟨[']'], rfl, rfl⟩]

theorem looseBreaks_eq_zero_iff {name : String} : looseBreaks name = 0 ↔ ¬ IsLoose name := by
  unfold looseBreaks
  split <;> simp [*]

theorem sum_looseBreaks_eq_zero_iff {names : List String} :
    (names.map looseBreaks).sum = 0 ↔ ∀ name ∈ names, ¬ IsLoose name := by
  rw [List.sum_eq_zero_iff, List.forall_mem_map]
  exact forall₂_congr fun name _ => looseBreaks_eq_zero_iff

/-! ## Checks of inputs -/

theorem breaks_of_isAscii {s : String} (h : IsAscii s) : breaks s = 0 := by
  rw [breaks_eq_zero_iff]
  intro c hc
  have hprintable := isAsciiPrintable_iff.mp (h c hc)
  rw [← Bool.not_eq_true, isLineEnd_iff]
  omega

namespace TypeScript

theorem breaks_literal (v : Value) : Gives (literal v) (breaks · = 0) := by
  unfold literal
  split
  · exact .ok (breaks_scriptString _)
  · exact (isAscii_write _).mono fun _ => breaks_of_isAscii

theorem breaks_intercalate_literals {ts : List String} (h : ∀ t ∈ ts, breaks t = 0) :
    breaks (", ".intercalate ts) = 0 := by
  have hsum : (ts.map breaks).sum = 0 := List.sum_eq_zero_iff.mpr (List.forall_mem_map.mpr h)
  rw [breaks_intercalate, hsum, breaks_fixed ⟨[',', ' '], rfl, rfl⟩]
  rfl

theorem breaks_enumCheck (vs : List Value) : Gives (enumCheck vs) (breaks · = 0) := by
  unfold enumCheck
  split
  · refine (Gives.mapM fun v _ => breaks_literal v).bind fun ts hts => .ok ?_
    simp (disch := exact ⟨_, rfl, rfl⟩) only [breaks_append, breaks_intercalate_literals hts, breaks_fixed]
  · have hliteral : ∀ v ∈ vs, Gives (do return "z.literal(" ++ (← literal v) ++ ")") (breaks · = 0) := fun v _ =>
      (breaks_literal v).bind fun t ht => .ok (by
        simp (disch := exact ⟨_, rfl, rfl⟩) only [breaks_append, ht, breaks_fixed])
    refine (Gives.mapM hliteral).bind fun ls hls => ?_
    split
    · exact .ok (hls _ (List.mem_singleton_self _))
    · refine .ok ?_
      simp (disch := exact ⟨_, rfl, rfl⟩) only [breaks_append, breaks_intercalate_literals hls, breaks_fixed]

mutual
theorem breaks_check : ∀ p : Property, Gives (check p) (breaks · = 0)
  | ⟨type, description, enum, default, items, properties, required, minimum, maximum, format⟩ => by
    have hitems := breaks_itemsCheck items
    unfold check
    split
    · exact breaks_enumCheck _
    · split_ifs
      · exact .ok (breaks_fixed ⟨_, rfl, rfl⟩)
      · exact .ok (breaks_fixed ⟨_, rfl, rfl⟩)
      · exact .ok (breaks_fixed ⟨_, rfl, rfl⟩)
      · refine hitems.bind fun t ht => .ok ?_
        simp (disch := exact ⟨_, rfl, rfl⟩) only [breaks_append, ht, breaks_fixed]
      · exact .ok (breaks_fixed ⟨_, rfl, rfl⟩)
      · exact .ok (breaks_fixed ⟨_, rfl, rfl⟩)
theorem breaks_itemsCheck : ∀ o : Option Property, Gives (itemsCheck o) (breaks · = 0)
  | some p => breaks_check p
  | none => .ok (breaks_fixed ⟨_, rfl, rfl⟩)
end

/-- The line of an input goes on at a loose name and nowhere else. -/
theorem breaks_inputLine (required : List String) (input : String × Property) :
    Gives (inputLine required input) (breaks · = looseBreaks input.1) := by
  unfold inputLine
  refine (breaks_check input.2).bind fun t ht => .ok ?_
  have hoptional : breaks (if required.contains input.1 then "" else ".optional()") = 0 := by
    split <;> exact breaks_fixed ⟨_, rfl, rfl⟩
  cases nonempty input.2.description with
  | none =>
    simp (disch := exact ⟨_, rfl, rfl⟩) only [breaks_append, breaks_memberKey, ht, hoptional, breaks_fixed,
      Nat.zero_add, Nat.add_zero]
  | some d =>
    simp (disch := exact ⟨_, rfl, rfl⟩) only [breaks_append, breaks_memberKey, breaks_scriptString, ht, hoptional,
      breaks_fixed, Nat.zero_add, Nat.add_zero]

end TypeScript

end ToolServer.Emit
