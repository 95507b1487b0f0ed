import Mathlib.Tactic.Ring
import Mathlib.Tactic.SplitIfs
import ToolServer.Proofs.Text.Class
import ToolServer.Text.Case

/-!
# Lines of texts

A line feed and a carriage return each end a line. How many lines a text has is told by how often one of them
stands in it, which is counted part by part. Capital letters change nothing about it.
-/

namespace ToolServer.Text

def isLineEnd (c : Char) : Bool := c == '\n' || c == '\r'

def lineCount (s : String) : Nat := (s.toList.splitOnP isLineEnd).length

/-- How often a line ends inside a text. -/
def breaks (s : String) : Nat := s.toList.countP isLineEnd

theorem lineCount_eq (s : String) : lineCount s = breaks s + 1 := by
  unfold lineCount breaks
  generalize s.toList = cs
  induction cs with
  | nil => rfl
  | cons c cs ih =>
    rw [List.splitOnP_cons_eq_if_modifyHead, List.countP_cons]
    split <;> simp [*]

theorem isLineEnd_iff {c : Char} : isLineEnd c = true ↔ c.toNat = 10 ∨ c.toNat = 13 := by
  rw [isLineEnd, Bool.or_eq_true, beq_iff_eq, beq_iff_eq, ← Char.toNat_inj, ← Char.toNat_inj]
  rfl

/-! ## Parts of texts -/

theorem breaks_eq_zero_iff {s : String} : breaks s = 0 ↔ ∀ c ∈ s.toList, isLineEnd c = false := by
  simp [breaks]

theorem breaks_ofList (cs : List Char) : breaks (String.ofList cs) = cs.countP isLineEnd := by
  rw [breaks, String.toList_ofList]

theorem breaks_append (s t : String) : breaks (s ++ t) = breaks s + breaks t := by
  rw [breaks, String.toList_append, List.countP_append, breaks, breaks]

/-- Of a fixed text the characters are seen by unification. -/
theorem breaks_fixed {s : String} (h : ∃ cs, s = String.ofList cs ∧ cs.all (!isLineEnd ·) = true) : breaks s = 0 := by
  obtain ⟨cs, rfl, h⟩ := h
  simpa [breaks] using h

theorem breaks_intercalate (mark : String) : ∀ ts : List String,
    breaks (mark.intercalate ts) = (ts.map breaks).sum + (ts.length - 1) * breaks mark
  | [] => by simp [breaks]
  | [t] => by simp
  | t :: u :: ts => by
    rw [String.intercalate_cons_cons, breaks_append, breaks_append, breaks_intercalate mark (u :: ts)]
    simp only [List.map_cons, List.sum_cons, List.length_cons, Nat.add_sub_cancel]
    ring

/-! ## Capital letters -/

theorem isLineEnd_ofNat {n : Nat} (h : 14 ≤ n) : isLineEnd (Char.ofNat n) = false := by
  rw [← Bool.not_eq_true, isLineEnd_iff]
  by_cases hvalid : n.isValidChar
  · rw [Char.ofNat, dif_pos hvalid]
    show ¬ (n = 10 ∨ n = 13)
    omega
  · rw [Char.ofNat, dif_neg hvalid]
    decide

theorem upperRuns_image : ∀ r ∈ upperRuns, 14 ≤ r.2.2.2 := by
  decide +kernel

theorem upperSpecial_image : ∀ e ∈ upperSpecial, ∀ n ∈ e.2, 14 ≤ n := by
  decide

theorem isLineEnd_specialImage {c : Char} {image : List Char} (h : specialImage? upperSpecial c = some image) :
    ∀ d ∈ image, isLineEnd d = false := by
  obtain ⟨ns, hns, rfl⟩ := Option.map_eq_some_iff.mp h
  obtain ⟨before, after, hlist, -⟩ := List.lookup_eq_some_iff.mp hns
  have hmem : (c.toNat, ns) ∈ upperSpecial := by
    rw [hlist]
    exact List.mem_append_right _ (List.mem_cons_self ..)
  intro d hd
  obtain ⟨n, hn, rfl⟩ := List.mem_map.mp hd
  exact isLineEnd_ofNat (upperSpecial_image _ hmem n hn)

theorem isLineEnd_runImage {c d : Char} (h : runImage? upperRuns c = some d) : isLineEnd d = false := by
  obtain ⟨⟨first, last, step, image⟩, hrun, rfl⟩ := Option.map_eq_some_iff.mp h
  have himage : 14 ≤ image := upperRuns_image _ (List.mem_of_find?_eq_some hrun)
  exact isLineEnd_ofNat (by omega)

/-- Every capital form beyond ASCII is in the tables, and ASCII has line ends only for themselves. -/
theorem isLineEnd_upperChar {c : Char} (h : isLineEnd c = false) : ∀ d ∈ upperChar c, isLineEnd d = false := by
  unfold upperChar
  split_ifs with hascii hlower
  · obtain ⟨hlow, -⟩ := isAsciiLower_iff.mp hlower
    simpa using isLineEnd_ofNat (by omega)
  · simpa using h
  · cases hspecial : specialImage? upperSpecial c with
    | some image => exact isLineEnd_specialImage hspecial
    | none =>
      cases hrun : runImage? upperRuns c with
      | some d => simpa using isLineEnd_runImage hrun
      | none => simpa using h

theorem countP_upperChar (c : Char) : (upperChar c).countP isLineEnd = [c].countP isLineEnd := by
  cases h : isLineEnd c with
  | true =>
    have hc : c = '\n' ∨ c = '\r' := by simpa [isLineEnd] using h
    rcases hc with rfl | rfl <;> rfl
  | false =>
    have himage : (upperChar c).countP isLineEnd = 0 := by simpa using isLineEnd_upperChar h
    simp [himage, h]

theorem breaks_upper (s : String) : breaks (upper s) = breaks s := by
  rw [upper, breaks_ofList, breaks]
  induction s.toList with
  | nil => rfl
  | cons c cs ih =>
    rw [List.flatMap_cons, List.countP_append, ih, countP_upperChar, ← List.countP_append]
    rfl

end ToolServer.Text
