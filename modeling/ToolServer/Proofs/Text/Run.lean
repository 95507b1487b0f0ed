import Mathlib.Data.List.Chain
import Mathlib.Data.List.TakeWhile
import ToolServer.Text.Piece

/-!
# Runs and marks

The longest runs of a class of characters, joined by single marks. Collapsing what lies between runs to marks and
stripping the marks at the ends gives them, and the runs of what is joined are the runs that were joined.
-/

namespace ToolServer.Text

def runs (keep : Char → Bool) (s : List Char) : List (List Char) := (s.splitOnP (!keep ·)).filter (!·.isEmpty)

/-- A part that is not empty, all of a class. -/
structure IsRun (keep : Char → Bool) (w : List Char) : Prop where
  ne_nil : w ≠ []
  keep : ∀ c ∈ w, keep c = true

section
variable {keep : Char → Bool} {mark : Char}

/-! ## Runs of a text -/

theorem runs_nil : runs keep [] = [] := by
  simp [runs]

theorem runs_cons_of_not {c : Char} (hc : keep c = false) (cs : List Char) : runs keep (c :: cs) = runs keep cs := by
  simp [runs, List.splitOnP_cons_eq_if_modifyHead, hc]

theorem IsRun.runs {w : List Char} (hw : IsRun keep w) : runs keep w = [w] := by
  have hsplit : w.splitOnP (!keep ·) = [w] := by
    apply List.splitOnP_eq_singleton
    intro c hc
    simp [hw.keep c hc]
  simp [Text.runs, hsplit, hw.ne_nil]

theorem IsRun.runs_append {w : List Char} (hw : IsRun keep w) {c : Char} (hc : keep c = false) (rest : List Char) :
    Text.runs keep (w ++ c :: rest) = w :: Text.runs keep rest := by
  have hsplit : (w ++ c :: rest).splitOnP (!keep ·) = w :: rest.splitOnP (!keep ·) := by
    apply List.splitOnP_append_cons_of_forall_mem
    · intro d hd
      simp [hw.keep d hd]
    · simp [hc]
  simp [Text.runs, hsplit, hw.ne_nil]

/-- A text is empty, begins with a character of no run, is a run, or begins with a run that ends there. -/
theorem runs_induction (keep : Char → Bool) {P : List Char → Prop} (nil : P [])
    (skip : ∀ c cs, keep c = false → P cs → P (c :: cs)) (run : ∀ w, IsRun keep w → P w)
    (more : ∀ w c rest, IsRun keep w → keep c = false → P rest → P (w ++ c :: rest))
    (s : List Char) : P s := by
  match s with
  | [] => exact nil
  | c :: cs =>
    by_cases hc : keep c = true
    · have hrun : IsRun keep (c :: cs.takeWhile keep) := by
        refine ⟨List.cons_ne_nil _ _, List.forall_mem_cons.mpr ⟨hc, ?_⟩⟩
        intro d hd
        exact List.mem_takeWhile_imp hd
      have hsplit : c :: cs = (c :: cs.takeWhile keep) ++ cs.dropWhile keep := by simp
      have hlength := (List.dropWhile_suffix (l := cs) keep).length_le
      rw [hsplit]
      cases hrest : cs.dropWhile keep with
      | nil => simpa using run _ hrun
      | cons d rest =>
        have hd : keep d = false := by
          have hhead := List.head_dropWhile_not keep (l := cs) (by simp [hrest])
          simpa [hrest] using hhead
        have hshort : rest.length ≤ cs.length := by
          rw [hrest, List.length_cons] at hlength
          omega
        exact more _ d rest hrun hd (runs_induction keep nil skip run more rest)
    · exact skip c cs (by simpa using hc) (runs_induction keep nil skip run more cs)
termination_by s.length

theorem isRun_of_mem_runs {s w : List Char} (h : w ∈ runs keep s) : IsRun keep w := by
  induction s using runs_induction keep with
  | nil => simp [runs_nil] at h
  | skip c cs hc ih => exact ih (runs_cons_of_not hc cs ▸ h)
  | run v hv =>
    rw [hv.runs] at h
    exact List.mem_singleton.mp h ▸ hv
  | more v c rest hv hc ih =>
    rw [hv.runs_append hc] at h
    rcases List.mem_cons.mp h with rfl | h
    · exact hv
    · exact ih h

/-! ## Stripping -/

theorem stripWhile_cons_mark (s : List Char) : stripWhile (· == mark) (mark :: s) = stripWhile (· == mark) s := by
  simp [stripWhile]

theorem stripWhile_of_head {s : List Char} (h : s.head? ≠ some mark) :
    stripWhile (· == mark) s = dropEndWhile (· == mark) s := by
  cases s with
  | nil => rfl
  | cons c cs =>
    have hc : c ≠ mark := by simpa using h
    simp [stripWhile, hc]

theorem dropEndWhile_append (s t : List Char) : dropEndWhile (· == mark) (s ++ t) =
    if dropEndWhile (· == mark) t = [] then dropEndWhile (· == mark) s else s ++ dropEndWhile (· == mark) t := by
  unfold dropEndWhile
  rw [List.reverse_append, List.dropWhile_append]
  by_cases ht : t.reverse.dropWhile (· == mark) = []
  · simp [ht]
  · simp [ht]

theorem dropEndWhile_of_last {s : List Char} (h : s.getLast? ≠ some mark) : dropEndWhile (· == mark) s = s := by
  rw [← List.head?_reverse] at h
  unfold dropEndWhile
  cases hs : s.reverse with
  | nil => simpa using hs
  | cons c cs =>
    have hc : c ≠ mark := by simpa [hs] using h
    rw [List.dropWhile_cons_of_neg (by simpa using hc), ← hs, List.reverse_reverse]

/-! ## Collapsing -/

theorem collapse_cons_of_keep {c : Char} (hc : keep c = true) (cs : List Char) :
    collapse keep mark (c :: cs) = c :: collapse keep mark cs := by
  cases cs with
  | nil => simp [collapse, hc]
  | cons d cs => simp [collapse, hc]

theorem collapse_append {w : List Char} (hw : ∀ c ∈ w, keep c = true) (rest : List Char) :
    collapse keep mark (w ++ rest) = w ++ collapse keep mark rest := by
  induction w with
  | nil => rfl
  | cons c w ih =>
    obtain ⟨hc, hw⟩ := List.forall_mem_cons.mp hw
    rw [List.cons_append, collapse_cons_of_keep hc, ih hw, List.cons_append]

theorem stripWhile_collapse_cons {c : Char} (hc : keep c = false) (cs : List Char) :
    stripWhile (· == mark) (collapse keep mark (c :: cs)) = stripWhile (· == mark) (collapse keep mark cs) := by
  cases cs with
  | nil => simp [collapse, hc, stripWhile_cons_mark]
  | cons d cs =>
    by_cases hd : keep d = true
    · simp [collapse, hc, hd, stripWhile_cons_mark]
    · simp [collapse, hc, hd]

theorem joinWith_ne_nil {ws : List (List Char)} (hws : ∀ w ∈ ws, IsRun keep w) (hne : ws ≠ []) :
    joinWith mark ws ≠ [] := by
  obtain ⟨w, ws, rfl⟩ := List.exists_cons_of_ne_nil hne
  have hw := (hws w (List.mem_cons_self ..)).ne_nil
  cases ws with
  | nil => exact hw
  | cons v ws => simp [joinWith]

theorem joinWith_cons_of_ne_nil (w : List Char) {ws : List (List Char)} (hne : ws ≠ []) :
    joinWith mark (w :: ws) = w ++ mark :: joinWith mark ws := by
  obtain ⟨v, vs, rfl⟩ := List.exists_cons_of_ne_nil hne
  simp [joinWith]

section
variable (hmark : keep mark = false)
include hmark

/-- What is in no run becomes one mark. -/
theorem collapse_cons_of_not {c : Char} (hc : keep c = false) : ∀ cs : List Char,
    ∃ rest, collapse keep mark (c :: cs) = mark :: rest ∧ rest.head? ≠ some mark
  | [] => ⟨[], by simp [collapse, hc], by simp⟩
  | d :: cs => by
    by_cases hd : keep d = true
    · have hne : d ≠ mark := fun h => by rw [h, hmark] at hd; cases hd
      exact ⟨collapse keep mark (d :: cs), by simp [collapse, hc, hd], by simp [collapse, hd, hne]⟩
    · have hd : keep d = false := by simpa using hd
      obtain ⟨rest, hrest, hhead⟩ := collapse_cons_of_not hd cs
      exact ⟨rest, by rw [← hrest]; simp [collapse, hc, hd], hhead⟩

theorem IsRun.head_ne {w : List Char} (hw : IsRun keep w) (rest : List Char) : (w ++ rest).head? ≠ some mark := by
  obtain ⟨c, cs, rfl⟩ := List.exists_cons_of_ne_nil hw.ne_nil
  have hc : keep c = true := hw.keep c (List.mem_cons_self ..)
  intro h
  rw [List.cons_append, List.head?_cons, Option.some_inj] at h
  rw [h, hmark] at hc
  cases hc

theorem IsRun.last_ne {w : List Char} (hw : IsRun keep w) : w.getLast? ≠ some mark := by
  intro h
  have hc : keep mark = true := hw.keep mark (List.mem_of_getLast? h)
  rw [hmark] at hc
  cases hc

/-- **A text whose runs are parted by single marks is left of collapsing and stripping.** -/
theorem stripWhile_collapse (s : List Char) :
    stripWhile (· == mark) (collapse keep mark s) = joinWith mark (runs keep s) := by
  induction s using runs_induction keep with
  | nil => simp [collapse, stripWhile, dropEndWhile, runs_nil, joinWith]
  | skip c cs hc ih => rw [runs_cons_of_not hc, ← ih, stripWhile_collapse_cons hc]
  | run w hw =>
    have happend : collapse keep mark (w ++ []) = w ++ collapse keep mark [] := collapse_append hw.keep []
    have hcollapse : collapse keep mark w = w := by simpa [collapse] using happend
    have hhead : w.head? ≠ some mark := by simpa using hw.head_ne hmark []
    rw [hw.runs, joinWith, hcollapse, stripWhile_of_head hhead, dropEndWhile_of_last (hw.last_ne hmark)]
  | more w c rest hw hc ih =>
    obtain ⟨marked, hmarked, hhead⟩ := collapse_cons_of_not hmark hc rest
    have hrest : dropEndWhile (· == mark) marked = joinWith mark (runs keep rest) := by
      rw [← ih, ← stripWhile_collapse_cons hc, hmarked, stripWhile_cons_mark, stripWhile_of_head hhead]
    have hwhole : collapse keep mark (w ++ c :: rest) = (w ++ [mark]) ++ marked := by
      rw [collapse_append hw.keep, hmarked]
      simp
    have hstart : ((w ++ [mark]) ++ marked).head? ≠ some mark := by
      rw [List.append_assoc]
      exact hw.head_ne hmark _
    have hend : dropEndWhile (· == mark) (w ++ [mark]) = w := by
      rw [dropEndWhile_append, if_pos (by simp [dropEndWhile]), dropEndWhile_of_last (hw.last_ne hmark)]
    rw [hwhole, stripWhile_of_head hstart, dropEndWhile_append, hrest, hw.runs_append hc]
    by_cases hruns : runs keep rest = []
    · rw [hruns, joinWith, if_pos rfl, hend, joinWith]
    · rw [if_neg (joinWith_ne_nil (fun w => isRun_of_mem_runs) hruns), joinWith_cons_of_ne_nil w hruns]
      simp

/-! ## Joined runs -/

section
variable {ws : List (List Char)} (hws : ∀ w ∈ ws, IsRun keep w)
include hws

theorem head?_joinWith : (joinWith mark ws).head? ≠ some mark := by
  cases ws with
  | nil => simp [joinWith]
  | cons w ws =>
    obtain ⟨hw, hws⟩ := List.forall_mem_cons.mp hws
    by_cases hne : ws = []
    · simpa [hne, joinWith] using hw.head_ne hmark []
    · rw [joinWith_cons_of_ne_nil w hne]
      exact hw.head_ne hmark _

theorem getLast?_joinWith : (joinWith mark ws).getLast? ≠ some mark := by
  induction ws with
  | nil => simp [joinWith]
  | cons w ws ih =>
    obtain ⟨hw, hws⟩ := List.forall_mem_cons.mp hws
    by_cases hne : ws = []
    · rw [hne, joinWith]
      exact hw.last_ne hmark
    · have hrest : joinWith mark ws ≠ [] := joinWith_ne_nil hws hne
      obtain ⟨c, cs, hjoined⟩ := List.exists_cons_of_ne_nil hrest
      have ih := ih hws
      rw [joinWith_cons_of_ne_nil w hne]
      rw [hjoined] at ih ⊢
      simpa using ih

theorem isChain_joinWith : (joinWith mark ws).IsChain fun a b => ¬ (a = mark ∧ b = mark) := by
  induction ws with
  | nil => simp [joinWith]
  | cons w ws ih =>
    obtain ⟨hw, hws⟩ := List.forall_mem_cons.mp hws
    have hrun : w.IsChain fun a b => ¬ (a = mark ∧ b = mark) := by
      apply List.Pairwise.isChain
      apply List.pairwise_of_forall_mem_list
      intro a ha b _ ⟨hmarked, _⟩
      have hkept : keep mark = true := hmarked ▸ hw.keep a ha
      rw [hmark] at hkept
      cases hkept
    by_cases hne : ws = []
    · rw [hne, joinWith]
      exact hrun
    · rw [joinWith_cons_of_ne_nil w hne, List.isChain_append, List.isChain_cons]
      refine ⟨hrun, ⟨?_, ih hws⟩, ?_⟩
      · intro c hc ⟨_, hmarked⟩
        exact head?_joinWith hmark hws (hmarked ▸ hc)
      · intro c hc d _ ⟨hmarked, _⟩
        exact hw.last_ne hmark (hmarked ▸ hc)

/-- In a text that begins as joined runs do, marks stand apart. -/
theorem marks_apart {s : List Char} (h : s <+: joinWith mark ws) : ¬ [mark, mark] <:+: s := by
  intro hmarks
  have hchain := List.IsChain.infix (isChain_joinWith hmark hws) (hmarks.trans h.isInfix)
  simp at hchain

end

/-- A text of runs and single marks that begins with a run is joined of its runs, but for a mark at its end. -/
theorem eq_joinWith_runs {s : List Char} (hchars : ∀ c ∈ s, keep c = true ∨ c = mark)
    (hhead : s.head? ≠ some mark) (hapart : ¬ [mark, mark] <:+: s) :
    s = joinWith mark (runs keep s) ∨ s = joinWith mark (runs keep s) ++ [mark] := by
  induction s using runs_induction keep with
  | nil => simp [runs_nil, joinWith]
  | skip c cs hc ih =>
    have hmarked : c = mark := (hchars c (List.mem_cons_self ..)).resolve_left (by simp [hc])
    exact absurd (by rw [hmarked, List.head?_cons]) hhead
  | run w hw => simp [hw.runs, joinWith]
  | more w c rest hw hc ih =>
    have hmarked : c = mark := (hchars c (by simp)).resolve_left (by simp [hc])
    subst hmarked
    have hrest : rest.head? ≠ some c := by
      intro h
      obtain ⟨cs, rfl⟩ := List.head?_eq_some_iff.mp h
      exact hapart ⟨w, cs, by simp⟩
    have ih := ih (fun d hd => hchars d (by simp [hd])) hrest fun h => hapart (h.trans ⟨w ++ [c], [], by simp⟩)
    rw [hw.runs_append hc]
    by_cases hruns : runs keep rest = []
    · rw [hruns, joinWith, List.nil_append] at ih
      rcases ih with ih | ih
      · exact .inr (by rw [hruns, joinWith, ih])
      · exact absurd (by rw [ih, List.head?_cons]) hrest
    · rw [joinWith_cons_of_ne_nil w hruns, List.append_assoc, List.cons_append]
      apply ih.imp
      · intro h
        rw [← h]
      · intro h
        rw [← h]

end

end

end ToolServer.Text
