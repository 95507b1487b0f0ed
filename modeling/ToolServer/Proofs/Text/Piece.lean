import Mathlib.Data.List.Basic
import Mathlib.Tactic.Ring
import ToolServer.Text.Piece

/-!
# Characters of pieces

Collapsing brings in marks only, and stripping brings in nothing. Replacing puts an image for each occurrence of
the pattern, and passes over what lies between. Joining brings in marks only, and cutting takes joined pieces apart.
What is replaced, or read, part by part is told by the parts.
-/

namespace ToolServer.Text

theorem mem_collapse {keep : Char → Bool} {mark : Char} {c : Char} :
    ∀ {s : List Char}, c ∈ collapse keep mark s → keep c = true ∨ c = mark
  | [], h => by cases h
  | [d], h => by
    unfold collapse at h
    split at h
    · rename_i hd
      rcases List.mem_cons.mp h with rfl | h
      · exact .inl hd
      · exact mem_collapse h
    · exact .inr (List.mem_singleton.mp h)
  | d :: e :: s, h => by
    unfold collapse at h
    split at h
    · rename_i hd
      rcases List.mem_cons.mp h with rfl | h
      · exact .inl hd
      · exact mem_collapse h
    · simp only at h
      split at h
      · rcases List.mem_cons.mp h with rfl | h
        · exact .inr rfl
        · exact mem_collapse h
      · exact mem_collapse h

theorem mem_dropEndWhile {p : Char → Bool} {s : List Char} {c : Char} (h : c ∈ dropEndWhile p s) : c ∈ s :=
  List.mem_reverse.mp ((List.dropWhile_suffix p).subset (List.mem_reverse.mp h))

theorem mem_stripWhile {p : Char → Bool} {s : List Char} {c : Char} (h : c ∈ stripWhile p s) : c ∈ s :=
  (List.dropWhile_suffix p).subset (mem_dropEndWhile h)

/-! ## Occurrences -/

def occurrences (pattern : List Char) : List Char → Nat
  | [] => 0
  | c :: cs =>
    if pattern.isPrefixOf (c :: cs) then occurrences pattern (cs.drop (pattern.length - 1)) + 1
    else occurrences pattern cs
termination_by s => s.length
decreasing_by
  · simp only [List.length_drop, List.length_cons]; omega
  · simp

section
variable {pattern : List Char}

theorem eq_append_drop (hne : pattern ≠ []) {c : Char} {cs : List Char} (h : pattern.isPrefixOf (c :: cs) = true) :
    c :: cs = pattern ++ cs.drop (pattern.length - 1) := by
  obtain ⟨rest, hrest⟩ := List.isPrefixOf_iff_prefix.mp h
  obtain ⟨d, ds, rfl⟩ := List.exists_cons_of_ne_nil hne
  obtain ⟨rfl, rfl⟩ := List.cons.inj hrest
  simp

/-- Of a class that the pattern is free of, each occurrence brings in what the image has of it. -/
theorem countP_replaceAll {p : Char → Bool} (hne : pattern ≠ []) (hp : pattern.countP p = 0) (image s : List Char) :
    (replaceAll pattern image s).countP p = s.countP p + occurrences pattern s * image.countP p := by
  fun_induction replaceAll pattern image s with
  | case1 => simp [occurrences]
  | case2 c cs h ih =>
    have hcount : (c :: cs).countP p = (cs.drop (pattern.length - 1)).countP p := by
      rw [eq_append_drop hne h, List.countP_append, hp, Nat.zero_add]
    rw [List.countP_append, ih, hcount, occurrences, if_pos h]
    ring
  | case3 c cs h ih =>
    rw [List.countP_cons, ih, List.countP_cons, occurrences, if_neg h]
    ring

theorem occurrences_eq_zero_iff (hne : pattern ≠ []) (s : List Char) : occurrences pattern s = 0 ↔ ¬ pattern <:+: s := by
  fun_induction occurrences pattern s with
  | case1 => simpa using hne
  | case2 c cs h ih => simpa using (List.isPrefixOf_iff_prefix.mp h).isInfix
  | case3 c cs h ih =>
    have hfront : ¬ pattern <+: c :: cs := fun hfront => h (List.isPrefixOf_iff_prefix.mpr hfront)
    rw [ih, List.infix_cons_iff, not_or]
    exact ⟨fun hcs => ⟨hfront, hcs⟩, And.right⟩

/-! ## Replacing -/

variable {image : List Char}

theorem replaceAll_pattern_append (hne : pattern ≠ []) (rest : List Char) :
    replaceAll pattern image (pattern ++ rest) = image ++ replaceAll pattern image rest := by
  obtain ⟨d, ds, rfl⟩ := List.exists_cons_of_ne_nil hne
  have hfront : (d :: ds).isPrefixOf (d :: (ds ++ rest)) = true :=
    List.isPrefixOf_iff_prefix.mpr (List.prefix_append (d :: ds) rest)
  rw [List.cons_append, replaceAll, if_pos hfront]
  simp

theorem replaceAll_cons {c : Char} {cs : List Char} (h : ¬ pattern <+: c :: cs) :
    replaceAll pattern image (c :: cs) = c :: replaceAll pattern image cs := by
  rw [replaceAll, if_neg (mt List.isPrefixOf_iff_prefix.mp h)]

/-- Replacing passes over what the first character of the pattern is not in. -/
theorem replaceAll_append {d : Char} {ds : List Char} (rest : List Char) : ∀ {s : List Char}, d ∉ s →
    replaceAll (d :: ds) image (s ++ rest) = s ++ replaceAll (d :: ds) image rest
  | [], _ => rfl
  | c :: s, h => by
    rw [List.mem_cons, not_or] at h
    obtain ⟨hc, hs⟩ := h
    have hfront : ¬ d :: ds <+: c :: (s ++ rest) := fun hfront => hc (List.cons_prefix_cons.mp hfront).1
    rw [List.cons_append, replaceAll_cons hfront, replaceAll_append rest hs, List.cons_append]

theorem replaceAll_singleton (d : Char) (image : List Char) : ∀ s : List Char,
    replaceAll [d] image s = s.flatMap fun c => if c = d then image else [c]
  | [] => by simp [replaceAll]
  | c :: s => by
    rw [List.flatMap_cons, ← replaceAll_singleton d image s]
    by_cases hc : c = d
    · subst hc
      rw [if_pos rfl]
      exact replaceAll_pattern_append (List.cons_ne_nil _ _) s
    · have hmem : d ∉ [c] := by simpa using Ne.symm hc
      rw [if_neg hc]
      exact replaceAll_append s hmem

end

/-- Write characters behind backslashes, one of them after the other. -/
def replaceEach (es : List (Char × Char)) (s : List Char) : List Char :=
  es.foldl (fun text e => replaceAll [e.1] ['\\', e.2] text) s

/-- What becomes of a text is what becomes of each of its characters. -/
theorem replaceEach_eq_flatMap : ∀ (es : List (Char × Char)) (s : List Char),
    replaceEach es s = s.flatMap fun c => replaceEach es [c]
  | [], s => (List.flatMap_singleton' s).symm
  | e :: es, s => by
    have hstep : ∀ t, replaceEach (e :: es) t =
        (replaceAll [e.1] ['\\', e.2] t).flatMap fun c => replaceEach es [c] :=
      fun t => replaceEach_eq_flatMap es (replaceAll [e.1] ['\\', e.2] t)
    simp only [hstep, replaceAll_singleton, List.flatMap_assoc, List.flatMap_singleton]

/-- The ways in which a character is written where some have an escape. -/
inductive Escaped (es : List (Char × Char)) (c : Char) : List Char → Prop
  | escape {x} : (c, x) ∈ es → Escaped es c ['\\', x]
  | plain : (∀ e ∈ es, c ≠ e.1) → Escaped es c [c]

theorem replaceEach_eq_self : ∀ {es : List (Char × Char)} {s : List Char}, (∀ e ∈ es, e.1 ∉ s) → replaceEach es s = s
  | [], _, _ => rfl
  | e :: es, s, h => by
    obtain ⟨he, h⟩ := List.forall_mem_cons.mp h
    have hkeep : replaceAll [e.1] ['\\', e.2] s = s := by
      rw [replaceAll_singleton]
      have hne : ∀ c ∈ s, c ≠ e.1 := fun c hc heq => he (heq ▸ hc)
      rw [List.flatMap_congr fun c hc => if_neg (hne c hc), List.flatMap_singleton']
    rw [replaceEach, List.foldl_cons, hkeep]
    exact replaceEach_eq_self h

/-- Replacing one after the other escapes each character by itself, if no escape brings in what is replaced later. -/
theorem replaceEach_of_escaped {es : List (Char × Char)}
    (hes : es.Pairwise fun e e' => e'.1 ≠ e.1 ∧ e'.1 ≠ '\\' ∧ e'.1 ≠ e.2) {c : Char} {written : List Char}
    (h : Escaped es c written) : replaceEach es [c] = written := by
  cases h with
  | plain h => exact replaceEach_eq_self fun e he hmem => h e he (List.mem_singleton.mp hmem).symm
  | @escape x h =>
    induction es with
    | nil => cases h
    | cons e es ih =>
      obtain ⟨hfirst, hes⟩ := List.pairwise_cons.mp hes
      rw [replaceEach, List.foldl_cons, replaceAll_singleton, List.flatMap_singleton]
      rcases List.mem_cons.mp h with rfl | h
      · -- the later ones pass over the backslash and what it escapes
        rw [if_pos rfl]
        refine replaceEach_eq_self fun e he => ?_
        obtain ⟨-, hslash, himage⟩ := hfirst e he
        simp [hslash, himage]
      · rw [if_neg (hfirst _ h).1]
        exact ih hes h

/-! ## Cutting -/

section
variable {mark : Char}

theorem cut_of_not_mem : ∀ {piece : List Char}, mark ∉ piece → cut mark piece = [piece]
  | [], _ => rfl
  | c :: piece, h => by
    rw [List.mem_cons, not_or] at h
    obtain ⟨hc, hpiece⟩ := h
    rw [cut, if_neg (Ne.symm hc), cut_of_not_mem hpiece]

theorem cut_append_mark (rest : List Char) : ∀ {piece : List Char}, mark ∉ piece →
    cut mark (piece ++ mark :: rest) = piece :: cut mark rest
  | [], _ => by rw [List.nil_append, cut, if_pos rfl]
  | c :: piece, h => by
    rw [List.mem_cons, not_or] at h
    obtain ⟨hc, hpiece⟩ := h
    rw [List.cons_append, cut, if_neg (Ne.symm hc), cut_append_mark rest hpiece]

/-- Pieces that are free of the mark are what the joined text is cut to. -/
theorem cut_joinWith : ∀ {pieces : List (List Char)}, pieces ≠ [] → (∀ piece ∈ pieces, mark ∉ piece) →
    cut mark (joinWith mark pieces) = pieces
  | [], hne, _ => absurd rfl hne
  | [piece], _, h => cut_of_not_mem (h piece (List.mem_singleton_self piece))
  | piece :: next :: pieces, _, h => by
    obtain ⟨hpiece, h⟩ := List.forall_mem_cons.mp h
    rw [joinWith, cut_append_mark _ hpiece, cut_joinWith (List.cons_ne_nil next pieces) h]
    simp

end

/-! ## Joining -/

theorem mem_joinWith {mark c : Char} : ∀ {pieces : List (List Char)}, c ∈ joinWith mark pieces →
    c = mark ∨ ∃ piece ∈ pieces, c ∈ piece
  | [], h => by simp [joinWith] at h
  | [piece], h => .inr ⟨piece, List.mem_singleton_self piece, h⟩
  | piece :: next :: pieces, h => by
    rw [joinWith, List.mem_append, List.mem_cons] at h
    rcases h with h | rfl | h
    · exact .inr ⟨piece, List.mem_cons_self .., h⟩
    · exact .inl rfl
    · apply (mem_joinWith h).imp_right
      intro ⟨found, hfound, hc⟩
      exact ⟨found, List.mem_cons_of_mem _ hfound, hc⟩
    · simp

theorem joinWith_eq_intercalate (mark : Char) : ∀ pieces : List (List Char),
    joinWith mark pieces = [mark].intercalate pieces
  | [] => by simp [joinWith]
  | [piece] => by simp [joinWith]
  | piece :: next :: pieces => by
    rw [joinWith, joinWith_eq_intercalate mark (next :: pieces), List.intercalate_cons_cons]
    · simp
    · simp

theorem toList_intercalate {sep : String} {mark : Char} (hsep : sep.toList = [mark]) (ts : List String) :
    (sep.intercalate ts).toList = joinWith mark (ts.map (·.toList)) := by
  rw [String.toList_intercalate, hsep, joinWith_eq_intercalate]

/-! ## Reading -/

theorem lineFeeds_eq_self : ∀ {s : List Char}, '\r' ∉ s → lineFeeds s = s
  | [], _ => rfl
  | c :: s, h => by
    rw [List.mem_cons, not_or] at h
    obtain ⟨hc, hs⟩ := h
    rw [lineFeeds, lineFeeds_eq_self hs]
    · exact fun _ hreturn _ => hc hreturn.symm
    · exact fun hreturn => hc hreturn.symm

/-- A reader that takes each part of a text for what it denotes takes the whole for what the parts denote. -/
theorem read_flatMap {α β : Type} {read : List Char → Option (List β × List Char)} {written : α → List Char}
    {value : α → List β} (rest : List Char) : ∀ {as : List α},
    (∀ a ∈ as, ∀ rest, read (written a ++ rest) = (read rest).map fun (v, rest) => (value a ++ v, rest)) →
    read (as.flatMap written ++ rest) = (read rest).map fun (v, rest) => (as.flatMap value ++ v, rest)
  | [], _ => by simp
  | a :: as, h => by
    obtain ⟨ha, h⟩ := List.forall_mem_cons.mp h
    rw [List.flatMap_cons, List.append_assoc, ha, read_flatMap rest h, Option.map_map, List.flatMap_cons]
    simp only [Function.comp_def, List.append_assoc]

end ToolServer.Text
