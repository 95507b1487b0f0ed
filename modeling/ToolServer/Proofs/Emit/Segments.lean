import Mathlib.Data.List.Infix
import ToolServer.Proofs.Emit.Lines
import ToolServer.Proofs.Emit.Script

/-!
# Segments of a path

A path is characters and the placeholders of its parameters. Its parameters are filled in one after the other, in a
path that is written for a template already. As the names have only characters that are written as they are, each
finds its own placeholders and nothing else, neither in what is written for another parameter nor across it:
`foldl_fill`.
-/

namespace ToolServer.Emit.TypeScript

open Text

/-! ## Placeholders -/

def isParameterChar (c : Char) : Bool := isAsciiLetter c || isAsciiDigit c || c == '_' || c == '-' || c == '.'

/-- A name that is written as it is wherever it stands. -/
def PlainName (name : String) : Prop := ∀ c ∈ name.toList, isParameterChar c = true

instance : DecidablePred PlainName := fun name =>
  decidable_of_iff (name.toList.all isParameterChar = true) List.all_eq_true

def slot (name : String) : List Char := '{' :: (name.toList ++ ['}'])

theorem slot_ne_nil (name : String) : slot name ≠ [] := by
  rw [slot]
  exact List.cons_ne_nil _ _

theorem append_cons_inj {p : Char → Bool} {a b s t : List Char} {x y : Char} (ha : ∀ c ∈ a, p c = true)
    (hb : ∀ c ∈ b, p c = true) (hx : ¬ p x = true) (hy : ¬ p y = true) (h : a ++ x :: s = b ++ y :: t) :
    a = b ∧ x = y ∧ s = t := by
  have hfront := congrArg (List.takeWhile p) h
  rw [List.takeWhile_append_of_pos ha, List.takeWhile_append_of_pos hb, List.takeWhile_cons_of_neg hx,
    List.takeWhile_cons_of_neg hy, List.append_nil, List.append_nil] at hfront
  subst hfront
  exact ⟨rfl, List.cons.inj (List.append_cancel_left h)⟩

/-- No placeholder begins another. -/
theorem slot_prefix_inj {m n : String} (hm : PlainName m) (hn : PlainName n) {rest : List Char}
    (h : slot m <+: slot n ++ rest) : m = n := by
  obtain ⟨t, ht⟩ := h
  have htail : m.toList ++ '}' :: t = n.toList ++ '}' :: rest := by simpa [slot] using ht
  exact String.toList_inj.mp (append_cons_inj hm hn (by decide) (by decide) htail).1

theorem brace_not_mem_plain {n : String} (hn : PlainName n) : '{' ∉ n.toList ++ ['}'] := by
  intro h
  rcases List.mem_append.mp h with h | h
  · exact absurd (hn _ h) (by decide)
  · exact absurd h (by decide)

theorem not_sign_of_plain {n : String} (hn : PlainName n) : ∀ c ∈ n.toList ++ ['}'], c ≠ '$' ∧ c ≠ '\\' := by
  refine List.forall_mem_append.mpr ⟨fun c hc => ?_, List.forall_mem_singleton.mpr (by decide)⟩
  constructor
  all_goals
    rintro rfl
    exact absurd (hn _ hc) (by decide)

/-- No placeholder reaches over the start of another. -/
theorem slot_prefix_of_append {m n : String} (hm : PlainName m) {c : Char} {cs rest : List Char}
    (h : slot m <+: c :: cs ++ (slot n ++ rest)) : slot m <+: c :: cs := by
  obtain ⟨t, ht⟩ := h
  rcases List.append_eq_append_iff.mp ht with ⟨d, hd, -⟩ | ⟨d, hd, hrest⟩
  · exact ⟨d, hd.symm⟩
  · cases d with
    | nil =>
      rw [List.append_nil] at hd
      rw [hd]
    | cons x d =>
      obtain ⟨rfl, -⟩ := List.cons.inj hrest
      obtain ⟨-, hd⟩ := List.cons.inj hd
      exact absurd (hd ▸ List.mem_append_right cs (List.mem_cons_self ..)) (brace_not_mem_plain hm)

/-! ## Segments -/

inductive Segment
  | char (c : Char)
  | parameter (name : String)
deriving DecidableEq

def segments (names : List String) : List Char → List Segment
  | [] => []
  | c :: cs =>
    match names.find? fun n => (slot n).isPrefixOf (c :: cs) with
    | some n => .parameter n :: segments names (cs.drop (n.toList.length + 1))
    | none => .char c :: segments names cs
termination_by path => path.length
decreasing_by
  · simp only [List.length_drop, List.length_cons]; omega
  · simp

/-- A path is empty, or it begins with a placeholder, or with a character and no placeholder. -/
theorem path_induction (names : List String) {motive : List Char → Prop} (nil : motive [])
    (parameter : ∀ n ∈ names, ∀ rest, motive rest → motive (slot n ++ rest))
    (char : ∀ c cs, (∀ n ∈ names, ¬ slot n <+: c :: cs) → motive cs → motive (c :: cs)) : ∀ path, motive path
  | [] => nil
  | c :: cs => by
    by_cases h : ∃ n ∈ names, slot n <+: c :: cs
    · obtain ⟨n, hn, rest, hrest⟩ := h
      have hle : rest.length ≤ cs.length := by
        have hlength := congrArg List.length hrest
        simp only [slot, List.cons_append, List.length_cons, List.length_append] at hlength
        omega
      rw [← hrest]
      exact parameter n hn rest (path_induction names nil parameter char rest)
    · have hnone : ∀ n ∈ names, ¬ slot n <+: c :: cs := fun n hn hslot => h ⟨n, hn, hslot⟩
      exact char c cs hnone (path_induction names nil parameter char cs)
termination_by path => path.length

section
variable {names : List String} (hnames : ∀ n ∈ names, PlainName n)

theorem segments_char {c : Char} {cs : List Char} (h : ∀ n ∈ names, ¬ slot n <+: c :: cs) :
    segments names (c :: cs) = .char c :: segments names cs := by
  have hfind : names.find? (fun n => (slot n).isPrefixOf (c :: cs)) = none := by
    simpa [List.find?_eq_none] using h
  rw [segments, hfind]

theorem segments_append {rest : List Char} : ∀ {s : List Char}, '{' ∉ s →
    segments names (s ++ rest) = s.map .char ++ segments names rest
  | [], _ => rfl
  | c :: s, h => by
    rw [List.mem_cons, not_or] at h
    obtain ⟨hc, hs⟩ := h
    rw [List.cons_append, segments_char fun n _ hslot => hc (List.cons_prefix_cons.mp hslot).1, segments_append hs]
    rfl

include hnames

theorem segments_slot {n : String} (hn : n ∈ names) (rest : List Char) :
    segments names (slot n ++ rest) = .parameter n :: segments names rest := by
  have hfind : names.find? (fun m => (slot m).isPrefixOf (slot n ++ rest)) = some n := by
    cases hfound : names.find? fun m => (slot m).isPrefixOf (slot n ++ rest) with
    | none =>
      have hnone := List.find?_eq_none.mp hfound n hn
      exact absurd (List.isPrefixOf_iff_prefix.mpr (List.prefix_append ..)) hnone
    | some m =>
      have hprefix : slot m <+: slot n ++ rest := List.isPrefixOf_iff_prefix.mp (by simpa using List.find?_some hfound)
      exact congrArg some (slot_prefix_inj (hnames m (List.mem_of_find?_eq_some hfound)) (hnames n hn) hprefix)
  have hdrop : ((n.toList ++ ['}']) ++ rest).drop (n.toList.length + 1) = rest :=
    List.drop_left' (by simp)
  rw [slot, List.cons_append] at hfind ⊢
  rw [segments, hfind]
  dsimp only
  rw [hdrop]

theorem mem_of_parameter_mem {n : String} {path : List Char} (h : .parameter n ∈ segments names path) : n ∈ names := by
  induction path using path_induction names with
  | nil =>
    rw [segments] at h
    cases h
  | parameter m hm rest ih =>
    rw [segments_slot hnames hm] at h
    rcases List.mem_cons.mp h with h | h
    · cases h
      exact hm
    · exact ih h
  | char c cs hnone ih =>
    rw [segments_char hnone] at h
    rcases List.mem_cons.mp h with h | h
    · cases h
    · exact ih h

theorem segments_append_slot {n : String} (hn : n ∈ names) (before after : List Char) :
    segments names (before ++ (slot n ++ after)) = segments names before ++ .parameter n :: segments names after := by
  induction before using path_induction names with
  | nil =>
    rw [List.nil_append, segments_slot hnames hn, segments, List.nil_append]
  | parameter m hm rest ih =>
    rw [List.append_assoc, segments_slot hnames hm, segments_slot hnames hm, ih, List.cons_append]
  | char c cs hnone ih =>
    have hnone' : ∀ m ∈ names, ¬ slot m <+: c :: (cs ++ (slot n ++ after)) := fun m hm hslot =>
      hnone m hm (slot_prefix_of_append (hnames m hm) hslot)
    rw [List.cons_append, segments_char hnone', segments_char hnone, ih, List.cons_append]

omit hnames in
theorem segments_of_no_slot {path : List Char} (h : ∀ n ∈ names, ¬ slot n <:+: path) :
    segments names path = path.map .char := by
  induction path with
  | nil => rw [segments, List.map_nil]
  | cons c cs ih =>
    have hfront : ∀ n ∈ names, ¬ slot n <+: c :: cs := fun n hn hslot => h n hn hslot.isInfix
    have hrest : ∀ n ∈ names, ¬ slot n <:+: cs := fun n hn hslot => h n hn (List.infix_cons hslot)
    rw [segments_char hfront, ih hrest, List.map_cons]

end

/-! ## Writing segments -/

def parameterText (name : String) : String :=
  "$\x7bencodeURIComponent(String(" ++ memberAccess "params" name ++ "))\x7d"

def Segment.written : Segment → List Char
  | .char c => scriptChar c
  | .parameter n => (parameterText n).toList

theorem scriptChar_of_isParameterChar {c : Char} (h : isParameterChar c = true) : scriptChar c = [c] := by
  have hspelling := escaped_scriptChar c
  generalize scriptChar c = written at hspelling ⊢
  cases hspelling with
  | escape hescape =>
    have hnone : ∀ e ∈ scriptEscapes, ¬ isParameterChar e.1 = true := by decide
    exact absurd h (hnone (c, _) hescape)
  | plain => rfl

theorem flatMap_scriptChar_of_plain {n : String} (hn : PlainName n) :
    n.toList.flatMap scriptChar = n.toList := by
  rw [List.flatMap_congr fun c hc => scriptChar_of_isParameterChar (hn c hc), List.flatMap_singleton']

theorem fill_eq {n : String} (hn : PlainName n) (path : List Char) :
    fill path n = replaceAll (slot n) (parameterText n).toList path := by
  rw [fill, placeholder, toList_scriptText, flatMap_scriptChar_of_plain hn]
  rfl

theorem brace_not_mem_memberAccess {n : String} (hn : PlainName n) : '{' ∉ (memberAccess "params" n).toList := by
  have hname : '{' ∉ n.toList := fun h => brace_not_mem_plain hn (List.mem_append_left _ h)
  unfold memberAccess
  split
  · simp [hname]
  · simp [toList_scriptString, toList_scriptText, flatMap_scriptChar_of_plain hn, hname]

/-- Of a fixed text the characters are seen by unification. -/
theorem toList_fixed {s : String} {cs : List Char} (h : ∃ ds, s = String.ofList ds ∧ ds = cs) : s.toList = cs := by
  obtain ⟨ds, rfl, rfl⟩ := h
  exact String.toList_ofList

def converter : List Char := ['S', 't', 'r', 'i', 'n', 'g']

def encoder : List Char :=
  ['e', 'n', 'c', 'o', 'd', 'e', 'U', 'R', 'I', 'C', 'o', 'm', 'p', 'o', 'n', 'e', 'n', 't']

theorem encoder_plain : ∀ c ∈ encoder, isParameterChar c = true := List.all_eq_true.mp rfl

theorem toList_parameterText (n : String) : (parameterText n).toList =
    '$' :: '{' :: (encoder ++ '(' :: (converter ++ '(' :: ((memberAccess "params" n).toList ++ [')', ')', '}']))) := by
  have hfront : "$\x7bencodeURIComponent(String(".toList = '$' :: '{' :: (encoder ++ '(' :: (converter ++ ['('])) :=
    toList_fixed ⟨_, rfl, rfl⟩
  have hend : "))\x7d".toList = [')', ')', '}'] := toList_fixed ⟨_, rfl, rfl⟩
  unfold parameterText
  rw [String.toList_append, String.toList_append, hfront, hend]
  simp only [List.cons_append, List.append_assoc, List.nil_append]

/-- What is written for a parameter: two signs, a word that a parenthesis ends, and no brace behind it. -/
theorem parameterText_eq {n : String} (hn : PlainName n) : ∃ call, '{' ∉ call ∧
    (parameterText n).toList = '$' :: '{' :: (encoder ++ '(' :: call) := by
  refine ⟨_, ?_, toList_parameterText n⟩
  have hconverter : '{' ∉ converter := by decide
  simp [brace_not_mem_memberAccess hn, hconverter]

def written (names : List String) (path : List Char) : List Char := (segments names path).flatMap Segment.written

theorem written_nil (path : List Char) : written [] path = path.flatMap scriptChar := by
  have hnone : ∀ n ∈ ([] : List String), ¬ slot n <:+: path := List.forall_mem_nil _
  rw [written, segments_of_no_slot hnone, List.flatMap_map]
  rfl

section
variable {names : List String} {n : String}

theorem written_char {c : Char} {cs : List Char} (h : ∀ n ∈ names, ¬ slot n <+: c :: cs) :
    written names (c :: cs) = scriptChar c ++ written names cs := by
  rw [written, segments_char h, List.flatMap_cons]
  rfl

variable (hnames : ∀ n ∈ names, PlainName n)
include hnames

theorem written_parameter (hn : n ∈ names) (rest : List Char) :
    written names (slot n ++ rest) = (parameterText n).toList ++ written names rest := by
  rw [written, segments_slot hnames hn, List.flatMap_cons]
  rfl

theorem written_slot (hn : PlainName n) (hmem : n ∉ names) (rest : List Char) :
    written names (slot n ++ rest) = slot n ++ written names rest := by
  have hfront : ∀ m ∈ names, ¬ slot m <+: '{' :: (n.toList ++ ['}'] ++ rest) := fun m hm hslot =>
    hmem (slot_prefix_inj (hnames m hm) hn hslot ▸ hm)
  have htail : (n.toList ++ ['}']).flatMap scriptChar = n.toList ++ ['}'] := by
    rw [List.flatMap_append, flatMap_scriptChar_of_plain hn]
    rfl
  rw [slot, List.cons_append, written_char hfront, written, segments_append (brace_not_mem_plain hn),
    List.flatMap_append, List.flatMap_map]
  exact congrArg (fun s => '{' :: (s ++ written names rest)) htail

/-- What is written begins with signs of its own or with characters of the path. -/
theorem prefix_of_prefix_written {path : List Char} : ∀ {s : List Char}, (∀ c ∈ s, c ≠ '$' ∧ c ≠ '\\') →
    s <+: written names path → s <+: path := by
  induction path using path_induction names with
  | nil =>
    intro s _ h
    rwa [written, segments, List.flatMap_nil] at h
  | parameter m hm rest _ =>
    intro s hs h
    cases s with
    | nil => exact List.nil_prefix
    | cons d s =>
      obtain ⟨call, -, htext⟩ := parameterText_eq (hnames m hm)
      rw [written_parameter hnames hm, htext] at h
      exact absurd (List.cons_prefix_cons.mp h).1 (hs d (List.mem_cons_self ..)).1
  | char c cs hnone ih =>
    intro s hs h
    cases s with
    | nil => exact List.nil_prefix
    | cons d s =>
      obtain ⟨⟨-, hslash⟩, hs⟩ := List.forall_mem_cons.mp hs
      rw [written_char hnone] at h
      have hspelling := escaped_scriptChar c
      generalize scriptChar c = spelled at hspelling h
      cases hspelling with
      | escape => exact absurd (List.cons_prefix_cons.mp h).1 hslash
      | plain =>
        obtain ⟨heq, hrest⟩ := List.cons_prefix_cons.mp h
        exact List.cons_prefix_cons.mpr ⟨heq, ih hs hrest⟩

omit hnames in
/-- What is written for one parameter holds no placeholder of another, nor does one begin in it. -/
theorem replaceAll_parameterText {m : String} (hm : PlainName m) (hn : PlainName n) (image rest : List Char) :
    replaceAll (slot n) image ((parameterText m).toList ++ rest) =
      (parameterText m).toList ++ replaceAll (slot n) image rest := by
  obtain ⟨call, hcall, htext⟩ := parameterText_eq hm
  have hdollar : ¬ slot n <+: '$' :: '{' :: (encoder ++ '(' :: call ++ rest) := fun h =>
    absurd (List.cons_prefix_cons.mp h).1 (by decide)
  have hbrace : ¬ slot n <+: '{' :: (encoder ++ '(' :: call ++ rest) := by
    rintro ⟨t, ht⟩
    -- the name of a placeholder ends at a brace, this word at a parenthesis
    have htail : n.toList ++ '}' :: t = encoder ++ '(' :: (call ++ rest) := by simpa [slot] using ht
    exact absurd (append_cons_inj hn encoder_plain (by decide) (by decide) htail).2.1 (by decide)
  have hword : '{' ∉ encoder ++ '(' :: call := by
    have hencoder : '{' ∉ encoder := by decide
    simp [hencoder, hcall]
  rw [htext, List.cons_append, List.cons_append, replaceAll_cons hdollar, replaceAll_cons hbrace]
  exact congrArg ('$' :: '{' :: ·) (replaceAll_append rest hword)

omit hnames in
theorem brace_not_mem_scriptChar {c : Char} (h : c ≠ '{') : '{' ∉ scriptChar c := by
  have hspelling := escaped_scriptChar c
  generalize scriptChar c = spelled at hspelling ⊢
  cases hspelling with
  | @escape x hescape =>
    have hnone : ∀ e ∈ scriptEscapes, e.2 ≠ '{' := by decide
    simp [Ne.symm (hnone _ hescape)]
  | plain => simpa using Ne.symm h

/-- One more parameter is filled in where its placeholders are, and nowhere else. -/
theorem fill_written (hn : PlainName n) (path : List Char) :
    fill (written names path) n = written (names ++ [n]) path := by
  have hmore : ∀ m ∈ names ++ [n], PlainName m :=
    List.forall_mem_append.mpr ⟨hnames, List.forall_mem_singleton.mpr hn⟩
  rw [fill_eq hn]
  induction path using path_induction (names ++ [n]) with
  | nil => simp [written, segments, replaceAll]
  | parameter m hm rest ih =>
    rw [written_parameter hmore hm, ← ih]
    by_cases hmem : m ∈ names
    · rw [written_parameter hnames hmem, replaceAll_parameterText (hnames m hmem) hn]
    · obtain rfl : m = n := by simpa [hmem] using hm
      rw [written_slot hnames hn hmem, replaceAll_pattern_append (slot_ne_nil m)]
  | char c cs hnone ih =>
    obtain ⟨hold, hnew⟩ := List.forall_mem_append.mp hnone
    rw [written_char hnone, written_char hold, ← ih]
    by_cases hc : c = '{'
    · subst hc
      -- a placeholder that begins with this brace stands in the path, as it has no sign of what is written
      have hfront : ¬ slot n <+: '{' :: written names cs := fun h => by
        have htail := prefix_of_prefix_written hnames (not_sign_of_plain hn) (List.cons_prefix_cons.mp h).2
        exact hnew n (List.mem_singleton_self n) (List.cons_prefix_cons.mpr ⟨rfl, htail⟩)
      exact replaceAll_cons hfront
    · exact replaceAll_append _ (brace_not_mem_scriptChar hc)

end

/-- Filling in parameters one after the other fills them all in at once. -/
theorem foldl_fill (path : List Char) : ∀ {names done : List String}, (∀ n ∈ done, PlainName n) →
    (∀ n ∈ names, PlainName n) → names.foldl fill (written done path) = written (done ++ names) path
  | [], done, _, _ => by rw [List.append_nil, List.foldl_nil]
  | n :: names, done, hdone, hnames => by
    obtain ⟨hn, hnames⟩ := List.forall_mem_cons.mp hnames
    have hmore : ∀ m ∈ done ++ [n], PlainName m :=
      List.forall_mem_append.mpr ⟨hdone, List.forall_mem_singleton.mpr hn⟩
    rw [List.foldl_cons, fill_written hdone hn, foldl_fill path hmore hnames, List.append_assoc, List.singleton_append]

theorem toList_pathTemplate {h : Handler} (hnames : ∀ n ∈ h.pathParams, PlainName n) :
    (pathTemplate h).toList = written h.pathParams h.path.toList := by
  rw [pathTemplate_eq, String.toList_ofList, toList_scriptText, ← written_nil,
    foldl_fill _ (List.forall_mem_nil _) hnames, List.nil_append]

end ToolServer.Emit.TypeScript
