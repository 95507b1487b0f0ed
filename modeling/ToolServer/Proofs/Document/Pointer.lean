import ToolServer.Document.Pointer
import ToolServer.Proofs.Decimal.Written
import ToolServer.Proofs.Text.Piece

/-!
# Addresses of nodes

The pointer of a path is its keys, escaped, and its positions, in decimal, between slashes. `follow_pointer`: it
leads where the path leads, whatever characters the keys are made of.
-/

namespace ToolServer.Document

open Text (cut joinWith replaceAll)

namespace Pointer

/-! ## Escaping -/

/-- A key as a token: `~0` in place of each tilde, and then `~1` in place of each slash. -/
def escape (key : List Char) : List Char :=
  replaceAll ['/'] ['~', '1'] (replaceAll ['~'] ['~', '0'] key)

def escapeChar (c : Char) : List Char :=
  if c = '~' then ['~', '0'] else if c = '/' then ['~', '1'] else [c]

theorem escape_eq (key : List Char) : escape key = key.flatMap escapeChar := by
  rw [escape, Text.replaceAll_singleton, Text.replaceAll_singleton, List.flatMap_assoc]
  refine List.flatMap_congr fun c _ => ?_
  unfold escapeChar
  split
  · rfl
  · rw [List.flatMap_singleton]

theorem slash_not_mem_escape (key : List Char) : '/' ∉ escape key := by
  rw [escape_eq, List.mem_flatMap]
  rintro ⟨c, -, hc⟩
  unfold escapeChar at hc
  split at hc
  · simp at hc
  · split at hc
    · simp at hc
    · rename_i hne
      exact hne (List.mem_singleton.mp hc).symm

/-- Taking the slashes back leaves the tildes escaped: no escaped tilde is followed by a `1` that ends it. -/
theorem replaceAll_slash_escape : ∀ key : List Char,
    replaceAll ['~', '1'] ['/'] (key.flatMap escapeChar) = replaceAll ['~'] ['~', '0'] key
  | [] => by simp [replaceAll]
  | c :: key => by
    have ih := replaceAll_slash_escape key
    rw [List.flatMap_cons, Text.replaceAll_singleton, List.flatMap_cons, ← Text.replaceAll_singleton, ← ih]
    unfold escapeChar
    split
    · rw [List.cons_append, List.cons_append, List.nil_append, Text.replaceAll_cons (by simp),
        Text.replaceAll_cons (by simp)]
      rfl
    · rename_i htilde
      split
      · rename_i hslash
        subst hslash
        exact Text.replaceAll_pattern_append (by simp) _
      · exact Text.replaceAll_append _ (by simpa using Ne.symm htilde)

theorem replaceAll_tilde : ∀ key : List Char,
    replaceAll ['~', '0'] ['~'] (replaceAll ['~'] ['~', '0'] key) = key
  | [] => by simp [replaceAll]
  | c :: key => by
    have ih := replaceAll_tilde key
    rw [Text.replaceAll_singleton] at ih ⊢
    rw [List.flatMap_cons]
    split
    · rename_i htilde
      rw [Text.replaceAll_pattern_append (by simp), ih, htilde]
      rfl
    · rename_i htilde
      rw [Text.replaceAll_append _ (by simpa using Ne.symm htilde), ih]
      rfl

theorem unescape_escape (key : List Char) : unescape (escape key) = key := by
  rw [unescape, escape_eq, replaceAll_slash_escape, replaceAll_tilde]

theorem unescape_of_not_mem {token : List Char} (h : '~' ∉ token) : unescape token = token := by
  have hkeep : ∀ (d : Char) (image : List Char), replaceAll ['~', d] image token = token := by
    intro d image
    have happend : replaceAll ['~', d] image (token ++ []) = token ++ replaceAll ['~', d] image [] :=
      Text.replaceAll_append [] h
    simpa [replaceAll] using happend
  rw [unescape, hkeep, hkeep]

/-! ## Paths -/

inductive Step
  | key (name : String)
  | index (i : Nat)
deriving DecidableEq, Repr

inductive Leads : Value → List Step → Value → Prop
  | here {v} : Leads v [] v
  | key {es name v path w} : Entries.get? es name = some v → Leads v path w → Leads (.map es) (.key name :: path) w
  | index {vs : List Value} {i v path w} : vs[i]? = some v → Leads v path w → Leads (.list vs) (.index i :: path) w

def Step.token : Step → List Char
  | key name => escape name.toList
  | index i => Decimal.digits i

/-- The position is written with no more digits than are read; no list is so long that it has another. -/
def Step.Readable : Step → Prop
  | key _ => True
  | index i => (Decimal.digits i).length ≤ Decimal.integerLimit

instance : DecidablePred Step.Readable := fun s => by
  cases s <;> unfold Step.Readable <;> infer_instance

def ofPath (path : List Step) : String := String.ofList ('#' :: '/' :: joinWith '/' (path.map Step.token))

theorem slash_not_mem_token (s : Step) : '/' ∉ s.token := by
  cases s with
  | key name => exact slash_not_mem_escape name.toList
  | index i => exact fun h => absurd (Decimal.isAsciiDigit_of_mem_digits _ h) (by decide)

theorem tilde_not_mem_digits (i : Nat) : '~' ∉ Decimal.digits i := fun h =>
  absurd (Decimal.isAsciiDigit_of_mem_digits _ h) (by decide)

theorem tokens?_ofPath {path : List Step} (hne : path ≠ []) :
    tokens? (ofPath path) = some (path.map fun s => unescape s.token) := by
  have hfree : ∀ token ∈ path.map Step.token, '/' ∉ token :=
    List.forall_mem_map.mpr fun s _ => slash_not_mem_token s
  have hcut := Text.cut_joinWith (by simpa using hne) hfree
  rw [tokens?, ofPath, String.toList_ofList]
  simp only [hcut, List.map_map]
  rfl

theorem item?_ofNat (vs : List Value) (i : Nat) : item? vs i = vs[i]? := by
  have hpositive : ¬ (i : Int) < 0 := by omega
  simp [item?, hpositive]

theorem walk_path {v w : Value} {path : List Step} (h : Leads v path w) (hread : ∀ s ∈ path, s.Readable) :
    walk v (path.map fun s => unescape s.token) = some w := by
  induction h with
  | here => rfl
  | @key es name v path w hget _ ih =>
    obtain ⟨-, hread⟩ := List.forall_mem_cons.mp hread
    have hstep : step (unescape (escape name.toList)) (.map es) = some v := by
      rw [unescape_escape, step, String.ofList_toList, hget]
    rw [List.map_cons, walk, List.foldlM_cons]
    exact Option.bind_eq_some_iff.mpr ⟨v, hstep, ih hread⟩
  | @index vs i v path w hget _ ih =>
    obtain ⟨hi, hread⟩ := List.forall_mem_cons.mp hread
    have hstep : step (unescape (Decimal.digits i)) (.list vs) = some v := by
      rw [unescape_of_not_mem (tilde_not_mem_digits i), step, Decimal.readInt_digits hi, ← hget]
      exact item?_ofNat vs i
    rw [List.map_cons, walk, List.foldlM_cons]
    exact Option.bind_eq_some_iff.mpr ⟨v, hstep, ih hread⟩

end Pointer

open Pointer

/-- **Every node has an address:** the pointer of a path to a node that is not null leads to that node. -/
theorem follow_pointer {root node : Value} {path : List Step} (hpath : Leads root path node) (hne : path ≠ [])
    (hnull : node ≠ .null) (hread : ∀ s ∈ path, s.Readable) : follow root (ofPath path) = some node := by
  have hnode : node.isNull = false := by
    unfold Value.isNull
    split
    · exact absurd rfl hnull
    · rfl
  have htokens := tokens?_ofPath hne
  have hwalk := walk_path hpath hread
  rw [follow, htokens]
  simp only [Option.bind_eq_bind, Option.bind_some, hwalk, hnode]
  rfl

def markedDocument : Value :=
  .map [(.text "a/b", .list [.null, .map [(.text "~1", .map [(.text "", .text "here"), (.text "0", .null)])]])]

def markedPath : List Step := [.key "a/b", .index 1, .key "~1", .key ""]

example : ofPath markedPath = "#/a~1b/1/~01/" := by decide +kernel

theorem follow_pointer_marked : Leads markedDocument markedPath (.text "here") ∧ markedPath ≠ [] ∧
    Value.text "here" ≠ .null ∧ (∀ s ∈ markedPath, s.Readable) ∧
      follow markedDocument (ofPath markedPath) = some (.text "here") := by
  have hpath : Leads markedDocument markedPath (.text "here") :=
    .key (by rfl) (.index (by rfl) (.key (by rfl) (.key (by rfl) .here)))
  have hread : ∀ s ∈ markedPath, s.Readable := by decide +kernel
  exact ⟨hpath, by decide, by simp, hread, follow_pointer hpath (by decide) (by simp) hread⟩

end ToolServer.Document
