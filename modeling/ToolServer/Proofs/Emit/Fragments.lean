import ToolServer.Json.Writer

/-!
# Fragments of a program

A piece of a program is code and texts that are written as literals. Where code stands behind each literal, none runs
into the next.
-/

namespace ToolServer.Emit.Python

inductive Fragment
  | code (text : String)
  | literal (text : String)
deriving DecidableEq

namespace Fragment

def text : Fragment → String
  | code s => s
  | literal s => Json.quoted s

def embedded? : Fragment → Option String
  | code _ => none
  | literal s => some s

end Fragment

open Fragment

def written (fs : List Fragment) : String := String.join (fs.map Fragment.text)

def embedded (fs : List Fragment) : List String := fs.filterMap Fragment.embedded?

/-- Behind every literal there is code, which does not begin with a quote. -/
def spaced : List Fragment → Bool
  | [] => true
  | code _ :: fs => spaced fs
  | literal _ :: fs =>
    (match fs with
      | code s :: _ => s.toList.head?.any (· != '"')
      | _ => false) && spaced fs

section
variable (a b : List Fragment) (s : String)

@[simp] theorem written_nil : written [] = "" := String.join_nil

@[simp] theorem written_code : written (code s :: a) = s ++ written a := String.join_cons

@[simp] theorem written_literal : written (literal s :: a) = Json.quoted s ++ written a := String.join_cons

@[simp] theorem written_append : written (a ++ b) = written a ++ written b := by
  unfold written
  rw [List.map_append, String.join_append]

@[simp] theorem embedded_nil : embedded [] = [] := rfl

@[simp] theorem embedded_code : embedded (code s :: a) = embedded a := rfl

@[simp] theorem embedded_literal : embedded (literal s :: a) = s :: embedded a := rfl

@[simp] theorem embedded_append : embedded (a ++ b) = embedded a ++ embedded b := List.filterMap_append

end

@[simp] theorem written_intercalate (sep : String) : ∀ groups : List (List Fragment),
    written ([code sep].intercalate groups) = sep.intercalate (groups.map written)
  | [] => by simp
  | [g] => by simp
  | g :: g' :: groups => by
    rw [List.intercalate_cons_cons, List.map_cons, List.map_cons, String.intercalate_cons_cons, ← List.map_cons,
      ← written_intercalate sep (g' :: groups)]
    simp [String.append_assoc]

@[simp] theorem embedded_intercalate (sep : String) : ∀ groups : List (List Fragment),
    embedded ([code sep].intercalate groups) = groups.flatMap embedded
  | [] => by simp
  | [g] => by simp
  | g :: g' :: groups => by
    rw [List.intercalate_cons_cons, List.flatMap_cons, ← embedded_intercalate sep (g' :: groups)]
    simp

theorem spaced_append : ∀ {a b : List Fragment}, spaced a = true → spaced b = true → spaced (a ++ b) = true
  | [], _, _, hb => hb
  | code _ :: a, _, ha, hb => spaced_append (a := a) ha hb
  | [literal _], _, ha, _ => by simp [spaced] at ha
  | literal _ :: literal _ :: _, _, ha, _ => by simp [spaced] at ha
  | literal _ :: code s :: a, b, ha, hb => by
    obtain ⟨hs, ha⟩ := Bool.and_eq_true_iff.mp ha
    exact Bool.and_eq_true_iff.mpr ⟨hs, spaced_append (a := code s :: a) ha hb⟩

theorem spaced_intercalate (sep : String) : ∀ {groups : List (List Fragment)}, (∀ g ∈ groups, spaced g = true) →
    spaced ([code sep].intercalate groups) = true
  | [], _ => rfl
  | [g], h => by simpa using h
  | g :: g' :: groups, h => by
    obtain ⟨hg, h⟩ := List.forall_mem_cons.mp h
    rw [List.intercalate_cons_cons, List.append_assoc]
    exact spaced_append hg (spaced_append (a := [code sep]) rfl (spaced_intercalate sep h))

theorem spaced_flatMap {α : Type} {f : α → List Fragment} : ∀ {xs : List α}, (∀ x ∈ xs, spaced (f x) = true) →
    spaced (xs.flatMap f) = true
  | [], _ => rfl
  | x :: xs, h => by
    obtain ⟨hx, h⟩ := List.forall_mem_cons.mp h
    exact spaced_append hx (spaced_flatMap h)

theorem head_written_of_spaced {s : String} {b : List Fragment} : ∀ {a : List Fragment},
    spaced (a ++ literal s :: b) = true → (written b).toList.head? ≠ some '"'
  | [], h => by
    obtain ⟨hnext, -⟩ := Bool.and_eq_true_iff.mp h
    match b with
    | code r :: b =>
      cases hr : r.toList with
      | nil => simp [hr] at hnext
      | cons c cs => simpa [hr] using hnext
  | code _ :: a, h => head_written_of_spaced (a := a) h
  | literal _ :: a, h => head_written_of_spaced (a := a) (Bool.and_eq_true_iff.mp h).2

end ToolServer.Emit.Python
