import ToolServer.Proofs.Emit.Script

/-!
# Keys and members

A name is written as a key of an object, or behind an object that it is a member of, as a word or as a string. There
it is read again, but for a word with a line feed behind it. The line feed stays where it stands, and what is read is
the word.
-/

namespace ToolServer.Script

open Program (units)

/-! ## Reading -/

def wordUnits? (text : List Char) : Option (List Nat × List Char) :=
  (word? text).map fun (word, rest) => (word.flatMap units, rest)

def key? : List Char → Option (List Nat × List Char)
  | '\'' :: text => stringBody? text
  | text => wordUnits? text

def accessor? : List Char → Option (List Nat × List Char)
  | '.' :: text => wordUnits? text
  | '[' :: text =>
    match string? text with
    | some (key, ']' :: rest) => some (key, rest)
    | _ => none
  | _ => none

theorem key?_string {text rest : List Char} {value : List Nat} (h : string? text = some (value, rest)) :
    key? text = some (value, rest) := by
  unfold string? at h
  split at h
  · exact h
  · cases h

theorem accessor?_string {text rest : List Char} {value : List Nat} (h : string? text = some (value, ']' :: rest)) :
    accessor? ('[' :: text) = some (value, rest) := by
  simp only [accessor?, h]

section
variable {word rest : List Char} (hword : isWord word = true) (hrest : endsWord rest = true)
include hword hrest

theorem wordUnits?_append : wordUnits? (word ++ rest) = some (word.flatMap units, rest) := by
  rw [wordUnits?, word?_append hword hrest]
  rfl

theorem key?_word : key? (word ++ rest) = some (word.flatMap units, rest) := by
  cases word with
  | nil => cases hword
  | cons c cs =>
    have hquote : c ≠ '\'' := fun h => by
      rw [h] at hword
      cases hword
    rw [← wordUnits?_append hword hrest, List.cons_append, key?]
    exact fun _ h => hquote (List.cons.inj h).1

end

/-- A member is what its object is asked for. -/
theorem expression?_accessor {object : String} (hobject : isWord object.toList = true) (hname : object ∉ reservedWords)
    {text rest : List Char} {key : List Nat} (h : accessor? text = some (key, rest)) :
    expression? (object.toList ++ text) = some (.member object key, rest) := by
  unfold accessor? at h
  split at h
  · rename_i text
    obtain ⟨⟨word, left⟩, hword, heq⟩ := Option.map_eq_some_iff.mp h
    cases heq
    have hread := name?_append hobject hname (show endsWord ('.' :: text) = true from rfl)
    rw [expression?]
    split <;> simp_all
  · split at h
    · cases h
      exact expression?_index hobject hname ‹_›
    · cases h
  · cases h

theorem isWordPart_of_isWord {word : List Char} (h : isWord word = true) : ∀ c ∈ word, isWordPart c = true := by
  cases word with
  | nil => cases h
  | cons c cs =>
    obtain ⟨hc, hcs⟩ := Bool.and_eq_true_iff.mp h
    exact List.forall_mem_cons.mpr ⟨Bool.or_eq_true_iff.mpr (.inl hc), List.all_eq_true.mp hcs⟩

theorem feed_not_mem_of_isWord {word : List Char} (h : isWord word = true) : '\n' ∉ word := fun hmem => by
  cases isWordPart_of_isWord h _ hmem

end ToolServer.Script

namespace ToolServer.Emit

open Script
open Program (units flatMap_units_inj)

/-! ## Loose names -/

theorem isLoose_iff {name : String} :
    IsLoose name ↔ ∃ word, isWord word = true ∧ name.toList = word ++ ['\n'] := by
  constructor
  · rintro ⟨hbare, hfeed⟩
    obtain ⟨word, hword, hname | hname⟩ := isBareMember_iff.mp hbare
    · exact absurd (hname ▸ hfeed) (feed_not_mem_of_isWord hword)
    · exact ⟨word, hword, hname⟩
  · rintro ⟨word, hword, hname⟩
    refine ⟨isBareMember_iff.mpr ⟨word, hword, .inr hname⟩, ?_⟩
    rw [hname]
    exact List.mem_append_right _ (List.mem_singleton_self _)

/-- A name without the line feed that makes it loose. -/
def tight (name : String) : List Char := if IsLoose name then name.toList.dropLast else name.toList

/-- What stays behind a name where it is read. -/
def trail (name : String) : List Char := if IsLoose name then ['\n'] else []

/-- A name that is not loose, or a word with a line feed behind it. -/
inductive Looseness (name : String) : Prop
  | tight : ¬ IsLoose name → tight name = name.toList → trail name = [] → Looseness name
  | loose {word} : IsLoose name → isWord word = true → name.toList = word ++ ['\n'] → tight name = word →
      trail name = ['\n'] → Looseness name

theorem looseness (name : String) : Looseness name := by
  by_cases hloose : IsLoose name
  · obtain ⟨word, hword, hname⟩ := isLoose_iff.mp hloose
    have htight : tight name = word := by rw [tight, if_pos hloose, hname, List.dropLast_concat]
    exact .loose hloose hword hname htight (if_pos hloose)
  · exact .tight hloose (if_neg hloose) (if_neg hloose)

/-! ## Names that are read -/

/-- A name is read as some text where it is written, and a gap is left behind it. -/
structure ReadAs (name : String) (text gap : List Char) : Prop where
  key : ∀ {rest}, endsWord rest = true →
    key? ((memberKey name).toList ++ rest) = some (text.flatMap units, gap ++ rest)
  access : ∀ object, ∃ accessor, memberAccess object name = object ++ accessor ∧
    ∀ {rest}, endsWord rest = true → accessor? (accessor.toList ++ rest) = some (text.flatMap units, gap ++ rest)

theorem readAs_bare {name : String} {word gap : List Char} (hbare : isBareMember name.toList = true)
    (hword : isWord word = true) (hname : name.toList = word ++ gap)
    (hgap : ∀ {rest}, endsWord rest = true → endsWord (gap ++ rest) = true) : ReadAs name word gap where
  key {rest} hrest := by
    rw [memberKey, if_pos hbare, hname, List.append_assoc]
    exact key?_word hword (hgap hrest)
  access object := by
    refine ⟨"." ++ name, ?_, fun {rest} hrest => ?_⟩
    · rw [memberAccess, if_pos hbare, String.append_assoc]
    · rw [String.toList_append, hname, List.append_assoc, List.append_assoc]
      exact wordUnits?_append hword (hgap hrest)

theorem readAs_string {name : String} (hbare : ¬ isBareMember name.toList = true) : ReadAs name name.toList [] where
  key {rest} _ := by
    rw [memberKey, if_neg hbare]
    exact key?_string (string?_scriptString name rest)
  access object := by
    refine ⟨"[" ++ scriptString name ++ "]", ?_, fun {rest} _ => ?_⟩
    · rw [memberAccess, if_neg hbare, String.append_assoc, String.append_assoc, String.append_assoc]
    · have htext : ("[" ++ scriptString name ++ "]").toList ++ rest =
          '[' :: ((scriptString name).toList ++ ']' :: rest) := by
        simp
      rw [htext]
      exact accessor?_string (string?_scriptString name (']' :: rest))

theorem ReadAs.member {name : String} {text gap : List Char} (h : ReadAs name text gap) {object : String}
    (hobject : isWord object.toList = true) (hname : object ∉ reservedWords) {rest : List Char}
    (hrest : endsWord rest = true) : expression? ((memberAccess object name).toList ++ rest) =
      some (.member object (text.flatMap units), gap ++ rest) := by
  obtain ⟨accessor, heq, hread⟩ := h.access object
  rw [heq, String.toList_append, List.append_assoc]
  exact expression?_accessor hobject hname (hread hrest)

/-- A name is read without the line feed that makes it loose. -/
theorem readAs (name : String) : ReadAs name (tight name) (trail name) := by
  cases looseness name with
  | tight hloose htight htrail =>
    rw [htight, htrail]
    by_cases hbare : isBareMember name.toList = true
    · have hfeed : '\n' ∉ name.toList := fun h => hloose ⟨hbare, h⟩
      exact readAs_bare hbare (isWord_of_isBareMember hbare hfeed) (List.append_nil _).symm fun h => h
    · exact readAs_string hbare
  | loose hloose hword hname htight htrail =>
    rw [htight, htrail]
    exact readAs_bare hloose.1 hword hname fun _ => rfl

/-! ## Distinct names -/

theorem tight_append_trail (name : String) : tight name ++ trail name = name.toList := by
  cases looseness name with
  | tight _ htight htrail => rw [htight, htrail, List.append_nil]
  | loose _ _ hname htight htrail => rw [htight, htrail, hname]

theorem tight_eq_of_append_feed {name other : String} (hloose : IsLoose other) (heq : other = name ++ "\n") :
    tight name = tight other := by
  obtain ⟨word, hword, hother⟩ := isLoose_iff.mp hloose
  have hname : name.toList = word := by
    rw [heq, String.toList_append] at hother
    exact (List.append_inj' hother rfl).1
  have htight : ¬ IsLoose name := fun h => feed_not_mem_of_isWord hword (hname ▸ h.2)
  rw [tight, tight, if_neg htight, if_pos hloose, hname, hother, List.dropLast_concat]

/-- Names are read as one text only if they differ in a line feed that makes one of them loose. -/
theorem tight_eq_iff {name other : String} : tight name = tight other ↔
    name = other ∨ IsLoose other ∧ other = name ++ "\n" ∨ IsLoose name ∧ name = other ++ "\n" := by
  constructor
  · intro h
    have hname := tight_append_trail name
    have hother := tight_append_trail other
    by_cases hl : IsLoose name
    · by_cases hl' : IsLoose other
      · left
        apply String.toList_inj.mp
        rw [← hname, ← hother, h, trail, trail, if_pos hl, if_pos hl']
      · right; right
        refine ⟨hl, String.toList_inj.mp ?_⟩
        rw [String.toList_append, ← hname, ← hother, h, trail, trail, if_pos hl, if_neg hl', List.append_nil]
        rfl
    · by_cases hl' : IsLoose other
      · right; left
        refine ⟨hl', String.toList_inj.mp ?_⟩
        rw [String.toList_append, ← hname, ← hother, h, trail, trail, if_neg hl, if_pos hl', List.append_nil]
        rfl
      · left
        apply String.toList_inj.mp
        rw [← hname, ← hother, h, trail, trail, if_neg hl, if_neg hl']
  · rintro (rfl | ⟨hl, heq⟩ | ⟨hl, heq⟩)
    · rfl
    · exact tight_eq_of_append_feed hl heq
    · exact (tight_eq_of_append_feed hl heq).symm

theorem tight_eq_toList_iff {name : String} : tight name = name.toList ↔ ¬ IsLoose name := by
  cases looseness name with
  | tight hloose htight _ => exact iff_of_true htight hloose
  | loose hloose _ hname htight _ =>
    refine iff_of_false (fun h => ?_) (not_not_intro hloose)
    rw [htight, hname] at h
    exact absurd h (by simp)

/-- A key without quotes is a name that is written bare. -/
theorem isBareMember_of_unquoted {name : String} (h : (memberKey name).toList.head? ≠ some '\'') :
    isBareMember name.toList = true := by
  by_contra hbare
  rw [memberKey, if_neg hbare, toList_scriptString] at h
  exact h rfl

/-- **A name is read from its key and from its access as itself, unless a line feed makes it loose.** -/
theorem member_denotes_iff (name : String) :
    ReadAs name (tight name) (trail name) ∧
    (∀ {object rest}, isWord object.toList = true → object ∉ reservedWords → endsWord rest = true →
      expression? ((memberAccess object name).toList ++ rest) =
        some (.member object ((tight name).flatMap units), trail name ++ rest)) ∧
    ((tight name).flatMap units = name.toList.flatMap units ↔ ¬ IsLoose name) ∧
    (IsLoose name ↔ ∃ word, isWord word = true ∧ name.toList = word ++ ['\n']) ∧
    (∀ other, (tight name).flatMap units = (tight other).flatMap units ↔
      name = other ∨ IsLoose other ∧ other = name ++ "\n" ∨ IsLoose name ∧ name = other ++ "\n") ∧
    ((memberKey name).toList.head? ≠ some '\'' →
      ((∀ c ∈ (memberKey name).toList, isWordPart c = true) ↔ ¬ IsLoose name)) := by
  have hread := readAs name
  refine ⟨hread, fun hobject hname => hread.member hobject hname, ?_, isLoose_iff, fun other => ?_, fun hunquoted => ?_⟩
  · rw [flatMap_units_inj]
    exact tight_eq_toList_iff
  · rw [flatMap_units_inj]
    exact tight_eq_iff
  · have hbare := isBareMember_of_unquoted hunquoted
    rw [memberKey, if_pos hbare]
    constructor
    · intro hparts hloose
      cases hparts _ hloose.2
    · intro hloose
      have hword := isWord_of_isBareMember hbare fun h => hloose ⟨hbare, h⟩
      exact isWordPart_of_isWord hword

example : key? ((memberKey "sort\n").toList ++ [':']) = some ("sort".toList.flatMap units, ['\n', ':']) := by
  decide +kernel

end ToolServer.Emit
