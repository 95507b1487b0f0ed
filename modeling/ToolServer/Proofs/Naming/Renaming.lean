import ToolServer.Proofs.Naming.Insertion

/-!
# What becomes of each name

`distinct_renames`: the first of each name keeps it, and each later one gets the least number that makes it differ
from all given names and from all that were chosen before it. Names that differ are kept as they are.
-/

namespace ToolServer.Naming

theorem mem_of_mem_distinctFrom {given : List String} {r : String} (hr : r ∈ given) : ∀ {names used : List String},
    r ∈ distinctFrom given used names → r ∈ names
  | [], _, h => by cases h
  | name :: names, used, h => by
    rw [distinctFrom] at h
    rcases List.mem_cons.mp h with heq | h
    · split at heq
      · -- a numbered form is none of the given names
        obtain ⟨n, -, -, hform, hfree, -⟩ := freeName_eq (used ++ given) name
        rw [hform] at heq
        exact absurd (List.mem_append_right used (heq ▸ hr)) hfree
      · exact heq ▸ List.mem_cons_self ..
    · exact List.mem_cons_of_mem _ (mem_of_mem_distinctFrom hr h)

theorem distinctFrom_of_nodup {given : List String} : ∀ {names used : List String},
    names.Nodup → (∀ name ∈ names, name ∉ used) → distinctFrom given used names = names
  | [], _, _, _ => rfl
  | name :: names, used, hnodup, hused => by
    obtain ⟨hname, hnodup⟩ := List.nodup_cons.mp hnodup
    obtain ⟨hfresh, hused⟩ := List.forall_mem_cons.mp hused
    have hrest : ∀ r ∈ names, r ∉ name :: used := by
      intro r hr h
      rcases List.mem_cons.mp h with rfl | h
      · exact hname hr
      · exact hused r hr h
    rw [distinctFrom, if_neg (by simpa using hfresh), distinctFrom_of_nodup hnodup hrest]

theorem distinct_of_nodup {names : List String} (h : names.Nodup) : distinct names = names :=
  distinctFrom_of_nodup h fun _ _ => List.not_mem_nil

/-- The number is the least, from two on, with which the name is neither given nor used; with the number it has at
most 64 characters. -/
structure LeastFree (given used : List String) (name : String) (n : Nat) : Prop where
  two_le : 2 ≤ n
  fits : ('_' :: Decimal.digits n).length ≤ maxToolName
  not_given : numbered name n ∉ given
  not_used : numbered name n ∉ used
  least : ∀ m, 2 ≤ m → m < n → numbered name m ∈ given ∨ numbered name m ∈ used

theorem leastFree_freeName {given used : List String} (hmany : used.length + given.length < 2 * 10 ^ 60)
    (name : String) : ∃ n, LeastFree given used name n ∧ freeName (used ++ given) name = numbered name n := by
  obtain ⟨n, htwo, hbound, hform, hfree, hleast⟩ := freeName_eq (used ++ given) name
  rw [List.mem_append, not_or] at hfree
  rw [List.length_append] at hbound
  refine ⟨n, ⟨htwo, ?_, hfree.2, hfree.1, fun m hm hmn => ?_⟩, hform⟩
  · exact Nat.succ_le_succ (Decimal.length_digits_le (k := 62) (by omega))
  · exact (List.mem_append.mp (hleast m hm hmn)).symm

/-- What becomes of names: the first of each stays, and a later one gets the least number that is free there. -/
structure Renames (names chosen : List String) : Prop where
  length : chosen.length = names.length
  nodup : chosen.Nodup
  each : ∀ as name bs, names = as ++ name :: bs → ∃ cs r ds, chosen = cs ++ r :: ds ∧ cs.length = as.length ∧
    (name ∉ as → r = name) ∧ (name ∈ as → ∃ n, LeastFree names cs name n ∧ r = numbered name n)

theorem renames_distinct {names : List String} (hmany : names.length < 10 ^ 60) : Renames names (distinct names) where
  length := length_distinctFrom
  nodup := distinct_nodup names
  each as name bs hnames := by
    have hname : name ∈ names := by simp [hnames]
    have hlength : as.length < names.length := by simp [hnames]
    let cs := distinctFrom names [] as
    have hcs : cs.length = as.length := length_distinctFrom
    -- a given name has been chosen just when it stands before
    have hchosen : name ∈ cs.reverse ↔ name ∈ as := by
      rw [List.mem_reverse]
      constructor
      · exact mem_of_mem_distinctFrom hname
      · exact fun h => (mem_distinctFrom_self h).resolve_left List.not_mem_nil
    have hsplit : distinctFrom names [] (as ++ name :: bs) = cs ++ distinctFrom names (cs.reverse ++ []) (name :: bs) :=
      distinctFrom_append
    rw [← hnames, List.append_nil, distinctFrom] at hsplit
    refine ⟨cs, _, _, hsplit, hcs, fun h => ?_, fun h => ?_⟩
    · rw [if_neg (by simpa using mt hchosen.mp h)]
    · have hroom : cs.reverse.length + names.length < 2 * 10 ^ 60 := by
        rw [List.length_reverse]
        omega
      obtain ⟨n, hleast, hform⟩ := leastFree_freeName hroom name
      rw [if_pos (by simpa using hchosen.mpr h), hform]
      exact ⟨n, ⟨hleast.two_le, hleast.fits, hleast.not_given, by simpa using hleast.not_used,
        by simpa using hleast.least⟩, rfl⟩

/-- **Making names distinct renames only later ones, and these with the least number;** valid names stay valid, and
names that were made distinct are kept. -/
theorem distinct_renames {names : List String} (hmany : names.length < 10 ^ 60) : Renames names (distinct names) ∧
    ((∀ name ∈ names, ValidToolName name) → ∀ r ∈ distinct names, ValidToolName r) ∧
      distinct (distinct names) = distinct names :=
  ⟨renames_distinct hmany, distinct_valid hmany, distinct_of_nodup (distinct_nodup names)⟩

/-- The number two is given for one of the names. -/
theorem distinct_renames_numbered : ["a", "a_2", "a"].length < 10 ^ 60 ∧
    Renames ["a", "a_2", "a"] (distinct ["a", "a_2", "a"]) ∧ (∀ name ∈ ["a", "a_2", "a"], ValidToolName name) ∧
      (∀ r ∈ distinct ["a", "a_2", "a"], ValidToolName r) ∧
        distinct (distinct ["a", "a_2", "a"]) = distinct ["a", "a_2", "a"] := by
  have hvalid : ∀ name ∈ ["a", "a_2", "a"], ValidToolName name := by decide +kernel
  have hmany : ["a", "a_2", "a"].length < 10 ^ 60 := by decide
  obtain ⟨hrenames, hkeeps, htwice⟩ := distinct_renames hmany
  exact ⟨hmany, hrenames, hvalid, hkeeps hvalid, htwice⟩

end ToolServer.Naming
