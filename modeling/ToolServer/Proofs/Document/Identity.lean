import ToolServer.Document.Value

/-!
# Identity of values

Whether two values are the same, entry by entry and with maps in the same order, can be decided. This is finer
than equality.
-/

namespace ToolServer.Document.Value

mutual
def identical : Value → Value → Bool
  | scalar a, scalar b => decide (a = b)
  | list xs, list ys => identicalItems xs ys
  | map xs, map ys => identicalEntries xs ys
  | set xs, set ys => decide (xs = ys)
  | pair a b, pair c d => identical a c && identical b d
  | _, _ => false
def identicalItems : List Value → List Value → Bool
  | [], [] => true
  | x :: xs, y :: ys => identical x y && identicalItems xs ys
  | _, _ => false
def identicalEntries : List (Scalar × Value) → Entries → Bool
  | [], [] => true
  | (k, v) :: xs, (j, w) :: ys => decide (k = j) && (identical v w && identicalEntries xs ys)
  | _, _ => false
end

mutual
theorem identical_iff : ∀ v w : Value, identical v w = true ↔ v = w
  | scalar a, w => by cases w <;> simp [identical]
  | list xs, w => by cases w <;> simp [identical, identicalItems_iff xs]
  | map xs, w => by cases w <;> simp [identical, identicalEntries_iff xs]
  | set xs, w => by cases w <;> simp [identical]
  | pair a b, w => by cases w <;> simp [identical, identical_iff a, identical_iff b]
theorem identicalItems_iff : ∀ xs ys : List Value, identicalItems xs ys = true ↔ xs = ys
  | [], ys => by cases ys <;> simp [identicalItems]
  | x :: xs, ys => by cases ys <;> simp [identicalItems, identical_iff x, identicalItems_iff xs]
theorem identicalEntries_iff : ∀ xs ys : List (Scalar × Value), identicalEntries xs ys = true ↔ xs = ys
  | [], ys => by cases ys <;> simp [identicalEntries]
  | (k, v) :: xs, ys => by
    cases ys <;> simp [identicalEntries, identical_iff v, identicalEntries_iff xs, Prod.ext_iff, and_assoc]
end

instance : DecidableEq Value := fun v w => decidable_of_iff _ (identical_iff v w)

end ToolServer.Document.Value
