/-!
# Likeness of texts

How much of two texts is the same: the longest common piece is taken out, and the texts before and after
it are compared likewise. The likeness is twice the number of common characters in proportion to the
length of both.
-/

namespace ToolServer.Text

/-- The length of the longest common start. -/
def commonStart : List Char → List Char → Nat
  | a :: s, b :: t => if a = b then commonStart s t + 1 else 0
  | _, _ => 0

/-- A common piece: where it stands in each text, and its length. -/
structure CommonPiece where
  first : Nat
  second : Nat
  length : Nat

/-- The longest common piece, the leftmost one if there are several. -/
def longestPiece (s t : List Char) : CommonPiece :=
  (List.range s.length).foldl (fun best i =>
    (List.range t.length).foldl (fun best j =>
      let n := commonStart (s.drop i) (t.drop j)
      if best.length < n then ⟨i, j, n⟩ else best) best) ⟨0, 0, 0⟩

/-- The number of characters in common pieces. Each piece shortens the text, so the length of one bounds
the steps. -/
def commonCount : Nat → List Char → List Char → Nat
  | 0, _, _ => 0
  | fuel + 1, s, t =>
    let p := longestPiece s t
    if p.length = 0 then 0
    else
      commonCount fuel (s.take p.first) (t.take p.second) + p.length +
        commonCount fuel (s.drop (p.first + p.length)) (t.drop (p.second + p.length))

/-- The common characters of two texts and the length of both. -/
def likeness (s t : String) : Nat × Nat :=
  (commonCount (s.length + 1) s.toList t.toList, s.length + t.length)

/-- Whether a likeness is at least three fifths. -/
def isClose (l : Nat × Nat) : Bool := 3 * l.2 ≤ 10 * l.1

/-- The greater of two likenesses comes first, and of equal ones the greater text. -/
def closerFirst (a b : String × (Nat × Nat)) : Bool :=
  let (s, common, total) := a
  let (t, common', total') := b
  common' * total < common * total' || (common' * total = common * total' && t ≤ s)

/-- The candidates that are close to a text, at most three, in alphabetic order. -/
def closeMatches (text : String) (candidates : List String) : List String :=
  let close := (candidates.map fun c => (c, likeness c text)).filter (isClose ·.2)
  (((close.mergeSort closerFirst).take 3).map (·.1)).mergeSort (· ≤ ·)

end ToolServer.Text
