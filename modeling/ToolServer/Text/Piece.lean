import ToolServer.Text.Class

/-!
# Pieces of a text

Cutting, trimming and replacing on lists of characters.
-/

namespace ToolServer.Text

/-- Cut a text at every occurrence of a character; there is always at least one piece. -/
def cut (mark : Char) : List Char → List (List Char)
  | [] => [[]]
  | c :: cs =>
    if c = mark then [] :: cut mark cs
    else match cut mark cs with
      | [] => [[c]]
      | piece :: pieces => (c :: piece) :: pieces

/-- The inverse of cutting: pieces with a mark between each two. -/
def joinWith (mark : Char) : List (List Char) → List Char
  | [] => []
  | [piece] => piece
  | piece :: pieces => piece ++ mark :: joinWith mark pieces

/-- Replace every occurrence of a pattern, from the left and without overlap. -/
def replaceAll (pattern image : List Char) : List Char → List Char
  | [] => []
  | c :: cs =>
    if pattern.isPrefixOf (c :: cs) then image ++ replaceAll pattern image (cs.drop (pattern.length - 1))
    else c :: replaceAll pattern image cs
termination_by s => s.length
decreasing_by
  · simp only [List.length_drop, List.length_cons]; omega
  · simp

/-- Drop the characters of a class from the end. -/
def dropEndWhile (p : Char → Bool) (s : List Char) : List Char :=
  (s.reverse.dropWhile p).reverse

/-- Drop the characters of a class from both ends. -/
def stripWhile (p : Char → Bool) (s : List Char) : List Char :=
  dropEndWhile p (s.dropWhile p)

/-- Put one mark for each longest run of characters outside a class. -/
def collapse (keep : Char → Bool) (mark : Char) : List Char → List Char
  | [] => []
  | c :: cs =>
    if keep c then c :: collapse keep mark cs
    else match cs with
      | d :: _ => if keep d then mark :: collapse keep mark cs else collapse keep mark cs
      | [] => [mark]

/-- The pieces between runs of blanks, none of them empty. -/
def words (s : List Char) : List (List Char) :=
  match s with
  | [] => []
  | c :: cs =>
    if isBlank c then words cs
    else (c :: cs.takeWhile (!isBlank ·)) :: words (cs.dropWhile (!isBlank ·))
termination_by s.length
decreasing_by
  · simp
  · have := (List.dropWhile_suffix (l := cs) (!isBlank ·)).length_le
    simp only [List.length_cons]; omega

/-- Every kind of line end as a line feed. -/
def lineFeeds : List Char → List Char
  | '\r' :: '\n' :: rest => '\n' :: lineFeeds rest
  | '\r' :: rest => '\n' :: lineFeeds rest
  | c :: rest => c :: lineFeeds rest
  | [] => []

/-- Whether a text ends with another. -/
def endsWith (s suffix : List Char) : Bool := suffix.isSuffixOf s

/-- Drop blanks at the front. -/
def dropBlanks (s : List Char) : List Char := s.dropWhile isBlank

end ToolServer.Text
