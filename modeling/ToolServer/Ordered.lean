/-!
# Ordered maps

Maps as lists of pairs that keep the order in which keys first came. Storing under a key that is
present replaces the value and keeps the place.
-/

namespace ToolServer.Ordered

variable {α β : Type} [BEq α]

def get? (k : α) : List (α × β) → Option β
  | [] => none
  | (j, v) :: m => if j == k then some v else get? k m

def contains (k : α) (m : List (α × β)) : Bool := m.any (·.1 == k)

def put (k : α) (v : β) : List (α × β) → List (α × β)
  | [] => [(k, v)]
  | (j, w) :: m => if j == k then (j, v) :: m else (j, w) :: put k v m

def putAll (m : List (α × β)) (more : List (α × β)) : List (α × β) :=
  more.foldl (fun m (k, v) => put k v m) m

def ofPairs (pairs : List (α × β)) : List (α × β) := putAll [] pairs

/-- Store only under a key that is new. -/
def putNew (k : α) (v : β) (m : List (α × β)) : List (α × β) :=
  if contains k m then m else m ++ [(k, v)]

end ToolServer.Ordered
