import ToolServer.Text.Piece

/-!
# Paths

A path as its parts. Empty parts and single dots do not count; a path without parts is the working
directory.
-/

namespace ToolServer.Command

structure Path where
  /-- The slashes that an absolute path starts with. -/
  root : String
  parts : List String
deriving DecidableEq, Repr

namespace Path

/-- Two slashes at the start are kept, more are one. -/
def rootOf (text : List Char) : String :=
  match (text.takeWhile (· == '/')).length with
  | 0 => ""
  | 2 => "//"
  | _ => "/"

def ofText (text : String) : Path where
  root := rootOf text.toList
  parts := ((Text.cut '/' text.toList).map String.ofList).filter fun p => p != "" && p != "."

def text (p : Path) : String :=
  if p.root = "" && p.parts.isEmpty then "." else p.root ++ "/".intercalate p.parts

/-- A path below another. -/
def below (p : Path) (name : String) : Path := { p with parts := p.parts ++ (ofText name).parts }

def parent (p : Path) : Path := { p with parts := p.parts.dropLast }

end Path

end ToolServer.Command
