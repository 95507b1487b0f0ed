import ToolServer.Program.Literal

/-!
# Tokens

The tokens of a program text. Line ends and changes of indentation are tokens of their own.
-/

namespace ToolServer.Program

inductive Token
  | name (text : String)
  | number (imaginary : Bool)
  | string (literal : Literal)
  | sign (text : String)
  | newline
  | indent
  | dedent
deriving DecidableEq, Repr

/-- Words that are never names. -/
def keywords : List String := [
  "False", "None", "True", "and", "as", "assert", "async", "await", "break", "class", "continue",
  "def", "del", "elif", "else", "except", "finally", "for", "from", "global", "if", "import", "in",
  "is", "lambda", "nonlocal", "not", "or", "pass", "raise", "return", "try", "while", "with", "yield"]

/-- Words that are keywords in some places only. -/
def softKeywords : List String := ["_", "case", "match"]

/-- The signs of three characters, then of two, then of one: the longest that fits is taken. -/
def signs : List String := [
  "**=", "//=", ">>=", "<<=", "...",
  "!=", "%=", "&=", "**", "*=", "+=", "-=", "->", "//", "/=", ":=", "<<", "<=", "==", ">=", ">>", "@=",
  "^=", "|=",
  "%", "&", "(", ")", "*", "+", ",", "-", ".", "/", ":", ";", "<", "=", ">", "@", "[", "]", "^", "\x7b",
  "|", "\x7d", "~"]

end ToolServer.Program
