import ToolServer.Program.Pattern

/-!
# The grammar of programs

The grammar of Python as patterns over tokens: statements, expressions, the targets of assignments and
deletions, parameters, arguments and the patterns of `match` statements. The named parts are those that
the grammar comes back to.
-/

namespace ToolServer.Program

/-- The parts of the grammar that have a name. -/
inductive Part
  | statement | block | alternatives
  | expression | namedExpression | disjunction | inversion | bitwise | factor | primary | atom
  | starExpressions | yielded | slices | arguments
  | starTarget | singleTarget | targetHead | deleted
  | matched | closedMatch
deriving DecidableEq, Hashable, Repr

namespace Grammar

open Pattern

abbrev P := Pattern Part

def s (text : String) : P := .token (.sign text)
def w (text : String) : P := .token (.word text)
def name : P := .token .name
def newline : P := .token .newline
def commas (p : P) : P := separated (s ",") p
def end_ : P := opt (s ",")
def between (opening : String) (p : P) (closing : String) : P := all [s opening, p, s closing]
def inParens (p : P) : P := between "(" p ")"

def expression : P := .named .expression
def starExpressions : P := .named .starExpressions
def namedExpression : P := .named .namedExpression
def block : P := .named .block
def bitwise : P := .named .bitwise

/-! Expressions. -/

def starBitwise : P := .seq (s "*") bitwise
def starExpression : P := .choice starBitwise expression
def starNamed : P := .choice starBitwise namedExpression
def starNameds : P := .seq (commas starNamed) end_

def assigned : P := all [name, s ":=", expression]
def unassigned : P := .seq expression (.notAhead (s ":="))

/-- Operands of one level with operators between them. -/
def chain (operand operators : P) : P := .seq operand (.many (.seq operators operand))

def signsOf (texts : List String) : P := oneOf (texts.map s)

def comparisonSign : P := oneOf [
  signsOf ["==", "!=", "<=", "<", ">=", ">"], .seq (w "not") (w "in"), w "in",
  .seq (w "is") (w "not"), w "is"]

def comparison : P := chain bitwise comparisonSign

def bitwiseLevels : P :=
  let term := chain (.named .factor) (signsOf ["*", "//", "/", "%", "@"])
  let sum := chain term (signsOf ["+", "-"])
  let shift := chain sum (signsOf ["<<", ">>"])
  chain (chain (chain shift (s "&")) (s "^")) (s "|")

def power : P :=
  .seq (.choice (.seq (w "await") (.named .primary)) (.named .primary))
    (opt (.seq (s "**") (.named .factor)))

/-- The clauses that make a comprehension of an expression. -/
def forClauses : P := some_ (all [
  opt (w "async"), w "for", .seq (commas (.named .starTarget)) end_, w "in", .named .disjunction,
  .many (.seq (w "if") (.named .disjunction))])

def generator : P := inParens (.seq (.choice assigned unassigned) forClauses)

def trailer : P := oneOf [
  .seq (s ".") name, generator, inParens (opt (.named .arguments)), between "[" (.named .slices) "]"]

def slice : P := .choice
  (all [opt expression, s ":", opt expression, opt (.seq (s ":") (opt expression))]) namedExpression

def slices : P := .choice (.seq slice (.notAhead (s ",")))
  (.seq (commas (.choice slice (.seq (s "*") expression))) end_)

def pair : P := all [expression, s ":", expression]

def atom : P := oneOf [
  name, w "True", w "False", w "None", some_ (.token .string), .token .number, s "...",
  inParens (opt (all [starNamed, s ",", opt starNameds])),
  inParens (.choice (.named .yielded) namedExpression),
  generator,
  between "[" (opt starNameds) "]",
  between "[" (.seq namedExpression forClauses) "]",
  between "\x7b" starNameds "\x7d",
  between "\x7b" (opt (.seq (commas (.choice (.seq (s "**") bitwise) pair)) end_)) "\x7d",
  between "\x7b" (.seq pair forClauses) "\x7d",
  between "\x7b" (.seq namedExpression forClauses) "\x7d"]

/-- Arguments in three runs: by place, then by name, then from maps. -/
def arguments : P :=
  let starred := .seq (s "*") expression
  let byName := all [name, s "=", expression]
  let byNameOrStarred := .choice byName starred
  let byNameOrMap := .choice byName (.seq (s "**") expression)
  let keyed := oneOf [
    all [commas byNameOrStarred, s ",", commas byNameOrMap], commas byNameOrStarred, commas byNameOrMap]
  let placed := .choice starred (.seq (.choice assigned unassigned) (.notAhead (s "=")))
  all [.choice (.seq (commas placed) (opt (.seq (s ",") keyed))) keyed, end_, .ahead (s ")")]

/-- Parameters up to a closing sign: those without a default, those with one, and the starred ones. -/
def parametersUpTo (close : String) (parameter starParameter : P) : P :=
  let next := .choice (s ",") (.ahead (s close))
  let default_ := .seq (s "=") expression
  let plain := .seq parameter next
  let withDefault := all [parameter, default_, next]
  let either := all [parameter, opt default_, next]
  let slash := .seq (s "/") next
  let named := all [s "**", parameter, next]
  let starred := oneOf [
    all [s "*", parameter, next, .many either, opt named],
    all [s "*", starParameter, next, .many either, opt named],
    all [s "*", s ",", some_ either, opt named],
    named]
  oneOf [
    all [some_ plain, slash, .many plain, .many withDefault, opt starred],
    all [.many plain, some_ withDefault, slash, .many withDefault, opt starred],
    all [some_ plain, .many withDefault, opt starred],
    all [some_ withDefault, opt starred],
    starred]

def lambda_ : P := all [w "lambda", opt (parametersUpTo ":" name (.notAhead .nothing)), s ":", expression]

/-! Targets. -/

def targetAhead : P := .ahead (signsOf ["(", "[", "."])
def targetEnd : P := .notAhead (signsOf ["(", "[", "."])

/-- A member or an item of what stands before it. -/
def memberTarget : P := .seq (.named .targetHead) (.choice
  (all [s ".", name, targetEnd]) (all [between "[" (.named .slices) "]", targetEnd]))

def starTargetAtom : P :=
  let target := .named .starTarget
  let plainTarget := .seq (.notAhead (s "*")) target
  oneOf [
    name, inParens plainTarget,
    inParens (opt (.choice
      (all [target, some_ (.seq (s ",") target), end_]) (.seq target (s ",")))),
    between "[" (opt (.seq (commas target) end_)) "]"]

def starTarget : P := .choice
  (all [s "*", .notAhead (s "*"), .named .starTarget]) (.choice memberTarget starTargetAtom)

def starTargets : P := .choice
  (.seq (.named .starTarget) (.notAhead (s ","))) (.seq (commas (.named .starTarget)) end_)

def deletedAtom : P :=
  let targets := .seq (commas (.named .deleted)) end_
  oneOf [name, inParens (.named .deleted), inParens (opt targets), between "[" (opt targets) "]"]

/-! Simple statements. -/

def rightSide : P := .choice (.named .yielded) starExpressions

def augmented : P := signsOf [
  "+=", "-=", "*=", "@=", "/=", "%=", "&=", "|=", "^=", "<<=", ">>=", "**=", "//="]

def assignment : P :=
  let annotation := all [s ":", expression, opt (.seq (s "=") rightSide)]
  oneOf [
    .seq name annotation,
    .seq (.choice (inParens (.named .singleTarget)) memberTarget) annotation,
    all [some_ (.seq starTargets (s "=")), rightSide, .notAhead (s "=")],
    all [.named .singleTarget, augmented, rightSide]]

def dottedName : P := separated (s ".") name

def importStatement : P :=
  let alias_ := opt (.seq (w "as") name)
  let members := commas (.seq name alias_)
  let dots := .choice (s ".") (s "...")
  let source := .choice (.seq (.many dots) dottedName) (some_ dots)
  let targets := oneOf [inParens (.seq members end_), .seq members (.notAhead (s ",")), s "*"]
  .choice (.seq (w "import") (commas (.seq dottedName alias_))) (all [w "from", source, w "import", targets])

def simpleStatement : P := oneOf [
  assignment, starExpressions,
  .seq (w "return") (opt starExpressions),
  importStatement,
  .seq (w "raise") (opt (.seq expression (opt (.seq (w "from") expression)))),
  w "pass",
  all [w "del", commas (.named .deleted), end_, .ahead (.choice (s ";") newline)],
  .named .yielded,
  all [w "assert", expression, opt (.seq (s ",") expression)],
  w "break", w "continue",
  .seq (w "global") (commas name), .seq (w "nonlocal") (commas name)]

def simpleStatements : P := all [separated (s ";") simpleStatement, opt (s ";"), newline]

/-! Compound statements. -/

def body : P := .seq (s ":") block
def otherwise : P := opt (.seq (w "else") body)

def conditional (word : String) : P :=
  all [w word, namedExpression, body, .named .alternatives]

def parameters : P :=
  let parameter := .seq name (opt (.seq (s ":") expression))
  let starParameter := all [name, s ":", starExpression]
  parametersUpTo ")" parameter starParameter

def function : P := all [
  opt (w "async"), w "def", name, inParens (opt parameters), opt (.seq (s "->") expression), body]

def class_ : P := all [w "class", name, opt (inParens (opt (.named .arguments))), body]

def decorated : P :=
  let decorators := .many (all [s "@", namedExpression, newline])
  .seq decorators (.choice function class_)

def with_ : P :=
  let item := .choice
    (all [expression, w "as", .named .starTarget, .ahead (signsOf [",", ")", ":"])]) expression
  all [opt (w "async"), w "with", .choice
    (.seq (inParens (.seq (commas item) end_)) body) (.seq (commas item) body)]

def for_ : P := all [
  opt (w "async"), w "for", starTargets, w "in", starExpressions, body, otherwise]

def while_ : P := all [w "while", namedExpression, body, otherwise]

def try_ : P :=
  let last := .seq (w "finally") body
  let caught := .seq expression (opt (.seq (w "as") name))
  let handler := .choice (all [w "except", caught, body]) (.seq (w "except") body)
  let groupHandler := all [w "except", s "*", caught, body]
  all [w "try", body, oneOf [
    last, all [some_ handler, otherwise, opt last], all [some_ groupHandler, otherwise, opt last]]]

/-! Patterns of `match` statements. -/

def capture : P := all [.notAhead (w "_"), name, .notAhead (signsOf [".", "(", "="])]

def literalMatch : P :=
  let negated (t : Terminal) : P := .seq (opt (s "-")) (.token t)
  oneOf [
    .seq (negated .number) (.notAhead (signsOf ["+", "-"])),
    all [negated .real, signsOf ["+", "-"], .token .imaginary],
    some_ (.token .string), w "None", w "True", w "False"]

def dottedMember : P := .seq name (some_ (.seq (s ".") name))

def starMatch : P := .seq (s "*") (.choice capture (w "_"))

def itemMatch : P := .choice starMatch (.named .matched)

def itemsMatch : P := .seq (commas itemMatch) end_

def openSequence : P := all [itemMatch, s ",", opt itemsMatch]

def mappingMatch : P :=
  let rest := .seq (s "**") capture
  let items := commas (all [.choice literalMatch dottedMember, s ":", .named .matched])
  oneOf [
    between "\x7b" .nothing "\x7d", between "\x7b" (.seq rest end_) "\x7d",
    between "\x7b" (all [items, s ",", rest, end_]) "\x7d", between "\x7b" (.seq items end_) "\x7d"]

def classMatch : P :=
  let placed := commas (.named .matched)
  let byName := commas (all [name, s "=", .named .matched])
  .seq dottedName (oneOf [
    inParens .nothing, inParens (.seq placed end_), inParens (.seq byName end_),
    inParens (all [placed, s ",", byName, end_])])

def closedMatch : P := oneOf [
  literalMatch, capture, w "_",
  .seq dottedMember (.notAhead (signsOf [".", "(", "="])),
  inParens (.named .matched),
  between "[" (opt itemsMatch) "]", inParens (opt openSequence),
  mappingMatch, classMatch]

def matched : P :=
  let either := separated (s "|") (.named .closedMatch)
  .choice (all [either, w "as", capture]) either

def match_ : P :=
  let subject := .choice (all [starNamed, s ",", opt starNameds]) namedExpression
  let guarded := opt (.seq (w "if") namedExpression)
  let case_ := all [w "case", .choice openSequence (.named .matched), guarded, body]
  all [w "match", subject, s ":", newline, .token .indent, some_ case_, .token .dedent]

end Grammar

open Pattern Grammar

/-- The pattern of each named part. -/
def grammar : Part → Pattern Part
  | .statement => oneOf [
      decorated, conditional "if", with_, for_, try_, while_, match_, simpleStatements]
  | .block => .choice
      (all [newline, .token .indent, some_ (.named .statement), .token .dedent]) simpleStatements
  | .alternatives => .choice (conditional "elif") otherwise
  | .expression => .choice
      (.seq (.named .disjunction)
        (opt (all [w "if", .named .disjunction, w "else", expression]))) lambda_
  | .namedExpression => .choice assigned unassigned
  | .disjunction => chain (chain (.named .inversion) (w "and")) (w "or")
  | .inversion => .choice (.seq (w "not") (.named .inversion)) comparison
  | .bitwise => bitwiseLevels
  | .factor => .choice (.seq (signsOf ["+", "-", "~"]) (.named .factor)) power
  | .primary => .seq (.named .atom) (.many trailer)
  | .atom => atom
  | .starExpressions => .seq (commas starExpression) end_
  | .yielded => .seq (w "yield") (.choice (.seq (w "from") expression) (opt starExpressions))
  | .slices => slices
  | .arguments => arguments
  | .starTarget => starTarget
  | .singleTarget => oneOf [memberTarget, name, inParens (.named .singleTarget)]
  | .targetHead => all [.named .atom, targetAhead, .many (.seq trailer targetAhead)]
  | .deleted => .choice memberTarget deletedAtom
  | .matched => matched
  | .closedMatch => closedMatch

/-- A whole program. -/
def program : Pattern Part := .seq (.many (.named .statement)) .finish

/-- An expression in a formatted literal, which stands in brackets. -/
def formattedExpression : Pattern Part := starExpressions

end ToolServer.Program
