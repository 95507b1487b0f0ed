import ToolServer.Proofs.Emit.Segments

/-!
# Addresses of requests

The address of a request is a template: the base of the interface, then the path with its parameters filled in. What
it evaluates to is the path in which each placeholder of a parameter is the encoded value of that parameter and all
else is as it was: `address_fills_in`.
-/

namespace ToolServer.Emit.TypeScript

open Text Script
open Program (units)

/-! ## Values -/

/-- What a handler finds when it runs: the base of the interface and the values of the inputs. A value may have no
text, and a text no encoding. -/
structure Scope (V : Type) where
  /-- What `baseUrl` holds. -/
  baseUrl : List Nat
  /-- The member of `params` with a key. -/
  input : List Nat → V
  /-- What `String` makes of a value. -/
  string : V → Option (List Nat)
  /-- What `encodeURIComponent` makes of a text. -/
  encode : List Nat → Option (List Nat)

section
variable {V : Type} (s : Scope V)

def exprText? : Expr → Option (List Nat)
  | .name word => if word = "baseUrl" then some s.baseUrl else none
  | .member object key => if object = "params" then s.string (s.input key) else none
  | .call function argument =>
    if function = "String" then exprText? argument
    else if function = "encodeURIComponent" then (exprText? argument).bind s.encode
    else none

def partText? : Part → Option (List Nat)
  | .unit n => some [n]
  | .hole e => exprText? s e

def Scope.encoded (name : String) : Option (List Nat) := (s.string (s.input (name.toList.flatMap units))).bind s.encode

end

/-- Texts one behind the other, if there are all. -/
def textsOf? {α : Type} (text? : α → Option (List Nat)) : List α → Option (List Nat)
  | [] => some []
  | x :: xs => do return (← text? x) ++ (← textsOf? text? xs)

section
variable {α β : Type} {f : α → Option (List Nat)} {g : β → Option (List Nat)}

theorem textsOf?_append (ys : List α) : ∀ xs : List α,
    textsOf? f (xs ++ ys) = do return (← textsOf? f xs) ++ (← textsOf? f ys)
  | [] => by simp [textsOf?]
  | x :: xs => by
    rw [List.cons_append, textsOf?, textsOf?_append ys xs, textsOf?]
    cases f x <;> cases textsOf? f xs <;> cases textsOf? f ys <;> simp

theorem textsOf?_flatMap {k : β → List α} (h : ∀ y, textsOf? f (k y) = g y) : ∀ ys : List β,
    textsOf? f (ys.flatMap k) = textsOf? g ys
  | [] => rfl
  | y :: ys => by rw [List.flatMap_cons, textsOf?_append, h, textsOf?_flatMap h ys, textsOf?]

theorem textsOf?_map_some {k : β → α} {u : β → List Nat} (h : ∀ y, f (k y) = some (u y)) : ∀ ys : List β,
    textsOf? f (ys.map k) = some (ys.flatMap u)
  | [] => rfl
  | y :: ys => by
    rw [List.map_cons, textsOf?, h, textsOf?_map_some h ys]
    rfl

end

/-! ## Filling in -/

def Segment.text? (value : String → Option (List Nat)) : Segment → Option (List Nat)
  | .char c => some (units c)
  | .parameter n => value n

/-- A path with the placeholders of names filled in, all at once. -/
def filled (names : List String) (value : String → Option (List Nat)) (path : List Char) : Option (List Nat) :=
  textsOf? (Segment.text? value) (segments names path)

/-- Placeholders are filled in wherever they stand, and nothing else is. -/
structure FillsIn (names : List String) (value : String → Option (List Nat))
    (fill : List Char → Option (List Nat)) : Prop where
  parameter : ∀ n ∈ names, ∀ before after,
    fill (before ++ (slot n ++ after)) = do return (← fill before) ++ ((← value n) ++ (← fill after))
  other : ∀ path, (∀ n ∈ names, ¬ slot n <:+: path) → fill path = some (path.flatMap units)

theorem fillsIn_filled {names : List String} (hnames : ∀ n ∈ names, PlainName n) (value : String → Option (List Nat)) :
    FillsIn names value (filled names value) where
  parameter n hn before after := by
    unfold filled
    rw [segments_append_slot hnames hn, textsOf?_append, textsOf?]
    simp only [Segment.text?, bind_assoc, pure_bind]
  other path h := by
    rw [filled, segments_of_no_slot h]
    exact textsOf?_map_some (f := Segment.text? value) (k := .char) (u := units) (fun _ => rfl) path

/-! ## The template -/

def Segment.parts : Segment → List Part
  | .char c => (units c).map .unit
  | .parameter n =>
    [.hole (.call "encodeURIComponent" (.call "String" (.member "params" (n.toList.flatMap units))))]

theorem textsOf?_parts {V : Type} (s : Scope V) (segment : Segment) :
    textsOf? (partText? s) segment.parts = segment.text? s.encoded := by
  cases segment with
  | char c =>
    have hunits := textsOf?_map_some (f := partText? s) (k := Part.unit) (u := fun n => [n]) (fun _ => rfl) (units c)
    rw [List.flatMap_singleton'] at hunits
    exact hunits
  | parameter n =>
    simp [Segment.parts, Segment.text?, textsOf?, partText?, exprText?, Scope.encoded]

theorem expression?_parameter {n : String} (hn : PlainName n) (rest : List Char) :
    expression? (encoder ++ '(' ::
        (converter ++ '(' :: ((memberAccess "params" n).toList ++ ')' :: ')' :: '}' :: rest))) =
      some (.call "encodeURIComponent" (.call "String" (.member "params" (n.toList.flatMap units))), '}' :: rest) := by
  have hencoder : "encodeURIComponent".toList = encoder := toList_fixed ⟨_, rfl, rfl⟩
  have hconverter : "String".toList = converter := toList_fixed ⟨_, rfl, rfl⟩
  have hfeed : '\n' ∉ n.toList := fun h => absurd (hn _ h) (by decide)
  have hmember : expression? ((memberAccess "params" n).toList ++ ')' :: ')' :: '}' :: rest) =
      some (.member "params" (n.toList.flatMap units), ')' :: ')' :: '}' :: rest) :=
    expression?_memberAccess (by decide) (by decide) hfeed rfl
  rw [← hencoder, ← hconverter]
  refine expression?_call ?_ (by decide) (expression?_call ?_ (by decide) hmember)
  · rw [hencoder]
    rfl
  · rw [hconverter]
    rfl

theorem templateBody?_parameter {n : String} (hn : PlainName n) (rest : List Char) :
    templateBody? ((parameterText n).toList ++ rest) =
      (templateBody? rest).map fun (ps, rest) => ((Segment.parameter n).parts ++ ps, rest) := by
  rw [toList_parameterText]
  simp only [List.cons_append, List.append_assoc, List.nil_append]
  exact templateBody?_hole (expression?_parameter hn rest)

theorem templateBody?_segment {names : List String} (hnames : ∀ n ∈ names, PlainName n) {path : List Char} :
    ∀ segment ∈ segments names path, ∀ rest, templateBody? (segment.written ++ rest) =
      (templateBody? rest).map fun (ps, rest) => (segment.parts ++ ps, rest) := by
  intro segment hmem rest
  cases segment with
  | char c => exact templateBody?_scriptChar c rest
  | parameter n => exact templateBody?_parameter (hnames n (mem_of_parameter_mem hnames hmem)) rest

def addressText (h : Handler) : String := "`$\x7bbaseUrl\x7d" ++ pathTemplate h ++ "`"

def addressParts (h : Handler) : List Part :=
  .hole (.name "baseUrl") :: (segments h.pathParams h.path.toList).flatMap Segment.parts

theorem addressText_line (h : Handler) :
    (handlerLines h)[1]? = some ("      const url = " ++ addressText h ++ ";") := by
  have hline : (handlerLines h)[1]? = some ("      const url = `$\x7bbaseUrl\x7d" ++ pathTemplate h ++ "`;") := rfl
  have hfront : "      const url = `$\x7bbaseUrl\x7d" = "      const url = " ++ "`$\x7bbaseUrl\x7d" := by decide
  have hend : "`;" = "`" ++ ";" := by decide
  rw [hline, hfront, hend]
  simp only [addressText, String.append_assoc]

theorem textsOf?_addressParts {V : Type} (s : Scope V) (h : Handler) : textsOf? (partText? s) (addressParts h) =
    (filled h.pathParams s.encoded h.path.toList).map (s.baseUrl ++ ·) := by
  have hbase : partText? s (.hole (.name "baseUrl")) = some s.baseUrl := by simp [partText?, exprText?]
  rw [addressParts, textsOf?, hbase, textsOf?_flatMap (textsOf?_parts s), filled, Option.map_eq_bind]
  rfl

theorem template?_addressText {h : Handler} (hnames : ∀ n ∈ h.pathParams, PlainName n) (rest : List Char) :
    template? ((addressText h).toList ++ rest) = some (addressParts h, rest) := by
  have hfront : "`$\x7bbaseUrl\x7d".toList = '\x60' :: '$' :: '{' :: ("baseUrl".toList ++ ['}']) :=
    toList_fixed ⟨_, rfl, rfl⟩
  have htext : (addressText h).toList ++ rest = '\x60' :: '$' :: '{' :: ("baseUrl".toList ++
      '}' :: (written h.pathParams h.path.toList ++ '\x60' :: rest)) := by
    unfold addressText
    rw [String.toList_append, String.toList_append, hfront, toList_pathTemplate hnames]
    simp
  have hbase : ∀ left, expression? ("baseUrl".toList ++ '}' :: left) = some (.name "baseUrl", '}' :: left) := fun _ =>
    expression?_name (by decide) (by decide)
  rw [htext, template?, templateBody?_hole (hbase _), written, read_flatMap _ (templateBody?_segment hnames),
    templateBody?_mark]
  simp [addressParts]

/-- **The address of a request is the base of the interface and then the path with its parameters filled in, all at
once and nothing else.** Each placeholder gives way to what `encodeURIComponent` makes of the text of the
parameter's value. -/
theorem address_fills_in (h : Handler) (hnames : ∀ n ∈ h.pathParams, PlainName n) :
    ∃ literal parts,
      (handlerLines h)[1]? = some ("      const url = " ++ literal ++ ";") ∧
      (∀ rest, template? (literal.toList ++ rest) = some (parts, rest)) ∧
      ∀ (V : Type) (s : Scope V), FillsIn h.pathParams s.encoded (filled h.pathParams s.encoded) ∧
        textsOf? (partText? s) parts = (filled h.pathParams s.encoded h.path.toList).map (s.baseUrl ++ ·) :=
  ⟨addressText h, addressParts h, addressText_line h, template?_addressText hnames, fun _ s =>
    ⟨fillsIn_filled hnames s.encoded, textsOf?_addressParts s h⟩⟩

/-- A path with a dollar sign before a placeholder, a backslash, a quote and a placeholder of no parameter. -/
def markedHandler : Handler :=
  { updateTool.handler with path := "/$\x7bid\x7d\\'\x7bname\x7d", pathParams := ["id"] }

theorem address_fills_in_marked : (∀ n ∈ markedHandler.pathParams, PlainName n) ∧ ∃ literal parts,
    (handlerLines markedHandler)[1]? = some ("      const url = " ++ literal ++ ";") ∧
    (∀ rest, template? (literal.toList ++ rest) = some (parts, rest)) ∧
    ∀ (V : Type) (s : Scope V), textsOf? (partText? s) parts = (s.encoded "id").map fun value =>
      s.baseUrl ++ (['/', '$'].flatMap units ++ (value ++ "\\'\x7bname\x7d".toList.flatMap units)) := by
  have hnames : ∀ n ∈ markedHandler.pathParams, PlainName n := by decide
  obtain ⟨literal, parts, hline, hread, hvalue⟩ := address_fills_in markedHandler hnames
  refine ⟨hnames, literal, parts, hline, hread, fun V s => ?_⟩
  obtain ⟨hfills, htext⟩ := hvalue V s
  have hpath : markedHandler.path.toList = ['/', '$'] ++ (slot "id" ++ "\\'\x7bname\x7d".toList) := by decide
  have hbefore : ∀ n ∈ markedHandler.pathParams, ¬ slot n <:+: ['/', '$'] := by decide
  have hafter : ∀ n ∈ markedHandler.pathParams, ¬ slot n <:+: "\\'\x7bname\x7d".toList := by decide
  rw [htext, hpath, hfills.parameter "id" (List.mem_singleton_self _), hfills.other _ hbefore, hfills.other _ hafter]
  cases s.encoded "id" <;> rfl

end ToolServer.Emit.TypeScript
