import Mathlib.Algebra.BigOperators.Ring.List
import Mathlib.Algebra.GroupWithZero.Action.Defs
import ToolServer.Proofs.Emit.Body
import ToolServer.Proofs.Emit.Checks
import ToolServer.Proofs.Emit.Unbroken
import ToolServer.Proofs.Text.Piece

/-!
# Lines of a registration

How many lines register a tool follows from its shape: how many inputs, parameters and credentials it has, and what
its body is. Beyond that, the comment goes on where the source has a line end, and loose names end lines.
-/

namespace ToolServer.Emit.TypeScript

open Text Json

/-! ## Shapes -/

inductive BodyKind
  | none | rebuilt | whole
deriving DecidableEq, Repr

def bodyKind (h : Handler) : BodyKind :=
  match nonempty h.bodyParam with
  | .none => .none
  | some name => if name = bodyObject then .rebuilt else .whole

/-- What of a tool decides how many lines register it. -/
structure Shape where
  inputs : Nat
  queryParams : Nat
  queryKeys : Nat
  headerParams : Nat
  authHeaders : Nat
  body : BodyKind
deriving DecidableEq, Repr

def shape (t : Tool) : Shape where
  inputs := t.inputSchema.properties.length
  queryParams := t.handler.queryParams.length
  queryKeys := (t.handler.auth.filter isQueryKey).length
  headerParams := t.handler.headerParams.length
  authHeaders := (authHeaders t.handler.auth).length
  body := bodyKind t.handler

namespace Shape

def queryLines (s : Shape) : Nat :=
  if s.queryParams + s.queryKeys = 0 then 1 else s.queryParams + s.queryKeys + 2

def bodyLines (s : Shape) : Nat :=
  match s.body with
  | .none => 0
  | .rebuilt => 5
  | .whole => 1

def headerLines (s : Shape) : Nat :=
  if s.authHeaders + s.headerParams = 0 then 0 else s.authHeaders + s.headerParams + 2

/-- The lines of a tool that is tidy; 22 of them are there for every tool. -/
def lineCount (s : Shape) : Nat := 22 + max 1 s.inputs + s.queryLines + s.bodyLines + s.headerLines

end Shape

/-! ## Lines joined -/

/-- The line ends inside lines. -/
def strays (ls : List String) : Nat := (ls.map breaks).sum

@[simp] theorem strays_nil : strays [] = 0 := rfl

@[simp] theorem strays_cons (l : String) (ls : List String) : strays (l :: ls) = breaks l + strays ls := by
  simp [strays]

@[simp] theorem strays_append (ls ms : List String) : strays (ls ++ ms) = strays ls + strays ms := by
  simp [strays]

theorem strays_map_of {α : Type} {f : α → String} {n : α → Nat} (h : ∀ a, breaks (f a) = n a) (xs : List α) :
    strays (xs.map f) = (xs.map n).sum := by
  rw [strays, List.map_map]
  exact congrArg List.sum (List.map_congr_left fun a _ => h a)

theorem strays_map_eq_zero {α : Type} {f : α → String} (h : ∀ a, breaks (f a) = 0) (xs : List α) :
    strays (xs.map f) = 0 := by
  rw [strays_map_of h, List.map_const', List.sum_replicate, smul_zero]

/-- Lines in which a name stands twice. -/
theorem strays_map_twice {f : String → String} (h : ∀ name, breaks (f name) = 2 * looseBreaks name)
    (names : List String) : strays (names.map f) = 2 * (names.map looseBreaks).sum :=
  (strays_map_of h names).trans (List.sum_map_mul_left ..)

theorem lineCount_joinLines {ls : List String} (h : ls ≠ []) :
    Text.lineCount (joinLines ls) = ls.length + strays ls := by
  have hlength : 1 ≤ ls.length := List.length_pos_iff.mpr h
  rw [lineCount_eq, joinLines, breaks_intercalate, show breaks "\n" = 1 from breaks_ofList ['\n'], strays]
  omega

/-! ## Paths -/

def placeholder (name : String) : List Char := '{' :: (scriptText name).toList ++ ['}']

def fill (path : List Char) (name : String) : List Char :=
  replaceAll (placeholder name)
    ("$\x7bencodeURIComponent(String(" ++ memberAccess "params" name ++ "))\x7d").toList path

theorem pathTemplate_eq (h : Handler) :
    pathTemplate h = String.ofList (h.pathParams.foldl fill (scriptText h.path).toList) := rfl

/-- The line ends that come into a path where its parameters are filled in. -/
def filledBreaks : List String → List Char → Nat
  | [], _ => 0
  | name :: names, path => occurrences (placeholder name) path * looseBreaks name + filledBreaks names (fill path name)

theorem placeholder_ne_nil (name : String) : placeholder name ≠ [] := by simp [placeholder]

theorem countP_fill (path : List Char) (name : String) : (fill path name).countP isLineEnd =
    path.countP isLineEnd + occurrences (placeholder name) path * looseBreaks name := by
  have hplaceholder : (placeholder name).countP isLineEnd = 0 := by
    have hname : (scriptText name).toList.countP isLineEnd = 0 := breaks_scriptText name
    rw [placeholder, List.countP_append, List.countP_cons, hname]
    rfl
  have himage : breaks ("$\x7bencodeURIComponent(String(" ++ memberAccess "params" name ++ "))\x7d") =
      looseBreaks name := by
    simp only [breaks_append, breaks_memberAccess]
    simp (disch := exact ⟨_, rfl, rfl⟩) only [breaks_fixed, Nat.zero_add, Nat.add_zero]
  rw [fill, countP_replaceAll (placeholder_ne_nil name) hplaceholder]
  exact congrArg (_ + _ * ·) himage

theorem countP_foldl_fill : ∀ (names : List String) (path : List Char),
    (names.foldl fill path).countP isLineEnd = path.countP isLineEnd + filledBreaks names path
  | [], _ => rfl
  | name :: names, path => by
    rw [List.foldl_cons, countP_foldl_fill names, countP_fill, filledBreaks]
    ring

theorem breaks_pathTemplate (h : Handler) :
    breaks (pathTemplate h) = filledBreaks h.pathParams (scriptText h.path).toList := by
  have hpath : (scriptText h.path).toList.countP isLineEnd = 0 := breaks_scriptText h.path
  rw [pathTemplate_eq, breaks_ofList, countP_foldl_fill, hpath, Nat.zero_add]

/-- Filling in ends no line if and only if no loose name is met in the path as it is then. -/
theorem filledBreaks_eq_zero_iff : ∀ {names : List String} {path : List Char},
    filledBreaks names path = 0 ↔ ∀ before name after, names = before ++ name :: after → IsLoose name →
      ¬ placeholder name <:+: before.foldl fill path
  | [], path => ⟨fun _ before name after h => by simp at h, fun _ => rfl⟩
  | first :: names, path => by
    rw [filledBreaks, Nat.add_eq_zero_iff, Nat.mul_eq_zero, looseBreaks_eq_zero_iff,
      occurrences_eq_zero_iff (placeholder_ne_nil first), filledBreaks_eq_zero_iff]
    -- what stands before a name begins with the first one, unless the name is the first
    constructor
    · rintro ⟨hfirst, hrest⟩ before name after h hloose
      cases before with
      | nil =>
        obtain ⟨rfl, rfl⟩ := List.cons.inj h
        exact hfirst.resolve_right (not_not_intro hloose)
      | cons b before =>
        obtain ⟨rfl, rfl⟩ := List.cons.inj h
        exact hrest before name after rfl hloose
    · intro h
      refine ⟨?_, fun before name after hnames => h (first :: before) name after (congrArg _ hnames)⟩
      by_cases hloose : IsLoose first
      · exact .inl (h [] first names rfl hloose)
      · exact .inr hloose

/-! ## Query -/

theorem breaks_envAccess (name : String) : breaks (envAccess name) = 0 := by
  unfold envAccess
  simp only [breaks_append, breaks_scriptString]
  simp (disch := exact ⟨_, rfl, rfl⟩) only [breaks_fixed]

theorem breaks_queryLine (name : String) : breaks (queryLine name) = 2 * looseBreaks name := by
  unfold queryLine
  simp only [breaks_append, breaks_memberAccess, breaks_scriptString]
  simp (disch := exact ⟨_, rfl, rfl⟩) only [breaks_fixed, Nat.zero_add, Nat.add_zero, Nat.two_mul]

theorem breaks_queryKeyLine (a : Auth) : breaks (queryKeyLine a) = 0 := by
  unfold queryKeyLine
  simp only [breaks_append, breaks_envAccess, breaks_scriptString]
  simp (disch := exact ⟨_, rfl, rfl⟩) only [breaks_fixed]

theorem length_queryLines (t : Tool) : (queryLines t.handler).length = (shape t).queryLines := by
  unfold queryLines Shape.queryLines shape
  simp only [Bool.and_eq_true, List.isEmpty_iff, Nat.add_eq_zero_iff, List.length_eq_zero_iff]
  split
  · rfl
  · simp only [List.length_append, List.length_map, List.length_cons, List.length_nil]
    omega

theorem strays_queryLines (h : Handler) : strays (queryLines h) = 2 * (h.queryParams.map looseBreaks).sum := by
  unfold queryLines
  dsimp only
  split
  · rename_i hnone
    have hparams : h.queryParams = [] := List.isEmpty_iff.mp (Bool.and_eq_true_iff.mp hnone).1
    rw [hparams, strays_cons, strays_nil, breaks_fixed ⟨_, rfl, rfl⟩]
    rfl
  · simp only [strays_append, strays_cons, strays_nil, strays_map_twice breaks_queryLine,
      strays_map_eq_zero breaks_queryKeyLine]
    simp (disch := exact ⟨_, rfl, rfl⟩) only [breaks_fixed, Nat.zero_add, Nat.add_zero]

/-! ## Body -/

def sentLines : Option String → List String
  | some value => ["        body: " ++ value ++ ","]
  | none => []

theorem length_bodyLines (t : Tool) :
    (bodyParts t.handler).1.length + (sentLines (bodyParts t.handler).2).length = (shape t).bodyLines := by
  unfold bodyParts Shape.bodyLines shape bodyKind
  cases nonempty t.handler.bodyParam with
  | none => rfl
  | some name =>
    dsimp only
    split <;> rfl

theorem looseBreaks_bodyObject : looseBreaks bodyObject = 0 :=
  looseBreaks_eq_zero_iff.mpr fun h => by
    revert h
    decide

theorem strays_bodyLines (h : Handler) : strays (bodyParts h).1 + strays (sentLines (bodyParts h).2) =
    ((nonempty h.bodyParam).toList.map looseBreaks).sum := by
  unfold bodyParts
  cases nonempty h.bodyParam with
  | none => rfl
  | some name =>
    dsimp only
    split
    · rename_i hname
      have hexcluded (names : List String) : breaks (", ".intercalate (names.map scriptString)) = 0 :=
        breaks_intercalate_literals (List.forall_mem_map.mpr fun name _ => breaks_scriptString name)
      simp only [sentLines, strays_cons, strays_nil, breaks_append, hexcluded, hname, Option.toList_some,
        List.map_cons, List.map_nil, List.sum_cons, List.sum_nil, looseBreaks_bodyObject]
      simp (disch := exact ⟨_, rfl, rfl⟩) only [breaks_fixed, Nat.add_zero]
    · simp only [sentLines, strays_cons, strays_nil, breaks_append, breaks_memberAccess, Option.toList_some,
        List.map_cons, List.map_nil, List.sum_cons, List.sum_nil]
      simp (disch := exact ⟨_, rfl, rfl⟩) only [breaks_fixed, Nat.zero_add, Nat.add_zero]

/-! ## Headers -/

theorem breaks_authLine (h : AuthHeader) : breaks h.line = 0 := by
  unfold AuthHeader.line
  cases h.lead
  all_goals
    simp only [breaks_append, breaks_envAccess, breaks_scriptString, breaks_scriptText]
    simp (disch := exact ⟨_, rfl, rfl⟩) only [breaks_fixed]

theorem breaks_headerLine (input : String) : breaks (headerLine input) = 2 * looseBreaks input := by
  unfold headerLine
  simp only [breaks_append, breaks_memberAccess, breaks_scriptString]
  simp (disch := exact ⟨_, rfl, rfl⟩) only [breaks_fixed, Nat.zero_add, Nat.add_zero, Nat.two_mul]

theorem length_commaSeparated : ∀ ls : List String, (commaSeparated ls).length = ls.length
  | [] => rfl
  | [_] => rfl
  | _ :: l :: ls => congrArg (· + 1) (length_commaSeparated (l :: ls))

theorem strays_commaSeparated : ∀ ls : List String, strays (commaSeparated ls) = strays ls
  | [] => rfl
  | [_] => rfl
  | l :: m :: ls => by
    rw [show commaSeparated (l :: m :: ls) = (l ++ ",") :: commaSeparated (m :: ls) from rfl, strays_cons,
      strays_commaSeparated (m :: ls), breaks_append, breaks_fixed (s := ",") ⟨_, rfl, rfl⟩]
    rfl

theorem length_headerLines (t : Tool) : (headerLines t.handler).length = (shape t).headerLines := by
  unfold headerLines Shape.headerLines shape
  dsimp only
  simp only [List.isEmpty_iff, List.append_eq_nil_iff, List.map_eq_nil_iff, Nat.add_eq_zero_iff,
    List.length_eq_zero_iff]
  split
  · rfl
  · simp only [List.length_append, length_commaSeparated, List.length_map, List.length_cons, List.length_nil]
    omega

theorem strays_headerLines (h : Handler) : strays (headerLines h) = 2 * (h.headerParams.map looseBreaks).sum := by
  have hlines : strays ((authHeaders h.auth).map AuthHeader.line ++ h.headerParams.map headerLine) =
      2 * (h.headerParams.map looseBreaks).sum := by
    rw [strays_append, strays_map_eq_zero breaks_authLine, strays_map_twice breaks_headerLine, Nat.zero_add]
  unfold headerLines
  dsimp only
  split
  · rename_i hnone
    rw [← hlines, List.isEmpty_iff.mp hnone]
  · simp only [strays_append, strays_cons, strays_nil, strays_commaSeparated, ← hlines]
    simp (disch := exact ⟨_, rfl, rfl⟩) only [breaks_fixed, Nat.zero_add, Nat.add_zero]

/-! ## Registrations -/

theorem handlerLines_eq (h : Handler) : handlerLines h =
    ["      const baseUrl = " ++ envAccess h.baseUrlName ++ " || " ++ scriptString h.baseUrl ++ ";",
      "      const url = `$\x7bbaseUrl\x7d" ++ pathTemplate h ++ "`;"] ++
    queryLines h ++ (bodyParts h).1 ++
    ["      const result = await apiRequest(\x7b",
      "        method: " ++ scriptString (upper h.method) ++ ",",
      "        url: fullUrl,"] ++ sentLines (bodyParts h).2 ++ headerLines h ++ [
      "      \x7d);",
      "",
      "      return \x7b",
      "        content: [\x7b",
      "          type: 'text' as const,",
      "          text: typeof result === 'string' ? result : JSON.stringify(result, null, 2),",
      "        \x7d],",
      "      \x7d;"] := by
  unfold handlerLines
  obtain ⟨making, body⟩ := bodyParts h
  cases body <;> rfl

theorem length_handlerLines (t : Tool) : (handlerLines t.handler).length =
    13 + (shape t).queryLines + (shape t).bodyLines + (shape t).headerLines := by
  rw [handlerLines_eq, ← length_queryLines, ← length_bodyLines, ← length_headerLines]
  simp only [List.length_append, List.length_cons, List.length_nil]
  omega

def handlerBreaks (h : Handler) : Nat :=
  filledBreaks h.pathParams (scriptText h.path).toList + 2 * (h.queryParams.map looseBreaks).sum +
    2 * (h.headerParams.map looseBreaks).sum + ((nonempty h.bodyParam).toList.map looseBreaks).sum

theorem strays_handlerLines (h : Handler) : strays (handlerLines h) = handlerBreaks h := by
  rw [handlerLines_eq, handlerBreaks, ← strays_queryLines, ← strays_bodyLines, ← strays_headerLines,
    ← breaks_pathTemplate]
  simp only [strays_append, strays_cons, strays_nil, breaks_append, breaks_envAccess, breaks_scriptString]
  simp (disch := exact ⟨_, rfl, rfl⟩) only [breaks_fixed, Nat.zero_add, Nat.add_zero]
  omega

def toolBreaks (t : Tool) : Nat :=
  breaks t.source.method + breaks t.source.path + (t.inputSchema.properties.map fun e => looseBreaks e.1).sum +
    handlerBreaks t.handler

/-- A tool none of whose texts ends a line: the comment's do not, and no name that stands as a member is loose. -/
structure Tidy (t : Tool) : Prop where
  method : breaks t.source.method = 0
  path : breaks t.source.path = 0
  inputs : ∀ e ∈ t.inputSchema.properties, ¬ IsLoose e.1
  filled : ∀ before name after, t.handler.pathParams = before ++ name :: after → IsLoose name →
    ¬ placeholder name <:+: before.foldl fill (scriptText t.handler.path).toList
  query : ∀ name ∈ t.handler.queryParams, ¬ IsLoose name
  headers : ∀ name ∈ t.handler.headerParams, ¬ IsLoose name
  body : ∀ name, nonempty t.handler.bodyParam = some name → ¬ IsLoose name

theorem toolBreaks_eq_zero_iff {t : Tool} : toolBreaks t = 0 ↔ Tidy t := by
  have hinputs : (t.inputSchema.properties.map fun e => looseBreaks e.1).sum = 0 ↔
      ∀ e ∈ t.inputSchema.properties, ¬ IsLoose e.1 := by
    rw [List.sum_eq_zero_iff, List.forall_mem_map]
    exact forall₂_congr fun e _ => looseBreaks_eq_zero_iff
  have hbody : ((nonempty t.handler.bodyParam).toList.map looseBreaks).sum = 0 ↔
      ∀ name, nonempty t.handler.bodyParam = some name → ¬ IsLoose name := by
    rw [sum_looseBreaks_eq_zero_iff]
    simp [Option.mem_toList]
  -- a parameter's value is looked at and then given, so its name stands there twice
  have hdouble (n : Nat) : 2 * n = 0 ↔ n = 0 := by omega
  simp only [toolBreaks, handlerBreaks, Nat.add_eq_zero_iff, hdouble, hinputs, hbody, filledBreaks_eq_zero_iff,
    sum_looseBreaks_eq_zero_iff]
  constructor
  · rintro ⟨⟨⟨hmethod, hpath⟩, hprops⟩, ⟨⟨hfilled, hquery⟩, hheaders⟩, hwhole⟩
    exact ⟨hmethod, hpath, hprops, hfilled, hquery, hheaders, hwhole⟩
  · intro h
    exact ⟨⟨⟨h.method, h.path⟩, h.inputs⟩, ⟨⟨h.filled, h.query⟩, h.headers⟩, h.body⟩

/-- The lines of the inputs; where there are none, one empty line. -/
theorem inputLines_lines (s : InputSchema) : Gives (inputLines s) (fun ls =>
    (if ls.isEmpty then [""] else ls).length = max 1 s.properties.length ∧
    strays (if ls.isEmpty then [""] else ls) = (s.properties.map fun e => looseBreaks e.1).sum) := by
  have hlines : Gives (inputLines s) fun ls => ls.map breaks = s.properties.map fun e => looseBreaks e.1 :=
    .mapM_map fun e _ => breaks_inputLine s.required e
  refine hlines.mono fun ls hls => ?_
  have hlength : ls.length = s.properties.length := by simpa using congrArg List.length hls
  -- an empty line stands for no inputs, so no line and one line are of one length
  cases ls with
  | nil =>
    rw [List.map_nil] at hls
    rw [← hlength, ← hls]
    exact ⟨rfl, breaks_fixed ⟨[], rfl, rfl⟩⟩
  | cons l ls =>
    rw [← hlength, ← hls]
    exact ⟨by simp, rfl⟩

theorem toolLines_lines (t : Tool) : Gives (toolLines t) (fun ls =>
    ls.length = (shape t).lineCount ∧ strays ls = toolBreaks t) := by
  unfold toolLines
  refine (inputLines_lines t.inputSchema).bind fun inputs hinputs => .ok ?_
  generalize (if inputs.isEmpty then [""] else inputs) = lines at hinputs ⊢
  obtain ⟨hlength, hstrays⟩ := hinputs
  constructor
  · simp only [List.length_append, List.length_cons, List.length_nil, hlength, length_handlerLines]
    rw [Shape.lineCount, show (shape t).inputs = t.inputSchema.properties.length from rfl]
    omega
  · simp only [strays_append, strays_cons, strays_nil, hstrays, strays_handlerLines, breaks_append,
      breaks_scriptString, breaks_upper]
    simp (disch := exact ⟨_, rfl, rfl⟩) only [breaks_fixed, Nat.zero_add, Nat.add_zero]
    rw [toolBreaks]

/-- **How many lines register a tool is told by its shape if and only if the tool is tidy.** Else its texts end
lines of their own. -/
theorem lines_of_shape_iff (t : Tool) (h : ∀ e ∈ t.inputSchema.properties, e.2.Checkable) :
    ∃ ls, toolLines t = .ok ls ∧ Text.lineCount (joinLines ls) = (shape t).lineCount + toolBreaks t ∧
      (Text.lineCount (joinLines ls) = (shape t).lineCount ↔ Tidy t) := by
  obtain ⟨ls, hls⟩ := toolLines_isOk.mpr h
  obtain ⟨hlength, hstrays⟩ := toolLines_lines t ls hls
  have hne : ls ≠ [] := by
    rintro rfl
    rw [List.length_nil, Shape.lineCount] at hlength
    omega
  have hcount : Text.lineCount (joinLines ls) = (shape t).lineCount + toolBreaks t := by
    rw [lineCount_joinLines hne, hlength, hstrays]
  refine ⟨ls, hls, hcount, ?_⟩
  rw [hcount, ← toolBreaks_eq_zero_iff]
  omega

def foldedTool : Tool where
  name := "list"
  description := "List pets"
  inputSchema := { properties := [("sort\n", { type := "string" })], required := [] }
  handler := { updateTool.handler with
    method := "GET"
    path := "/pets\n"
    pathParams := []
    queryParams := ["sort\n"]
    bodyParam := none }
  source := ⟨"/pets\n", "get", none⟩
  enabled := true

/-- One line more for the comment, one for the key of the input, and two where the query is made. -/
theorem lines_of_shape_iff_folded : (∀ e ∈ foldedTool.inputSchema.properties, e.2.Checkable) ∧
    (shape foldedTool).lineCount = 26 ∧ ∃ ls, toolLines foldedTool = .ok ls ∧
      Text.lineCount (joinLines ls) = 30 ∧ ¬ Tidy foldedTool := by
  have hcheckable : ∀ e ∈ foldedTool.inputSchema.properties, e.2.Checkable :=
    List.forall_mem_singleton.mpr (check_isOk.mp ⟨_, rfl⟩)
  have hshape : (shape foldedTool).lineCount = 26 := rfl
  have hbreaks : toolBreaks foldedTool = 4 := by decide +kernel
  obtain ⟨ls, hls, hcount, htidy⟩ := lines_of_shape_iff foldedTool hcheckable
  refine ⟨hcheckable, hshape, ls, hls, by rw [hcount, hshape, hbreaks], fun h => ?_⟩
  rw [hcount, hbreaks] at htidy
  exact absurd (htidy.mpr h) (by omega)

end ToolServer.Emit.TypeScript
