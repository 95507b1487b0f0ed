import ToolServer.Proofs.Composition.Contents

/-!
# What sources bring to a composition

`compose_eq`: a composition is put together from what each source brings, the tools by a ledger, in which
each tool is kept or skipped by the names that are taken before it.
-/

namespace ToolServer.Composition

open Api

/-! ## Ledgers -/

inductive Offer
  | warning (source : Source) (text : String)
  | tool (source : Source) (tool : Tool)

def Source.offers (s : Source) : List Offer :=
  s.served?.elim [] fun served => served.1.map (.warning s) ++ served.2.tools.map (.tool s)

inductive Entry
  | noted (source : Source) (text : String)
  | kept (source : Source) (tool : Tool)
  | skipped (source : Source) (tool : Tool)

namespace Entry

def offer : Entry → Offer
  | noted s text => .warning s text
  | kept s t => .tool s t
  | skipped s t => .tool s t

def tool? : Entry → Option Tool
  | kept s t => some (prefixedTool s t)
  | _ => none

def warning? : Entry → Option String
  | noted s text => some (tagged s.name text)
  | kept .. => none
  | skipped s t => some (tagged s.name ("Skipped duplicate tool: " ++ (prefixedTool s t).name))

end Entry

def taken (log : List Entry) : List String := (log.filterMap Entry.tool?).map (·.name)

section
variable (s : Source) (log : List Entry)

@[simp] theorem taken_nil : taken [] = [] := rfl

@[simp] theorem taken_append (log' : List Entry) : taken (log ++ log') = taken log ++ taken log' := by
  simp [taken]

@[simp] theorem taken_noted (text : String) : taken (.noted s text :: log) = taken log := rfl

@[simp] theorem taken_kept (t : Tool) : taken (.kept s t :: log) = (prefixedTool s t).name :: taken log := rfl

@[simp] theorem taken_skipped (t : Tool) : taken (.skipped s t :: log) = taken log := rfl

theorem tools_noted (texts : List String) : (texts.map (Entry.noted s)).filterMap Entry.tool? = [] := by
  simp [List.filterMap_map, Function.comp_def, Entry.tool?]

end

/-- Deal with offers one after another; a tool is skipped if its name is among the given ones or those
taken since. -/
def ledger (names : List String) : List Offer → List Entry
  | [] => []
  | .warning s text :: rest => .noted s text :: ledger names rest
  | .tool s t :: rest =>
    if (prefixedTool s t).name ∈ names then .skipped s t :: ledger names rest
    else .kept s t :: ledger (names ++ [(prefixedTool s t).name]) rest

theorem ledger_append (names : List String) (xs ys : List Offer) :
    ledger names (xs ++ ys) = ledger names xs ++ ledger (names ++ taken (ledger names xs)) ys := by
  fun_induction ledger names xs with
  | case1 names => simp [taken]
  | case2 names s text rest ih => simp [ledger, ih]
  | case3 names s t rest h ih => simp [ledger, h, ih]
  | case4 names s t rest h ih => simp [ledger, h, ih]

theorem ledger_warnings (names : List String) (s : Source) (texts : List String) (rest : List Offer) :
    ledger names (texts.map (.warning s) ++ rest) = texts.map (.noted s) ++ ledger names rest := by
  induction texts with
  | nil => rfl
  | cons text texts ih => rw [List.map_cons, List.cons_append, ledger, ih, List.map_cons, List.cons_append]

def addVariable (envs : List EnvVar) (v : EnvVar) : List EnvVar :=
  if envs.any (·.name == v.name) then envs else envs ++ [v]

namespace Progress

def names (p : Progress) : List String := p.tools.map (·.name)

def record (p : Progress) (log : List Entry) : Progress :=
  { p with
    tools := p.tools ++ log.filterMap Entry.tool?
    warnings := p.warnings ++ log.filterMap Entry.warning? }

theorem record_record (p : Progress) (log log' : List Entry) :
    (p.record log).record log' = p.record (log ++ log') := by
  simp [record]

theorem record_noted (p : Progress) (s : Source) (texts : List String) :
    p.record (texts.map (.noted s)) = { p with warnings := p.warnings ++ texts.map (tagged s.name) } := by
  have hwarnings : (texts.map (Entry.noted s)).filterMap Entry.warning? = texts.map (tagged s.name) := by
    simp [List.filterMap_map, Function.comp_def, Entry.warning?]
  rw [record, tools_noted, hwarnings, List.append_nil]

theorem names_record (p : Progress) (log : List Entry) : (p.record log).names = p.names ++ taken log := by
  simp [record, names, taken]

theorem addTool_eq (s : Source) (p : Progress) (t : Tool) :
    p.addTool s t = p.record (ledger p.names [.tool s t]) := by
  have hany : p.tools.any (·.name == (prefixedTool s t).name) ↔ (prefixedTool s t).name ∈ p.names := by
    simp [names]
  unfold addTool ledger
  by_cases h : (prefixedTool s t).name ∈ p.names
  · simp [hany.mpr h, h, record, ledger, Entry.tool?, Entry.warning?]
  · simp [mt hany.mp h, h, record, ledger, Entry.tool?, Entry.warning?]

theorem foldl_addTool (s : Source) (ts : List Tool) (p : Progress) :
    ts.foldl (addTool s) p = p.record (ledger p.names (ts.map (.tool s))) := by
  induction ts generalizing p with
  | nil => simp [record, ledger]
  | cons t ts ih =>
    have hcons : ledger p.names (.tool s t :: ts.map (.tool s)) =
        ledger p.names [.tool s t] ++ ledger (p.names ++ taken (ledger p.names [.tool s t])) (ts.map (.tool s)) :=
      ledger_append p.names [.tool s t] _
    rw [List.foldl_cons, ih, addTool_eq, record_record, names_record, List.map_cons, hcons]

theorem foldl_addEnv (s : Source) (vs : List EnvVar) (p : Progress) :
    vs.foldl (addEnv s) p = { p with envVars := (vs.map (prefixedEnv s)).foldl addVariable p.envVars } := by
  induction vs generalizing p with
  | nil => rfl
  | cons v vs ih =>
    have hv : p.addEnv s v = { p with envVars := addVariable p.envVars (prefixedEnv s v) } := by
      simp only [addEnv, addVariable]
      split
      · rfl
      · rfl
    rw [List.foldl_cons, ih, hv, List.map_cons, List.foldl_cons]

/-- A composition after some more sources. -/
def after (p : Progress) (sources : List Source) : Progress :=
  { p.record (ledger p.names (sources.flatMap Source.offers)) with
    envVars := (sources.flatMap Source.envVars).foldl addVariable p.envVars
    problems := p.problems ++ sources.filterMap Source.problem?
    composed := p.composed ++ (sources.filter Source.isServed).map fun s => (s.name, s.toolPrefix) }

theorem after_nil (p : Progress) : p.after [] = p := by
  simp [after, record, ledger]

theorem after_after (p : Progress) (xs ys : List Source) : (p.after xs).after ys = p.after (xs ++ ys) := by
  have hnames : (p.after xs).names = p.names ++ taken (ledger p.names (xs.flatMap Source.offers)) :=
    names_record ..
  rw [after.eq_def (p.after xs), hnames]
  simp [after, record, ledger_append]

theorem after_refused (p : Progress) {s : Source} {problem : Problem} (h : s.contents = .ok (.refused problem)) :
    p.after [s] = { p with problems := p.problems ++ [problem] } := by
  simp [after, Source.offers, Source.envVars, Source.isServed, Source.served?, Source.problem?, h, record, ledger]

theorem after_served (p : Progress) {s : Source} {warnings : List String} {c : Config}
    (h : s.contents = .ok (.served warnings c)) : p.after [s] =
      ({ p with warnings := p.warnings ++ warnings.map (tagged s.name) } : Progress).addConfig s c := by
  have hserved : s.served? = some (warnings, c) := by rw [Source.served?, h]
  have hproblem : s.problem? = none := by rw [Source.problem?, h]
  have hoffers : [s].flatMap Source.offers = warnings.map (.warning s) ++ c.tools.map (.tool s) := by
    simp [Source.offers, hserved]
  have henvs : [s].flatMap Source.envVars = c.envVars.map (prefixedEnv s) := by
    simp [Source.envVars, hserved]
  -- the warnings on the text take no names, so the tools meet the names that were there before them
  rw [addConfig, foldl_addTool, foldl_addEnv, ← record_noted, record_record, after, hoffers, henvs,
    ledger_warnings, names_record, taken, tools_noted, List.map_nil, List.append_nil]
  simp [record, Source.isServed, hserved, hproblem]

theorem addSource_eq (p : Progress) {s : Source} (h : s.Handled) : p.addSource s = .ok (p.after [s]) := by
  rcases h.cases with ⟨path, message, hr⟩ | ⟨d, warnings, c, hr, hd⟩
  · rw [p.after_refused (Source.contents_refused hr), addSource, hr]
    rfl
  · rw [p.after_served (Source.contents_served hr hd), addSource, hr]
    simp only [bind, Except.bind, hd]
    rfl

/-- **A run over sources that give no fault gives what each of them brings.** -/
theorem foldlM_addSource {sources : List Source} (h : ∀ s ∈ sources, s.Handled) (p : Progress) :
    sources.foldlM addSource p = .ok (p.after sources) := by
  induction sources generalizing p with
  | nil => rw [List.foldlM_nil, after_nil]; rfl
  | cons s sources ih =>
    rw [List.foldlM_cons, p.addSource_eq (h s (List.mem_cons_self ..))]
    refine (ih (fun x hx => h x (List.mem_cons_of_mem _ hx)) _).trans ?_
    rw [after_after, List.singleton_append]

end Progress

theorem compose_eq {sources : List Source} (hrej : rejection? sources = none)
    (h : ∀ s ∈ sources, s.Handled) (serverName description : Option String) :
    compose sources serverName description =
      .ok ((Progress.after {} sources).result serverName description) := by
  rw [compose, hrej]
  simp only [Progress.foldlM_addSource h]
  rfl

end ToolServer.Composition
