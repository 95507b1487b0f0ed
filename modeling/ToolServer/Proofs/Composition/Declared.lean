import ToolServer.Proofs.Composition.Variables

/-!
# Declared variables

`variables_declared`: a server lists each variable once, and every variable that its tools read is listed. A
mapped server lists no other; a composed one may, where the tools that read a variable are skipped.
-/

namespace ToolServer.Composition

open Api

/-! ## Lists of variables -/

section
variable {vs envs : List EnvVar}

theorem prefix_addVariable (v : EnvVar) : envs <+: addVariable envs v := by
  unfold addVariable
  split
  · exact List.prefix_rfl
  · exact List.prefix_append ..

theorem mem_addVariable {v : EnvVar} {name : String} :
    name ∈ (addVariable envs v).map (·.name) ↔ name ∈ envs.map (·.name) ∨ name = v.name := by
  unfold addVariable
  by_cases hv : v.name ∈ envs.map (·.name)
  · rw [if_pos (by simpa using hv)]
    constructor
    · intro h
      exact .inl h
    · intro h
      rcases h with h | h
      · exact h
      · exact h ▸ hv
  · rw [if_neg (by simpa using hv)]
    simp

theorem nodup_addVariable (h : (envs.map (·.name)).Nodup) (v : EnvVar) :
    ((addVariable envs v).map (·.name)).Nodup := by
  unfold addVariable
  by_cases hv : v.name ∈ envs.map (·.name)
  · rw [if_pos (by simpa using hv)]
    exact h
  · rw [if_neg (by simpa using hv), List.map_append]
    exact h.append (List.nodup_singleton _) (by simpa using hv)

theorem prefix_addVariables : envs <+: vs.foldl addVariable envs := by
  induction vs generalizing envs with
  | nil => exact List.prefix_rfl
  | cons v vs ih => exact (prefix_addVariable v).trans ih

theorem mem_addVariables {name : String} : name ∈ (vs.foldl addVariable envs).map (·.name) ↔
    name ∈ envs.map (·.name) ∨ name ∈ vs.map (·.name) := by
  induction vs generalizing envs with
  | nil => simp
  | cons v vs ih => rw [List.foldl_cons, ih, mem_addVariable, List.map_cons, List.mem_cons, or_assoc]

theorem nodup_addVariables (h : (envs.map (·.name)).Nodup) : ((vs.foldl addVariable envs).map (·.name)).Nodup := by
  induction vs generalizing envs with
  | nil => exact h
  | cons v vs ih => exact ih (nodup_addVariable h v)

end

structure Declared (envs : List EnvVar) (tools : List Tool) : Prop where
  nodup : (envs.map (·.name)).Nodup
  reads : ∀ t ∈ tools, ∀ v ∈ t.reads, v ∈ envs.map (·.name)

/-! ## Mapped servers -/

theorem envVarsOf_eq (d : Description) (tools : List Tool) : envVarsOf d tools =
    ((tools.flatMap (·.handler.auth)).map credentialEnv).foldl addVariable [baseUrlEnv d] := by
  rw [List.foldl_map]
  rfl

theorem mem_envVarsOf {d : Description} {tools : List Tool} {name : String} :
    name ∈ (envVarsOf d tools).map (·.name) ↔
      name = baseUrlVariable ∨ ∃ t ∈ tools, name ∈ t.handler.auth.map (·.envVar) := by
  have hauth : ((tools.flatMap (·.handler.auth)).map credentialEnv).map (·.name) =
      tools.flatMap fun t => t.handler.auth.map (·.envVar) := by
    rw [List.map_map, List.map_flatMap]
    rfl
  rw [envVarsOf_eq, mem_addVariables, hauth, List.mem_flatMap]
  exact or_congr_left List.mem_singleton

theorem nodup_envVarsOf (d : Description) (tools : List Tool) : ((envVarsOf d tools).map (·.name)).Nodup := by
  rw [envVarsOf_eq]
  exact nodup_addVariables (List.nodup_singleton _)

theorem credentialVariable_ne_base (s : Scheme) : credentialVariable s ≠ baseUrlVariable := by
  have hjoin : ∀ start rest : String, ¬ start.toList <+: baseUrlVariable.toList → start ++ rest ≠ baseUrlVariable := by
    intro start rest h heq
    rw [← heq, String.toList_append] at h
    exact h (List.prefix_append ..)
  unfold credentialVariable
  split
  · split
    · decide
    · split <;> decide
  · split
    · exact hjoin _ _ (by decide)
    · split
      · decide
      · exact hjoin _ _ (by decide)

/-- Behind the base address come the variables of the credentials of all tools, and no others. -/
def ListsExactly (envs : List EnvVar) (tools : List Tool) : Prop :=
  ∃ rest, envs.map (·.name) = baseUrlVariable :: rest ∧
    ∀ name, name ∈ rest ↔ ∃ t ∈ tools, name ∈ t.handler.auth.map (·.envVar)

theorem envVarsOf_exact {d : Description} {tools : List Tool} (h : ∀ t ∈ tools, PlainHandler t.handler) :
    ListsExactly (envVarsOf d tools) tools := by
  obtain ⟨vs, hvs⟩ : [baseUrlEnv d] <+: envVarsOf d tools := by
    rw [envVarsOf_eq]
    exact prefix_addVariables
  have hnames : (envVarsOf d tools).map (·.name) = baseUrlVariable :: vs.map (·.name) := by
    rw [← hvs]
    rfl
  have hnodup := nodup_envVarsOf d tools
  refine ⟨vs.map (·.name), hnames, fun name => ?_⟩
  have hmem := @mem_envVarsOf d tools name
  rw [hnames] at hnodup hmem
  rw [List.mem_cons] at hmem
  by_cases hbase : name = baseUrlVariable
  · -- the base address stands at the head only, and is the variable of no credentials
    subst hbase
    constructor
    · intro hrest
      exact absurd hrest (List.nodup_cons.mp hnodup).1
    · intro hread
      obtain ⟨t, ht, hname⟩ := hread
      obtain ⟨a, ha, heq⟩ := List.mem_map.mp hname
      rw [(h t ht).auth a ha] at heq
      exact absurd heq (credentialVariable_ne_base a.scheme)
  · simpa [hbase] using hmem

theorem envVarsOf_declared {d : Description} {tools : List Tool} (h : ∀ t ∈ tools, PlainHandler t.handler) :
    Declared (envVarsOf d tools) tools := by
  refine ⟨nodup_envVarsOf d tools, fun t ht v hv => mem_envVarsOf.mpr ?_⟩
  rcases List.mem_cons.mp hv with hv | hv
  · left
    rw [hv, Handler.baseUrlName, (h t ht).base]
    rfl
  · right
    exact ⟨t, ht, hv⟩

theorem ofDescription_declared (d : Description) : Gives (Config.ofDescription d)
    (fun c => Declared c.envVars c.tools ∧ ListsExactly c.envVars c.tools) := by
  intro c hc
  have hplain : ∀ t ∈ c.tools, PlainHandler t.handler := handlers_ofDescription d c hc
  rw [envVars_ofDescription d c hc]
  exact ⟨envVarsOf_declared hplain, envVarsOf_exact hplain⟩

/-! ## Compositions -/

def ReadsOwnBase (t : Tool) : Prop := t.handler.baseUrlEnvVar = some t.handler.baseUrlName

theorem readsOwnBase_prefixedTool (s : Source) (t : Tool) : ReadsOwnBase (prefixedTool s t) := by
  rw [ReadsOwnBase, baseUrlName_prefixedTool]
  rfl

namespace Progress

structure Covers (p : Progress) : Prop where
  declared : Declared p.envVars p.tools
  own : ∀ t ∈ p.tools, ReadsOwnBase t

theorem mem_addTools {s : Source} {t : Tool} : ∀ {ts : List Tool} {p : Progress},
    t ∈ (ts.foldl (addTool s) p).tools → t ∈ p.tools ∨ ∃ u ∈ ts, t = prefixedTool s u
  | [], _, h => .inl h
  | u :: ts, p, h => by
    rw [List.foldl_cons] at h
    rcases mem_addTools h with h | h
    · unfold addTool at h
      dsimp only at h
      split at h
      · exact .inl h
      · rcases List.mem_append.mp h with h | h
        · exact .inl h
        · exact .inr ⟨u, List.mem_cons_self .., List.mem_singleton.mp h⟩
    · obtain ⟨w, hw, ht⟩ := h
      exact .inr ⟨w, List.mem_cons_of_mem _ hw, ht⟩

theorem addConfig_covers {p : Progress} (h : p.Covers) (s : Source) {c : Config}
    (hplain : ∀ t ∈ c.tools, PlainHandler t.handler) (hc : Declared c.envVars c.tools) :
    (p.addConfig s c).Covers := by
  have henvs : (p.addConfig s c).envVars = (c.envVars.map (prefixedEnv s)).foldl addVariable p.envVars := by
    unfold addConfig
    rw [foldl_addEnv, foldl_addTool]
    rfl
  have hnew : ∀ t ∈ (p.addConfig s c).tools, t ∈ p.tools ∨ ∃ u ∈ c.tools, t = prefixedTool s u := by
    intro t ht
    unfold addConfig at ht
    rw [foldl_addEnv] at ht
    exact mem_addTools ht
  constructor
  · rw [henvs]
    refine ⟨nodup_addVariables h.declared.nodup, fun t ht v hv => mem_addVariables.mpr ?_⟩
    rcases hnew t ht with ht | ⟨u, hu, rfl⟩
    · exact .inl (h.declared.reads t ht v hv)
    · rw [reads_prefixedTool s (hplain u hu)] at hv
      obtain ⟨w, hw, rfl⟩ := List.mem_map.mp hv
      obtain ⟨env, henv, rfl⟩ := List.mem_map.mp (hc.reads u hu w hw)
      right
      rw [List.map_map]
      exact List.mem_map.mpr ⟨env, henv, rfl⟩
  · intro t ht
    rcases hnew t ht with ht | ⟨u, hu, rfl⟩
    · exact h.own t ht
    · exact readsOwnBase_prefixedTool s u

theorem addSource_covers {p : Progress} (h : p.Covers) (s : Source) : Gives (p.addSource s) Covers := by
  unfold addSource
  cases parse s.text with
  | error f => exact .error f
  | ok r =>
    cases r with
    | refused path message => exact .ok ⟨h.declared, h.own⟩
    | parsed d warnings =>
      have hmapped : Gives (Config.ofDescription d) (fun c => (∀ t ∈ c.tools, PlainHandler t.handler) ∧
          Declared c.envVars c.tools) :=
        fun c hc => ⟨handlers_ofDescription d c hc, (ofDescription_declared d c hc).1⟩
      have hnoted : Covers { p with warnings := p.warnings ++ warnings.map (tagged s.name) } := ⟨h.declared, h.own⟩
      exact hmapped.bind fun c hc => .ok (addConfig_covers hnoted s hc.1 hc.2)

end Progress

theorem compose_covers (sources : List Source) (serverName description : Option String) :
    Gives (compose sources serverName description) (fun r =>
      Declared r.config.envVars r.config.tools ∧ ∀ t ∈ r.config.tools, ReadsOwnBase t) := by
  have hnone : Declared [] [] := ⟨List.nodup_nil, List.forall_mem_nil _⟩
  unfold compose
  split
  · exact .ok ⟨hnone, List.forall_mem_nil _⟩
  · have hempty : Progress.Covers {} := ⟨hnone, List.forall_mem_nil _⟩
    refine (Gives.foldlM_const (fun s _ p hp => Progress.addSource_covers hp s) hempty).bind fun p hp => .ok ?_
    unfold Progress.result
    dsimp only
    split
    · exact ⟨hnone, List.forall_mem_nil _⟩
    · exact ⟨hp.declared, hp.own⟩

/-- **Variables are declared as they are used.** -/
theorem variables_declared :
    (∀ d c, Config.ofDescription d = .ok c → Declared c.envVars c.tools ∧ ListsExactly c.envVars c.tools) ∧
    ∀ sources serverName description r, compose sources serverName description = .ok r →
      Declared r.config.envVars r.config.tools ∧ ∀ t ∈ r.config.tools, ReadsOwnBase t :=
  ⟨ofDescription_declared, compose_covers⟩

def keyPets : Description where
  title := "Pets"
  description := ""
  version := "1"
  baseUrl := ""
  servers := []
  endpoints := [{ listPets "list" with security := [⟨"a", []⟩, ⟨"b", []⟩] }]
  schemes := [{ name := "a", type := "apiKey", paramName := some "k" },
    { name := "b", type := "apiKey", paramName := some "K" }]
  schemas := []

theorem variables_declared_keyPets :
    (∃ c, Config.ofDescription keyPets = .ok c ∧ c.envVars.map (·.name) = ["API_BASE_URL", "API_KEY_K"] ∧
      Declared c.envVars c.tools ∧ ListsExactly c.envVars c.tools) ∧
    ∃ r, compose [acme, acmeKeys] none none = .ok r ∧
      Declared r.config.envVars r.config.tools ∧ ∀ t ∈ r.config.tools, ReadsOwnBase t := by
  obtain ⟨hmapped, hcomposed⟩ := variables_declared
  constructor
  · have hnames : (Config.ofDescription keyPets).map (fun c => c.envVars.map (·.name)) =
        .ok ["API_BASE_URL", "API_KEY_K"] := by decide +kernel
    obtain ⟨c, h, hnames⟩ := exists_of_map_ok hnames
    exact ⟨c, h, hnames, hmapped keyPets c h⟩
  · obtain ⟨r, h⟩ : ∃ r, compose [acme, acmeKeys] none none = .ok r := exists_ok (by decide +kernel)
    exact ⟨r, h, hcomposed [acme, acmeKeys] none none r h⟩

end ToolServer.Composition
