import ToolServer.Proofs.Composition.Ledger

/-!
# The account of a composition

`composition_accounts`: every source of a composition is in it or has a problem, and every tool of a source
that is in it is kept or has a warning. `composition_without_failing`: sources with a problem make no
difference to the rest.
-/

namespace ToolServer.Composition

open Api Naming

/-! ## Decided logs -/

/-- Each tool of a log is skipped or kept as one kept before it has its name or none has. -/
inductive Decided : List Entry → Prop
  | nil : Decided []
  | noted {log : List Entry} (s : Source) (text : String) : Decided log → Decided (log ++ [.noted s text])
  | kept {log : List Entry} {s : Source} {t : Tool} :
      Decided log → (prefixedTool s t).name ∉ taken log → Decided (log ++ [.kept s t])
  | skipped {log : List Entry} {s : Source} {t : Tool} :
      Decided log → (prefixedTool s t).name ∈ taken log → Decided (log ++ [.skipped s t])

theorem Decided.ledger {log : List Entry} {names : List String} {offers : List Offer} (h : Decided log)
    (hnames : taken log = names) : Decided (log ++ ledger names offers) := by
  fun_induction Composition.ledger names offers generalizing log with
  | case1 names => rwa [List.append_nil]
  | case2 names s text rest ih =>
    rw [List.append_cons]
    exact ih (h.noted s text) (by simp [hnames])
  | case3 names s t rest hmem ih =>
    rw [List.append_cons]
    exact ih (h.skipped (hnames ▸ hmem)) (by simp [hnames])
  | case4 names s t rest hmem ih =>
    rw [List.append_cons]
    exact ih (h.kept (hnames ▸ hmem)) (by simp [hnames])

theorem Decided.nodup {log : List Entry} (h : Decided log) : (taken log).Nodup := by
  induction h with
  | nil => exact List.nodup_nil
  | noted s text _ ih => simpa using ih
  | skipped _ _ ih => simpa using ih
  | @kept log s t _ hfree ih =>
    rw [taken_append]
    exact ih.append (List.nodup_singleton _) (by simpa using hfree)

theorem offer_ledger (names : List String) (offers : List Offer) :
    (ledger names offers).map Entry.offer = offers := by
  fun_induction ledger names offers with
  | case1 => rfl
  | case2 names s text rest ih => rw [List.map_cons, ih]; rfl
  | case3 names s t rest h ih => rw [List.map_cons, ih]; rfl
  | case4 names s t rest h ih => rw [List.map_cons, ih]; rfl

/-! ## Offers and entries -/

def Offer.tool? : Offer → Option Tool
  | .tool _ t => some t
  | .warning .. => none

def Entry.isSkipped : Entry → Bool
  | .skipped .. => true
  | _ => false

theorem tools_offers (s : Source) : s.offers.filterMap Offer.tool? = s.tools := by
  unfold Source.offers Source.tools
  cases s.served? with
  | none => rfl
  | some served =>
    simp [List.filterMap_append, List.filterMap_map, Function.comp_def, Offer.tool?]

theorem tools_flatMap_offers (sources : List Source) :
    (sources.flatMap Source.offers).filterMap Offer.tool? = sources.flatMap Source.tools := by
  rw [List.filterMap_flatMap]
  exact List.flatMap_congr fun s _ => tools_offers s

theorem mem_of_offer {sources : List Source} {s : Source} {t : Tool}
    (h : .tool s t ∈ sources.flatMap Source.offers) : s ∈ sources ∧ t ∈ s.tools := by
  obtain ⟨s', hs, h⟩ := List.mem_flatMap.mp h
  have ht : t ∈ s'.tools := by
    rw [← tools_offers]
    exact List.mem_filterMap.mpr ⟨_, h, rfl⟩
  have he : s = s' := by
    unfold Source.offers at h
    cases hs' : s'.served? with
    | none => simp [hs'] at h
    | some served =>
      simp only [hs', Option.elim_some, List.mem_append, List.mem_map] at h
      rcases h with ⟨_, -, h⟩ | ⟨_, -, h⟩
      · cases h
      · cases h; rfl
  exact he ▸ ⟨hs, ht⟩

theorem length_kept_add_skipped (log : List Entry) :
    (log.filterMap Entry.tool?).length + log.countP Entry.isSkipped =
      ((log.map Entry.offer).filterMap Offer.tool?).length := by
  induction log with
  | nil => rfl
  | cons e log ih =>
    rw [List.countP_cons, List.map_cons, List.filterMap_cons, List.filterMap_cons]
    cases e with
    | noted s text => exact ih
    | kept s t =>
      simp only [Entry.tool?, Entry.isSkipped, Entry.offer, Offer.tool?, List.length_cons, Bool.false_eq_true,
        if_false]
      omega
    | skipped s t =>
      simp only [Entry.tool?, Entry.isSkipped, Entry.offer, Offer.tool?, List.length_cons, if_true]
      omega

/-! ## Names in a composition -/

theorem isNameChar_of_isPrefixChar {c : Char} (h : isPrefixChar c = true) : isNameChar c = true := by
  simp only [isPrefixChar, isSlugChar, isNameChar, Bool.or_eq_true] at h ⊢
  tauto

theorem prefixedName_valid {p name : String} (hempty : p ≠ "") (hp : ∀ c ∈ p.toList, isPrefixChar c = true)
    (hname : ∀ c ∈ name.toList, isNameChar c = true) : ValidToolName (prefixedName p name) := by
  have hlist : (prefixedName p name).toList = (p.toList ++ '_' :: name.toList).take maxToolName := by
    simp [prefixedName]
  have hpos : 0 < p.toList.length := List.length_pos_iff.mpr fun h => hempty (String.toList_eq_nil_iff.mp h)
  refine ⟨?_, ?_, ?_⟩
  · rw [hlist, List.length_take, List.length_append]
    unfold maxToolName
    omega
  · rw [hlist]
    exact List.length_take_le ..
  · rw [hlist]
    intro c hc
    rcases List.mem_append.mp (List.mem_of_mem_take hc) with hc | hc
    · exact isNameChar_of_isPrefixChar (hp c hc)
    · rcases List.mem_cons.mp hc with rfl | hc
      · decide
      · exact hname c hc

/-- A tool without what a composition makes of it: its name and description, whether it is on, and the
names of the variables that it reads. -/
def core (t : Tool) : Tool :=
  { t with
    name := ""
    description := ""
    enabled := true
    handler := { t.handler with
      baseUrlEnvVar := none
      auth := t.handler.auth.map fun a => { a with envVar := "" } } }

theorem core_prefixedTool (s : Source) (t : Tool) : core (prefixedTool s t) = core t := by
  simp [core, prefixedTool]

/-! ## The account -/

theorem served?_eq_none {s : Source} (h : s.isServed = false) : s.served? = none := by
  simpa [Source.isServed] using h

theorem offers_of_not_served {s : Source} (h : s.isServed = false) : s.offers = [] := by
  rw [Source.offers, served?_eq_none h]
  rfl

theorem envVars_of_not_served {s : Source} (h : s.isServed = false) : s.envVars = [] := by
  rw [Source.envVars, served?_eq_none h]
  rfl

theorem flatMap_filter_isServed {α : Type} {f : Source → List α} (h : ∀ s, s.isServed = false → f s = [])
    (sources : List Source) : (sources.filter Source.isServed).flatMap f = sources.flatMap f := by
  induction sources with
  | nil => rfl
  | cons s sources ih =>
    cases hs : s.isServed with
    | true => simp [hs, ih]
    | false => simp [hs, ih, h s hs]

theorem tools_result (sources : List Source) (serverName description : Option String) :
    ((Progress.after {} sources).result serverName description).config.tools =
      (ledger [] (sources.flatMap Source.offers)).filterMap Entry.tool? := by
  unfold Progress.result
  simp only
  split
  · -- the empty server stands in, and no source has tools either
    rename_i hnone
    have hserved : sources.filter Source.isServed = [] := by
      simpa [Progress.after] using hnone
    rw [← flatMap_filter_isServed fun s => offers_of_not_served, hserved]
    rfl
  · simp [Progress.after, Progress.record, Progress.names]

def ProblemOf (s : Source) (problem : Problem) : Prop :=
  ∃ path message, parse s.text = .ok (.refused path message) ∧ problem = .unreadable s.name path message

theorem problems_of_failing {sources : List Source} (h : ∀ s ∈ sources, s.Handled) :
    List.Forall₂ ProblemOf (sources.filter (!·.isServed)) (sources.filterMap Source.problem?) := by
  induction sources with
  | nil => exact .nil
  | cons s sources ih =>
    have ih := ih fun x hx => h x (List.mem_cons_of_mem _ hx)
    rcases (h s (List.mem_cons_self ..)).cases with ⟨path, message, hr⟩ | ⟨d, warnings, c, hr, hd⟩
    · have hc := Source.contents_refused hr
      have hserved : s.isServed = false := by simp [Source.isServed, Source.served?, hc]
      have hproblem : s.problem? = some (.unreadable s.name path message) := by simp [Source.problem?, hc]
      rw [List.filter_cons_of_pos (by simp [hserved]), List.filterMap_cons_some hproblem]
      exact .cons ⟨path, message, hr, rfl⟩ ih
    · have hc := Source.contents_served hr hd
      have hserved : s.isServed = true := by simp [Source.isServed, Source.served?, hc]
      have hproblem : s.problem? = none := by simp [Source.problem?, hc]
      rwa [List.filter_cons_of_neg (by simp [hserved]), List.filterMap_cons_none hproblem]

/-- Each source is composed or has a problem, in its place, and a log tells of each tool on offer whether it
is kept or skipped with a warning. -/
structure Accounts (sources : List Source) (r : Result) (log : List Entry) : Prop where
  composed : r.composed = (sources.filter Source.isServed).map (·.name)
  problems : List.Forall₂ ProblemOf (sources.filter (!·.isServed)) r.problems
  distinct : (r.config.tools.map (·.name)).Nodup
  valid : ∀ t ∈ r.config.tools, ValidToolName t.name
  decided : Decided log
  offers : log.map Entry.offer = sources.flatMap Source.offers
  tools : r.config.tools = log.filterMap Entry.tool?
  warnings : r.warnings = log.filterMap Entry.warning?
  count : r.config.tools.length + log.countP Entry.isSkipped = (sources.flatMap Source.tools).length
  unchanged : ∀ s t, .kept s t ∈ log → core (prefixedTool s t) = core t

theorem accounts_result {sources : List Source} (h : ∀ s ∈ sources, s.Handled)
    (serverName description : Option String) :
    Accounts sources ((Progress.after {} sources).result serverName description)
      (ledger [] (sources.flatMap Source.offers)) := by
  have htools := tools_result sources serverName description
  have hdecided : Decided (ledger [] (sources.flatMap Source.offers)) := Decided.nil.ledger rfl
  have hoffers := offer_ledger [] (sources.flatMap Source.offers)
  refine { composed := ?_, problems := ?_, distinct := ?_, valid := ?_, decided := hdecided, offers := hoffers,
           tools := htools, warnings := ?_, count := ?_, unchanged := fun s t _ => core_prefixedTool s t }
  · simp [Progress.result, Progress.after]
  · exact problems_of_failing h
  · rw [htools]
    exact hdecided.nodup
  · intro t ht
    obtain ⟨e, he, h⟩ := List.mem_filterMap.mp (htools ▸ ht)
    cases e with
    | kept s t' =>
      obtain rfl := Option.some.inj h
      have hmem := List.mem_map_of_mem (f := Entry.offer) he
      rw [hoffers] at hmem
      exact prefixedName_valid s.toolPrefix_ne_empty s.toolPrefix_chars (s.tools_chars t' (mem_of_offer hmem).2)
    | noted s text => cases h
    | skipped s t' => cases h
  · simp [Progress.result, Progress.after, Progress.record, Progress.names]
  · rw [htools, length_kept_add_skipped, hoffers, tools_flatMap_offers]

theorem composition_accounts {sources : List Source} (hrej : rejection? sources = none)
    (h : ∀ s ∈ sources, s.Handled) (serverName description : Option String) :
    ∃ r log, compose sources serverName description = .ok r ∧ Accounts sources r log :=
  ⟨_, _, compose_eq hrej h serverName description, accounts_result h serverName description⟩

def listText (operationId : String) : String :=
  "\x7b\"openapi\":\"3.\",\"paths\":\x7b\"/i\":\x7b\"get\":\x7b\"operationId\":\"" ++ operationId ++
    "\"\x7d\x7d\x7d\x7d"

def pet : Source := ⟨"pet", listText "store_list", none, []⟩

def petStore : Source := ⟨"Pet store", listText "list", none, []⟩

def noPets : Source := ⟨"none", "\x7b\x7d", none, []⟩

theorem pets_accepted : rejection? [pet, noPets, petStore] = none := by decide +kernel

theorem pets_handled : ∀ s ∈ [pet, noPets, petStore], s.Handled := by
  have hok : ∀ s ∈ [pet, noPets, petStore], s.contents.isOk = true := by decide +kernel
  exact fun s hs => exists_ok (hok s hs)

/-- The tool of the last source is skipped, as its name is that of the first. -/
theorem composition_accounts_pets : rejection? [pet, noPets, petStore] = none ∧
    (∀ s ∈ [pet, noPets, petStore], s.Handled) ∧ ∃ r log,
      compose [pet, noPets, petStore] none none = .ok r ∧ Accounts [pet, noPets, petStore] r log :=
  ⟨pets_accepted, pets_handled, composition_accounts pets_accepted pets_handled none none⟩

/-! ## Failing sources -/

theorem problem?_of_isServed {s : Source} (h : s.isServed = true) : s.problem? = none := by
  unfold Source.isServed Source.served? at h
  unfold Source.problem?
  split at h
  · rename_i hc
    rw [hc]
  · cases h

theorem after_filter_isServed (sources : List Source) : Progress.after {} (sources.filter Source.isServed) =
    { Progress.after {} sources with problems := [] } := by
  have hproblems : (sources.filter Source.isServed).filterMap Source.problem? = [] := by
    rw [List.filterMap_eq_nil_iff]
    exact fun s hs => problem?_of_isServed (List.mem_filter.mp hs).2
  unfold Progress.after
  rw [flatMap_filter_isServed fun s => offers_of_not_served, flatMap_filter_isServed fun s => envVars_of_not_served,
    hproblems, List.filter_filter]
  simp only [Bool.and_self, List.append_nil]

theorem rejection?_filter {sources : List Source} {p : Source → Bool} (h : rejection? sources = none)
    (hsome : ∃ s ∈ sources, p s = true) : rejection? (sources.filter p) = none := by
  obtain ⟨-, hfew, hnodup⟩ := rejection?_eq_none.mp h
  obtain ⟨s, hs, hp⟩ := hsome
  refine rejection?_eq_none.mpr ⟨?_, ?_, ?_⟩
  · exact List.ne_nil_of_mem (List.mem_filter.mpr ⟨hs, hp⟩)
  · exact Nat.le_trans (List.length_filter_le ..) hfew
  · exact hnodup.sublist (List.filter_sublist.map _)

/-- **Sources that are left out leave the rest as it is.** -/
theorem composition_without_failing {sources : List Source} (hrej : rejection? sources = none)
    (h : ∀ s ∈ sources, s.Handled) (hsome : ∃ s ∈ sources, s.isServed = true)
    (serverName description : Option String) :
    ∃ r r', compose sources serverName description = .ok r ∧
      compose (sources.filter Source.isServed) serverName description = .ok r' ∧
      r.config = r'.config ∧ r.composed = r'.composed ∧ r.warnings = r'.warnings ∧
      List.Forall₂ ProblemOf (sources.filter (!·.isServed)) r.problems := by
  have hserved : ∀ s ∈ sources.filter Source.isServed, s.Handled :=
    fun s hs => h s (List.mem_of_mem_filter hs)
  refine ⟨_, _, compose_eq hrej h serverName description,
    compose_eq (rejection?_filter hrej hsome) hserved serverName description, ?_⟩
  rw [after_filter_isServed]
  exact ⟨rfl, rfl, rfl, problems_of_failing h⟩

theorem composition_without_failing_pets : rejection? [pet, noPets, petStore] = none ∧
    (∀ s ∈ [pet, noPets, petStore], s.Handled) ∧ (∃ s ∈ [pet, noPets, petStore], s.isServed = true) ∧
    ∃ r r', compose [pet, noPets, petStore] none none = .ok r ∧
      compose ([pet, noPets, petStore].filter Source.isServed) none none = .ok r' ∧
      r.config = r'.config ∧ r.composed = r'.composed ∧ r.warnings = r'.warnings ∧
      List.Forall₂ ProblemOf ([pet, noPets, petStore].filter (!·.isServed)) r.problems := by
  have hsome : ∃ s ∈ [pet, noPets, petStore], s.isServed = true :=
    ⟨pet, List.mem_cons_self .., by decide +kernel⟩
  exact ⟨pets_accepted, pets_handled, hsome,
    composition_without_failing pets_accepted pets_handled hsome none none⟩

end ToolServer.Composition
