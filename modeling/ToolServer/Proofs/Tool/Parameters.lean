import ToolServer.Proofs.Schema.Merging
import ToolServer.Proofs.Tool.Correspondence
import ToolServer.Proofs.Tool.Gather

/-!
# Merged parameters

The parameters of a path and of an operation are merged by place and name. Of those with one place and name the last
one counts, and it stands where the first one stood. So no tool has a parameter of the path or of the query twice.
-/

namespace ToolServer

open Document Api

/-! ## Merging -/

def Api.Parameter.key (p : Parameter) : String × String := (p.location, p.name)

/-- Of parameters with one key there is the last one, where the first one stood. -/
structure Api.Merged (ps merged : List Parameter) : Prop where
  distinct : (merged.map Parameter.key).Nodup
  last : ∀ k, merged.find? (·.key == k) = ps.findRev? (·.key == k)
  order : merged.map Parameter.key = (ps.map Parameter.key).eraseDups

theorem Ordered.find?_values {α β : Type} [BEq α] {key : β → α} (k : α) : ∀ {m : List (α × β)},
    (∀ e ∈ m, e.1 = key e.2) → (m.map (·.2)).find? (key · == k) = get? k m
  | [], _ => rfl
  | (j, v) :: m, h => by
    obtain ⟨hj, hm⟩ := List.forall_mem_cons.mp h
    obtain rfl : j = key v := hj
    rw [List.map_cons, List.find?_cons, get?, find?_values k hm]
    cases key v == k <;> rfl

section
variable (ps : List Parameter)

def keyed : List ((String × String) × Parameter) := ps.map fun p => (p.key, p)

theorem key_of_mem_ofPairs : ∀ e ∈ Ordered.ofPairs (keyed ps), e.1 = e.2.key := by
  intro e he
  have hmem := Ordered.mem_of_ofPairs he
  obtain ⟨p, -, rfl⟩ := List.mem_map.mp hmem
  rfl

theorem keys_values : ((Ordered.ofPairs (keyed ps)).map (·.2)).map Parameter.key =
    (Ordered.ofPairs (keyed ps)).map (·.1) := by
  rw [List.map_map]
  apply List.map_congr_left
  intro e he
  exact (key_of_mem_ofPairs ps e he).symm

theorem merged_ofPairs : Merged ps ((Ordered.ofPairs (keyed ps)).map (·.2)) where
  distinct := by
    rw [keys_values]
    exact Ordered.distinct_iff_nodup.mp (Ordered.distinct_ofPairs _)
  last k := by
    rw [Ordered.find?_values k (key_of_mem_ofPairs ps), Ordered.get?_ofPairs]
    simp only [List.findRev?_eq_find?_reverse, keyed, ← List.map_reverse, List.find?_map]
    simp [Function.comp_def]
  order := by
    have hkeys : (keyed ps).map (·.1) = ps.map Parameter.key := by simp [keyed]
    rw [keys_values, Ordered.ofPairs, Schema.keys_putAll, hkeys]
    simp [Schema.withNew]

end

theorem mergeParameters_merged (ofPath ofOperation : List Parameter) :
    Merged (ofPath ++ ofOperation) (mergeParameters ofPath ofOperation) := merged_ofPairs (ofPath ++ ofOperation)

/-! ## Tools -/

/-- Parameters of one place that are told apart by place and name are told apart by name. -/
theorem names_nodup {ps : List Parameter} (h : (ps.map Parameter.key).Nodup) (place : String) :
    ((ps.filter (·.location = place)).map (·.name)).Nodup := by
  have hplace : ((ps.filter (·.location = place)).map Parameter.key).Nodup :=
    h.sublist (List.filter_sublist.map _)
  have hkeys : (ps.filter (·.location = place)).map Parameter.key =
      ((ps.filter (·.location = place)).map (·.name)).map (place, ·) := by
    rw [List.map_map]
    apply List.map_congr_left
    intro p hp
    have hlocation : p.location = place := by simpa using (List.mem_filter.mp hp).2
    rw [Parameter.key, hlocation]
    rfl
  rw [hkeys] at hplace
  exact List.Nodup.of_map _ hplace

theorem TakesFrom.nodup {e : Endpoint} {t : Tool} (h : TakesFrom e t) (he : (e.parameters.map Parameter.key).Nodup) :
    t.handler.pathParams.Nodup ∧ t.handler.queryParams.Nodup := by
  rw [h.paths, h.queries]
  exact ⟨names_nodup he "path", names_nodup he "query"⟩

/-- **An operation's parameters override those of its path, without loss or repetition.** -/
theorem parameters_merged :
    (∀ ofPath ofOperation, Merged (ofPath ++ ofOperation) (mergeParameters ofPath ofOperation)) ∧
    ∀ text d ws c, parse text = .ok (.parsed d ws) → Config.ofDescription d = .ok c →
      ∀ t ∈ c.tools, t.handler.pathParams.Nodup ∧ t.handler.queryParams.Nodup := by
  refine ⟨mergeParameters_merged, ?_⟩
  intro text d ws c hparse hc t ht
  obtain ⟨doc, paths, -, hread⟩ := parse_sequence endpointOf_readAs hparse
  obtain ⟨e, he, hmapped⟩ := exists_of_forall₂ (mapped_ofDescription d c hc) t ht
  obtain ⟨op, -, hop⟩ := exists_of_forall₂ hread e (List.mem_of_mem_filter he)
  obtain ⟨ofPath, ofOperation, hparameters⟩ := hop.parameters
  have hdistinct : (e.parameters.map Parameter.key).Nodup := by
    rw [hparameters]
    exact (mergeParameters_merged ofPath ofOperation).distinct
  exact hmapped.takesFrom.nodup hdistinct

def repeatedText : String :=
  "\x7b\"openapi\":\"3.\",\"paths\":\x7b\"/a\":\x7b\"parameters\":[" ++
    "\x7b\"name\":\"i\",\"in\":\"path\"\x7d,\x7b\"name\":\"q\"\x7d,\x7b\"name\":\"i\",\"in\":\"path\"\x7d]," ++
    "\"get\":\x7b\"parameters\":[\x7b\"name\":\"r\"\x7d,\x7b\"name\":\"q\"\x7d]\x7d\x7d\x7d\x7d"

theorem parameters_merged_repeated : ∃ d ws c, parse repeatedText = .ok (.parsed d ws) ∧
    Config.ofDescription d = .ok c ∧
    c.tools.map (fun t => (t.handler.pathParams, t.handler.queryParams)) = [(["i"], ["q", "r"])] ∧
    ∀ t ∈ c.tools, t.handler.pathParams.Nodup ∧ t.handler.queryParams.Nodup := by
  have hparams : (parse repeatedText).map (fun r =>
      r.tools.map fun t => (t.handler.pathParams, t.handler.queryParams)) = .ok [(["i"], ["q", "r"])] := by
    decide +kernel
  obtain ⟨r, hr, hparams⟩ := exists_of_map_ok hparams
  have hne : r.tools ≠ [] := fun h => by simp [h] at hparams
  obtain ⟨d, ws, c, rfl, hc, htools⟩ := ParseResult.exists_of_tools hne
  exact ⟨d, ws, c, hr, hc, htools ▸ hparams, parameters_merged.2 _ d ws c hr hc⟩

end ToolServer
