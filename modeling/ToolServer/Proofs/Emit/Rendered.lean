import ToolServer.Proofs.Api.Representable
import ToolServer.Proofs.Composition.RoundTrip
import ToolServer.Proofs.Diff.Told
import ToolServer.Proofs.Emit.Checks

/-!
# Generating and comparing mapped servers

Generating a project and comparing two versions write the choices of inputs, and nothing else in a server can fail
to be written. `rendered_iff`: which servers can be generated and compared, and that those of documents that JSON
represents can.
-/

namespace ToolServer

open Document Schema Api
open Diff (RepresentableEnum EnumsTold compareConfigs)
open Emit (project)
open Json (Representable)

/-! ## Inputs of represented schemas -/

namespace Property

theorem enum_base {schema : Entries} (h : Representable (.map schema)) (description : Option String) :
    RepresentableEnum (base description schema) := by
  intro v hv
  have hv : v ∈ (enumValues? schema).getD [] := hv
  unfold enumValues? at hv
  split at hv
  · rename_i w ws henum
    have hlist : Representable (.list (w :: ws)) := h.part (.of_entry (Entries.mem_of_get? henum))
    exact hlist.part (.of_item hv)
  · cases hv

theorem Checkable.of_enum {p : Property} (h : RepresentableEnum p) (hitems : p.items = none) : p.Checkable :=
  .intro h fun _ _ q hq => by
    rw [hitems] at hq
    cases hq

theorem ofValue_other (description : Option String) :
    Gives (.ok (base description []) : Except Fault Property) Checkable :=
  .ok (.of_enum (List.forall_mem_nil _) rfl)

mutual
theorem ofValue_checkable (description : Option String) : ∀ {v : Value}, Representable v →
    Gives (ofValue description v) Checkable
  | .map schema, h => by
    have henum : RepresentableEnum (base description schema) := enum_base h description
    unfold ofValue
    dsimp only
    split
    · exact (itemsIn_checkable (Json.representable_map_iff.mp h)).bind fun o ho => .ok (.intro henum fun _ _ => ho)
    · refine Gives.any fun o => ?_
      split
      · exact Gives.any fun r => .ok (.of_enum henum rfl)
      · exact .ok (.of_enum henum rfl)
    · exact .ok (.of_enum henum rfl)
  | .scalar _, _ => ofValue_other description
  | .list _, _ => ofValue_other description
  | .set _, _ => ofValue_other description
  | .pair .., _ => ofValue_other description

theorem itemsIn_checkable : ∀ {es : List (Scalar × Value)}, (∀ e ∈ es, Json.RepresentableEntry e) →
    Gives (itemsIn es) (fun o => ∀ q, o = some q → q.Checkable)
  | [], _ => .ok fun q hq => by cases hq
  | (k, v) :: es, h => by
    obtain ⟨hkv, h⟩ := List.forall_mem_cons.mp h
    unfold itemsIn
    split
    · split
      · refine (ofValue_checkable none hkv.2).bind fun p hp => .ok fun q hq => ?_
        cases hq
        exact hp
      · exact .ok fun q hq => by cases hq
    · exact itemsIn_checkable h
end

end Property

/-! ## Servers -/

def Tool.Checkable (t : Tool) : Prop := ∀ e ∈ t.inputSchema.properties, e.2.Checkable

section
variable {d : Description} (h : ∀ s ∈ d.allSchemas, Representable (.map s))
include h

theorem toolOf_checkable {e : Endpoint} (he : e ∈ d.endpoints) : Gives (toolOf d e) Tool.Checkable := by
  have hinputs : ∀ v ∈ e.inputSchemas, Representable v := by
    refine inputSchemas_each (fun s hs => h s ?_) fun schema fields hschema hproperties field hfield => ?_
    · exact List.mem_append_right _ (List.mem_flatMap.mpr ⟨e, he, hs⟩)
    · have hfields : Representable (.map fields) := hschema.part (.of_entry (Entries.mem_of_get? hproperties))
      exact hfields.part (.of_entry hfield)
  unfold toolOf
  have hgather := gather_each fun v hv description => Property.ofValue_checkable description (hinputs v hv)
  refine hgather.bind fun i hi => ?_
  exact Gives.any fun required => .ok hi.properties

theorem ofDescription_checkable : Gives (Config.ofDescription d) (fun c => ∀ t ∈ c.tools, t.Checkable) := by
  refine (mapped_ofDescription d).mono fun c hc t ht => ?_
  obtain ⟨e, he, u, hu, heq⟩ := exists_of_forall₂ hc t ht
  have hcheckable : u.Checkable := toolOf_checkable h (List.mem_of_mem_filter he) u hu
  rw [heq]
  exact hcheckable

end

/-- Of the tools of one name, all enumerations that differ can be told apart. -/
def Config.EnumsTold (old new : Config) : Prop :=
  ∀ t ∈ old.tools, ∀ u ∈ new.tools, t.name = u.name → Diff.EnumsTold t.inputSchema u.inputSchema.properties

theorem Config.enumsTold_of_checkable {old new : Config} (hold : ∀ t ∈ old.tools, t.Checkable)
    (hnew : ∀ t ∈ new.tools, t.Checkable) : old.EnumsTold new := by
  intro t ht u hu _
  exact Diff.enumsTold_of_representable (fun e he => (hold t ht e he).enum) fun e he => (hnew u hu e he).enum

theorem compareConfigs_isOk_iff {old new : Config} (hold : (old.tools.map (·.name)).Nodup)
    (hnew : (new.tools.map (·.name)).Nodup) : (∃ diff, compareConfigs old new = .ok diff) ↔ old.EnumsTold new := by
  rw [Diff.compareConfigs_isOk, Diff.comparable_iff]
  constructor
  · intro h t ht u hu hname
    exact h t.name t u (Config.toolNamed_of_mem hold ht) (hname ▸ Config.toolNamed_of_mem hnew hu)
  · intro h name t u ht hu
    have hname : t.name = u.name := (Config.toolNamed_name ht).trans (Config.toolNamed_name hu).symm
    exact h t (Config.toolNamed_mem ht) u (Config.toolNamed_mem hu) hname

/-- **Which mapped servers can be generated and compared.** In Python a server can be generated if and only if no
integer among the choices that are spelled out has too many digits, and in TypeScript if and only if JSON represents
the choices of its inputs. Two versions can be compared if and only if JSON represents the choices that differ. No
document that JSON represents stands in the way of any of these. -/
theorem rendered_iff {old new : String} {d e : Description} {ws vs : List String} {a b : Config}
    (hold : parse old = .ok (.parsed d ws)) (hnew : parse new = .ok (.parsed e vs))
    (ha : Config.ofDescription d = .ok a) (hb : Config.ofDescription e = .ok b) :
    (∀ c ∈ [a, b], (∃ files, project .python c = .ok files) ↔ c.Annotated) ∧
    (∀ c ∈ [a, b], (∃ files, project .typescript c = .ok files) ↔ c.Checkable) ∧
    ((∃ diff, compareConfigs a b = .ok diff) ↔ a.EnumsTold b) ∧
    (RepresentableText old → RepresentableText new →
      (∀ c ∈ [a, b], ∀ l, ∃ files, project l c = .ok files) ∧ ∃ diff, compareConfigs a b = .ok diff) := by
  have hpython : ∀ c, (∃ files, project .python c = .ok files) ↔ c.Annotated := fun c => Emit.Python.files_isOk
  have htypescript : ∀ c, (∃ files, project .typescript c = .ok files) ↔ c.Checkable :=
    fun c => Emit.TypeScript.files_isOk
  have hcompare := compareConfigs_isOk_iff (nodup_ofDescription d a ha) (nodup_ofDescription e b hb)
  refine ⟨fun c _ => hpython c, fun c _ => htypescript c, hcompare, fun htext htext' => ?_⟩
  have hcheckable : ∀ t ∈ a.tools, t.Checkable := ofDescription_checkable (parse_representable htext hold) a ha
  have hcheckable' : ∀ t ∈ b.tools, t.Checkable := ofDescription_checkable (parse_representable htext' hnew) b hb
  have henabled : ∀ c ∈ [a, b], c.Checkable := by
    intro c hc t ht
    have ht : t ∈ c.tools := List.mem_of_mem_filter ht
    rcases List.mem_pair.mp hc with rfl | rfl
    · exact hcheckable t ht
    · exact hcheckable' t ht
  refine ⟨fun c hc l => ?_, hcompare.mpr (Config.enumsTold_of_checkable hcheckable hcheckable')⟩
  cases l with
  | python => exact (hpython c).mpr (henabled c hc).annotated
  | typescript => exact (htypescript c).mpr (henabled c hc)

def dated : Value := .map [
  (.text "openapi", .text "3.0.0"),
  (.text "paths", .map [(.text "/a", .map [(.text "get", .map [(.text "parameters", .list [.map [
    (.text "name", .text "q"),
    (.text "schema", .map [(.text "enum", .list [.scalar (.date ⟨2024, 1, 1⟩)])])]])])])])]

def datedText : String :=
  "openapi: 3.0.0\npaths:\n  /a:\n    get:\n      parameters: [\x7bname: q, schema: \x7benum: [2024-01-01]\x7d\x7d]\n"

theorem load_dated : load datedText = .ok dated := by decide +kernel

theorem rendered_iff_dated : ∃ d ws e vs a b, parse Composition.searchText = .ok (.parsed d ws) ∧
    parse datedText = .ok (.parsed e vs) ∧ Config.ofDescription d = .ok a ∧ Config.ofDescription e = .ok b ∧
    b.Annotated ∧ a.Checkable ∧ ¬ b.Checkable ∧
    ((∃ diff, compareConfigs a b = .ok diff) ↔ a.EnumsTold b) := by
  obtain ⟨d, ws, a, hold, ha, hwritten⟩ := Composition.exists_mapped Composition.searchText
    (P := fun c => (project .typescript c).isOk) (by
      rw [parse_of_load Composition.load_search]
      decide +kernel)
  obtain ⟨e, vs, b, hnew, hb, hgenerated⟩ := Composition.exists_mapped datedText
    (P := fun c => (project .python c).isOk && !(project .typescript c).isOk) (by
      rw [parse_of_load load_dated]
      decide +kernel)
  obtain ⟨hpython, htypescript, hcompare, -⟩ := rendered_iff hold hnew ha hb
  obtain ⟨hwritten', hrefused⟩ := Bool.and_eq_true_iff.mp hgenerated
  refine ⟨d, ws, e, vs, a, b, hold, hnew, ha, hb, ?_, ?_, fun hcheckable => ?_, hcompare⟩
  · exact (hpython b (by simp)).mp (exists_ok hwritten')
  · exact (htypescript a (by simp)).mp (exists_ok hwritten)
  · obtain ⟨files, hfiles⟩ := (htypescript b (by simp)).mpr hcheckable
    rw [hfiles] at hrefused
    cases hrefused

end ToolServer
