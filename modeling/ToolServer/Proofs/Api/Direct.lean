import ToolServer.Proofs.Api.Stages
import ToolServer.Proofs.Document.Identity
import ToolServer.Proofs.Reference.Settled

/-!
# Descriptions without indirection

Every schema that is read from a regular document is direct: it was resolved, flattened, and then checked
to be keyed by texts. The work keeps what is remembered free of references.
-/

namespace ToolServer.Api

open Document Schema
open Reference (Regular SettlesTo closed_settlesTo regularEntry_text_iff regular_of_settled)

/-! ## Parts of regular nodes -/

section
variable {root : Value}

theorem regular_scalar (s : Scalar) : Regular root (.scalar s) where
  entries := .of_scalar s
  pairs a b h := by cases h

theorem regular_nothing : Regular root noEntries := by
  apply regular_of_settled
  exact EachEntry.map_iff.mpr fun e he => by cases he

theorem regular_none : Regular root (.list []) := by
  apply regular_of_settled
  exact EachEntry.list_iff.mpr fun v hv => by cases hv

theorem elements_regular {v : Value} (h : Regular root v) :
    Gives v.elements (fun vs => ∀ w ∈ vs, Regular root w) := by
  refine (Value.elements_within _).mono fun vs hvs w hw => ?_
  rcases hvs w hw with hw | ⟨s, rfl⟩
  · exact h.part hw
  · exact regular_scalar s

/-! ## Schemas -/

theorem textKeyed_direct {s t : Entries} (hs : Flattened (.map s)) (ht : textKeyed? s = some t) :
    Direct t := by
  obtain ⟨ps, hps, rfl⟩ := Option.map_eq_some_iff.mp ht
  have hmem : ∀ p ∈ ps, ∃ e ∈ s, ∃ n, keyText? e.1 = some n ∧ p = (.text n, e.2) := by
    intro p hp
    obtain ⟨e, he, h⟩ := mem_of_mapM hps p hp
    obtain ⟨n, hn, h⟩ := Option.map_eq_some_iff.mp h
    exact ⟨e, he, n, hn, h.symm⟩
  have hkeys : ∀ p ∈ ps, ∀ k, (p.1 == k) = true → p.1 = k := by
    intro p hp k hk
    obtain ⟨e, -, n, -, rfl⟩ := hmem p hp
    exact Scalar.eq_of_text_beq hk
  refine (flattened_map_iff.mpr fun p hp => ?_).direct
  obtain ⟨e, he, n, hn, rfl⟩ := hmem p (Ordered.mem_of_mem_ofPairs hkeys hp)
  have hf := flattened_map_iff.mp hs e he
  by_cases hw : n ∈ words
  · rw [← hf.spelled n hw hn]
    exact hf
  · exact .of_other hw hf.no_ref

theorem objectSchema_flattened : Flattened (.map objectSchema) :=
  flattened_map_iff.mpr fun e he => by
    obtain rfl := List.mem_singleton.mp he
    exact .of_other (by decide) (.of_scalar _)

theorem textSchema_flattened : Flattened (.map [(.text "type", .text "string")]) :=
  flattened_map_iff.mpr fun e he => by
    obtain rfl := List.mem_singleton.mp he
    exact .of_other (by decide) (.of_scalar _)

end

/-! ## Documents -/

def directStages {root : Value} (hroot : Regular root root) : Stages root where
  node := Regular root
  found := Settled
  flat s := Flattened (.map s)
  stored := Direct
  held _ := True
  resolves := SettlesTo root
  null := regular_scalar _
  none := regular_none
  nothing := regular_nothing
  part := Regular.part
  elements := elements_regular
  closed := closed_settlesTo hroot
  resolve hv hw := (hw hv).1
  again := regular_of_settled
  flatten hv := (flatten_flattened hv).mono fun _ hw _ h => h ▸ hw
  object := objectSchema_flattened
  text := textSchema_flattened
  store := textKeyed_direct
  hold _ _ := trivial

/-- **Stored schemas are direct.** The documents may be cyclic, their references lead nowhere, and their nodes
stand below the greatest depth. -/
theorem parse_schemas_direct {text : String} {doc : Value} {d : Description} {ws : List String}
    (hload : load text = .ok doc) (hdoc : Regular doc doc) (h : parse text = .ok (.parsed d ws)) :
    ∀ s ∈ d.allSchemas, Direct s :=
  (parseDocument_stocks (directStages hdoc) hdoc (parse_of_load hload ▸ h)).schemas

def loop : Value := .map [
  (.text "openapi", .text "3."),
  (.text "paths", .map []),
  (.text "components", .map [(.text "schemas", .map [
    (.text "A", .map [(.text "allOf", .list [.map [(.text "$ref", .text "#/components/schemas/A")]])])])])]

def loopText : String :=
  "\x7b\"openapi\":\"3.\",\"paths\":\x7b\x7d,\"components\":\x7b\"schemas\":\x7b\"A\":\x7b\"allOf\":" ++
    "[\x7b\"$ref\":\"#/components/schemas/A\"\x7d]\x7d\x7d\x7d\x7d"

theorem regular_loop : Regular loop loop where
  entries := by simp [loop, EachEntry.map_iff, EachEntry.list_iff, regularEntry_text_iff, EachEntry.of_scalar]
  pairs a b hab := by simp [loop, Within.map_iff, Within.list_iff] at hab

def ParseResult.isParsed : ParseResult → Bool
  | .parsed .. => true
  | .refused .. => false

theorem parse_schemas_direct_loop : ∃ d ws, load loopText = .ok loop ∧ Regular loop loop ∧
    parse loopText = .ok (.parsed d ws) ∧ ∀ s ∈ d.allSchemas, Direct s := by
  have hload : load loopText = .ok loop := by decide +kernel
  have hparsed : (parse loopText).map ParseResult.isParsed = .ok true := by
    rw [parse_of_load hload]
    decide +kernel
  cases h : parse loopText with
  | error f => rw [h] at hparsed; cases hparsed
  | ok r =>
    cases r with
    | refused path message => rw [h] at hparsed; cases hparsed
    | parsed d ws => exact ⟨d, ws, hload, regular_loop, rfl, parse_schemas_direct hload regular_loop h⟩

end ToolServer.Api
