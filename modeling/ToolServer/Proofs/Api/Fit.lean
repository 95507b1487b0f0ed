import ToolServer.Document.Source
import ToolServer.Proofs.Api.Stages
import ToolServer.Proofs.Reference.Tame

/-!
# Descriptions of JSON documents

What a description holds of a JSON document is finite data, and the names that its schemas require are texts,
if that is so of the document.
-/

namespace ToolServer.Api

open Document Schema
open Decimal (Double)
open Json (FiniteData TextKeys)
open Reference (StandsForTexts Tame TamesTo closed_tamesTo tame_text)

/-- A JSON text whose numbers are finite. What stands under `required`, or comes to stand there by references,
is no array or one of texts. -/
structure FitText (text : String) : Prop where
  json : detectFormat text = .json
  finite : ∀ doc, load text = .ok doc → ∀ x, Within doc (.real x) → x.Finite
  required : ∀ doc, load text = .ok doc →
    EachEntry (fun e => e.1 = .text "required" → StandsForTexts doc e.2) doc

theorem load_read {text : String} (h : detectFormat text = .json) : Gives (load text) Json.Read := by
  intro doc hload
  unfold load at hload
  rw [h] at hload
  dsimp only at hload
  unfold ofJson at hload
  split at hload
  · rename_i v hread
    cases hload
    exact Json.read_data text doc hread
  · cases hload
  · cases hload
  · cases hload

theorem FitText.tame {text : String} (h : FitText text) {doc : Value} (hload : load text = .ok doc) :
    Tame doc doc where
  data := (load_read h.json doc hload).restrict (h.finite doc hload)
  required := h.required doc hload

theorem mapM_textKeys : ∀ {s : Entries}, TextKeys s →
    s.mapM (fun e => (keyText? e.1).map fun name => (Scalar.text name, e.2)) = some s
  | [], _ => rfl
  | e :: s, h => by
    obtain ⟨⟨name, hname⟩, h⟩ := List.forall_mem_cons.mp h
    rw [List.mapM_cons, mapM_textKeys h, hname]
    exact congrArg (fun e => some (e :: s)) (Prod.ext hname.symm rfl)

theorem textKeyed_same {s t : Entries} (hs : FiniteData (.map s)) (ht : textKeyed? s = some t) : t = s := by
  cases hs with
  | map hkeys hdistinct _ =>
    rw [textKeyed?, mapM_textKeys hkeys] at ht
    cases ht
    exact Ordered.ofPairs_of_distinct hdistinct

section
variable {root : Value}

theorem tame_null : Tame root .null where
  data := .null
  required := .of_scalar _

theorem tame_none : Tame root (.list []) where
  data := .list fun v hv => by cases hv
  required := EachEntry.list_iff.mpr fun v hv => by cases hv

theorem tame_nothing : Tame root noEntries where
  data := .map (fun e he => by cases he) .nil fun e he => by cases he
  required := EachEntry.map_iff.mpr fun e he => by cases he

theorem typeSchema_fit (type : String) : Fit (.map [(.text "type", .text type)]) :=
  fit_map_iff.mpr fun e he => by
    obtain rfl := List.mem_singleton.mp he
    exact .of_other (by decide) (by decide) (.text type)

def fitStages (hroot : Tame root root) : Stages root where
  node := Tame root
  found := Tame root
  flat s := Fit (.map s)
  stored s := Fit (.map s)
  held fs := FiniteData (.map fs)
  resolves := TamesTo root
  null := tame_null
  none := tame_none
  nothing := tame_nothing
  part := Tame.part
  elements := Tame.elements
  closed := closed_tamesTo hroot
  resolve hv hw := hw.tame hv
  again h := h
  flatten h := (flatten_fit h.tidy).mono fun _ hw _ he => he ▸ hw
  object := typeSchema_fit "object"
  text := typeSchema_fit "string"
  store := textKeyed_fit
  hold h ht := textKeyed_same h.data ht ▸ h.data

end

structure Description.Fit (d : Description) : Prop where
  schemas : ∀ s ∈ d.allSchemas, Schema.Fit (.map s)
  flows : ∀ s ∈ d.schemes, ∀ fs, s.flows = some fs → FiniteData (.map fs)

theorem parse_fit {text : String} (htext : FitText text) {d : Description} {ws : List String}
    (h : parse text = .ok (.parsed d ws)) : d.Fit := by
  unfold parse parseWith at h
  split at h
  · rename_i doc hload
    have htame : Tame doc doc := htext.tame hload
    have hstocks := parseDocument_stocks (fitStages htame) htame h
    exact ⟨hstocks.schemas, hstocks.flows⟩
  · cases h
  · cases h

end ToolServer.Api
