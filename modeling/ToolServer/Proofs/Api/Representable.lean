import ToolServer.Proofs.Api.Fit
import ToolServer.Proofs.Json.Representable

/-!
# Descriptions of documents that JSON represents

Dates, bytes and sets come only with a document that has some: resolving, flattening and storing bring none in.
So JSON represents all schemas of a description if it represents the document, as it does that of every JSON
text.
-/

namespace ToolServer.Json

open Document (Value Scalar Entries Within)

def RepresentableEntry (e : Scalar × Value) : Prop := RepresentableScalar e.1 ∧ Representable e.2

theorem representable_map_iff {es : Entries} : Representable (.map es) ↔ ∀ e ∈ es, RepresentableEntry e :=
  ⟨fun | .map hkeys hvalues => fun e he => ⟨hkeys e he, hvalues e he⟩,
    fun h => .map (fun e he => (h e he).1) fun e he => (h e he).2⟩

theorem representable_putAll {m more : Entries} (hm : ∀ e ∈ m, RepresentableEntry e)
    (hmore : ∀ e ∈ more, RepresentableEntry e) : ∀ e ∈ Ordered.putAll m more, RepresentableEntry e :=
  Ordered.mem_putAll (P := RepresentableScalar) (Q := Representable) hm hmore

theorem Data.representable {number : Decimal.Double → Prop} {v : Value} (h : Data number v) : Representable v := by
  induction h with
  | list _ ih => exact .list ih
  | map hkeys _ _ ih =>
    refine .map (fun e he => ?_) ih
    obtain ⟨name, hname⟩ := hkeys e he
    exact hname ▸ trivial
  | int hdigits => exact .scalar hdigits
  | _ => exact .scalar trivial

namespace Representable

variable {v w : Value}

theorem part (h : Representable v) (hw : Within v w) : Representable w := by
  induction hw with
  | refl => exact h
  | item hv _ ih =>
    cases h with
    | list hvs => exact ih (hvs _ hv)
  | entry he _ ih =>
    cases h with
    | map _ hvalues => exact ih (hvalues _ he)
  | first _ ih =>
    cases h with
    | pair ha _ => exact ih ha
  | second _ ih =>
    cases h with
    | pair _ hb => exact ih hb

theorem elements (h : Representable v) : Gives v.elements (fun vs => ∀ w ∈ vs, Representable w) := by
  cases h with
  | list hvs => exact .ok hvs
  | map hkeys _ => exact .ok (List.forall_mem_map.mpr fun e he => .scalar (hkeys e he))
  | pair ha hb => exact .ok (by simp [ha, hb])
  | @scalar s hs =>
    cases s with
    | text s => exact .ok (List.forall_mem_map.mpr fun c _ => .scalar trivial)
    | bytes bs => exact hs.elim
    | _ => exact .error _

theorem toKey (h : Representable v) : Gives v.toKey RepresentableScalar := by
  cases h with
  | scalar hs => exact .ok hs
  | _ => exact .error _

theorem toEntry (h : Representable v) : Gives v.toEntry RepresentableEntry := by
  unfold Value.toEntry
  refine h.elements.bind fun vs hvs => ?_
  split
  · rename_i a b
    obtain ⟨ha, hb, -⟩ := List.forall_mem_cons.mp hvs |>.imp_right List.forall_mem_cons.mp
    exact ha.toKey.bind fun k hk => .ok ⟨hk, hb⟩
  · exact .error _

theorem toEntries (h : Representable v) : Gives v.toEntries (fun es => ∀ e ∈ es, RepresentableEntry e) := by
  unfold Value.toEntries
  split
  · exact .ok (representable_map_iff.mp h)
  · refine h.elements.bind fun vs hvs => (Gives.mapM fun w hw => (hvs w hw).toEntry).bind fun es hes => .ok ?_
    exact representable_putAll (List.forall_mem_nil _) hes

end Representable

end ToolServer.Json

namespace ToolServer.Reference

open Document
open Json (Representable RepresentableScalar RepresentableEntry)

theorem representable_placeholder (r : String) : Representable (placeholder r) := by
  refine Json.representable_map_iff.mpr fun e he => ?_
  simp only [List.mem_cons, List.not_mem_nil, or_false] at he
  rcases he with rfl | rfl <;> exact ⟨trivial, .scalar trivial⟩

/-- Resolving brings in nothing that JSON does not represent, if all of the document is represented. -/
theorem closed_representable {root : Value} (hroot : Representable root) :
    Closed root fun v w => Representable v → Representable w where
  leaf _ := fun h => h
  list hws := fun h => by
    refine .list fun w hw => ?_
    obtain ⟨v, hv, hvw, -⟩ := exists_of_forall₂ hws w hw
    exact hvw (h.part (.of_item hv))
  map {es es' fs} hsub _ hfs := fun h => by
    refine Json.representable_map_iff.mpr fun f hf => ?_
    obtain ⟨e, he, hkey, hef⟩ := exists_of_forall₂ hfs f hf
    obtain ⟨hk, hv⟩ : RepresentableEntry e := Json.representable_map_iff.mp h e (hsub.mem he)
    exact ⟨hkey ▸ hk, hef hv⟩
  ref _ hf hw := fun _ => hw (hroot.part (within_of_follow hf))
  placeholder {r _} _ := fun _ => representable_placeholder r

end ToolServer.Reference

namespace ToolServer.Schema

open Document
open Json (Representable RepresentableScalar RepresentableEntry)

def representableLaw : Law where
  before := Representable
  given := RepresentableEntry
  after := Representable
  entry := RepresentableEntry
  property := RepresentableEntry
  name := Representable
  items h _ hv := h.part (.of_item hv)
  entries := Json.representable_map_iff.mp
  value h := h.2
  other h _ := h
  map := Json.representable_map_iff
  unchanged h _ _ := h
  single h _ _ hw := ⟨h.1, hw⟩
  choice h _ _ hws := ⟨h.1, .list hws⟩
  member h hw := ⟨h.1, hw⟩
  properties h := ⟨trivial, Json.representable_map_iff.mpr h⟩
  declared h := h.2.toEntries
  put h h' := ⟨h.1, h'.2⟩
  required h := ⟨trivial, .list h⟩
  names h := h.2.elements
  object := ⟨trivial, .scalar trivial⟩

end ToolServer.Schema

namespace ToolServer.Api

open Document
open Json (Representable RepresentableEntry)

theorem textKeyed_representable {s t : Entries} (hs : Representable (.map s)) (ht : textKeyed? s = some t) :
    Representable (.map t) := by
  obtain ⟨ps, hps, rfl⟩ := Option.map_eq_some_iff.mp ht
  refine Json.representable_map_iff.mpr (Json.representable_putAll (List.forall_mem_nil _) fun p hp => ?_)
  obtain ⟨e, he, h⟩ := mem_of_mapM hps p hp
  obtain ⟨name, -, rfl⟩ := Option.map_eq_some_iff.mp h
  exact ⟨trivial, (Json.representable_map_iff.mp hs e he).2⟩

theorem representable_type (type : String) : Representable (.map [(.text "type", .text type)]) :=
  Json.representable_map_iff.mpr fun _ he => List.mem_singleton.mp he ▸ ⟨trivial, .scalar trivial⟩

def representableStages {root : Value} (hroot : Representable root) : Stages root where
  node := Representable
  found := Representable
  flat s := Representable (.map s)
  stored s := Representable (.map s)
  held fs := Representable (.map fs)
  resolves v w := Representable v → Representable w
  null := .scalar trivial
  none := .list (List.forall_mem_nil _)
  nothing := .map (List.forall_mem_nil _) (List.forall_mem_nil _)
  part := Representable.part
  elements := Representable.elements
  closed := Reference.closed_representable hroot
  resolve hv hw := hw hv
  again h := h
  flatten h := (Schema.representableLaw.flatten_after h).mono fun _ hw _ he => he ▸ hw
  object := representable_type "object"
  text := representable_type "string"
  store := textKeyed_representable
  hold := textKeyed_representable

def RepresentableText (text : String) : Prop := ∀ doc, load text = .ok doc → Representable doc

theorem RepresentableText.of_json {text : String} (h : detectFormat text = .json) : RepresentableText text :=
  fun doc hload => (load_read h doc hload).representable

theorem parse_representable {text : String} (htext : RepresentableText text) {d : Description} {ws : List String}
    (h : parse text = .ok (.parsed d ws)) : ∀ s ∈ d.allSchemas, Representable (.map s) := by
  unfold parse parseWith at h
  split at h
  · rename_i doc hload
    have hdoc : Representable doc := htext doc hload
    exact (parseDocument_stocks (representableStages hdoc) hdoc h).schemas
  · cases h
  · cases h

end ToolServer.Api
