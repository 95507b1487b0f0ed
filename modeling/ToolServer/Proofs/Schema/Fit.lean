import ToolServer.Api.Records
import ToolServer.Proofs.Json.Data
import ToolServer.Proofs.Schema.Flattening

/-!
# Schemas of JSON data

Finite JSON data is tidy if the lists under `required` in it are lists of texts. Flattening brings schemas out
of their places; where none stands, tidy data stays.
-/

namespace ToolServer.Schema

open Document
open Json (FiniteData TextKeys)

def TextItems (v : Value) : Prop := ∀ vs, v = .list vs → ∀ w ∈ vs, ∃ s, w = .text s

structure Tidy (v : Value) : Prop where
  data : FiniteData v
  required : EachEntry (fun e => e.1 = .text "required" → TextItems e.2) v

structure FitKey (e : Scalar × Value) : Prop where
  key : ∃ name, e.1 = .text name
  data : (∀ name ∈ schemaPlaces, e.1 ≠ .text name) → FiniteData e.2
  required : e.1 = .text "required" → TextItems e.2
  properties : e.1 = .text "properties" → (∃ ps, e.2 = .map ps) ∨ Tidy e.2

def Fit (v : Value) : Prop := ∀ es, Position v (.map es) → ∀ e ∈ es, FitKey e

structure FitEntry (e : Scalar × Value) : Prop extends FitKey e where
  held : ∀ v, Holds e v → Fit v

theorem fit_map_iff {es : Entries} : Fit (.map es) ↔ ∀ e ∈ es, FitEntry e := by
  constructor
  · exact fun h e he => ⟨h es .root e he, fun v hv fs hfs => h fs (.inner he hv hfs)⟩
  · intro h fs hfs
    cases hfs with
    | root => exact fun e he => (h e he).toFitKey
    | inner he hv hfs => exact (h _ he).held _ hv fs hfs

/-! ## Tidy data -/

namespace Tidy

variable {v w : Value}

theorem part (h : Tidy v) (hw : Within v w) : Tidy w where
  data := h.data.part hw
  required := h.required.part hw

theorem text (s : String) : Tidy (.text s) where
  data := .text s
  required := .of_scalar _

theorem key {es : Entries} (h : Tidy (.map es)) {e : Scalar × Value} (he : e ∈ es) : ∃ name, e.1 = .text name := by
  cases h.data with
  | map hkeys _ _ => exact hkeys e he

theorem elements (h : Tidy v) : Gives v.elements (fun vs => ∀ w ∈ vs, Tidy w) :=
  h.data.elements.mono fun vs hvs w hw => by
    rcases hvs w hw with hw | ⟨s, rfl⟩
    · exact h.part hw
    · exact text s

theorem toEntry (h : Tidy v) : Gives v.toEntry (fun e => Tidy e.2) := by
  unfold Value.toEntry
  refine h.elements.bind fun vs hvs => ?_
  split
  · rename_i k w
    exact Gives.any fun k => .ok (hvs w (by simp))
  · exact .error _

theorem toEntries (h : Tidy v) : Gives v.toEntries (fun es => ∀ e ∈ es, Tidy e.2) := by
  unfold Value.toEntries
  split
  · exact .ok fun e he => h.part (.of_entry he)
  · refine h.elements.bind fun vs hvs => (Gives.mapM fun w hw => (hvs w hw).toEntry).bind fun es hes => .ok ?_
    have hall := Ordered.mem_putAll (P := fun _ : Scalar => True) (m := []) (fun e he => by cases he)
      fun e he => ⟨trivial, hes e he⟩
    exact fun e he => (hall e he).2

theorem fit (h : Tidy v) : Fit v := by
  intro es hes e he
  have htidy : Tidy (.map es) := h.part hes.within
  exact ⟨htidy.key he, fun _ => (htidy.part (.of_entry he)).data, htidy.required es .refl e he,
    fun _ => .inr (htidy.part (.of_entry he))⟩

end Tidy

theorem elements_texts {v : Value} (h : FiniteData v) (hv : TextItems v) :
    Gives v.elements (fun vs => ∀ w ∈ vs, ∃ s, w = .text s) := by
  cases h with
  | list _ => exact .ok (hv _ rfl)
  | map hkeys _ _ =>
    refine .ok (List.forall_mem_map.mpr fun e he => ?_)
    obtain ⟨name, hname⟩ := hkeys e he
    exact ⟨name, congrArg Value.scalar hname⟩
  | text s => exact .ok (List.forall_mem_map.mpr fun c _ => ⟨_, rfl⟩)
  | _ => exact .error _

/-! ## Entries -/

namespace FitEntry

variable {k : Scalar} {name : String} {v : Value} {vs ws : List Value} {ps : Entries}

/-- The entry stands for itself. -/
theorem of_other (hname : name ∉ schemaPlaces) (hrequired : name ≠ "required") (hv : FiniteData v) :
    FitEntry (.text name, v) where
  key := ⟨name, rfl⟩
  data _ := hv
  required h := absurd (Scalar.text.inj h) hrequired
  properties h := by
    obtain rfl := Scalar.text.inj h
    exact absurd (by decide) hname
  held w hw := absurd hw.place hname

theorem of_tidy (hkey : ∃ name, k = .text name) (hrequired : k = .text "required" → TextItems v) (hv : Tidy v) :
    FitEntry (k, v) where
  key := hkey
  data _ := hv.data
  required := hrequired
  properties _ := .inr hv
  held _ hw := (hv.part hw.within).fit

/-- A key under which schemas stand, if it is not that of properties. -/
theorem of_place (hname : name ∈ schemaKeys ++ schemaListKeys) (hheld : ∀ w, Holds (.text name, v) w → Fit w) :
    FitEntry (.text name, v) where
  key := ⟨name, rfl⟩
  data h := absurd rfl (h name (List.mem_cons_of_mem _ hname))
  required h := by
    obtain rfl := Scalar.text.inj h
    exact absurd hname (by decide)
  properties h := by
    obtain rfl := Scalar.text.inj h
    exact absurd hname (by decide)
  held := hheld

theorem of_single (hname : name ∈ schemaKeys) (hv : Fit v) : FitEntry (.text name, v) := by
  refine of_place (List.mem_append_left _ hname) fun u hu => ?_
  have hplaces : "properties" ∉ schemaKeys ∧ ∀ key ∈ schemaKeys, key ∉ schemaListKeys := by decide
  cases hu with
  | property _ => exact absurd hname hplaces.1
  | single _ => exact hv
  | choice h _ => exact absurd h (hplaces.2 _ hname)

theorem of_choice (hname : name ∈ schemaListKeys) (hws : ∀ w ∈ ws, Fit w) : FitEntry (.text name, .list ws) := by
  refine of_place (List.mem_append_right _ hname) fun u hu => ?_
  have hplaces : ∀ key ∈ schemaListKeys, key ∉ schemaKeys := by decide
  cases hu with
  | single h => exact absurd h (hplaces _ hname)
  | choice _ hu => exact hws _ hu

theorem of_properties (h : ∀ p ∈ ps, Fit p.2) : FitEntry (.text "properties", .map ps) where
  key := ⟨_, rfl⟩
  data h := absurd rfl (h "properties" (by decide))
  required h := absurd (Scalar.text.inj h) (by decide)
  properties _ := .inl ⟨ps, rfl⟩
  held v hv := by
    cases hv with
    | property hp => exact h _ hp
    | single h => exact absurd h (by decide)

theorem declared (h : FitEntry (.text "properties", v)) : Gives v.toEntries (fun ps => ∀ p ∈ ps, Fit p.2) := by
  rcases h.properties rfl with ⟨ps, rfl⟩ | hv
  · exact .ok fun p hp => h.held _ (.property hp)
  · exact hv.toEntries.mono fun ps hps p hp => (hps p hp).fit

theorem of_required (h : ∀ w ∈ vs, ∃ s, w = .text s) : FitEntry (.text "required", .list vs) where
  key := ⟨_, rfl⟩
  data _ := .list fun w hw => by
    obtain ⟨s, rfl⟩ := h w hw
    exact .text s
  required _ := by
    rintro _ ⟨⟩
    exact h
  properties h := absurd (Scalar.text.inj h) (by decide)
  held w hw := absurd hw.place (by decide)

theorem names (h : FitEntry (.text "required", v)) : Gives v.elements (fun vs => ∀ w ∈ vs, ∃ s, w = .text s) :=
  elements_texts (h.data fun name hname he => absurd (Scalar.text.inj he ▸ hname) (by decide)) (h.required rfl)

end FitEntry

/-! ## Flattening -/

def fitLaw : Law where
  before := Tidy
  given e := (∃ name, e.1 = .text name) ∧ (e.1 = .text "required" → TextItems e.2) ∧ Tidy e.2
  after := Fit
  entry := FitEntry
  property p := Fit p.2
  name v := ∃ s, v = .text s
  items h v hv := h.part (.of_item hv)
  entries h e he := ⟨h.key he, h.required _ .refl e he, h.part (.of_entry he)⟩
  value h := h.2.2
  other h _ := h.fit
  map := fit_map_iff
  unchanged h _ _ := .of_tidy h.1 h.2.1 h.2.2
  single h _ hs hw := by
    obtain ⟨⟨name, rfl⟩, -⟩ := h
    exact .of_single (Law.isOneOf_text.mp hs) hw
  choice h _ hl hws := by
    obtain ⟨⟨name, rfl⟩, -⟩ := h
    exact .of_choice (Law.isOneOf_text.mp hl) hws
  member _ hw := hw
  properties := .of_properties
  declared h := h.declared
  put _ h := h
  required := .of_required
  names h := h.names
  object := .of_other (by decide) (by decide) (.text _)

theorem flatten_fit {v : Value} (h : Tidy v) : Gives (flatten v) Fit := fitLaw.flatten_after h

theorem textKeyed_fit {s t : Entries} (hs : Fit (.map s)) (ht : Api.textKeyed? s = some t) : Fit (.map t) := by
  obtain ⟨ps, hps, rfl⟩ := Option.map_eq_some_iff.mp ht
  have hps : ∀ p ∈ ps, p ∈ s := by
    intro p hp
    obtain ⟨e, he, h⟩ := mem_of_mapM hps p hp
    obtain ⟨name, hname⟩ := (fit_map_iff.mp hs e he).key
    rw [hname] at h
    cases h
    exact (Prod.ext hname rfl : e = (.text name, e.2)) ▸ he
  have hkeys : ∀ p ∈ ps, ∀ k, (p.1 == k) = true → p.1 = k := by
    intro p hp k hk
    obtain ⟨name, hname⟩ := (fit_map_iff.mp hs p (hps p hp)).key
    rw [hname] at hk ⊢
    exact Scalar.eq_of_text_beq hk
  exact fit_map_iff.mpr fun p hp => fit_map_iff.mp hs p (hps p (Ordered.mem_of_mem_ofPairs hkeys hp))

end ToolServer.Schema
