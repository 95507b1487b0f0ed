import ToolServer.Proofs.Form
import ToolServer.Proofs.Tool.Equality
import ToolServer.Proofs.Tool.Plain
import ToolServer.Tool.Form

/-!
# Writing and reading back

A plain tool server that is written is read back as one that equals it. A limit that is a truth value comes
back as a number.
-/

namespace ToolServer

open Document Api Form
open Json (FiniteData)

/-! ## Inputs -/

namespace Property

theorem toValue_eq (p : Property) : toValue p =
    .map (p.partsBefore ++ itemsPart p.items ++ propertiesPart p.properties ++ p.partsAfter) := by
  cases p
  rfl

@[simp] theorem get?_itemsPart (o : Option Property) (name : String) :
    Entries.get? (itemsPart o) name = if "items" = name then o.map toValue else none := by
  cases o <;> simp [itemsPart]

@[simp] theorem get?_propertiesPart (o : Option (List (String × Property))) (name : String) :
    Entries.get? (propertiesPart o) name =
      if "properties" = name then o.map fun ps => .map (toValues ps) else none := by
  cases o <;> simp [propertiesPart]

@[simp] theorem get?_defaultPart (v : Value) (name : String) :
    Entries.get? (if v.isNull then [] else part "default" v.plain) name =
      if "default" = name ∧ v.isNull = false then some v.plain else none := by
  split <;> simp_all

theorem itemsIn?_eq (es : Entries) : itemsIn? es = Form.optional ["items"] ofValue? es := by
  unfold Form.optional
  rw [part?_one]
  induction es with
  | nil => rw [itemsIn?]; rfl
  | cons e es ih =>
    obtain ⟨k, v⟩ := e
    unfold itemsIn? Entries.get? Ordered.get?
    split
    · cases v with
      | scalar s => cases s <;> rfl
      | _ => rfl
    · exact ih

def membersIn? : Value → Option (List (String × Property))
  | .map members => ofValues? members
  | _ => none

theorem propertiesIn?_eq (es : Entries) : propertiesIn? es = Form.optional ["properties"] membersIn? es := by
  unfold Form.optional
  rw [part?_one]
  induction es with
  | nil => rw [propertiesIn?]; rfl
  | cons e es ih =>
    obtain ⟨k, v⟩ := e
    unfold propertiesIn? Entries.get? Ordered.get?
    split
    · cases v with
      | scalar s => cases s <;> rfl
      | _ => rfl
    · exact ih

def readLimit : Scalar → Scalar
  | .bool b => .int (if b then 1 else 0)
  | s => s

theorem number_limitValue {s : Scalar} (h : PlainLimit s) :
    limitValue s ≠ .null ∧ Form.number (limitValue s) = some (readLimit s) := by
  cases h with
  | bool b => exact ⟨by simp [limitValue], rfl⟩
  | int n => exact ⟨by simp [limitValue], rfl⟩
  | real _ => exact ⟨by simp [limitValue], rfl⟩

theorem readLimit_beq {s : Scalar} (h : PlainLimit s) : (readLimit s == s) = true := by
  cases h with
  | bool b => exact beq_self_eq_true (if b then (1 : Int) else 0)
  | int n => exact beq_self_eq_true n
  | real hx => exact Decimal.Double.equals_self hx

section
variable {p : Property} (h : PlainParts p)
include h

theorem PlainParts.requiredTexts : ∃ o : Option (List String), p.required = o.map (·.map .text) := by
  cases hr : p.required with
  | none => exact ⟨none, rfl⟩
  | some vs =>
    choose! f hf using h.required vs hr
    refine ⟨some (vs.map f), congrArg some ?_⟩
    dsimp only
    rw [List.map_map]
    exact (List.map_id vs).symm.trans (List.map_congr_left hf)

theorem ofParts?_toValue {inner : Entries}
    (hinner : ∀ name, name ≠ "items" → name ≠ "properties" → Entries.get? inner name = none) :
    ofParts? (p.partsBefore ++ inner ++ p.partsAfter) = some { p with
      items := none, properties := none
      minimum := p.minimum.map readLimit, maximum := p.maximum.map readLimit } := by
  obtain ⟨names, hnames⟩ := h.requiredTexts
  have henum : ∀ vs, p.enum = some vs → Value.list (Value.plainItems vs) ≠ .null ∧
      Form.list some (.list (Value.plainItems vs)) = some vs := by
    intro vs hvs
    rw [Json.Data.plainItems_eq fun v hv => (h.enum vs hvs v hv).plain_eq]
    exact ⟨by simp, by simpa using list_eq (f := some) (g := id) fun v _ => rfl⟩
  have hrequired : (p.required.map fun l => Value.list (Value.plainItems l)) = names.map textList := by
    rw [hnames, Option.map_map]
    refine congrArg (Option.map · names) (funext fun l => congrArg Value.list (Json.Data.plainItems_eq ?_))
    simp [Value.plain, Scalar.plain]
  have hdefault : fieldOr ["default"] .null some (p.partsBefore ++ inner ++ p.partsAfter) = some p.default := by
    cases hnull : p.default.isNull with
    | false =>
      have hfound : part? ["default"] (p.partsBefore ++ inner ++ p.partsAfter) = some p.default.plain := by
        simp [partsBefore, hnull]
      exact fieldOr_eq hfound (congrArg some h.default.plain_eq)
    | true =>
      have hmissing : part? ["default"] (p.partsBefore ++ inner ++ p.partsAfter) = none := by
        simp [partsBefore, partsAfter, hinner, hnull]
      have heq : p.default = .null := by
        unfold Value.isNull at hnull
        split at hnull
        · assumption
        · cases hnull
      rw [fieldOr, hmissing, heq]
  unfold ofParts?
  rw [hdefault]
  unfold partsBefore partsAfter
  rw [field_eq (v := .text p.type) (a := p.type) (by simp) rfl, optional_text (o := p.description) (by simp [hinner]),
    optional_eq (o := p.enum) (k := id) (by simp [hinner]) henum,
    optional_eq (o := names) (k := id) (by simp [hinner, hrequired]) fun l _ => ⟨by simp [textList], textList_eq l⟩,
    optional_eq (o := p.minimum) (by simp [hinner]) fun s hs => number_limitValue (h.minimum s hs),
    optional_eq (o := p.maximum) (by simp [hinner]) fun s hs => number_limitValue (h.maximum s hs),
    optional_text (o := p.format) (by simp [hinner])]
  simp [hnames]

end

theorem sameParts_readLimit {p : Property} (h : PlainParts p) {items : Option Property}
    {properties : Option (List (String × Property))} : sameParts { p with
      items, properties, minimum := p.minimum.map readLimit, maximum := p.maximum.map readLimit } p = true := by
  obtain ⟨names, hnames⟩ := h.requiredTexts
  have henum : (p.enum == p.enum) = true := by
    cases he : p.enum with
    | none => rfl
    | some vs => exact beq_items_self (h.enum vs he)
  have hrequired : (p.required == p.required) = true := by
    cases hr : p.required with
    | none => rfl
    | some vs =>
      refine beq_items_self fun v hv => ?_
      obtain ⟨s, rfl⟩ := h.required vs hr v hv
      exact .text s
  have hlimit : ∀ o : Option Scalar, (∀ s, o = some s → PlainLimit s) → (o.map readLimit == o) = true := by
    intro o ho
    cases o with
    | none => rfl
    | some s => exact readLimit_beq (ho s rfl)
  have hdefault : (p.default == p.default) = true := h.default.same_self
  simp [sameParts, henum, hdefault, hrequired, hlimit p.minimum h.minimum, hlimit p.maximum h.maximum]

theorem same_iff {p q : Property} : same p q = true ↔
    sameParts p q = true ∧ sameItems p.items q.items = true ∧ sameProperties p.properties q.properties = true := by
  cases p
  rw [same, Bool.and_eq_true, Bool.and_eq_true, and_assoc]
  rfl

theorem toValues_eq : ∀ ps : List (String × Property), toValues ps = ps.map fun p => (.text p.1, toValue p.2)
  | [] => rfl
  | (name, p) :: ps => by rw [toValues, toValues_eq ps]; rfl

def memberIn? (e : Scalar × Value) : Option (String × Property) := do
  return (← Form.text (.scalar e.1), ← ofValue? e.2)

theorem ofValues?_eq (es : List (Scalar × Value)) : ofValues? es = es.mapM memberIn? := by
  induction es with
  | nil => rfl
  | cons e es ih =>
    obtain ⟨k, v⟩ := e
    rw [ofValues?, List.mapM_cons, ih, memberIn?]
    cases Form.text (.scalar k) with
    | none => rfl
    | some name => cases ofValue? v <;> rfl

theorem mapM_memberIn? {ps : List (String × Property)}
    (h : ∀ p ∈ ps, ∃ q, ofValue? (toValue p.2) = some q ∧ same q p.2 = true) :
    ∃ qs, (toValues ps).mapM memberIn? = some qs ∧
      List.Forall₂ (fun q p => q.1 = p.1 ∧ same q.2 p.2 = true) qs ps := by
  rw [toValues_eq]
  refine mapM_related fun p hp => ?_
  obtain ⟨q, hq, hsame⟩ := h p hp
  refine ⟨(p.1, q), ?_, rfl, hsame⟩
  rw [memberIn?, hq]
  rfl

theorem itemsIn?_related {es : Entries} {o : Option Property} (hes : Entries.get? es "items" = o.map toValue)
    (h : ∀ p, o = some p → ∃ q, ofValue? (toValue p) = some q ∧ same q p = true) :
    ∃ r, itemsIn? es = some r ∧ sameItems r o = true := by
  rw [itemsIn?_eq]
  cases o with
  | none => exact ⟨none, optional_none (by simp [hes]), by rw [sameItems]⟩
  | some p =>
    obtain ⟨q, hq, hsame⟩ := h p rfl
    refine ⟨some q, optional_some (v := toValue p) (by simp [hes]) (by simp [toValue_eq]) hq, ?_⟩
    rw [sameItems, hsame]

theorem propertiesIn?_related {es : Entries} {o : Option (List (String × Property))}
    (hes : Entries.get? es "properties" = o.map fun ps => .map (toValues ps))
    (hdistinct : ∀ ps, o = some ps → Ordered.Distinct ps)
    (h : ∀ ps, o = some ps → ∀ p ∈ ps, ∃ q, ofValue? (toValue p.2) = some q ∧ same q p.2 = true) :
    ∃ r, propertiesIn? es = some r ∧ sameProperties r o = true := by
  rw [propertiesIn?_eq]
  cases o with
  | none => exact ⟨none, optional_none (by simp [hes]), by rw [sameProperties]⟩
  | some ps =>
    obtain ⟨qs, hqs, hall⟩ := mapM_memberIn? (h ps rfl)
    rw [← ofValues?_eq] at hqs
    exact ⟨some qs, optional_some (v := .map (toValues ps)) (by simp [hes]) (by simp) hqs,
      sameProperties_of_forall₂ (hdistinct ps rfl) hall⟩

/-- **An input that is written is read back as an equal one.** -/
theorem ofValue?_toValue {p : Property} (h : Plain p) : ∃ q, ofValue? (toValue p) = some q ∧ same q p = true := by
  induction h with
  | @intro p hparts _ hdistinct _ ihItems ihProperties =>
    let inner := itemsPart p.items ++ propertiesPart p.properties
    have hinner : ∀ name, name ≠ "items" → name ≠ "properties" → Entries.get? inner name = none := by
      intro name hitems hproperties
      simp [inner, hitems.symm, hproperties.symm]
    have hgetItems : Entries.get? (p.partsBefore ++ inner ++ p.partsAfter) "items" = p.items.map toValue := by
      simp [inner, partsBefore, partsAfter]
    have hgetProperties : Entries.get? (p.partsBefore ++ inner ++ p.partsAfter) "properties" =
        p.properties.map fun ps => .map (toValues ps) := by
      simp [inner, partsBefore, partsAfter]
    obtain ⟨items, hitems, hsameItems⟩ := itemsIn?_related hgetItems ihItems
    obtain ⟨properties, hproperties, hsameProperties⟩ :=
      propertiesIn?_related hgetProperties hdistinct ihProperties
    have hvalue : toValue p = .map (p.partsBefore ++ inner ++ p.partsAfter) := by
      rw [toValue_eq, List.append_assoc p.partsBefore]
    rw [hvalue, ofValue?, ofParts?_toValue hparts hinner, hitems, hproperties]
    exact ⟨_, rfl, same_iff.mpr ⟨sameParts_readLimit hparts, hsameItems, hsameProperties⟩⟩

end Property

theorem InputSchema.ofValue?_toValue {s : InputSchema} (hplain : ∀ p ∈ s.properties, p.2.Plain)
    (hdistinct : Ordered.Distinct s.properties) : ∃ t, InputSchema.ofValue? s.toValue = some t ∧ (t == s) = true := by
  obtain ⟨qs, hqs, hall⟩ := Property.mapM_memberIn? fun p hp => Property.ofValue?_toValue (hplain p hp)
  have hmap : Form.map Property.ofValue? (.map (Property.toValues s.properties)) = some qs := by
    have hkeys : ∀ e ∈ Property.toValues s.properties, ∃ name, e.1 = .text name := by
      rw [Property.toValues_eq]
      exact List.forall_mem_map.mpr fun p _ => ⟨p.1, rfl⟩
    rw [Form.map, plainMap_eq hkeys]
    exact hqs
  refine ⟨⟨s.type, qs, s.required⟩, ?_, ?_⟩
  · unfold InputSchema.ofValue? Form.record InputSchema.toValue InputSchema.ofEntries?
    dsimp only
    rw [fieldOr_eq (v := .text s.type) (a := s.type) (by simp) rfl, fieldOr_eq (by simp) hmap,
      fieldOr_eq (by simp) (textList_eq s.required)]
    rfl
  · have hsame := Property.sameProperties_of_forall₂ hdistinct hall
    exact Bool.and_eq_true_iff.mpr ⟨by simp, hsame⟩

/-! ## Records -/

theorem Scheme.ofValue?_toValue {s : Scheme} (h : ∀ fs, s.flows = some fs → FiniteData (.map fs)) :
    Scheme.ofValue? s.toValue = some s := by
  have hflows : ∀ fs, s.flows = some fs → (Value.map fs).plain ≠ .null ∧
      plainMap (Value.map fs).plain = some fs := by
    intro fs hfs
    rw [(h fs hfs).plain_eq]
    cases h fs hfs with
    | map hkeys _ _ => exact ⟨by simp, plainMap_eq hkeys⟩
  unfold Scheme.ofValue? Form.record Scheme.toValue Scheme.ofEntries?
  dsimp only
  rw [field_eq (v := .text s.name) (a := s.name) (by simp) rfl,
    field_eq (v := .text s.type) (a := s.type) (by simp) rfl,
    optional_text (o := s.scheme) (by simp), optional_text (o := s.bearerFormat) (by simp),
    optional_text (o := s.location) (by simp), optional_text (o := s.paramName) (by simp),
    optional_eq (o := s.flows) (k := id) (by simp) hflows,
    optional_text (o := s.openIdConnectUrl) (by simp), optional_text (o := s.description) (by simp)]
  simp

theorem Auth.ofEntries?_toValue {a : Auth} (h : ∀ fs, a.scheme.flows = some fs → FiniteData (.map fs)) :
    Form.record Auth.ofEntries? a.toValue = some a := by
  unfold Form.record Auth.toValue Auth.ofEntries?
  dsimp only
  rw [field_eq (by simp) (Scheme.ofValue?_toValue h),
    field_eq (v := .text a.envVar) (a := a.envVar) (by simp) rfl]
  rfl

theorem Handler.ofEntries?_toValue {h : Handler}
    (hflows : ∀ a ∈ h.auth, ∀ fs, a.scheme.flows = some fs → FiniteData (.map fs)) :
    Form.record Handler.ofEntries? h.toValue = some h := by
  have hauth : Form.list (Form.record Auth.ofEntries?) (.list (h.auth.map Auth.toValue)) = some h.auth :=
    list_eq fun a ha => Auth.ofEntries?_toValue (hflows a ha)
  unfold Form.record Handler.toValue Handler.ofEntries?
  dsimp only
  rw [field_eq (v := .text h.method) (a := h.method) (by simp) rfl,
    field_eq (v := .text h.path) (a := h.path) (by simp) rfl,
    field_eq (v := .text h.baseUrl) (a := h.baseUrl) (by simp) rfl,
    optional_text (o := h.baseUrlEnvVar) (by simp),
    fieldOr_eq (v := .text h.contentType) (a := h.contentType) (by simp) rfl,
    fieldOr_eq (by simp) (textList_eq h.pathParams), fieldOr_eq (by simp) (textList_eq h.queryParams),
    fieldOr_eq (by simp) (textList_eq h.headerParams), optional_text (o := h.bodyParam) (by simp),
    fieldOr_eq (by simp) hauth]
  rfl

theorem Source.ofEntries?_toValue (s : Source) : Form.record Source.ofEntries? s.toValue = some s := by
  unfold Form.record Source.toValue Source.ofEntries?
  dsimp only
  rw [field_eq (v := .text s.path) (a := s.path) (by simp) rfl,
    field_eq (v := .text s.method) (a := s.method) (by simp) rfl, optional_text (o := s.operationId) (by simp)]
  rfl

theorem EnvVar.ofEntries?_toValue (v : EnvVar) : Form.record EnvVar.ofEntries? v.toValue = some v := by
  unfold Form.record EnvVar.toValue EnvVar.ofEntries?
  dsimp only
  rw [field_eq (v := .text v.name) (a := v.name) (by simp) rfl,
    field_eq (v := .text v.description) (a := v.description) (by simp) rfl,
    fieldOr_eq (v := .bool v.required) (a := v.required) (by simp) rfl, optional_text (o := v.example_) (by simp)]
  rfl

theorem Tool.ofEntries?_toValue {t : Tool} (h : t.Plain) :
    ∃ u, Form.record Tool.ofEntries? t.toValue = some u ∧ (u == t) = true := by
  obtain ⟨s, hs, hsame⟩ := InputSchema.ofValue?_toValue h.properties h.distinct
  refine ⟨{ t with inputSchema := s }, ?_, ?_⟩
  · unfold Form.record Tool.toValue Tool.ofEntries?
    dsimp only
    rw [field_eq (v := .text t.name) (a := t.name) (by simp) rfl,
      field_eq (v := .text t.description) (a := t.description) (by simp) rfl, field_eq (by simp) hs,
      field_eq (by simp) (Handler.ofEntries?_toValue h.flows),
      field_eq (by simp) (Source.ofEntries?_toValue t.source),
      fieldOr_eq (v := .bool t.enabled) (a := t.enabled) (by simp) rfl]
    rfl
  · simp [Tool.beq_eq, hsame, Handler.beq_self h.flows, Source.beq_self]

/-- **A plain tool server that is written is read back as an equal one.** -/
theorem Config.ofValue?_toValue {c : Config} (h : c.Plain) :
    ∃ d, Config.ofValue? c.toValue = some d ∧ (d == c) = true := by
  obtain ⟨tools, htools, hsame⟩ := mapM_related fun t ht => Tool.ofEntries?_toValue (h t ht)
  have henv : Form.list (Form.record EnvVar.ofEntries?) (.list (c.envVars.map EnvVar.toValue)) = some c.envVars :=
    list_eq fun v _ => EnvVar.ofEntries?_toValue v
  have hvars : (c.envVars == c.envVars) = true :=
    list_beq_of_forall₂ (List.forall₂_same.mpr fun v _ => EnvVar.beq_self v)
  refine ⟨{ c with tools }, ?_, ?_⟩
  · unfold Config.ofValue? Form.record Config.toValue Config.ofEntries?
    dsimp only
    rw [field_eq (v := .text c.name) (a := c.name) (by simp) rfl,
      field_eq (v := .text c.version) (a := c.version) (by simp) rfl,
      field_eq (v := .text c.description) (a := c.description) (by simp) rfl,
      field_eq (v := .text c.baseUrl) (a := c.baseUrl) (by simp) rfl,
      fieldOr_eq (v := .list (c.tools.map Tool.toValue)) (by simp) htools, fieldOr_eq (by simp) henv]
    rfl
  · simp [Config.beq_eq, list_beq_of_forall₂ hsame, hvars]

end ToolServer
