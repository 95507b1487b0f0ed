import ToolServer.Proofs.Tool.Gather

/-!
# Routes of inputs

Every input of a mapped tool has a way into the request. Required names are compared before bytes count as
the texts that they spell, so a name is required twice when it is asked for as a text and as bytes.
-/

namespace ToolServer

open Document Api

/-! ## Required names as texts -/

section
variable {v w : Value} {s : String}

theorem text_or_bytes (h : textOf? v = some s) :
    v = .text s ∨ ∃ bs, v = .scalar (.bytes bs) ∧ keyText? (.bytes bs) = some s := by
  cases v with
  | scalar a =>
    cases a with
    | text t =>
      cases h
      exact .inl rfl
    | bytes bs => exact .inr ⟨bs, rfl, h⟩
    | _ => cases h
  | _ => cases h

theorem eq_of_beq_text (hw : textOf? w = some s) (h : (v == w) = true) : v = w := by
  cases v with
  | scalar a =>
    rcases text_or_bytes hw with rfl | ⟨bs, rfl, -⟩
    · have hsame : Scalar.same a (.text s) = true := h
      cases a <;> simp_all [Scalar.same, Scalar.asInt?]
    · have hsame : Scalar.same a (.bytes bs) = true := h
      cases a <;> simp_all [Scalar.same, Scalar.asInt?]
  | _ =>
    rcases text_or_bytes hw with rfl | ⟨bs, rfl, -⟩
    · cases h
    · cases h

theorem beq_self_of_text (hv : textOf? v = some s) : (v == v) = true := by
  rcases text_or_bytes hv with rfl | ⟨bs, rfl, -⟩
  · exact beq_self_eq_true s
  · exact beq_self_eq_true bs

theorem keyText_bytes {bs : List UInt8} (h : keyText? (.bytes bs) = some s) : s.toByteArray = ⟨bs.toArray⟩ := by
  have hvalid : String.fromUTF8? ⟨bs.toArray⟩ = some s := h
  unfold String.fromUTF8? at hvalid
  split at hvalid
  · cases hvalid
    rfl
  · cases hvalid

theorem bytes_eq {bs cs : List UInt8} (hbs : keyText? (.bytes bs) = some s) (hcs : keyText? (.bytes cs) = some s) :
    bs = cs := by
  have heq : (⟨bs.toArray⟩ : ByteArray) = ⟨cs.toArray⟩ := (keyText_bytes hbs).symm.trans (keyText_bytes hcs)
  simpa using heq

end

section
variable {asked vs : List Value} {ts : List String} (h : Lists asked vs) (hts : texts? vs = some ts)
include h hts

theorem mem_iff_asked (v : Value) : v ∈ vs ↔ v ∈ asked := by
  refine ⟨h.sound v, fun hv => ?_⟩
  obtain ⟨w, hw, rfl | heq⟩ := h.complete v hv
  · exact hw
  · have hmem : textOf? w ∈ ts.map some := map_of_mapM hts ▸ List.mem_map_of_mem hw
    obtain ⟨s, -, hs⟩ := List.mem_map.mp hmem
    rwa [eq_of_beq_text hs.symm heq]

theorem mem_texts_iff (s : String) : s ∈ ts ↔ ∃ v ∈ asked, textOf? v = some s := by
  have hmap : vs.map textOf? = ts.map some := map_of_mapM hts
  rw [← List.mem_map_of_injective (Option.some_injective _), ← hmap, List.mem_map]
  simp only [mem_iff_asked h hts]

/-- Texts repeat only where one is asked for in two forms. -/
theorem texts_nodup_iff : ts.Nodup ↔
    ¬ ∃ s bs, .text s ∈ asked ∧ .scalar (.bytes bs) ∈ asked ∧ keyText? (.bytes bs) = some s := by
  have hmap : vs.map textOf? = ts.map some := map_of_mapM hts
  have htext : ∀ v ∈ vs, ∃ s, textOf? v = some s := by
    intro v hv
    have hmem : textOf? v ∈ ts.map some := hmap ▸ List.mem_map_of_mem hv
    obtain ⟨s, -, hs⟩ := List.mem_map.mp hmem
    exact ⟨s, hs.symm⟩
  have hnodup : vs.Nodup := by
    refine h.apart.imp_of_mem fun {v w} hv hw hne heq => ?_
    obtain ⟨s, hs⟩ := htext v hv
    rw [← heq, beq_self_of_text hs] at hne
    cases hne
  rw [← List.nodup_map_iff (Option.some_injective _), ← hmap, List.nodup_map_iff_inj_on hnodup]
  constructor
  · rintro hinj ⟨s, bs, hs, hbs, heq⟩
    have hsame := hinj _ ((mem_iff_asked h hts _).mpr hs) _ ((mem_iff_asked h hts _).mpr hbs) heq.symm
    cases hsame
  · intro hforms v hv w hw heq
    obtain ⟨s, hs⟩ := htext v hv
    have hv' : v ∈ asked := h.sound v hv
    have hw' : w ∈ asked := h.sound w hw
    rcases text_or_bytes hs with rfl | ⟨bs, rfl, hbs⟩ <;>
      rcases text_or_bytes (heq ▸ hs) with rfl | ⟨cs, rfl, hcs⟩
    · rfl
    · exact absurd ⟨s, cs, hv', hw', hcs⟩ hforms
    · exact absurd ⟨s, bs, hw', hv', hbs⟩ hforms
    · rw [bytes_eq hbs hcs]

end

/-- A name that is asked for in two forms is listed twice. -/
example : texts? ([Value.text "a", .scalar (.bytes [97])].foldl Inputs.require {}).required = some ["a", "a"] := by
  decide +kernel

/-! ## Routes -/

structure Routed (e : Endpoint) (t : Tool) : Prop where
  taken : ∀ name ∈ t.handler.claimed, name ∈ t.inputSchema.properties.map (·.1)
  sent : ∀ name ∈ t.inputSchema.properties.map (·.1), name ∈ t.handler.claimed ∨
    t.handler.bodyParam = some bodyObject ∨ t.handler.bodyParam = some "body" ∧ name = "body"
  nodup : t.inputSchema.required.Nodup ↔ ¬ ∃ s bs, .text s ∈ e.requiredNames ∧
    .scalar (.bytes bs) ∈ e.requiredNames ∧ keyText? (.bytes bs) = some s

theorem TakesFrom.routed {e : Endpoint} {t : Tool} (h : TakesFrom e t)
    (hplaces : ∀ p ∈ e.parameters, p.location ∈ places) : Routed e t := by
  have hnames : ∀ name, name ∈ t.inputSchema.properties.map (·.1) ↔ name ∈ t.handler.claimed ∨
      name ∈ (e.requestBody.map RequestBody.inputNames).getD [] := by
    intro name
    rw [h.keys name, Endpoint.inputNames, List.mem_append, h.mem_claimed name, List.mem_map]
    refine or_congr_left ⟨?_, ?_⟩
    · rintro ⟨p, hp, rfl⟩
      obtain ⟨hp, hcookie⟩ := List.mem_filter.mp hp
      refine ⟨p, hp, ?_, rfl⟩
      have hplace : p.location ∈ places := hplaces p hp
      simp [places] at hplace hcookie ⊢
      tauto
    · rintro ⟨p, hp, hplace, rfl⟩
      refine ⟨p, List.mem_filter.mpr ⟨hp, ?_⟩, rfl⟩
      apply decide_eq_true
      rintro hcookie
      simp [hcookie] at hplace
  obtain ⟨vs, hlists, hts⟩ := h.required
  refine ⟨fun name hname => (hnames name).mpr (.inl hname), fun name hname => ?_, texts_nodup_iff hlists hts⟩
  rcases (hnames name).mp hname with hclaimed | hbody
  · exact .inl hclaimed
  · rw [h.body]
    cases hrequest : e.requestBody with
    | none => simp [hrequest] at hbody
    | some b =>
      rw [hrequest] at hbody
      by_cases hhoisted : b.hoisted = true
      · exact .inr (.inl (by simp [hhoisted]))
      · have hname : name ∈ ["body"] := by simpa [RequestBody.inputNames, hhoisted] using hbody
        exact .inr (.inr ⟨by simp [hhoisted], List.mem_singleton.mp hname⟩)

theorem TakesFrom.paths_required {e : Endpoint} {t : Tool} (h : TakesFrom e t) (hread : e.AsRead) :
    ∀ name ∈ t.handler.pathParams, name ∈ t.inputSchema.required := by
  intro name hname
  rw [h.paths] at hname
  obtain ⟨p, hp, rfl⟩ := List.mem_map.mp hname
  obtain ⟨hp, hpath⟩ := List.mem_filter.mp hp
  have hpath : p.location = "path" := of_decide_eq_true hpath
  have hname : Inputs.inputName p = p.name := by simp [Inputs.inputName, hpath]
  obtain ⟨vs, hlists, hts⟩ := h.required
  refine (mem_texts_iff hlists hts _).mpr ⟨.text p.name, List.mem_append_left _ ?_, rfl⟩
  refine List.mem_map.mpr ⟨p, List.mem_filter.mpr ⟨List.mem_filter.mpr ⟨hp, ?_⟩, hread.required p hp hpath⟩, ?_⟩
  · simp [hpath]
  · rw [hname]

/-- **Every input has a route.** -/
theorem inputs_routed {d : Description} {c : Config}
    (hplaces : ∀ e ∈ d.endpoints, ∀ p ∈ e.parameters, p.location ∈ places)
    (h : Config.ofDescription d = .ok c) :
    List.Forall₂ Routed (d.endpoints.filter (!·.deprecated)) c.tools ∧
      ∀ text ws, parse text = .ok (.parsed d ws) → ∀ t ∈ c.tools, ∀ name ∈ t.handler.pathParams,
        name ∈ t.inputSchema.required := by
  have hmapped : List.Forall₂ (MappedFrom d) (d.endpoints.filter (!·.deprecated)) c.tools :=
    mapped_ofDescription d c h
  constructor
  · have hplaces : ∀ e ∈ d.endpoints.filter (!·.deprecated), ∀ p ∈ e.parameters, p.location ∈ places :=
      fun e he => hplaces e (List.mem_of_mem_filter he)
    have hboth := (List.forall₂_and_left _ _).mpr ⟨hplaces, hmapped⟩
    exact hboth.imp fun e t he => he.2.takesFrom.routed he.1
  · intro text ws hparse t ht
    have hread : ∀ e ∈ d.endpoints.filter (!·.deprecated), e.AsRead :=
      fun e he => parse_asRead hparse e (List.mem_of_mem_filter he)
    obtain ⟨e, he, hfrom⟩ := exists_of_forall₂ hmapped t ht
    exact hfrom.takesFrom.paths_required (hread e he)

def updateText : String :=
  "\x7b\"openapi\":\"3.\",\"paths\":\x7b\"/\x7bid\x7d\":\x7b\"put\":\x7b\"parameters\":[" ++
    "\x7b\"name\":\"id\",\"in\":\"path\"\x7d,\x7b\"name\":\"X-T\",\"in\":\"header\"\x7d]," ++
    "\"requestBody\":\x7b\"content\":\x7b\"text\":\x7b\x7d\x7d\x7d\x7d\x7d\x7d\x7d"

def claimedAndRequired : ParseResult → Option (List (List String × List String))
  | .parsed d _ =>
    if ∀ e ∈ d.endpoints, ∀ p ∈ e.parameters, p.location ∈ places then
      match Config.ofDescription d with
      | .ok c => some (c.tools.map fun t => (t.handler.claimed, t.inputSchema.required))
      | .error _ => none
    else none
  | .refused .. => none

theorem inputs_routed_update : ∃ d ws c, parse updateText = .ok (.parsed d ws) ∧
    (∀ e ∈ d.endpoints, ∀ p ∈ e.parameters, p.location ∈ places) ∧ Config.ofDescription d = .ok c ∧
    c.tools.map (fun t => (t.handler.claimed, t.inputSchema.required)) = [(["id", "header_x_t"], ["id"])] ∧
    List.Forall₂ Routed (d.endpoints.filter (!·.deprecated)) c.tools ∧
    ∀ t ∈ c.tools, ∀ name ∈ t.handler.pathParams, name ∈ t.inputSchema.required := by
  have hclaims : (parse updateText).map claimedAndRequired = .ok (some [(["id", "header_x_t"], ["id"])]) := by
    decide +kernel
  cases hparse : parse updateText with
  | error f =>
    rw [hparse] at hclaims
    cases hclaims
  | ok r =>
    rw [hparse] at hclaims
    cases r with
    | refused path message => cases hclaims
    | parsed d ws =>
      have hclaims := Except.ok.inj hclaims
      simp only [claimedAndRequired] at hclaims
      split at hclaims
      · rename_i hplaces
        split at hclaims
        · rename_i c hconfig
          obtain ⟨hrouted, hrequired⟩ := inputs_routed hplaces hconfig
          exact ⟨d, ws, c, rfl, hplaces, hconfig, Option.some.inj hclaims, hrouted, hrequired _ _ hparse⟩
        · cases hclaims
      · cases hclaims

end ToolServer
