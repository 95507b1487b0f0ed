import ToolServer.Composition
import ToolServer.Proofs.Document.Identity
import ToolServer.Proofs.Tool.RoundTrip

/-!
# Tool servers of JSON documents

A tool server that is mapped or composed from JSON documents of finite data is written and read back without a
change.
-/

namespace ToolServer.Composition

open Api Document

/-! ## Compositions -/

theorem prefixedTool_plain {t : Tool} (h : t.Plain) (s : Source) : (prefixedTool s t).Plain := by
  unfold prefixedTool
  refine ⟨h.properties, h.distinct, fun a ha => ?_⟩
  dsimp only at ha
  obtain ⟨b, hb, rfl⟩ := List.mem_map.mp ha
  exact h.flows b hb

namespace Progress

def Plain (p : Progress) : Prop := ∀ t ∈ p.tools, t.Plain

theorem Plain.addTool {p : Progress} (h : p.Plain) (s : Source) {t : Tool} (ht : t.Plain) :
    (p.addTool s t).Plain := by
  unfold Progress.addTool
  dsimp only
  split
  · exact h
  · intro u hu
    rcases List.mem_append.mp hu with hu | hu
    · exact h u hu
    · exact List.mem_singleton.mp hu ▸ prefixedTool_plain ht s

theorem Plain.addTools (s : Source) : ∀ {ts : List Tool} {p : Progress}, p.Plain → (∀ t ∈ ts, t.Plain) →
    (ts.foldl (Progress.addTool s) p).Plain
  | [], _, h, _ => h
  | t :: ts, p, h, hts => by
    obtain ⟨ht, hts⟩ := List.forall_mem_cons.mp hts
    rw [List.foldl_cons]
    exact Plain.addTools s (h.addTool s ht) hts

theorem tools_addEnvs (s : Source) : ∀ (vs : List EnvVar) (p : Progress),
    (vs.foldl (Progress.addEnv s) p).tools = p.tools
  | [], _ => rfl
  | v :: vs, p => by
    rw [List.foldl_cons, tools_addEnvs s vs, Progress.addEnv]
    split <;> rfl

theorem Plain.addSource {p : Progress} (h : p.Plain) {s : Source} (hs : FitText s.text) :
    Gives (p.addSource s) Progress.Plain := by
  unfold Progress.addSource
  cases hparse : parse s.text with
  | error f => exact .error f
  | ok r =>
    cases r with
    | refused path message => exact .ok h
    | parsed d warnings =>
      refine (ofDescription_plain (parse_fit hs hparse)).bind fun c hc => .ok fun t ht => ?_
      unfold Progress.addConfig at ht
      dsimp only at ht
      rw [tools_addEnvs] at ht
      have hnoted : Progress.Plain { p with warnings := p.warnings ++ warnings.map (tagged s.name) } := h
      exact Plain.addTools s hnoted hc t ht

end Progress

theorem compose_plain {sources : List Source} (h : ∀ s ∈ sources, FitText s.text)
    (serverName description : Option String) :
    Gives (compose sources serverName description) (fun r => r.config.Plain) := by
  have hnone : Config.Plain (emptyConfig serverName) := List.forall_mem_nil _
  unfold compose
  split
  · exact .ok hnone
  · have hempty : Progress.Plain {} := List.forall_mem_nil _
    refine (Gives.foldlM_const (fun s hs p hp => Progress.Plain.addSource hp (h s hs)) hempty).bind fun p hp => .ok ?_
    unfold Progress.result
    dsimp only
    split
    · exact hnone
    · exact hp

/-! ## Round trips -/

inductive OfJson : Config → Prop
  | mapped {text d warnings c} : FitText text → parse text = .ok (.parsed d warnings) →
      Config.ofDescription d = .ok c → OfJson c
  | composed {sources serverName description r} : (∀ s ∈ sources, FitText s.text) →
      compose sources serverName description = .ok r → OfJson r.config

/-- **A tool server of JSON documents survives its own JSON form.** What is null inside its plain data is kept, and
what is absent is left out. -/
theorem json_round_trip {c : Config} (h : OfJson c) :
    ∃ c', Config.ofValue? c.toValue = some c' ∧ (c' == c) = true := by
  refine Config.ofValue?_toValue ?_
  cases h with
  | mapped htext hparse hmap => exact ofDescription_plain (parse_fit htext hparse) c hmap
  | composed hsources hcompose => exact compose_plain hsources _ _ _ hcompose

/-- An operation with one input, an object whose member may be null and is so in its default. -/
def search : Value := .map [
  (.text "openapi", .text "3."),
  (.text "paths", .map [(.text "/a", .map [(.text "get", .map [(.text "parameters", .list [.map [
    (.text "name", .text "q"),
    (.text "schema", .map [
      (.text "properties", .map [(.text "b", .map [(.text "enum", .list [.null])])]),
      (.text "required", .list [.text "b"]),
      (.text "default", .map [(.text "b", .null)])])]])])])])]

def searchText : String :=
  "\x7b\"openapi\":\"3.\",\"paths\":\x7b\"/a\":\x7b\"get\":\x7b\"parameters\":[\x7b\"name\":\"q\",\"schema\":" ++
    "\x7b\"properties\":\x7b\"b\":\x7b\"enum\":[null]\x7d\x7d,\"required\":[\"b\"]," ++
    "\"default\":\x7b\"b\":null\x7d\x7d\x7d]\x7d\x7d\x7d\x7d"

theorem load_search : load searchText = .ok search := by decide +kernel

theorem fitText_search : FitText searchText where
  json := by decide +kernel
  finite doc h := by
    rw [load_search] at h
    cases h
    simp [search, Within.map_iff, Within.list_iff]
  required doc h := by
    rw [load_search] at h
    cases h
    have htexts : Reference.StandsForTexts search (.list [.text "b"]) := by
      intro w hw
      cases hw
      rintro _ ⟨⟩ v hv
      exact ⟨"b", List.mem_singleton.mp hv⟩
    simpa [search, EachEntry.map_iff, EachEntry.list_iff, EachEntry.of_scalar] using htexts

def mapsTo? : ParseResult → Option Config
  | .parsed d _ => (Config.ofDescription d).toOption
  | .refused .. => none

/-- A text that maps to a server with a property, by evaluation. -/
theorem exists_mapped (text : String) {P : Config → Bool}
    (h : (parse text).map (fun r => (mapsTo? r).any P) = .ok true) :
    ∃ d warnings c, parse text = .ok (.parsed d warnings) ∧ Config.ofDescription d = .ok c ∧ P c = true := by
  obtain ⟨r, hparse, h⟩ := exists_of_map_ok h
  cases r with
  | refused path message => cases h
  | parsed d warnings =>
    rw [mapsTo?] at h
    cases hmap : Config.ofDescription d with
    | error f =>
      rw [hmap] at h
      cases h
    | ok c =>
      rw [hmap] at h
      exact ⟨d, warnings, c, hparse, hmap, h⟩

theorem json_round_trip_search : ∃ d warnings c, FitText searchText ∧ parse searchText = .ok (.parsed d warnings) ∧
    Config.ofDescription d = .ok c ∧ ∃ c', Config.ofValue? c.toValue = some c' ∧ (c' == c) = true := by
  have hmaps : (parse searchText).map (fun r => (mapsTo? r).any fun _ => true) = .ok true := by
    rw [parse_of_load load_search]
    decide +kernel
  obtain ⟨d, warnings, c, hparse, hmap, -⟩ := exists_mapped searchText hmaps
  have hsurvives := json_round_trip (.mapped fitText_search hparse hmap)
  exact ⟨d, warnings, c, fitText_search, hparse, hmap, hsurvives⟩

end ToolServer.Composition
