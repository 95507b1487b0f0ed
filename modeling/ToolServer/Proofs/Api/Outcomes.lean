import ToolServer.Proofs.Api.Bounds
import ToolServer.Proofs.Api.Completion
import ToolServer.Proofs.Document.Identity

/-!
# Outcomes of reading

What a text is read as, said of the text: that its document is of the right kind and all parts that are read of it
have their form, that it is refused, or that there is a fault. Only what a document is as a whole is refused.
-/

namespace ToolServer.Api

open Document

/-! ## Documents -/

def Supported (doc : Entries) : Prop := ∃ minor, shownOr "" (Entries.get doc "openapi") = "3." ++ minor

inductive HasPaths (doc : Entries) : Entries → Prop
  | given {paths} : Entries.get? doc "paths" = some (.map paths) → HasPaths doc paths
  | null : Entries.get? doc "paths" = some .null → HasPaths doc []

/-- A text that is read as a document of the right kind. -/
structure Describes (text : String) (doc paths : Entries) : Prop where
  load : load text = .ok (.map doc)
  supported : Supported doc
  paths : HasPaths doc paths

/-- Why a text is refused: the path and the message that it is refused with. -/
inductive Refusal (text : String) : String → String → Prop
  | unread {reason} : load text = .error (.refused reason) →
      Refusal text "" ("Failed to parse input: " ++ reason)
  | noMap {v} : load text = .ok v → (∀ doc, v ≠ .map doc) →
      Refusal text "" "Failed to parse input: document root must be a mapping"
  | swagger {doc v} : load text = .ok (.map doc) → ¬ Supported doc → Entries.get? doc "swagger" = some v →
      Refusal text "openapi" ("Swagger " ++ v.display ++
        " documents are not supported. Convert to OpenAPI 3.0 or 3.1 first.")
  | version {doc} : load text = .ok (.map doc) → ¬ Supported doc → Entries.get? doc "swagger" = none →
      Refusal text "openapi" ("Unsupported OpenAPI version: \"" ++ shownOr "" (Entries.get doc "openapi") ++
        "\". OpenAPI 3.0 or 3.1 is required.")
  | paths {doc} : load text = .ok (.map doc) → Supported doc → (∀ paths, ¬ HasPaths doc paths) →
      Refusal text "paths" "Missing or invalid 'paths' object"

theorem supported_iff {doc : Entries} :
    "3.".toList.isPrefixOf (shownOr "" (Entries.get doc "openapi")).toList = true ↔ Supported doc := by
  rw [List.isPrefixOf_iff_prefix]
  constructor
  · rintro ⟨minor, h⟩
    exact ⟨String.ofList minor, String.toList_inj.mp (by simpa using h.symm)⟩
  · rintro ⟨minor, h⟩
    exact ⟨minor.toList, by rw [h, String.toList_append]⟩

section
variable {doc : Entries}

theorem checkDocument_of_not_supported (h : ¬ Supported doc) : checkDocument doc =
    .error ("openapi", match Entries.get? doc "swagger" with
      | some v => "Swagger " ++ v.display ++
          " documents are not supported. Convert to OpenAPI 3.0 or 3.1 first."
      | none => "Unsupported OpenAPI version: \"" ++ shownOr "" (Entries.get doc "openapi") ++
          "\". OpenAPI 3.0 or 3.1 is required.") := by
  have hversion : (!"3.".toList.isPrefixOf (shownOr "" (Entries.get doc "openapi")).toList) = true := by
    rw [← supported_iff, Bool.not_eq_true] at h
    rw [h, Bool.not_false]
  unfold checkDocument
  exact if_pos hversion

variable (h : Supported doc)
include h

theorem checkDocument_of_hasPaths {paths : Entries} (hpaths : HasPaths doc paths) :
    checkDocument doc = .ok paths := by
  unfold checkDocument
  dsimp only
  rw [supported_iff.mpr h, Bool.not_true, if_neg Bool.false_ne_true]
  cases hpaths with
  | given hget => rw [hget]
  | null hget => rw [hget]

theorem checkDocument_of_no_paths (hpaths : ∀ paths, ¬ HasPaths doc paths) :
    checkDocument doc = .error ("paths", "Missing or invalid 'paths' object") := by
  unfold checkDocument
  dsimp only
  rw [supported_iff.mpr h, Bool.not_true, if_neg Bool.false_ne_true]
  split
  · rename_i hget
    exact absurd (.given hget) (hpaths _)
  · rename_i hget
    exact absurd (.null hget) (hpaths _)
  · rfl

end

section
variable {text : String}

theorem parse_refused {path message : String} (h : Refusal text path message) :
    parse text = .ok (.refused path message) := by
  cases h with
  | unread hload =>
    unfold parse parseWith
    rw [hload]
  | noMap hload hmap =>
    rw [parse_of_load hload]
    unfold parseDocument
    split
    · exact absurd rfl (hmap _)
    · rfl
  | swagger hload hversion hget =>
    rw [parse_of_load hload, parseDocument, checkDocument_of_not_supported hversion, hget]
  | version hload hversion hget =>
    rw [parse_of_load hload, parseDocument, checkDocument_of_not_supported hversion, hget]
  | paths hload hversion hpaths =>
    rw [parse_of_load hload, parseDocument, checkDocument_of_no_paths hversion hpaths]

section
variable {doc paths : Entries} (h : Describes text doc paths)
include h

/-- A document of the right kind is read if all its parts have their form, and else there is a fault. -/
theorem parse_described : (∃ d ws, parse text = .ok (.parsed d ws)) ∧ (∀ p ∈ partsRead doc paths, p.WellFormed) ∨
    (∃ f, parse text = .error f) ∧ ∃ p ∈ partsRead doc paths, ¬ p.WellFormed := by
  have hparts := (descriptionOf_follows doc paths).isOk .empty
  rw [parse_of_load h.load, parseDocument, checkDocument_of_hasPaths h.supported h.paths]
  dsimp only
  split
  · rename_i d m hrun
    exact .inl ⟨⟨_, _, rfl⟩, hparts.mp ⟨d, by rw [hrun]⟩⟩
  · rename_i f m hrun
    refine .inr ⟨⟨_, rfl⟩, ?_⟩
    by_contra hall
    obtain ⟨d, hd⟩ := hparts.mpr (by simpa [partsRead] using hall)
    rw [hrun] at hd
    cases hd

end

theorem parse_unloaded {f : Fault} (h : load text = .error (.fault f)) : parse text = .error f := by
  unfold parse parseWith
  rw [h]

theorem load_faults_iff (h : Bounded text) : (∃ f, load text = .error (.fault f)) ↔
    detectFormat text = .yaml ∧ ∃ f, Yaml.read text = .error (.other f) := by
  unfold load
  cases hformat : detectFormat text with
  | json =>
    have hcharacters := (h.json hformat).characters
    dsimp only
    unfold ofJson
    split <;> simp_all
  | yaml =>
    have hcharacters := (h.yaml hformat).characters
    have htree := (h.yaml hformat).tree
    dsimp only
    unfold ofYaml
    split <;> simp_all

def Because (text : String) : Except Fault ParseResult → Prop
  | .ok (.parsed _ _) => ∃ doc paths, Describes text doc paths ∧ ∀ p ∈ partsRead doc paths, p.WellFormed
  | .ok (.refused path message) => Refusal text path message
  | .error _ => (∃ f, load text = .error (.fault f)) ∨
      ∃ doc paths, Describes text doc paths ∧ ∃ p ∈ partsRead doc paths, ¬ p.WellFormed

theorem because_refused {path message : String} (h : Refusal text path message) : Because text (parse text) := by
  rw [parse_refused h]
  exact h

theorem parse_because (text : String) : Because text (parse text) := by
  cases hload : load text with
  | error e =>
    cases e with
    | refused reason => exact because_refused (.unread hload)
    | fault f =>
      rw [parse_unloaded hload]
      exact .inl ⟨f, hload⟩
  | ok v =>
    by_cases hmap : ∃ doc, v = .map doc
    · obtain ⟨doc, rfl⟩ := hmap
      by_cases hversion : Supported doc
      · by_cases hpaths : ∃ paths, HasPaths doc paths
        · obtain ⟨paths, hpaths⟩ := hpaths
          have h : Describes text doc paths := ⟨hload, hversion, hpaths⟩
          rcases parse_described h with ⟨⟨d, ws, hparse⟩, hparts⟩ | ⟨⟨f, hparse⟩, hpart⟩
          · rw [hparse]
            exact ⟨doc, paths, h, hparts⟩
          · rw [hparse]
            exact .inr ⟨doc, paths, h, hpart⟩
        · exact because_refused (.paths hload hversion (not_exists.mp hpaths))
      · cases hget : Entries.get? doc "swagger" with
        | some v => exact because_refused (.swagger hload hversion hget)
        | none => exact because_refused (.version hload hversion hget)
    · exact because_refused (.noMap hload (not_exists.mp hmap))

end

/-- A document with a text in the place of its information. -/
def plainInfo : Entries :=
  [(.text "openapi", .text "3.0.0"), (.text "info", .text "x"), (.text "paths", .map [])]

def plainInfoText : String := "openapi: 3.0.0\ninfo: x\npaths: \x7b\x7d\n"

theorem load_plainInfo : load plainInfoText = .ok (.map plainInfo) := by decide +kernel

theorem bounded_plainInfo : Bounded plainInfoText where
  json h := absurd h (by decide +kernel)
  yaml _ := {
    characters := by decide +kernel
    tree := by decide +kernel
    escapes := by decide +kernel
    levels := by decide +kernel
    height := by decide +kernel }
  document v h := by
    rw [load_plainInfo] at h
    cases h
    decide
  resolved := by decide +kernel

end ToolServer.Api
