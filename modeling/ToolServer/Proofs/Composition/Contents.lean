import ToolServer.Composition
import ToolServer.Proofs.Naming.Prefix
import ToolServer.Proofs.Tool.Mapped

/-!
# What sources hold

Each source is read and mapped on its own: its text is refused, or gives a tool server. A list of sources is
rejected before that only for its length or for a prefix that two sources have.
-/

namespace ToolServer.Composition

open Api Naming

inductive Contents
  | refused (problem : Problem)
  | served (warnings : List String) (config : Config)

namespace Source

def contents (s : Source) : Except Fault Contents := do
  match ← parse s.text with
  | .refused path message => return .refused (.unreadable s.name path message)
  | .parsed d warnings => return .served warnings (← Config.ofDescription d)

def Handled (s : Source) : Prop := ∃ c, s.contents = .ok c

def problem? (s : Source) : Option Problem :=
  match s.contents with
  | .ok (.refused problem) => some problem
  | _ => none

def served? (s : Source) : Option (List String × Config) :=
  match s.contents with
  | .ok (.served warnings c) => some (warnings, c)
  | _ => none

def isServed (s : Source) : Bool := s.served?.isSome

def tools (s : Source) : List Tool := s.served?.elim [] (·.2.tools)

def envVars (s : Source) : List EnvVar := s.served?.elim [] (·.2.envVars.map (prefixedEnv s))

variable {s : Source}

theorem contents_refused {path message : String} (h : parse s.text = .ok (.refused path message)) :
    s.contents = .ok (.refused (.unreadable s.name path message)) := by
  rw [contents, h]
  rfl

theorem contents_served {d : Description} {warnings : List String} {c : Config}
    (h : parse s.text = .ok (.parsed d warnings)) (hd : Config.ofDescription d = .ok c) :
    s.contents = .ok (.served warnings c) := by
  rw [contents, h]
  simp only [bind, Except.bind, hd]
  rfl

theorem Handled.cases (h : s.Handled) : (∃ path message, parse s.text = .ok (.refused path message)) ∨
    ∃ d warnings c, parse s.text = .ok (.parsed d warnings) ∧ Config.ofDescription d = .ok c := by
  obtain ⟨contents, h⟩ := h
  cases hr : parse s.text with
  | error f => simp [Source.contents, hr, bind, Except.bind] at h
  | ok r =>
    cases r with
    | refused path message => exact .inl ⟨path, message, rfl⟩
    | parsed d warnings =>
      cases hd : Config.ofDescription d with
      | error f => simp [Source.contents, hr, hd, bind, Except.bind] at h
      | ok c => exact .inr ⟨d, warnings, c, rfl, hd⟩

theorem handled_of_isServed (h : s.isServed = true) : s.Handled := by
  unfold isServed served? at h
  split at h
  · exact ⟨_, ‹_›⟩
  · cases h

/-! ## Tools of a source -/

theorem tools_gives {P : List Tool → Prop} (hnil : P []) (h : ∀ d warnings,
    parse s.text = .ok (.parsed d warnings) → Gives (Config.ofDescription d) (fun c => P c.tools)) : P s.tools := by
  unfold tools served?
  cases hc : s.contents with
  | error f => exact hnil
  | ok contents =>
    rcases Handled.cases ⟨_, hc⟩ with ⟨path, message, hr⟩ | ⟨d, warnings, c, hr, hd⟩
    · rw [contents_refused hr] at hc
      cases hc
      exact hnil
    · rw [contents_served hr hd] at hc
      cases hc
      exact h d warnings hr c hd

theorem tools_nodup (s : Source) : (s.tools.map (·.name)).Nodup :=
  tools_gives (P := fun ts => (ts.map (·.name)).Nodup) List.nodup_nil fun d _ _ => nodup_ofDescription d

theorem tools_plain (s : Source) : ∀ t ∈ s.tools, PlainHandler t.handler :=
  tools_gives (P := fun ts => ∀ t ∈ ts, PlainHandler t.handler) (fun t ht => by cases ht)
    fun d _ _ => handlers_ofDescription d

theorem tools_chars (s : Source) : ∀ t ∈ s.tools, ∀ c ∈ t.name.toList, isNameChar c = true :=
  tools_gives (P := fun ts => ∀ t ∈ ts, ∀ c ∈ t.name.toList, isNameChar c = true) (fun t ht => by cases ht)
    fun _ _ h => chars_ofDescription fun e he => (parse_asRead h e he).method

theorem toolPrefix_chars (s : Source) : ∀ c ∈ s.toolPrefix.toList, isPrefixChar c = true :=
  isPrefixChar_of_mem_prefixOf

theorem toolPrefix_ne_empty (s : Source) : s.toolPrefix ≠ "" := prefixOf_ne_empty _

end Source

/-! ## Rejected lists -/

theorem duplicate?_eq_none {names : List String} {sources : List Source} : duplicate? names sources = none ↔
    (sources.map Source.toolPrefix).Nodup ∧ ∀ s ∈ sources, s.toolPrefix ∉ names := by
  induction sources generalizing names with
  | nil => simp [duplicate?]
  | cons s sources ih =>
    unfold duplicate?
    by_cases h : s.toolPrefix ∈ names
    · simp [h]
    · simp only [List.contains_iff_mem, h, if_false, ih, List.mem_cons, List.map_cons,
        List.nodup_cons, List.mem_map]
      grind

/-- A list is rejected unless it holds from one to 20 sources with distinct prefixes. -/
theorem rejection?_eq_none {sources : List Source} : rejection? sources = none ↔
    sources ≠ [] ∧ sources.length ≤ maxSources ∧ (sources.map Source.toolPrefix).Nodup := by
  unfold rejection?
  by_cases hempty : sources = []
  · simp [hempty]
  by_cases hmany : sources.length > maxSources
  · simp [hempty, Nat.not_le.mpr hmany, hmany]
  · rw [if_neg (by simpa using hempty), if_neg hmany, duplicate?_eq_none]
    exact ⟨fun h => ⟨hempty, Nat.not_lt.mp hmany, h.1⟩, fun h => ⟨h.2.2, fun _ _ => List.not_mem_nil⟩⟩

end ToolServer.Composition
