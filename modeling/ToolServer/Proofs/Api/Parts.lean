import ToolServer.Proofs.Api.Work
import ToolServer.Proofs.Schema.Joining

/-!
# Parts of a document

The parts that are read of a document, in the order of reading, each with its references resolved as they are
resolved then; and the form that a part of each kind has to have. Forms say nothing of references and memories.
-/

namespace ToolServer.Document.Value

def Listable : Value → Prop
  | .scalar (.text _) | .scalar (.bytes _) => True
  | .scalar _ => False
  | _ => True

theorem elements_isOk {v : Value} : (∃ vs, v.elements = .ok vs) ↔ v.Listable := by
  cases v with
  | scalar s => cases s <;> simp [elements, Listable]
  | _ => simp [elements, Listable]

end ToolServer.Document.Value

namespace ToolServer.Api

open Document Schema
open Reference (Memory)

/-! ## Forms -/

def Listed (v : Value) : Prop := v.isTruthy = true → v.Listable

def Mapped (v : Value) : Prop := v.isTruthy = true → ∃ es, v = .map es

def elementsIn (v : Value) : List Value := (elementsOr v).toOption.getD []

def entriesIn (v : Value) : Entries := (membersOr v).toOption.getD []

def IsText (k : Scalar) : Prop := ∃ s, keyText? k = some s

/-- The scopes of a requirement: absent, or a list of texts. -/
structure Scopes (v : Value) : Prop where
  listed : Listed v
  texts : ∀ w ∈ elementsIn v, ∃ s, textOf? w = some s

structure Requirements (v : Value) : Prop where
  listed : Listed v
  scopes : ∀ es, .map es ∈ elementsIn v → ∀ e ∈ es, Scopes e.2

def firstMedia : Value → Value
  | .map ((_, media) :: _) => media
  | _ => .null

def firstName (content : Value) : Option String := (elementsIn content).head?.bind shown?

def mediaNamed (content : Value) (name : String) : Value := Entries.get (entriesIn content) name

/-- A map, or something in which the word is not found. -/
def MayLack (word : String) (v : Value) : Prop := (∃ es, v = .map es) ∨ mentions word v = .ok false

inductive Part
  | info (v : Value)
  | servers (v : Value)
  | components (v : Value)
  | securitySchemes (v : Value)
  | schemas (v : Value)
  | parameters (v : Value)
  | tags (v : Value)
  | responses (v : Value)
  | security (v : Value)
  | scheme (d : Entries)
  | parameter (p : Entries)
  | requestBody (b : Entries)
  | response (r : Entries)
  | schema (w : Value)
  | storedSchema (w : Value)

def Part.WellFormed : Part → Prop
  | servers v | parameters v | tags v => Listed v
  | info v | components v | securitySchemes v | schemas v | responses v => Mapped v
  | security v => Requirements v
  | scheme d => shownOr "" (Entries.get d "type") = "oauth2" →
      ∀ flows, Entries.get d "flows" = .map flows → EachKey IsText flows
  | parameter p => Entries.get? p "schema" = none →
      MayLack "schema" (orElse (firstMedia (Entries.get p "content")) noEntries)
  | requestBody b => Mapped (Entries.get b "content") ∧ Mapped (firstMedia (Entries.get b "content"))
  | response r => Listed (Entries.get r "content") ∧ ∀ name, firstName (Entries.get r "content") = some name →
      Mapped (Entries.get r "content") ∧ Mapped (mediaNamed (Entries.get r "content") name)
  | schema w => Flattens w
  | storedSchema w => ∀ es, w = .map es → EachKey IsText es

theorem elementsOr_isOk {v : Value} : (∃ vs, elementsOr v = .ok vs) ↔ Listed v := by
  unfold elementsOr orElse Listed
  by_cases hv : v.isTruthy = true
  · rw [if_pos hv, Value.elements_isOk]
    exact ⟨fun h _ => h, fun h => h hv⟩
  · rw [if_neg hv]
    exact ⟨fun _ h => absurd h hv, fun _ => ⟨[], rfl⟩⟩

theorem membersOr_isOk {v : Value} : (∃ es, membersOr v = .ok es) ↔ Mapped v := by
  unfold membersOr orElse Mapped
  by_cases hv : v.isTruthy = true
  · rw [if_pos hv]
    constructor
    · rintro ⟨es, hes⟩ _
      exact ⟨es, members_gives v es hes⟩
    · intro h
      obtain ⟨es, rfl⟩ := h hv
      exact ⟨es, rfl⟩
  · rw [if_neg hv]
    exact ⟨fun _ h => absurd h hv, fun _ => ⟨[], rfl⟩⟩

theorem elements_orElse (v : Value) : (orElse v noEntries).elements = elementsOr v := by
  unfold elementsOr orElse
  split
  · rfl
  · rfl

theorem elementsIn_eq {v : Value} {vs : List Value} (h : elementsOr v = .ok vs) : elementsIn v = vs := by
  rw [elementsIn, h]
  rfl

theorem entriesIn_eq {v : Value} {es : Entries} (h : membersOr v = .ok es) : entriesIn v = es := by
  rw [entriesIn, h]
  rfl

theorem membersOr_of_map {v : Value} {es : Entries} (h : orElse v noEntries = .map es) : membersOr v = .ok es := by
  rw [membersOr, h]
  rfl

theorem firstMedia_eq {v : Value} {es : Entries} : membersOr v = .ok es → firstMedia v = match es with
    | (_, media) :: _ => media
    | [] => .null := by
  intro h
  have hes : orElse v noEntries = .map es := members_gives _ es h
  unfold orElse at hes
  split at hes
  · subst hes
    cases es with
    | nil => rfl
    | cons e es => rfl
  · rename_i hv
    cases hes
    cases v with
    | map es =>
      cases es with
      | nil => rfl
      | cons e es => exact absurd rfl hv
    | _ => rfl

theorem checked_isOk {α : Type} {record : RecordKind} {x : Option α} :
    (∃ a, checked record x = .ok a) ↔ ∃ a, x = some a := by
  cases x with
  | none => simp [checked]
  | some a => simp [checked]

theorem textKeyed_isOk {s : Entries} : (∃ t, textKeyed? s = some t) ↔ EachKey IsText s := by
  have hmap : (∃ t, textKeyed? s = some t) ↔ ∃ ps, (s.mapM fun e => (keyText? e.1).map fun n =>
      (Scalar.text n, e.2)) = some ps := by
    unfold textKeyed?
    constructor
    · rintro ⟨t, h⟩
      obtain ⟨ps, hps, -⟩ := Option.map_eq_some_iff.mp h
      exact ⟨ps, hps⟩
    · rintro ⟨ps, hps⟩
      exact ⟨_, Option.map_eq_some_iff.mpr ⟨ps, hps, rfl⟩⟩
  rw [hmap, exists_mapM_some_iff]
  refine forall₂_congr fun e _ => ?_
  unfold IsText
  simp

theorem requirementOf_isOk {e : Scalar × Value} : (∃ r, requirementOf e = .ok r) ↔ Scopes e.2 := by
  unfold requirementOf
  rw [exists_bind_ok_iff]
  constructor
  · rintro ⟨vs, hvs, h⟩
    obtain ⟨ts, hts⟩ := checked_isOk.mp (exists_map_ok_iff.mp h)
    refine ⟨elementsOr_isOk.mp ⟨vs, hvs⟩, ?_⟩
    rw [elementsIn_eq hvs]
    exact exists_mapM_some_iff.mp ⟨ts, hts⟩
  · intro h
    obtain ⟨vs, hvs⟩ := elementsOr_isOk.mpr h.listed
    refine ⟨vs, hvs, exists_map_ok_iff.mpr (checked_isOk.mpr (exists_mapM_some_iff.mpr ?_))⟩
    rw [← elementsIn_eq hvs]
    exact h.texts

theorem securityOf_isOk {v : Value} : (∃ rs, securityOf v = .ok rs) ↔ Requirements v := by
  unfold securityOf
  rw [exists_bind_ok_iff]
  constructor
  · rintro ⟨vs, hvs, h⟩
    have hall := exists_mapM_ok_iff.mp (exists_map_ok_iff.mp h)
    refine ⟨elementsOr_isOk.mp ⟨vs, hvs⟩, ?_⟩
    rw [elementsIn_eq hvs]
    intro es hes e he
    exact requirementOf_isOk.mp (exists_mapM_ok_iff.mp (hall _ hes) e he)
  · intro h
    obtain ⟨vs, hvs⟩ := elementsOr_isOk.mpr h.listed
    have hscopes := h.scopes
    rw [elementsIn_eq hvs] at hscopes
    refine ⟨vs, hvs, exists_map_ok_iff.mpr (exists_mapM_ok_iff.mpr fun w hw => ?_)⟩
    cases w with
    | map es => exact exists_mapM_ok_iff.mpr fun e he => requirementOf_isOk.mpr (hscopes es hw e he)
    | _ => exact ⟨[], rfl⟩

theorem schemeOf_isOk {name : String} {d : Entries} :
    (∃ s, schemeOf name d = .ok s) ↔ (Part.scheme d).WellFormed := by
  unfold schemeOf
  simp only [Part.WellFormed]
  split
  · rename_i h
    exact ⟨fun _ h' => absurd (h.symm.trans h') (by decide), fun _ => ⟨_, rfl⟩⟩
  · split
    · rename_i h
      exact ⟨fun _ h' => absurd (h.symm.trans h') (by decide), fun _ => ⟨_, rfl⟩⟩
    · split
      · rename_i h
        rw [forall_prop_of_true h]
        split
        · rename_i flows hflows
          rw [exists_map_ok_iff, checked_isOk, textKeyed_isOk]
          exact ⟨fun h fs hfs => Value.map.inj (hflows.symm.trans hfs) ▸ h, fun h => h flows hflows⟩
        · rename_i hflows
          exact ⟨fun _ fs hfs => absurd hfs (hflows fs), fun _ => ⟨_, rfl⟩⟩
      · rename_i h
        refine ⟨fun _ h' => absurd h' h, fun _ => ?_⟩
        split
        · exact ⟨_, rfl⟩
        · exact ⟨_, rfl⟩

/-! ## Tours -/

/-- What is read, beginning with a memory, and the memory after it. -/
abbrev Tour := Memory → List Part × Memory

namespace Tour

def nothing : Tour := fun m => ([], m)

def part (p : Part) : Tour := fun m => ([p], m)

def andThen (s t : Tour) : Tour := fun m => ((s m).1 ++ (t (s m).2).1, (t (s m).2).2)

def all {α : Type} (t : α → Tour) : List α → Tour
  | [] => nothing
  | x :: xs => (t x).andThen (all t xs)

def resolving (root v : Value) (t : Value → Tour) : Tour := fun m =>
  t (Reference.resolve root v m).1 (Reference.resolve root v m).2

def stored (root v : Value) : Tour :=
  match v with
  | .map _ => resolving root v fun w => (part (.schema w)).andThen (part (.storedSchema w))
  | _ => nothing

def ofMedia (root media : Value) : Tour := stored root (orElse (Entries.get (entriesIn media) "schema") noEntries)

def parameter (root raw : Value) : Tour :=
  resolving root raw fun
    | .map p =>
      if (Entries.get p "name").isTruthy then
        (part (.parameter p)).andThen (match Entries.get? p "schema" with
          | some schema => stored root schema
          | none =>
            match Entries.get? (entriesIn (firstMedia (Entries.get p "content"))) "schema" with
            | some schema => stored root schema
            | none => nothing)
      else nothing
    | _ => nothing

def parameters (root raw : Value) : Tour :=
  (part (.parameters raw)).andThen (all (parameter root) (elementsIn raw))

def requestBody (root raw : Value) : Tour :=
  resolving root raw fun
    | .map b => (part (.requestBody b)).andThen (ofMedia root (firstMedia (Entries.get b "content")))
    | _ => nothing

def response (root raw : Value) : Tour :=
  resolving root raw fun
    | .map r =>
      (part (.response r)).andThen (match firstName (Entries.get r "content") with
        | some name => ofMedia root (mediaNamed (Entries.get r "content") name)
        | none => nothing)
    | _ => nothing

def responses (root raw : Value) : Tour :=
  (part (.responses raw)).andThen (all (fun e => response root e.2) (entriesIn raw))

def operation (doc o : Entries) : Tour :=
  let body := Entries.get o "requestBody"
  (parameters (.map doc) (Entries.get o "parameters")).andThen <|
  (if body.isTruthy then requestBody (.map doc) body else nothing).andThen <|
  (part (.tags (Entries.get o "tags"))).andThen <|
  (responses (.map doc) (Entries.get o "responses")).andThen <|
  part (.security ((Entries.get? o "security").getD (Entries.get doc "security")))

def path (doc : Entries) (raw : Value) : Tour :=
  resolving (.map doc) raw fun
    | .map item =>
      (parameters (.map doc) (Entries.get item "parameters")).andThen (all (fun method =>
        match Entries.get item method with
        | .map o => operation doc o
        | _ => nothing) methods)
    | _ => nothing

def scheme (root raw : Value) : Tour :=
  resolving root raw fun
    | .map d => part (.scheme d)
    | _ => nothing

/-- Resolve a schema under its name; what is no map is none. -/
def nameSchema (root : Value) (e : Scalar × Value) (m : Memory) : (String × Value) × Memory :=
  match e.2 with
  | .map _ => ((e.1.display, (Reference.resolve root e.2 m).1), (Reference.resolve root e.2 m).2)
  | _ => ((e.1.display, .null), m)

def naming (root : Value) (raw : Entries) (t : List (String × Value) → Tour) : Tour := fun m =>
  t (Reference.mapWith (nameSchema root) raw m).1 (Reference.mapWith (nameSchema root) raw m).2

/-- All parts of a document with the given paths. Of schemas with one name the last is stored. -/
def document (doc paths : Entries) : Tour :=
  let components := entriesIn (Entries.get doc "components")
  let schemes := Entries.get components "securitySchemes"
  let schemas := Entries.get components "schemas"
  (part (.servers (Entries.get doc "servers"))).andThen <|
  (part (.components (Entries.get doc "components"))).andThen <|
  (part (.securitySchemes schemes)).andThen <|
  (all (fun e => scheme (.map doc) e.2) (entriesIn schemes)).andThen <|
  (part (.schemas schemas)).andThen <|
  naming (.map doc) (entriesIn schemas) fun named =>
    (all (fun n => part (.schema n.2)) named).andThen <|
    (all (fun e => path doc e.2) paths).andThen <|
    (part (.info (Entries.get doc "info"))).andThen <|
    all (fun n => part (.storedSchema n.2)) (Ordered.ofPairs named)

end Tour

def partsRead (doc paths : Entries) : List Part := (Tour.document doc paths .empty).1

end ToolServer.Api
