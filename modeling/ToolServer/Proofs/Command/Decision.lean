import Mathlib.Data.List.Forall2
import Mathlib.Data.List.TakeWhile
import ToolServer.Command.Run

/-!
# What a command comes to

The words of a command line ask for a command, the files that they name make a server of it, and the server gives the
files to write. A command that generates files does not end before that without a fault: `decide_decided`.
-/

namespace ToolServer.Command

open Viewer

/-! ## Requests -/

/-- The words of a command line ask for a command, and give options and arguments of it. -/
def Asks (words : List String) (verb : Verb) (g : Given) : Prop :=
  ∃ common name rest, readCommon words = .ok common ∧ common.has .help = false ∧ common.words = name :: rest ∧
    Verb.ofName? name = some verb ∧ verb.read rest = .ok g

theorem Asks.unique {words : List String} {verb verb' : Verb} {g g' : Given} (h : Asks words verb g)
    (h' : Asks words verb' g') : verb' = verb ∧ g' = g := by
  obtain ⟨common, name, rest, hcommon, -, hwords, hverb, hread⟩ := h
  obtain ⟨common', name', rest', hcommon', -, hwords', hverb', hread'⟩ := h'
  cases hcommon.symm.trans hcommon'
  cases hwords.symm.trans hwords'
  cases hverb.symm.trans hverb'
  cases hread.symm.trans hread'
  exact ⟨rfl, rfl⟩

/-- The two sides of the first equals sign of a word. -/
structure Sides (word : String) (p : String × String) : Prop where
  text : word = p.1 ++ "=" ++ p.2
  first : '=' ∉ p.1.toList
  name : p.1 ≠ ""
  rest : p.2 ≠ ""

/-- A word names a description: the file on its right side, under the name on its left. -/
structure Names (d : Disk) (disabled : List (String × String)) (word : String) (s : Composition.Source) : Prop where
  text : ∃ path content, Sides word (s.name, path) ∧ d.look (Path.text (.ofText path)) = .file content ∧
    s.text = String.ofList (Text.lineFeeds content.toList)
  namePrefix : s.namePrefix = none
  disabledTools : s.disabledTools = (disabled.filter (·.1 = s.name)).map (·.2)

def Describes (d : Disk) (path : String) (desc : Api.Description) : Prop :=
  ∃ content warnings, d.look (Path.text (.ofText path)) = .file content ∧
    Api.parse (String.ofList (Text.lineFeeds content.toList)) = .ok (.parsed desc warnings)

def renamed (g : Given) (c : Config) : Config :=
  match nonempty (g.value? .name) with
  | some name => { c with name := Naming.serverName name }
  | none => c

/-- The server that a command makes of the files that its words name. -/
inductive Makes (d : Disk) (g : Given) : Verb → Config → Prop
  | generate {desc c} : Describes d (g.words.headD "") desc → Config.ofDescription desc = .ok c →
      Makes d g .generate (Diff.disable (g.values .disable) (renamed g c))
  | compose {disabled sources r} : List.Forall₂ Sides (g.values .disable) disabled →
      List.Forall₂ (Names d disabled) g.words sources →
      Composition.compose sources (g.value? .name) (g.value? .description) = .ok r → r.composed ≠ [] →
      Makes d g .compose r.config

/-- The files that are generated for a server, which are valid if that is asked for. -/
structure Emits (g : Given) (c : Config) (job : Writing) : Prop where
  output : job.output = .ofText ((g.value? .output).getD "")
  files : ∃ l, Emit.language? ((g.value? .language).getD "typescript") = some l ∧ Emit.project l c = .ok job.files
  valid : g.has .check = true → Emit.invalidFiles job.files = .ok []

/-- What the words of a command line come to. One that asks for files ends without writing them at a fault or with
its help only. -/
inductive Decided (d : Disk) (words : List String) : Decision → Prop
  | ended {e : Ending} : (e.code = 0 → ∀ verb g, Asks words verb g → verb = .generate ∨ verb = .compose →
      g.has .help = true) → Decided d words (.ended e)
  | write {verb g c job} : Asks words verb g → Makes d g verb c → Emits g c job → Decided d words (.write job)

/-! ## Steps that may stop -/

def Stop.ending : Stop → Ending
  | usage _ _ => .exit 2
  | help _ => .exit 0
  | failure _ => .exit 1
  | ended e => e

def Stop.Fails (s : Stop) : Prop := s.ending.code ≠ 0

theorem Stop.fails_usage (verb : Option Verb) (f : UsageFault) : (usage verb f).Fails := Nat.succ_ne_zero _

theorem Stop.fails_failure (message : String) : (failure message).Fails := Nat.succ_ne_zero _

theorem Stop.fails_crash (c : Crash) : (ended (.crash c)).Fails := Nat.succ_ne_zero _

theorem fails_crashed (f : Fault) : (crashed f).Fails := Stop.fails_crash _

/-- What holds of the answer of a step or of why it stops, whatever was told before. -/
def Settles {α : Type} (x : Act (StateM (List Event)) α) (P : α → Prop) (F : Stop → Prop) : Prop :=
  ∀ told, match (x.run.run told).1 with
    | .ok a => P a
    | .error s => F s

namespace Settles

variable {α β : Type} {x : Act (StateM (List Event)) α} {f : α → Act (StateM (List Event)) β}
variable {P : α → Prop} {Q : β → Prop} {F : Stop → Prop}

theorem pure {a : α} (h : P a) : Settles (Pure.pure a) P F := fun _ => h

theorem stop {s : Stop} (h : F s) : Settles (throw s) P F := fun _ => h

theorem bind (hx : Settles x P F) (hf : ∀ a, P a → Settles (f a) Q F) : Settles (x >>= f) Q F := by
  intro told
  have h := hx told
  rw [ExceptT.run_bind, StateT.run_bind]
  rcases hrun : x.run.run told with ⟨s | a, told'⟩
  · rw [hrun] at h
    exact h
  · rw [hrun] at h
    exact hf a h told'

/-- The first answer does not matter. -/
theorem any (hx : Settles x P F) (hf : ∀ a, Settles (f a) Q F) : Settles (x >>= f) Q F :=
  hx.bind fun a _ => hf a

/-- A step that stops gives nothing to go on with. -/
theorem stop_bind {s : Stop} (h : F s) : Settles (throw s >>= f) Q F := bind (P := fun _ => False) (stop h) nofun

theorem imp {R : α → Prop} (hx : Settles x P F) (h : ∀ a, P a → R a) : Settles x R F := by
  intro told
  have hx := hx told
  split at hx
  · exact h _ hx
  · exact hx

theorem stops {G : Stop → Prop} (hx : Settles x P F) (h : ∀ s, F s → G s) : Settles x P G := by
  intro told
  have hx := hx told
  split at hx
  · exact hx
  · exact h _ hx

theorem forM {xs : List α} {f : α → Act (StateM (List Event)) PUnit} (h : ∀ x, Settles (f x) (fun _ => True) F) :
    Settles (xs.forM f) (fun _ => True) F := by
  induction xs with
  | nil => exact .pure trivial
  | cons x xs ih => exact (h x).any fun _ => ih

theorem mapM {R : α → β → Prop} : ∀ {xs : List α}, (∀ x ∈ xs, Settles (f x) (R x) F) →
    Settles (xs.mapM f) (List.Forall₂ R xs) F
  | [], _ => by
    rw [List.mapM_nil]
    exact .pure .nil
  | x :: xs, h => by
    rw [List.mapM_cons]
    obtain ⟨hx, hxs⟩ := List.forall_mem_cons.mp h
    exact hx.bind fun y hy => (mapM hxs).bind fun ys hys => .pure (.cons hy hys)

/-- A loop whose steps all go on. -/
theorem forIn {xs : List α} {f : α → Act (StateM (List Event)) (ForInStep PUnit)}
    (h : ∀ x, Settles (f x) (fun step => step = .yield ⟨⟩) F) :
    Settles (ForIn.forIn xs PUnit.unit fun x _ => f x) (fun _ => True) F := by
  induction xs with
  | nil => exact .pure trivial
  | cons x xs ih =>
    rw [List.forIn_cons]
    refine (h x).bind fun step hstep => ?_
    subst hstep
    exact ih

end Settles

/-! ## Looking at a tree -/

section
variable (d : Disk) {F : Stop → Prop}

theorem settles_tell (e : Event) : Settles (ExceptT.lift (d.viewer.tell e)) (fun _ => True) F := fun _ => trivial

theorem settles_look (path : String) : Settles (d.viewer.lookAt path) (d.look path = ·) F := fun _ => rfl

theorem settles_log (verbose : Bool) (line : LogLine) : Settles (d.viewer.log verbose line) (fun _ => True) F := by
  unfold log
  split
  · exact settles_tell d _
  · exact .pure trivial

theorem settles_stage {ε α : Type} (verbose : Bool) (name : String) {stop : ε → Stop} (hstop : ∀ e, F (stop e))
    (work : Unit → Work ε α) : Settles (d.viewer.stage verbose name stop work) (fun a => (work ()).result = .ok a) F := by
  unfold stage
  refine (settles_log d _ _).any fun _ => ?_
  have hnotes : Settles (((work ()).notes ()).forM fun n => d.viewer.log verbose (.note n)) (fun _ => True) F :=
    .forM fun _ => settles_log d _ _
  cases hresult : (work ()).result with
  | ok a =>
    simp only [hresult]
    split
    · exact hnotes.any fun _ => (settles_log d _ _).any fun _ => .pure rfl
    · exact (settles_log d _ _).any fun _ => .pure rfl
  | error e =>
    simp only [hresult]
    split
    · exact hnotes.any fun _ => (settles_log d _ _).any fun _ => .stop (hstop e)
    · exact (settles_log d _ _).any fun _ => .stop (hstop e)

theorem settles_readFile (path : String) : Settles (d.viewer.readFile path) (fun text =>
    ∃ content, d.look path = .file content ∧ text = String.ofList (Text.lineFeeds content.toList)) Stop.Fails := by
  refine (settles_look d path).bind fun node hnode => ?_
  subst hnode
  split
  · exact .pure ⟨_, by assumption, rfl⟩
  · exact .stop (Stop.fails_crash _)
  · exact .stop (Stop.fails_crash _)

/-! ## Commands -/

theorem settles_parseFile (verbose : Bool) (path : String) :
    Settles (d.viewer.parseFile verbose (.ofText path)) (Describes d path) Stop.Fails := by
  refine (settles_readFile d _).bind fun text htext => ?_
  obtain ⟨content, hlook, rfl⟩ := htext
  refine (settles_stage d _ _ fails_crashed _).bind fun r hr => ?_
  split
  · exact (Settles.forM fun _ => settles_tell d _).any fun _ => .pure ⟨content, _, hlook, hr⟩
  · exact .stop (Stop.fails_failure _)

theorem settles_mapDescription (verbose : Bool) (desc : Api.Description) :
    Settles (d.viewer.mapDescription verbose desc) (Config.ofDescription desc = .ok ·) Stop.Fails :=
  settles_stage d _ _ fails_crashed _

theorem settles_generateFiles (verbose : Bool) (g : Given) (c : Config) :
    Settles (d.viewer.generateFiles verbose g c) (fun decision => ∃ job, decision = .write job ∧ Emits g c job)
      Stop.Fails := by
  unfold generateFiles
  dsimp only
  split
  · exact .stop (Stop.fails_failure _)
  · rename_i l hl
    refine (settles_stage d _ _ fails_crashed _).bind fun files hfiles => ?_
    split
    · refine (settles_stage d _ _ fails_crashed _).bind fun found hfound => ?_
      split
      · exact .stop_bind (Stop.fails_failure _)
      · rename_i hempty
        have hnone : found = [] := by simpa using hempty
        exact .pure ⟨_, rfl, rfl, ⟨l, hl, hfiles⟩, fun _ => hnone ▸ hfound⟩
    · rename_i hcheck
      exact .pure ⟨_, rfl, rfl, ⟨l, hl, hfiles⟩, fun h => absurd h hcheck⟩

theorem settles_generateCommand (verbose : Bool) (g : Given) :
    Settles (d.viewer.generateCommand verbose g)
      (fun decision => ∃ c job, decision = .write job ∧ Makes d g .generate c ∧ Emits g c job) Stop.Fails := by
  refine (settles_parseFile d _ _).bind fun desc hdesc => ?_
  refine (settles_mapDescription d _ _).bind fun c hc => ?_
  have hfiles : Settles (d.viewer.generateFiles verbose g (Diff.disable (g.values .disable) (renamed g c)))
      (fun decision => ∃ c job, decision = .write job ∧ Makes d g .generate c ∧ Emits g c job) Stop.Fails :=
    (settles_generateFiles d verbose g _).imp fun decision ⟨job, hjob, hemits⟩ =>
      ⟨_, job, hjob, .generate hdesc hc, hemits⟩
  change Settles (if !((g.values .disable).eraseDups.filter fun n => !(renamed g c).tools.any (·.name == n)).isEmpty
    then _ else _) _ _
  split
  · exact (settles_tell d _).any fun _ => hfiles
  · exact hfiles

theorem splitAttached_eq_some {word : List Char} {name rest : String} (h : splitAttached word = (name, some rest)) :
    word = name.toList ++ '=' :: rest.toList ∧ '=' ∉ name.toList := by
  unfold splitAttached at h
  dsimp only at h
  split at h
  · rename_i mark value hdrop
    cases h
    have hmark : mark = '=' := by
      have hhead := List.head_dropWhile_not (· != '=') (hdrop ▸ List.cons_ne_nil mark value)
      simpa [hdrop] using hhead
    subst hmark
    rw [String.toList_ofList, String.toList_ofList, ← hdrop, List.takeWhile_append_dropWhile]
    exact ⟨rfl, fun hmem => by simpa using List.mem_takeWhile_imp hmem⟩
  · cases h

theorem settles_readPair (form word : String) : Settles (readPair form word) (Sides word) Stop.Fails := by
  unfold readPair
  split
  · rename_i name rest h
    obtain ⟨htext, hfirst⟩ := splitAttached_eq_some h
    split
    · exact .stop (Stop.fails_usage _ _)
    · rename_i hboth
      obtain ⟨hname, hrest⟩ : name ≠ "" ∧ rest ≠ "" := by simpa using hboth
      refine .pure ⟨?_, hfirst, hname, hrest⟩
      apply String.toList_injective
      simpa using htext
  · exact .stop (Stop.fails_usage _ _)

theorem settles_readSource (disabled : List (String × String)) (word : String) :
    Settles (d.viewer.readSource disabled word) (Names d disabled word) Stop.Fails := by
  refine (settles_readPair _ _).bind fun p hp => ?_
  refine (settles_look d _).bind fun node hnode => ?_
  split
  · refine (settles_readFile d _).bind fun text htext => ?_
    obtain ⟨content, hlook, rfl⟩ := htext
    exact .pure ⟨⟨p.2, content, hp, hlook, rfl⟩, rfl, rfl⟩
  · exact .stop (Stop.fails_usage _ _)

theorem settles_composeCommand (verbose : Bool) (g : Given) :
    Settles (d.viewer.composeCommand verbose g)
      (fun decision => ∃ c job, decision = .write job ∧ Makes d g .compose c ∧ Emits g c job) Stop.Fails := by
  refine (Settles.mapM fun word _ => settles_readPair _ word).bind fun disabled hdisabled => ?_
  refine (Settles.mapM fun word _ => settles_readSource d disabled word).bind fun sources hsources => ?_
  refine (settles_stage d _ _ fails_crashed _).bind fun r hr => ?_
  refine (Settles.forM fun _ => settles_tell d _).any fun _ => ?_
  refine (Settles.forM fun _ => settles_tell d _).any fun _ => ?_
  dsimp only
  split
  · exact .stop_bind (Stop.fails_failure _)
  · rename_i hcomposed
    refine (settles_tell d _).any fun _ => ?_
    have hne : r.composed ≠ [] := by simpa using hcomposed
    exact (settles_generateFiles d verbose g r.config).imp fun decision ⟨job, hjob, hemits⟩ =>
      ⟨_, job, hjob, .compose hdisabled hsources hr hne, hemits⟩

theorem settles_printJson (x : Document.Value) : Settles (d.viewer.printJson x) (fun _ => True) Stop.Fails := by
  unfold printJson
  split
  · exact settles_tell d _
  · exact .stop (fails_crashed _)

theorem settles_parseCommand (verbose : Bool) (g : Given) :
    Settles (d.viewer.parseCommand verbose g) (fun decision => ∃ e, decision = .ended e) Stop.Fails := by
  refine (settles_parseFile d _ _).bind fun desc _ => ?_
  refine (settles_mapDescription d _ _).bind fun c _ => ?_
  dsimp only
  split
  · exact (settles_printJson d _).any fun _ => .pure ⟨_, rfl⟩
  · exact (Settles.forM fun _ => settles_tell d _).any fun _ => .pure ⟨_, rfl⟩

theorem fails_compareStop (f : Diff.CompareFault) : (compareStop f).Fails := by
  cases f
  all_goals first | exact fails_crashed _ | exact Stop.fails_failure _

theorem settles_diffCommand (verbose : Bool) (g : Given) :
    Settles (d.viewer.diffCommand verbose g) (fun decision => ∃ e, decision = .ended e) Stop.Fails := by
  refine (settles_readFile d _).bind fun old _ => ?_
  refine (settles_readFile d _).bind fun new _ => ?_
  refine (settles_stage d _ _ fails_compareStop _).bind fun r _ => ?_
  dsimp only
  split
  · exact (settles_printJson d _).any fun _ => .pure ⟨_, rfl⟩
  · exact (Settles.forM fun _ => settles_tell d _).any fun _ => .pure ⟨_, rfl⟩

/-- A command that generates files comes to them, and the others end. -/
theorem settles_runVerb (verbose : Bool) (verb : Verb) (g : Given) :
    Settles (d.viewer.runVerb verbose verb g) (fun decision =>
      ((verb = .parse ∨ verb = .diff) ∧ ∃ e, decision = .ended e) ∨
      ∃ c job, decision = .write job ∧ Makes d g verb c ∧ Emits g c job) Stop.Fails := by
  cases verb with
  | compose => exact (settles_composeCommand d _ g).imp fun _ => .inr
  | diff => exact (settles_diffCommand d _ g).imp fun _ h => .inl ⟨.inr rfl, h⟩
  | generate => exact (settles_generateCommand d _ g).imp fun _ => .inr
  | parse => exact (settles_parseCommand d _ g).imp fun _ h => .inl ⟨.inl rfl, h⟩

/-! ## Words -/

theorem settles_checkOption (o : OptionSpec) (value : String) :
    Settles (d.viewer.checkOption o value) (fun _ => True) F := by
  unfold checkOption
  split
  · dsimp only
    split <;> exact .pure trivial
  · refine (settles_look d _).any fun node => ?_
    split <;> exact .pure trivial
  · exact .pure trivial

theorem settles_checkFile (argument path : String) : Settles (d.viewer.checkFile argument path) (fun _ => True) F := by
  refine (settles_look d _).any fun node => ?_
  split <;> exact .pure trivial

theorem settles_checkArguments (verb : Verb) : ∀ arguments words,
    Settles (d.viewer.checkArguments verb arguments words) (fun _ => True) F
  | [], [] => .pure trivial
  | [], _ :: _ => .pure trivial
  | _ :: _, [] => .pure trivial
  | argument :: arguments, word :: words => by
    unfold checkArguments
    split
    · exact .pure trivial
    · refine (settles_checkFile d _ _).any fun f => ?_
      split
      · exact .pure trivial
      · exact settles_checkArguments verb arguments words

theorem settles_check (verb : Verb) (g : Given) : Settles (d.viewer.check verb g) (fun _ => True) Stop.Fails := by
  have hstop : ∀ f : UsageFault, (Stop.usage (some verb) f).Fails := fun f => Stop.fails_usage _ f
  refine (Settles.forIn fun o => ?_).any fun _ => (settles_checkArguments d _ _ _).any fun f => ?_
  · split
    · refine (settles_checkOption d _ _).any fun f => ?_
      split
      · exact .stop_bind (hstop _)
      · exact .pure rfl
    · exact .pure rfl
  · dsimp only
    -- words that are too many are told after a missing option, and any other fault before it
    split
    · split
      · exact .stop_bind (hstop _)
      · exact .stop (hstop _)
    · split
      · exact .stop_bind (hstop _)
      · exact .pure trivial
    · exact .stop_bind (hstop _)

theorem settles_orUsage {α : Type} (verb : Option Verb) (r : Except UsageFault α) :
    Settles (orUsage verb r) (r = .ok ·) Stop.Fails := by
  cases r with
  | ok a => exact .pure rfl
  | error f => exact .stop (Stop.fails_usage _ _)

theorem settles_verbOf (words : List String) (word : String) :
    Settles (verbOf words word) (Verb.ofName? word = some ·) fun s => s.Fails ∨ Verb.ofName? word = none := by
  unfold verbOf
  split
  · exact .pure (by assumption)
  · rename_i hnone
    have hstop : ∀ s : Stop, s.Fails ∨ Verb.ofName? word = none := fun _ => .inr hnone
    dsimp only
    split
    · refine ((settles_orUsage none _).stops fun s _ => hstop s).any fun g => ?_
      split
      · exact .stop_bind (hstop _)
      · exact .stop (hstop _)
    · exact .stop (hstop _)

/-- A reason to stop is a fault, or the help of the command that is asked for. -/
def Excused (words : List String) (s : Stop) : Prop :=
  s.ending.code = 0 → ∀ verb g, Asks words verb g → g.has .help = true

theorem Stop.Fails.excused {words : List String} (s : Stop) (h : s.Fails) : Excused words s := fun hcode => absurd hcode h

section
variable {words rest : List String} {word : String} {common : Given}
variable (hcommon : readCommon words = .ok common) (hwords : common.words = word :: rest)
include hcommon hwords

theorem excused_of_ofName? {s : Stop} (h : s.Fails ∨ Verb.ofName? word = none) : Excused words s := by
  rcases h with h | hnone
  · exact h.excused
  · rintro - verb g ⟨common', name, _, hcommon', -, hwords', hverb, -⟩
    cases hcommon.symm.trans hcommon'
    cases hwords.symm.trans hwords'
    rw [hnone] at hverb
    cases hverb

theorem settles_given {verb : Verb} (hverb : Verb.ofName? word = some verb) (hhelp : common.has .help = false)
    (verbose : Bool) :
    Settles (do
      let g ← orUsage (some verb) (verb.read rest)
      if g.has .help then throw (.help (some verb))
      d.viewer.check verb g
      d.viewer.runVerb verbose verb g) (Decided d words) (Excused words) := by
  refine ((settles_orUsage _ _).stops Stop.Fails.excused).bind fun g hread => ?_
  have hasks : Asks words verb g := ⟨common, word, rest, hcommon, hhelp, hwords, hverb, hread⟩
  dsimp only
  split
  · rename_i hpage
    refine .stop_bind fun _ verb' g' hasks' => ?_
    obtain ⟨-, rfl⟩ := hasks.unique hasks'
    exact hpage
  · refine ((settles_check d verb g).stops Stop.Fails.excused).any fun _ => ?_
    refine ((settles_runVerb d _ verb g).imp fun decision h => ?_).stops Stop.Fails.excused
    rcases h with ⟨hother, e, rfl⟩ | ⟨c, job, rfl, hmakes, hemits⟩
    · refine .ended fun _ verb' g' hasks' hverb' => ?_
      obtain ⟨rfl, -⟩ := hasks.unique hasks'
      rcases hother with rfl | rfl <;> rcases hverb' with h | h <;> cases h
    · exact .write hasks hmakes hemits

end

theorem settles_runWords (words : List String) :
    Settles (d.viewer.runWords words) (Decided d words) (Excused words) := by
  refine ((settles_orUsage none _).stops Stop.Fails.excused).bind fun common hcommon => ?_
  dsimp only
  split
  · rename_i hhelp
    refine .stop_bind fun _ verb g hasks => ?_
    obtain ⟨common', _, _, hcommon', hnohelp, -⟩ := hasks
    cases hcommon.symm.trans hcommon'
    rw [hhelp] at hnohelp
    cases hnohelp
  · rename_i hhelp
    split
    · exact .stop (Stop.fails_usage _ _).excused
    · rename_i word rest hwords
      refine ((settles_verbOf _ word).stops fun s => excused_of_ofName? hcommon hwords).bind
        fun verb hverb => ?_
      exact settles_given d hcommon hwords hverb (by simpa using hhelp) _

/-- **A command that generates files is decided by the files that it makes.** -/
theorem decide_decided (words : List String) : Decided d words ((d.viewer.decide words).run []).1 := by
  unfold Viewer.decide
  split
  · exact .ended fun h => by cases h
  · have h := settles_runWords d words []
    rw [StateT.run_bind]
    rcases hrun : (d.viewer.runWords words).run.run [] with ⟨s | decision, told⟩
    · rw [hrun] at h
      have hended : Decided d words (.ended s.ending) := .ended fun hcode verb g hasks _ => h hcode verb g hasks
      cases s <;> exact hended
    · rw [hrun] at h
      exact h

end

end ToolServer.Command
