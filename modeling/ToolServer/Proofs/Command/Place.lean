import ToolServer.Command.Disk
import ToolServer.Proofs.Ordered
import ToolServer.Proofs.Outcome
import ToolServer.Proofs.Text.Piece

/-!
# Places in a file tree

A path leads to a place by its parts, and a path below another goes on from the place of that one. A tree that keeps
its directories keeps the places: `Grows`. Making a directory changes no file, and writing changes one.
-/

namespace ToolServer.Text

theorem mark_not_mem_of_mem_cut {mark : Char} : ∀ {s piece : List Char}, piece ∈ cut mark s → mark ∉ piece
  | [], piece, h => by
    obtain rfl := List.mem_singleton.mp h
    exact List.not_mem_nil
  | c :: s, piece, h => by
    unfold cut at h
    split at h
    · rcases List.mem_cons.mp h with rfl | h
      · exact List.not_mem_nil
      · exact mark_not_mem_of_mem_cut h
    · rename_i hc
      have hpieces : ∀ piece ∈ cut mark s, mark ∉ piece := fun _ => mark_not_mem_of_mem_cut
      split at h
      · obtain rfl := List.mem_singleton.mp h
        simpa using Ne.symm hc
      · rename_i first rest hcut
        rw [hcut] at hpieces
        obtain ⟨hfirst, hrest⟩ := List.forall_mem_cons.mp hpieces
        rcases List.mem_cons.mp h with rfl | h
        · rw [List.mem_cons, not_or]
          exact ⟨Ne.symm hc, hfirst⟩
        · exact hrest piece h

end ToolServer.Text

namespace ToolServer.Command

open Text

/-! ## Paths -/

/-- A path as it is read from a text. -/
structure Path.Plain (p : Path) : Prop where
  root : p.root ∈ ["", "/", "//"]
  parts : ∀ part ∈ p.parts, part ≠ "" ∧ '/' ∉ part.toList

namespace Path

theorem plain_ofText (text : String) : (ofText text).Plain where
  root := by
    unfold ofText rootOf
    dsimp only
    split <;> decide
  parts part hpart := by
    obtain ⟨hmem, hkept⟩ := List.mem_filter.mp hpart
    obtain ⟨piece, hpiece, rfl⟩ := List.mem_map.mp hmem
    refine ⟨fun hempty => by simp [hempty] at hkept, ?_⟩
    rw [String.toList_ofList]
    exact mark_not_mem_of_mem_cut hpiece

theorem Plain.below {p : Path} (h : p.Plain) (name : String) : (p.below name).Plain where
  root := h.root
  parts := List.forall_mem_append.mpr ⟨h.parts, (plain_ofText name).parts⟩

end Path

/-! ## Walks -/

namespace Disk

variable {d d' : Disk}

def steps (path : String) : List String := (cut '/' path.toList).map String.ofList

theorem place_eq {path : String} (h : path ≠ "") (d : Disk) : d.place path = d.walk [] (steps path) := if_neg h

theorem walk_append (d : Disk) (ys : List String) : ∀ (at_ xs : List String),
    d.walk at_ (xs ++ ys) = d.walk at_ xs >>= fun place => d.walk place ys
  | at_, [] => rfl
  | at_, x :: xs => by
    rw [List.cons_append, walk, walk]
    cases d.nodeAt at_ with
    | missing => rfl
    | file _ => rfl
    | folder =>
      dsimp only
      split
      · exact walk_append d ys at_ xs
      · split
        · exact walk_append d ys at_.dropLast xs
        · exact walk_append d ys (at_ ++ [x]) xs

/-- An empty part before another one leads nowhere. -/
theorem walk_empty_cons (d : Disk) (at_ : List String) (part : String) (rest : List String) :
    d.walk at_ ("" :: part :: rest) = d.walk at_ (part :: rest) := by
  rw [walk]
  cases h : d.nodeAt at_ with
  | missing => rw [walk, h]
  | file _ => rw [walk, h]
  | folder => rfl

theorem walk_ofText {at_ place : List String} {name : String} (h : d.walk at_ (Path.ofText name).parts = .ok place)
    (hname : ".." ∉ (Path.ofText name).parts) : place = at_ ++ (Path.ofText name).parts := by
  have hparts : ∀ part ∈ (Path.ofText name).parts, part ≠ "" ∧ part ≠ "." ∧ part ≠ ".." := by
    intro part hpart
    have hkept := (List.mem_filter.mp hpart).2
    simp only [Bool.and_eq_true, bne_iff_ne] at hkept
    exact ⟨hkept.1, hkept.2, fun heq => hname (heq ▸ hpart)⟩
  generalize (Path.ofText name).parts = parts at h hparts
  clear hname
  induction parts generalizing at_ with
  | nil =>
    cases h
    exact (List.append_nil _).symm
  | cons part parts ih =>
    obtain ⟨⟨hempty, hdot, hdots⟩, hparts⟩ := List.forall_mem_cons.mp hparts
    unfold walk at h
    split at h
    · cases h
    · cases h
    · rw [if_neg (by simp [hempty, hdot]), if_neg hdots] at h
      rw [ih h hparts, List.append_assoc]
      rfl

/-! ## Paths and walks -/

theorem steps_slash (s : String) : steps ("/" ++ s) = "" :: steps s := by
  have htext : ("/" ++ s).toList = '/' :: s.toList := by simp
  rw [steps, htext, cut, if_pos rfl]
  rfl

theorem steps_intercalate {parts : List String} (hne : parts ≠ []) (h : ∀ part ∈ parts, '/' ∉ part.toList) :
    steps ("/".intercalate parts) = parts := by
  have hsep : "/".toList = ['/'] := by simp
  have hcut : cut '/' ("/".intercalate parts).toList = parts.map (·.toList) := by
    rw [toList_intercalate hsep]
    apply cut_joinWith (by simpa using hne)
    simpa using h
  rw [steps, hcut, List.map_map]
  simp [Function.comp_def]

/-- The place of a path is found by its parts. -/
theorem place_text {p : Path} (h : p.Plain) (d : Disk) : d.place p.text = d.walk [] ("" :: p.parts) := by
  obtain ⟨root, parts⟩ := p
  obtain ⟨hroot, hparts⟩ := h
  cases parts with
  | nil =>
    simp only [List.mem_cons, List.not_mem_nil, or_false] at hroot
    rcases hroot with rfl | rfl | rfl
    · rfl
    · exact walk_empty_cons d [] "" []
    · exact (walk_empty_cons d [] "" [""]).trans (walk_empty_cons d [] "" [])
  | cons part parts =>
    have hsteps : steps ("/".intercalate (part :: parts)) = part :: parts :=
      steps_intercalate (List.cons_ne_nil _ _) fun part hpart => (hparts part hpart).2
    have hne : "/".intercalate (part :: parts) ≠ "" := by
      intro hempty
      rw [hempty] at hsteps
      exact (hparts part (List.mem_cons_self ..)).1 (List.cons.inj hsteps).1.symm
    have htext : Path.text ⟨root, part :: parts⟩ = root ++ "/".intercalate (part :: parts) := by simp [Path.text]
    simp only [List.mem_cons, List.not_mem_nil, or_false] at hroot
    -- each slash at the start is an empty part in front, and empty parts lead nowhere
    rcases hroot with rfl | rfl | rfl
    · rw [htext, String.empty_append, place_eq hne, hsteps, walk_empty_cons]
    · rw [htext, place_eq (by simp), steps_slash, hsteps]
    · have hslashes : "//" ++ "/".intercalate (part :: parts) = "/" ++ ("/" ++ "/".intercalate (part :: parts)) := by
        rw [← String.append_assoc]
        rfl
      rw [htext, place_eq (by simp), hslashes, steps_slash, steps_slash, hsteps, walk_empty_cons]

theorem place_below {p : Path} (h : p.Plain) (name : String) (d : Disk) :
    d.place (p.below name).text = d.place p.text >>= fun place => d.walk place (Path.ofText name).parts := by
  rw [place_text h, place_text (h.below name), ← walk_append]
  rfl

/-! ## Trees that grow -/

/-- All directories stay. -/
def Grows (d d' : Disk) : Prop := ∀ parts, d.nodeAt parts = .folder → d'.nodeAt parts = .folder

theorem Grows.refl (d : Disk) : Grows d d := fun _ h => h

theorem Grows.trans {d'' : Disk} (h : Grows d d') (h' : Grows d' d'') : Grows d d'' := fun parts hd => h' parts (h parts hd)

theorem Grows.walk (h : Grows d d') {parts : List String} : ∀ {at_ place : List String},
    d.walk at_ parts = .ok place → d'.walk at_ parts = .ok place := by
  induction parts with
  | nil => exact fun hplace => hplace
  | cons part parts ih =>
    intro at_ place hplace
    unfold Disk.walk at hplace ⊢
    split at hplace
    · cases hplace
    · cases hplace
    · rename_i hfolder
      rw [h at_ hfolder]
      dsimp only
      split at hplace
      · rename_i hskip
        rw [if_pos hskip]
        exact ih hplace
      · rename_i hskip
        rw [if_neg hskip]
        split at hplace
        · rename_i hup
          rw [if_pos hup]
          exact ih hplace
        · rename_i hup
          rw [if_neg hup]
          exact ih hplace

theorem Grows.place (h : Grows d d') {path : String} {place : List String} (hplace : d.place path = .ok place) :
    d'.place path = .ok place := by
  unfold Disk.place at hplace ⊢
  split at hplace
  · cases hplace
  · rename_i hpath
    rw [if_neg hpath]
    exact h.walk hplace

theorem nodeAt_eq_folder_iff {parts : List String} : d.nodeAt parts = .folder ↔ Ordered.get? parts d.files = none ∧
    (parts = [] ∨ parts ∈ d.folders ∨ ∃ path ∈ d.files.map (·.1), parts <+: path) := by
  unfold nodeAt
  cases Ordered.get? parts d.files with
  | some content => simp
  | none =>
    have hif : ∀ b : Bool, (if b then Node.folder else .missing) = .folder ↔ b = true := fun b => by cases b <;> simp
    dsimp only
    rw [hif]
    simp [or_assoc]

/-- Making a directory changes no file. -/
structure Keeps (d d' : Disk) : Prop where
  files : d'.files = d.files
  grows : Grows d d'

theorem Keeps.refl (d : Disk) : Keeps d d := ⟨rfl, .refl d⟩

theorem Keeps.trans {d'' : Disk} (h : Keeps d d') (h' : Keeps d' d'') : Keeps d d'' :=
  ⟨h'.files.trans h.files, h.grows.trans h'.grows⟩

theorem makeFolder_keeps (d : Disk) (path : String) : Keeps d (d.makeFolder path).2 := by
  unfold makeFolder
  split
  · exact .refl d
  · split
    · refine ⟨rfl, fun parts hfolder => ?_⟩
      rw [nodeAt_eq_folder_iff] at hfolder ⊢
      exact ⟨hfolder.1, hfolder.2.imp_right fun h => h.imp_left (List.mem_cons_of_mem _)⟩
    · exact .refl d
    · exact .refl d

structure Puts (d d' : Disk) (place : List String) (content : String) : Prop where
  files : d'.files = Ordered.put place content d.files
  grows : Grows d d'

theorem puts_put {place : List String} (h : d.nodeAt place ≠ .folder) (content : String) :
    Puts d (d.put place content) place content := by
  refine ⟨rfl, fun parts hfolder => ?_⟩
  have hne : parts ≠ place := fun heq => h (heq ▸ hfolder)
  rw [nodeAt_eq_folder_iff] at hfolder ⊢
  refine ⟨?_, hfolder.2.imp_right fun h => h.imp_right fun ⟨path, hpath, hprefix⟩ => ⟨path, ?_, hprefix⟩⟩
  · exact (Ordered.get?_put_of_ne hne _ _).trans hfolder.1
  · rw [Ordered.mem_keys_iff] at hpath ⊢
    exact Ordered.contains_put.mpr (.inr hpath)

/-- A file is written, or a fault leaves the tree as it is or the file with a beginning of its content. -/
inductive Written (d : Disk) (path content : String) : Option DiskFault × Disk → Prop
  | whole {place d'} : d.place path = .ok place → Puts d d' place content → Written d path content (none, d')
  | beginning {place d' text f} : d.place path = .ok place → text.toList <+: content.toList → Puts d d' place text →
      Written d path content (some f, d')
  | nothing {f} : Written d path content (some f, d)

theorem write_written (d : Disk) (path content : String) : Written d path content (d.write path content) := by
  unfold write
  cases hplace : d.place path with
  | error f => exact .nothing
  | ok place =>
    dsimp only
    split
    · exact .nothing
    · rename_i hnode
      exact .whole hplace (puts_put hnode content)
    · exact .nothing
    · rename_i f n _ hnode
      refine .beginning hplace ?_ (puts_put hnode _)
      rw [String.toList_ofList]
      exact List.take_prefix n content.toList

example : ({ ofFiles [] with obstacles := [(["a"], ⟨.other "no space", some 2⟩)] }.write "a" "text").2.look "a" =
    .file "te" := by decide +kernel

end Disk

end ToolServer.Command
