import Mathlib.Data.List.Forall2

/-!
# Outcomes

What holds of the result of a step that may also fail.
-/

namespace ToolServer

/-- Whatever a step gives has a property. -/
def Gives {ε α : Type} (x : Except ε α) (P : α → Prop) : Prop := ∀ a, x = .ok a → P a

namespace Gives

variable {ε α β : Type} {P : α → Prop} {Q : β → Prop}

theorem ok {a : α} (h : P a) : Gives (.ok a : Except ε α) P := fun _ hb => Except.ok.inj hb ▸ h

theorem error (e : ε) : Gives (.error e : Except ε α) P := fun _ hb => by cases hb

theorem bind {x : Except ε α} {f : α → Except ε β} (hx : Gives x P) (hf : ∀ a, P a → Gives (f a) Q) :
    Gives (x >>= f) Q := by
  intro b hb
  cases h : x with
  | error e => rw [h] at hb; cases hb
  | ok a => rw [h] at hb; exact hf a (hx a h) b hb

theorem any {x : Except ε α} {f : α → Except ε β} (hf : ∀ a, Gives (f a) Q) : Gives (x >>= f) Q :=
  bind (P := fun _ => True) (fun _ _ => trivial) fun a _ => hf a

theorem map {x : Except ε α} {f : α → β} (hx : Gives x P) (hf : ∀ a, P a → Q (f a)) : Gives (x.map f) Q := by
  intro b hb
  cases x with
  | error e => cases hb
  | ok a =>
    cases hb
    exact hf a (hx a rfl)

theorem mono {R : α → Prop} {x : Except ε α} (hx : Gives x P) (h : ∀ a, P a → R a) : Gives x R :=
  fun a ha => h a (hx a ha)

theorem mapM_map {γ : Type} {f : α → Except ε β} {g : β → γ} {k : α → γ} : ∀ {xs : List α},
    (∀ x ∈ xs, Gives (f x) (fun y => g y = k x)) → Gives (xs.mapM f) (fun ys => ys.map g = xs.map k)
  | [], _ => by
    rw [List.mapM_nil]
    exact .ok rfl
  | x :: xs, h => by
    rw [List.mapM_cons]
    refine (h x (List.mem_cons_self ..)).bind fun y hy =>
      (mapM_map fun x hx => h x (List.mem_cons_of_mem _ hx)).bind fun ys hys => .ok ?_
    rw [List.map_cons, List.map_cons, hy, hys]

theorem mapM {f : α → Except ε β} : ∀ {xs : List α}, (∀ x ∈ xs, Gives (f x) Q) →
    Gives (xs.mapM f) (fun ys => ∀ y ∈ ys, Q y)
  | [], _ => by
    rw [List.mapM_nil]
    exact .ok fun y hy => by cases hy
  | x :: xs, h => by
    rw [List.mapM_cons]
    exact (h x (List.mem_cons_self ..)).bind fun y hy =>
      (mapM fun x hx => h x (List.mem_cons_of_mem _ hx)).bind fun ys hys =>
        .ok (List.forall_mem_cons.mpr ⟨hy, hys⟩)

theorem mapM_forall₂ {R : α → β → Prop} {f : α → Except ε β} : ∀ {xs : List α},
    (∀ x ∈ xs, Gives (f x) (R x)) → Gives (xs.mapM f) (List.Forall₂ R xs)
  | [], _ => by
    rw [List.mapM_nil]
    exact .ok .nil
  | x :: xs, h => by
    rw [List.mapM_cons]
    refine (h x (List.mem_cons_self ..)).bind fun y hy => ?_
    refine (mapM_forall₂ fun x hx => h x (List.mem_cons_of_mem _ hx)).bind fun ys hys => ?_
    exact .ok (.cons hy hys)

theorem foldlM_from {I : List α → β → Prop} {f : β → α → Except ε β} : ∀ {xs before : List α} {b : β},
    (∀ before, ∀ x ∈ xs, ∀ b, I before b → Gives (f b x) (I (before ++ [x]))) → I before b →
      Gives (xs.foldlM f b) (I (before ++ xs))
  | [], before, b, _, hb => by
    rw [List.foldlM_nil, List.append_nil]
    exact .ok hb
  | x :: xs, before, b, hf, hb => by
    rw [List.foldlM_cons, List.append_cons]
    exact (hf before x (List.mem_cons_self ..) b hb).bind fun c hc =>
      foldlM_from (fun before x hx => hf before x (List.mem_cons_of_mem _ hx)) hc

/-- What each step keeps of the elements until then, a run keeps of all. -/
theorem foldlM {I : List α → β → Prop} {f : β → α → Except ε β} {xs : List α} {b : β}
    (hf : ∀ before, ∀ x ∈ xs, ∀ b, I before b → Gives (f b x) (I (before ++ [x]))) (hb : I [] b) :
    Gives (xs.foldlM f b) (I xs) := foldlM_from hf hb

theorem foldlM_const {I : β → Prop} {f : β → α → Except ε β} {xs : List α} {b : β}
    (hf : ∀ x ∈ xs, ∀ b, I b → Gives (f b x) I) (hb : I b) : Gives (xs.foldlM f b) I :=
  foldlM (I := fun _ => I) (fun _ => hf) hb

end Gives

section
variable {ε α β : Type}

theorem bind_eq_ok_iff {x : Except ε α} {f : α → Except ε β} {b : β} :
    x >>= f = .ok b ↔ ∃ a, x = .ok a ∧ f a = .ok b := by
  constructor
  · intro h
    cases x with
    | error e => cases h
    | ok a => exact ⟨a, rfl, h⟩
  · rintro ⟨a, rfl, h⟩
    exact h

theorem exists_bind_ok_iff {x : Except ε α} {f : α → Except ε β} :
    (∃ b, x >>= f = .ok b) ↔ ∃ a, x = .ok a ∧ ∃ b, f a = .ok b := by
  constructor
  · rintro ⟨b, h⟩
    obtain ⟨a, ha, hb⟩ := bind_eq_ok_iff.mp h
    exact ⟨a, ha, b, hb⟩
  · rintro ⟨a, ha, b, hb⟩
    exact ⟨b, bind_eq_ok_iff.mpr ⟨a, ha, hb⟩⟩

theorem exists_map_ok_iff {x : Except ε α} {f : α → β} :
    (∃ b, (x >>= fun a => pure (f a)) = .ok b) ↔ ∃ a, x = .ok a := by
  constructor
  · rintro ⟨b, h⟩
    exact (bind_eq_ok_iff.mp h).imp fun _ h => h.1
  · rintro ⟨a, rfl⟩
    exact ⟨f a, rfl⟩

theorem exists_mapM_ok_iff {f : α → Except ε β} : ∀ {xs : List α},
    (∃ ys, xs.mapM f = .ok ys) ↔ ∀ x ∈ xs, ∃ y, f x = .ok y
  | [] => ⟨fun _ => List.forall_mem_nil _, fun _ => ⟨[], rfl⟩⟩
  | x :: xs => by
    rw [List.mapM_cons, List.forall_mem_cons, ← exists_mapM_ok_iff, exists_bind_ok_iff]
    constructor
    · rintro ⟨y, hy, hys⟩
      exact ⟨⟨y, hy⟩, exists_map_ok_iff.mp hys⟩
    · rintro ⟨⟨y, hy⟩, hys⟩
      exact ⟨y, hy, exists_map_ok_iff.mpr hys⟩

end

theorem exists_ok {ε α : Type} {x : Except ε α} (h : x.isOk = true) : ∃ a, x = .ok a := by
  cases x with
  | error e => cases h
  | ok a => exact ⟨a, rfl⟩

theorem exists_of_map_ok {ε α β : Type} {x : Except ε α} {f : α → β} {b : β} (h : x.map f = .ok b) :
    ∃ a, x = .ok a ∧ f a = b := by
  cases x with
  | error e => cases h
  | ok a => exact ⟨a, rfl, Except.ok.inj h⟩

theorem exists_mapM_some_iff {α β : Type} {f : α → Option β} : ∀ {xs : List α},
    (∃ ys, xs.mapM f = some ys) ↔ ∀ x ∈ xs, ∃ y, f x = some y
  | [] => ⟨fun _ => List.forall_mem_nil _, fun _ => ⟨[], rfl⟩⟩
  | x :: xs => by
    rw [List.mapM_cons, List.forall_mem_cons, ← exists_mapM_some_iff]
    constructor
    · rintro ⟨ys, h⟩
      obtain ⟨y, hy, h⟩ := Option.bind_eq_some_iff.mp h
      obtain ⟨zs, hzs, -⟩ := Option.bind_eq_some_iff.mp h
      exact ⟨⟨y, hy⟩, zs, hzs⟩
    · rintro ⟨⟨y, hy⟩, zs, hzs⟩
      exact ⟨y :: zs, by rw [hy, hzs]; rfl⟩

theorem map_of_mapM {α β : Type} {f : α → Option β} : ∀ {xs : List α} {ys : List β},
    xs.mapM f = some ys → xs.map f = ys.map some
  | [], _, h => by
    cases h
    rfl
  | x :: xs, ys, h => by
    rw [List.mapM_cons] at h
    obtain ⟨z, hz, h⟩ := Option.bind_eq_some_iff.mp h
    obtain ⟨zs, hzs, h⟩ := Option.bind_eq_some_iff.mp h
    cases h
    rw [List.map_cons, List.map_cons, hz, map_of_mapM hzs]

theorem mem_of_mapM {α β : Type} {f : α → Option β} {xs : List α} {ys : List β}
    (h : xs.mapM f = some ys) : ∀ y ∈ ys, ∃ x ∈ xs, f x = some y := by
  intro y hy
  have hmem : some y ∈ xs.map f := map_of_mapM h ▸ List.mem_map_of_mem hy
  exact List.mem_map.mp hmem

/-! ## Lists side by side -/

theorem forall₂_comp {α β γ : Type} {R : α → β → Prop} {S : β → γ → Prop} {xs : List α} {ys : List β}
    {zs : List γ} (h : List.Forall₂ R xs ys) (h' : List.Forall₂ S ys zs) :
    List.Forall₂ (fun x z => ∃ y, R x y ∧ S y z) xs zs := by
  induction h generalizing zs with
  | nil =>
    cases h'
    exact .nil
  | cons hxy _ ih =>
    cases h' with
    | cons hyz hrest => exact .cons ⟨_, hxy, hyz⟩ (ih hrest)

theorem map_eq_of_forall₂ {α β γ : Type} {f : α → γ} {g : β → γ} {xs : List α} {ys : List β}
    (h : List.Forall₂ (fun x y => g y = f x) xs ys) : ys.map g = xs.map f := by
  induction h with
  | nil => rfl
  | cons hxy _ ih => rw [List.map_cons, List.map_cons, hxy, ih]

theorem eq_of_forall₂ {α : Type} {R : α → α → Prop} {xs ys : List α} (h : List.Forall₂ R xs ys)
    (hR : ∀ x ∈ xs, ∀ y, R x y → y = x) : ys = xs := by
  induction h with
  | nil => rfl
  | cons hxy _ ih =>
    obtain ⟨hx, hxs⟩ := List.forall_mem_cons.mp hR
    rw [hx _ hxy, ih hxs]

theorem exists_of_forall₂ {α β : Type} {R : α → β → Prop} {xs : List α} {ys : List β}
    (h : List.Forall₂ R xs ys) : ∀ y ∈ ys, ∃ x ∈ xs, R x y := by
  induction h with
  | nil =>
    intro y hy
    cases hy
  | cons hxy _ ih =>
    intro z hz
    rcases List.mem_cons.mp hz with rfl | hz
    · exact ⟨_, List.mem_cons_self .., hxy⟩
    · obtain ⟨x, hx, hxz⟩ := ih z hz
      exact ⟨x, List.mem_cons_of_mem _ hx, hxz⟩

end ToolServer
