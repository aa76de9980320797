import Mathlib.Data.List.Forall2

/-! Fallible functions over the items of a list, in order, up to the first failure. -/

namespace Fallible

variable {α β ε : Type*}

theorem bind_ok_iff.{u} {β γ : Type u} {r : Except ε β} {f : β → Except ε γ} {z : γ} :
    r >>= f = .ok z ↔ ∃ y, r = .ok y ∧ f y = .ok z := by
  cases r <;> simp [Bind.bind, Except.bind]

theorem map_ok_iff {γ : Type*} {r : Except ε β} {f : β → γ} {z : γ} :
    r.map f = .ok z ↔ ∃ y, r = .ok y ∧ f y = z := by
  cases r <;> simp [Except.map]

theorem functor_map_ok_iff.{u} {β γ : Type u} {r : Except ε β} {f : β → γ} {z : γ} :
    f <$> r = .ok z ↔ ∃ y, r = .ok y ∧ f y = z := map_ok_iff

theorem mapM_cons_ok {f : α → Except ε β} {x : α} {y : β} (h : f x = .ok y) (xs : List α) :
    (x :: xs).mapM f = (xs.mapM f).map (y :: ·) := by
  rw [List.mapM_cons, h]
  cases xs.mapM f <;> rfl

theorem mapM_cons_error {f : α → Except ε β} {x : α} {e : ε} (h : f x = .error e) (xs : List α) :
    (x :: xs).mapM f = .error e := by
  rw [List.mapM_cons, h]
  rfl

theorem mapM_ok_iff {f : α → Except ε β} {xs : List α} {ys : List β} :
    xs.mapM f = .ok ys ↔ List.Forall₂ (fun x y => f x = .ok y) xs ys := by
  induction xs generalizing ys with
  | nil => cases ys <;> simp [pure, Except.pure]
  | cons x xs ih =>
    cases hx : f x with
    | error e => simp [mapM_cons_error hx, List.forall₂_cons_left_iff, hx]
    | ok y =>
      rw [mapM_cons_ok hx, List.forall₂_cons_left_iff]
      cases hxs : xs.mapM f with
      | error e => simp [Except.map, hx, ← ih, hxs]
      | ok ys' => simp [Except.map, hx, ← ih, hxs, eq_comm]

theorem mapM_ok {f : α → Except ε β} {g : α → β} {xs : List α} (h : ∀ x ∈ xs, f x = .ok (g x)) :
    xs.mapM f = .ok (xs.map g) := by
  rw [mapM_ok_iff, List.forall₂_map_right_iff, List.forall₂_same]
  exact h

theorem mapM_congr {γ : Type*} {f : α → Except ε β} {g : γ → Except ε β} {xs : List α}
    {ys : List γ} (h : List.Forall₂ (fun x y => f x = g y) xs ys) : xs.mapM f = ys.mapM g := by
  induction h with
  | nil => rfl
  | cons hxy _ ih => rw [List.mapM_cons, List.mapM_cons, hxy, ih]

theorem mapM_eq_some_iff {f : α → Option β} {xs : List α} {ys : List β} :
    xs.mapM f = some ys ↔ xs.map f = ys.map some := by
  induction xs generalizing ys with
  | nil => cases ys <;> simp
  | cons x xs ih =>
    rw [List.mapM_cons]
    cases ys with
    | nil => cases f x <;> cases xs.mapM f <;> simp
    | cons y ys =>
      rw [List.map_cons, List.map_cons, List.cons.injEq, ← ih]
      cases f x <;> cases xs.mapM f <;> simp

theorem mapError_bind.{u} {β γ : Type u} {δ : Type*} (g : ε → δ) (r : Except ε β)
    (f : β → Except ε γ) : (r >>= f).mapError g = r.mapError g >>= fun y => (f y).mapError g := by
  cases r <;> rfl

theorem mapError_mapM {δ : Type*} (g : ε → δ) (f : α → Except ε β) (xs : List α) :
    (xs.mapM f).mapError g = xs.mapM fun x => (f x).mapError g := by
  induction xs with
  | nil => rfl
  | cons x xs ih => simp only [List.mapM_cons, mapError_bind, ← ih]; rfl

theorem getElem?_of_forall₂ {R : α → β → Prop} {xs : List α} {ys : List β}
    (h : List.Forall₂ R xs ys) {i : Nat} {x : α} (hx : xs[i]? = some x) :
    ∃ y, ys[i]? = some y ∧ R x y := by
  induction h generalizing i with
  | nil => simp at hx
  | cons hxy _ ih =>
    cases i with
    | zero => cases hx; exact ⟨_, rfl, hxy⟩
    | succ i => exact ih hx

theorem exists_of_forall₂ {R : α → β → Prop} {xs : List α} {ys : List β}
    (h : List.Forall₂ R xs ys) {x : α} (hx : x ∈ xs) : ∃ y ∈ ys, R x y := by
  obtain ⟨i, hi⟩ := List.mem_iff_getElem?.mp hx
  obtain ⟨y, hy, hR⟩ := getElem?_of_forall₂ h hi
  exact ⟨y, List.mem_of_getElem? hy, hR⟩

theorem forall₂_of_map {γ δ : Type*} {f : α → γ} {g : α → δ} {R : α → α → Prop} {xs ys : List α}
    (hf : xs.map f = ys.map f) (hg : xs.map g = ys.map g)
    (h : ∀ x ∈ xs, ∀ y ∈ ys, f x = f y → g x = g y → R x y) : List.Forall₂ R xs ys := by
  induction xs generalizing ys with
  | nil =>
    rw [List.map_nil, eq_comm, List.map_eq_nil_iff] at hf
    rw [hf]
    exact .nil
  | cons x xs ih =>
    obtain _ | ⟨y, ys⟩ := ys
    · cases hf
    · rw [List.map_cons, List.map_cons, List.cons.injEq] at hf hg
      refine .cons (h x (by simp) y (by simp) hf.1 hg.1) (ih hf.2 hg.2 fun x hx y hy => ?_)
      exact h x (List.mem_cons_of_mem _ hx) y (List.mem_cons_of_mem _ hy)

theorem forall_mem_iff_forall₂ {α β : Type} {r q : α → β → Prop} {p : β → Prop} {xs : List α}
    {ys : List β} (h : List.Forall₂ r xs ys)
    (hiff : ∀ x ∈ xs, ∀ y ∈ ys, r x y → (p y ↔ q x y)) :
    (∀ y ∈ ys, p y) ↔ List.Forall₂ q xs ys := by
  induction h with
  | nil => simp
  | cons hxy _ ih =>
    rw [List.forall_mem_cons, List.forall₂_cons]
    refine and_congr (hiff _ List.mem_cons_self _ List.mem_cons_self hxy) (ih ?_)
    intro x hx y hy
    exact hiff x (List.mem_cons_of_mem _ hx) y (List.mem_cons_of_mem _ hy)

theorem mapM_error {f : α → Except ε β} {xs : List α} {e : ε} (h : xs.mapM f = .error e) :
    ∃ x ∈ xs, f x = .error e := by
  induction xs with
  | nil => cases h
  | cons x xs ih =>
    cases hx : f x with
    | error e' =>
      rw [mapM_cons_error hx] at h
      cases h
      exact ⟨x, by simp, hx⟩
    | ok y =>
      rw [mapM_cons_ok hx] at h
      cases hxs : xs.mapM f with
      | ok ys => simp [hxs, Except.map] at h
      | error e' =>
        rw [hxs] at h
        cases h
        obtain ⟨x', hx', he⟩ := ih hxs
        exact ⟨x', by simp [hx'], he⟩

theorem exists_mapM_ok_iff {f : α → Except ε β} {xs : List α} :
    (∃ ys, xs.mapM f = .ok ys) ↔ ∀ x ∈ xs, ∃ y, f x = .ok y := by
  constructor
  · rintro ⟨ys, hys⟩ x hx
    obtain ⟨i, hi⟩ := List.getElem?_of_mem hx
    obtain ⟨y, -, hy⟩ := getElem?_of_forall₂ (mapM_ok_iff.mp hys) hi
    exact ⟨y, hy⟩
  · intro h
    cases hxs : xs.mapM f with
    | ok ys => exact ⟨ys, rfl⟩
    | error e =>
      obtain ⟨x, hx, he⟩ := mapM_error hxs
      obtain ⟨y, hy⟩ := h x hx
      cases he.symm.trans hy

theorem forM_ok_iff {f : α → Except ε Unit} {xs : List α} :
    xs.forM f = .ok () ↔ ∀ x ∈ xs, f x = .ok () := by
  induction xs with
  | nil => simp [pure, Except.pure]
  | cons x xs ih =>
    have hcons : (x :: xs).forM f = f x >>= fun _ => xs.forM f := rfl
    rw [hcons, List.forall_mem_cons, ← ih]
    cases f x <;> simp [Bind.bind, Except.bind]

/-- The value of a call that fails neither in one way nor in the other. -/
def returned {δ : Type*} : Except ε (Except δ β) → Option β
  | .ok (.ok y) => some y
  | _ => none

theorem returned_eq_some {δ : Type*} {r : Except ε (Except δ β)} {y : β} :
    returned r = some y ↔ r = .ok (.ok y) := by
  cases r with
  | error e => simp [returned]
  | ok r => cases r <;> simp [returned]

def FailsOnly (P : ε → Prop) (r : Except ε β) : Prop := ∀ e, r = .error e → P e

section

variable {P : ε → Prop}

@[simp] theorem failsOnly_ok (y : β) : FailsOnly P (.ok y) := by simp [FailsOnly]

@[simp] theorem failsOnly_pure (y : β) : FailsOnly P (pure y) := failsOnly_ok y

@[simp] theorem failsOnly_error (e : ε) : FailsOnly P (.error e : Except ε β) ↔ P e := by
  simp [FailsOnly]

@[simp] theorem failsOnly_map {γ : Type*} (f : β → γ) (r : Except ε β) :
    FailsOnly P (r.map f) ↔ FailsOnly P r := by
  cases r <;> simp [Except.map]

@[simp] theorem failsOnly_functor_map.{u} {β γ : Type u} (f : β → γ) (r : Except ε β) :
    FailsOnly P (f <$> r) ↔ FailsOnly P r := failsOnly_map f r

@[simp] theorem failsOnly_bind.{u} {β γ : Type u} (r : Except ε β) (f : β → Except ε γ) :
    FailsOnly P (r >>= f) ↔ FailsOnly P r ∧ ∀ y, r = .ok y → FailsOnly P (f y) := by
  cases r <;> simp [Bind.bind, Except.bind]

theorem failsOnly_mapM {f : α → Except ε β} {xs : List α} (h : ∀ x ∈ xs, FailsOnly P (f x)) :
    FailsOnly P (xs.mapM f) := by
  intro e he
  obtain ⟨x, hx, hxe⟩ := mapM_error he
  exact h x hx e hxe

end

end Fallible
