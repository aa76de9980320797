import Mathlib.Data.List.Basic

/-! Runs of a fallible step over a list, where the state reached survives a failure. -/

namespace Run

variable {α β ε σ τ : Type*}

def runAll (step : α → σ → Except ε Unit × σ) : List α → σ → Except ε Unit × σ
  | [], s => (.ok (), s)
  | a :: as, s =>
    match step a s with
    | (.ok (), s) => runAll step as s
    | (.error e, s) => (.error e, s)

variable {step : α → σ → Except ε Unit × σ}

@[simp] theorem runAll_nil (s : σ) : runAll step [] s = (.ok (), s) := rfl

theorem runAll_cons_ok {a : α} {as : List α} {s s' : σ} (h : step a s = (.ok (), s')) :
    runAll step (a :: as) s = runAll step as s' := by simp [runAll, h]

theorem runAll_cons_error {a : α} {as : List α} {s s' : σ} {e : ε}
    (h : step a s = (.error e, s')) : runAll step (a :: as) s = (.error e, s') := by
  simp [runAll, h]

theorem runAll_append_ok {as bs : List α} {s s' : σ} (h : runAll step as s = (.ok (), s')) :
    runAll step (as ++ bs) s = runAll step bs s' := by
  induction as generalizing s with
  | nil => cases h; rfl
  | cons a as ih =>
    rcases ha : step a s with ⟨_ | _, s₁⟩
    · simp [runAll, ha] at h
    · rw [runAll_cons_ok ha] at h
      rw [List.cons_append, runAll_cons_ok ha, ih h]

theorem runAll_append_error {as bs : List α} {s s' : σ} {e : ε}
    (h : runAll step as s = (.error e, s')) : runAll step (as ++ bs) s = (.error e, s') := by
  induction as generalizing s with
  | nil => cases h
  | cons a as ih =>
    rcases ha : step a s with ⟨_ | _, s₁⟩
    · rw [runAll_cons_error ha] at h
      rw [List.cons_append, runAll_cons_error ha, h]
    · rw [runAll_cons_ok ha] at h
      rw [List.cons_append, runAll_cons_ok ha, ih h]

theorem runAll_error {as : List α} {s s' : σ} {e : ε} (h : runAll step as s = (.error e, s')) :
    ∃ done a rest s₁, as = done ++ a :: rest ∧ runAll step done s = (.ok (), s₁) ∧
      step a s₁ = (.error e, s') := by
  induction as generalizing s with
  | nil => cases h
  | cons a as ih =>
    rcases ha : step a s with ⟨_ | _, s₁⟩
    · rw [runAll_cons_error ha] at h
      exact ⟨[], a, as, s, rfl, rfl, by rw [ha, h]⟩
    · rw [runAll_cons_ok ha] at h
      obtain ⟨done, b, rest, s₂, rfl, hdone, hb⟩ := ih h
      exact ⟨a :: done, b, rest, s₂, rfl, by rw [runAll_cons_ok ha, hdone], hb⟩

theorem runAll_map (f : β → α) (bs : List β) (s : σ) :
    runAll step (bs.map f) s = runAll (fun b => step (f b)) bs s := by
  induction bs generalizing s with
  | nil => rfl
  | cons b bs ih => simp only [List.map_cons, runAll, ih]

theorem runAll_invariant_from {I : List α → σ → Prop} {done as : List α} {s s' : σ}
    (init : I done s)
    (hstep : ∀ done a s s', a ∈ as → I done s → step a s = (.ok (), s') → I (done ++ [a]) s')
    (h : runAll step as s = (.ok (), s')) : I (done ++ as) s' := by
  induction as generalizing done s with
  | nil => cases h; simpa using init
  | cons a as ih =>
    rcases ha : step a s with ⟨_ | _, s₁⟩
    · simp [runAll, ha] at h
    · rw [runAll_cons_ok ha] at h
      have hnext := hstep done a s s₁ List.mem_cons_self init ha
      have hrest := ih hnext (fun done b s s' hb => hstep done b s s' (List.mem_cons_of_mem a hb)) h
      simpa using hrest

theorem runAll_invariant {I : List α → σ → Prop} {as : List α} {s s' : σ} (init : I [] s)
    (hstep : ∀ done a s s', a ∈ as → I done s → step a s = (.ok (), s') → I (done ++ [a]) s')
    (h : runAll step as s = (.ok (), s')) : I as s' :=
  runAll_invariant_from init hstep h

theorem runAll_simulation {step' : β → τ → Except ε Unit × τ} (R : σ → τ → Prop) (f : α → β)
    (hstep : ∀ a s t, R s t →
      (step a s).1 = (step' (f a) t).1 ∧ R (step a s).2 (step' (f a) t).2)
    (as : List α) {s : σ} {t : τ} (hR : R s t) :
    (runAll step as s).1 = (runAll step' (as.map f) t).1 ∧
      R (runAll step as s).2 (runAll step' (as.map f) t).2 := by
  induction as generalizing s t with
  | nil => exact ⟨rfl, hR⟩
  | cons a as ih =>
    obtain ⟨h₁, h₂⟩ := hstep a s t hR
    rcases ha : step a s with ⟨_ | _, s₁⟩ <;> rcases hb : step' (f a) t with ⟨_ | _, t₁⟩ <;>
      simp only [ha, hb] at h₁ h₂
    · rw [List.map_cons, runAll_cons_error ha, runAll_cons_error hb]
      exact ⟨h₁, h₂⟩
    · cases h₁
    · cases h₁
    · rw [List.map_cons, runAll_cons_ok ha, runAll_cons_ok hb]
      exact ih h₂

end Run
