import Mathlib.Order.RelClasses
import Mathlib.Data.List.Perm.Basic

/-! The best of the values that a scan has met, under a strict total order. -/

namespace RunningBest

variable {α : Type*} (better : α → α → Prop)

/-- One of the values that none of them is better than, and none where there is no value. -/
def IsBest (values : List α) : Option α → Prop
  | none => values = []
  | some best => best ∈ values ∧ ∀ v ∈ values, ¬ better v best

def keep [DecidableRel better] (current : Option α) (candidate : α) : Option α :=
  match current with
  | none => some candidate
  | some best => if better candidate best then some candidate else some best

variable {better}

theorem IsBest.of_perm {values values' : List α} {best : Option α} (h : IsBest better values best)
    (hperm : values.Perm values') : IsBest better values' best := by
  cases best with
  | none =>
    rw [IsBest] at h ⊢
    rw [h] at hperm
    exact hperm.nil_eq.symm
  | some best => exact ⟨hperm.mem_iff.mp h.1, fun v hv => h.2 v (hperm.mem_iff.mpr hv)⟩

variable [IsStrictTotalOrder α better]

theorem IsBest.unique {values : List α} {best best' : Option α} (h : IsBest better values best)
    (h' : IsBest better values best') : best = best' := by
  cases best with
  | none =>
    cases best' with
    | none => rfl
    | some best' =>
      rw [IsBest] at h
      rw [h] at h'
      exact absurd h'.1 List.not_mem_nil
  | some best =>
    cases best' with
    | none =>
      rw [IsBest] at h'
      rw [h'] at h
      exact absurd h.1 List.not_mem_nil
    | some best' =>
      rcases trichotomous_of better best best' with hlt | heq | hgt
      · exact absurd hlt (h'.2 best h.1)
      · rw [heq]
      · exact absurd hgt (h.2 best' h'.1)

variable [DecidableRel better]

theorem isBest_keep {seen : List α} {current : Option α} (h : IsBest better seen current)
    (candidate : α) : IsBest better (seen ++ [candidate]) (keep better current candidate) := by
  cases current with
  | none =>
    rw [IsBest] at h
    rw [h, keep, List.nil_append]
    exact ⟨List.mem_singleton_self _, fun v hv => List.mem_singleton.mp hv ▸ irrefl_of better v⟩
  | some best =>
    rw [keep]
    split
    · rename_i hbetter
      refine ⟨List.mem_append_right seen (List.mem_singleton_self _), fun v hv hv' => ?_⟩
      obtain hseen | hlast := List.mem_append.mp hv
      · exact h.2 v hseen (trans_of better hv' hbetter)
      · exact irrefl_of better candidate (List.mem_singleton.mp hlast ▸ hv')
    · rename_i hworse
      refine ⟨List.mem_append_left _ h.1, fun v hv => ?_⟩
      obtain hseen | hlast := List.mem_append.mp hv
      · exact h.2 v hseen
      · exact List.mem_singleton.mp hlast ▸ hworse

theorem isBest_foldl {seen : List α} {current : Option α} (h : IsBest better seen current)
    (values : List α) :
    IsBest better (seen ++ values) (values.foldl (keep better) current) := by
  induction values generalizing seen current with
  | nil => rwa [List.append_nil]
  | cons v values ih =>
    have hrest := ih (isBest_keep h v)
    rwa [List.append_assoc] at hrest

end RunningBest
