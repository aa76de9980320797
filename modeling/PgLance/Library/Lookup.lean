import Mathlib.Data.List.Nodup

/-! Association lists, where the first pair of a key counts. -/

namespace Lookup

variable {α β γ : Type*} [DecidableEq α]

theorem lookup_cons_eq (key other : α) (value : β) (pairs : List (α × β)) :
    ((other, value) :: pairs).lookup key = if key = other then some value else pairs.lookup key := by
  rw [List.lookup_cons]
  by_cases h : key = other
  · simp [h]
  · simp [h, beq_eq_false_iff_ne.mpr h]

theorem lookup_map_snd (f : β → γ) (key : α) (pairs : List (α × β)) :
    (pairs.map (Prod.map id f)).lookup key = (pairs.lookup key).map f := by
  induction pairs with
  | nil => rfl
  | cons pair pairs ih =>
    obtain ⟨other, value⟩ := pair
    rw [List.map_cons, Prod.map, id, lookup_cons_eq, lookup_cons_eq, ih]
    split <;> rfl

theorem mem_of_lookup {key : α} {value : β} {pairs : List (α × β)}
    (h : pairs.lookup key = some value) : (key, value) ∈ pairs := by
  induction pairs with
  | nil => cases h
  | cons pair pairs ih =>
    obtain ⟨other, old⟩ := pair
    rw [lookup_cons_eq] at h
    split at h
    · rename_i heq
      cases h
      rw [heq]
      exact List.mem_cons_self
    · exact List.mem_cons_of_mem _ (ih h)

theorem lookup_of_mem {key : α} {value : β} {pairs : List (α × β)}
    (hnodup : (pairs.map Prod.fst).Nodup) (h : (key, value) ∈ pairs) :
    pairs.lookup key = some value := by
  induction pairs with
  | nil => cases h
  | cons pair pairs ih =>
    obtain ⟨other, old⟩ := pair
    rw [List.map_cons, List.nodup_cons] at hnodup
    rw [lookup_cons_eq]
    obtain heq | hmem := List.mem_cons.mp h
    · cases heq
      rw [if_pos rfl]
    · rw [if_neg, ih hnodup.2 hmem]
      rintro rfl
      exact hnodup.1 (List.mem_map.mpr ⟨_, hmem, rfl⟩)

end Lookup
