import Mathlib.Data.List.Basic
import Mathlib.Tactic.Linarith

/-! Cutting a list into runs of `n` elements, the last of which may be shorter. -/

namespace Chunks

variable {α : Type*}

/-- `run` is the chunk being filled.  A size of `0` cuts like a size of `1`. -/
def chunksFrom (n : Nat) : List α → List α → List (List α)
  | run, [] => if run.isEmpty then [] else [run]
  | run, x :: xs =>
    if n ≤ run.length + 1 then (run ++ [x]) :: chunksFrom n [] xs
    else chunksFrom n (run ++ [x]) xs

def chunks (n : Nat) (xs : List α) : List (List α) := chunksFrom n [] xs

@[simp] theorem chunks_nil (n : Nat) : chunks n ([] : List α) = [] := rfl

theorem chunksFrom_eq {n : Nat} (run xs : List α) (hr : run.length < n)
    (hne : run ++ xs ≠ []) :
    chunksFrom n run xs = (run ++ xs).take n :: chunks n ((run ++ xs).drop n) := by
  induction xs generalizing run with
  | nil =>
    simp only [List.append_nil] at hne
    simp [chunksFrom, hne, List.take_of_length_le hr.le, List.drop_of_length_le hr.le]
  | cons x xs ih =>
    simp only [chunksFrom]
    split
    · next h =>
      have hlen : (run ++ [x]).length = n := by simp; omega
      have happ : run ++ x :: xs = (run ++ [x]) ++ xs := by simp
      rw [happ, List.take_left' hlen, List.drop_left' hlen]
      rfl
    · next h =>
      rw [ih (run ++ [x]) (by simp; omega) (by simp)]
      simp

theorem chunks_eq {n : Nat} (hn : 0 < n) {xs : List α} (hne : xs ≠ []) :
    chunks n xs = xs.take n :: chunks n (xs.drop n) :=
  chunksFrom_eq [] xs (by simpa using hn) (by simpa using hne)

theorem flatten_chunksFrom (n : Nat) (run xs : List α) :
    (chunksFrom n run xs).flatten = run ++ xs := by
  induction xs generalizing run with
  | nil => cases run <;> simp [chunksFrom]
  | cons x xs ih =>
    simp only [chunksFrom]
    split <;> simp [ih]

@[simp] theorem flatten_chunks (n : Nat) (xs : List α) : (chunks n xs).flatten = xs := by
  simp [chunks, flatten_chunksFrom]

theorem flatten_flatten_map_chunks {β : Type*} (n : Nat) (f : α → β) (pieces : List (List α)) :
    (pieces.map fun piece => (chunks n piece).map (List.map f)).flatten.flatten =
      pieces.flatten.map f := by
  induction pieces with
  | nil => rfl
  | cons piece pieces ih =>
    simp only [List.map_cons, List.flatten_cons, List.flatten_append, List.map_append, ih,
      ← List.map_flatten, flatten_chunks]

theorem ne_nil_of_mem_chunksFrom {n : Nat} {run xs c : List α} (h : c ∈ chunksFrom n run xs) :
    c ≠ [] := by
  induction xs generalizing run with
  | nil =>
    cases run with
    | nil => simp [chunksFrom] at h
    | cons r rs => simp [chunksFrom] at h; simp [h]
  | cons x xs ih =>
    simp only [chunksFrom] at h
    split at h
    · rcases List.mem_cons.mp h with rfl | h
      · simp
      · exact ih h
    · exact ih h

theorem ne_nil_of_mem_chunks {n : Nat} {xs c : List α} (h : c ∈ chunks n xs) : c ≠ [] :=
  ne_nil_of_mem_chunksFrom h

theorem length_le_of_mem_chunksFrom {n : Nat} {run xs c : List α} (hr : run.length < max n 1)
    (h : c ∈ chunksFrom n run xs) : c.length ≤ max n 1 := by
  induction xs generalizing run with
  | nil =>
    cases run with
    | nil => simp [chunksFrom] at h
    | cons r rs =>
      simp only [chunksFrom, List.isEmpty_cons, Bool.false_eq_true, if_false,
        List.mem_singleton] at h
      subst h
      exact hr.le
  | cons x xs ih =>
    simp only [chunksFrom] at h
    split at h
    · rcases List.mem_cons.mp h with rfl | h
      · rw [List.length_append, List.length_singleton]
        omega
      · exact ih (by simp) h
    · exact ih (by simp; omega) h

theorem length_le_of_mem_chunks {n : Nat} {xs c : List α} (h : c ∈ chunks n xs) :
    c.length ≤ max n 1 :=
  length_le_of_mem_chunksFrom (by simp) h

theorem length_of_mem_dropLast_chunksFrom {n : Nat} {run xs c : List α}
    (hr : run.length < max n 1) (h : c ∈ (chunksFrom n run xs).dropLast) :
    c.length = max n 1 := by
  induction xs generalizing run with
  | nil => cases run <;> simp [chunksFrom] at h
  | cons x xs ih =>
    simp only [chunksFrom] at h
    split at h
    · next hfull =>
      cases hrest : chunksFrom n [] xs with
      | nil => simp [hrest] at h
      | cons d ds =>
        rw [hrest, List.dropLast_cons_of_ne_nil (by simp)] at h
        rcases List.mem_cons.mp h with rfl | h
        · simp; omega
        · rw [← hrest] at h
          exact ih (by simp) h
    · exact ih (by simp; omega) h

theorem length_of_mem_dropLast_chunks {n : Nat} {xs c : List α}
    (h : c ∈ (chunks n xs).dropLast) : c.length = max n 1 :=
  length_of_mem_dropLast_chunksFrom (by simp) h

theorem filter_full_isPrefix (n : Nat) (xs : List α) :
    (chunks n xs).filter (n ≤ ·.length) <+: chunks n xs := by
  by_cases hnil : chunks n xs = []
  · simp [hnil]
  · have hsplit := List.dropLast_append_getLast hnil
    have hfull : (chunks n xs).dropLast.filter (n ≤ ·.length) = (chunks n xs).dropLast := by
      apply List.filter_eq_self.mpr
      intro c hc
      rw [length_of_mem_dropLast_chunks hc]
      simp
    generalize (chunks n xs).dropLast = full at hsplit hfull
    rw [← hsplit, List.filter_append, hfull]
    apply (List.prefix_append_right_inj full).mpr
    rw [List.filter_singleton]
    cases decide (n ≤ ((chunks n xs).getLast hnil).length) with
    | true => exact List.prefix_refl _
    | false => exact List.nil_prefix

theorem flatten_prefix {pieces pieces' : List (List α)} (h : pieces <+: pieces') :
    pieces.flatten <+: pieces'.flatten := by
  cases h with
  | intro rest h => exact ⟨rest.flatten, by rw [← h, List.flatten_append]⟩

theorem length_chunks {n : Nat} (hn : 0 < n) (xs : List α) :
    (chunks n xs).length = (xs.length + n - 1) / n := by
  induction hlen : xs.length using Nat.strong_induction_on generalizing xs with
  | _ m ih =>
    cases xs with
    | nil =>
      have : m = 0 := by simpa using hlen.symm
      subst this
      simp [Nat.div_eq_of_lt (show n - 1 < n by omega)]
    | cons x xs =>
      have hdrop : ((x :: xs).drop n).length = m - n := by rw [List.length_drop, hlen]
      have hm : 0 < m := by rw [← hlen]; simp
      rw [chunks_eq hn (by simp), List.length_cons, ih (m - n) (by omega) _ hdrop]
      rcases Nat.lt_or_ge m n with hlt | hge
      · rw [show m - n + n - 1 = n - 1 by omega, Nat.div_eq_of_lt (by omega),
          show m + n - 1 = m - 1 + n by omega, Nat.add_div_right _ hn,
          Nat.div_eq_of_lt (by omega)]
      · rw [show m + n - 1 = m - n + n - 1 + n by omega, Nat.add_div_right _ hn]

theorem chunks_of_length_le {n : Nat} {xs : List α} (hne : xs ≠ []) (hle : xs.length ≤ n) :
    chunks n xs = [xs] := by
  have hn : 0 < n := lt_of_lt_of_le (List.length_pos_iff.mpr hne) hle
  rw [chunks_eq hn hne, List.take_of_length_le hle, List.drop_of_length_le hle, chunks_nil]

theorem chunks_eq_nil {n : Nat} {xs : List α} : chunks n xs = [] ↔ xs = [] := by
  constructor
  · intro h
    simpa [h] using (flatten_chunks n xs).symm
  · rintro rfl
    rfl

example : chunks 2 [1, 2, 3, 4, 5] = [[1, 2], [3, 4], [5]] := by decide

end Chunks
