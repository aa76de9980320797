import Mathlib.Data.List.Forall2

/-! Machines that hand out the items of a list one by one and can be started over. -/

namespace Reader

variable {α β σ ο : Type*}

inductive Call (β : Type*)
  | next | restart (b : β)

/-- The outputs since the last restart, after those in `outs`, and the state reached. -/
def run (next : σ → ο × σ) (restart : β → σ → σ) : List (Call β) → List ο → σ → List ο × σ
  | [], outs, s => (outs, s)
  | .next :: calls, outs, s => run next restart calls (outs ++ [(next s).1]) (next s).2
  | .restart b :: calls, _, s => run next restart calls [] (restart b s)

def lastRestart : List (Call β) → β → β
  | [], b => b
  | .next :: calls, b => lastRestart calls b
  | .restart b :: calls, _ => lastRestart calls b

def sinceRestart : List (Call β) → Nat → Nat
  | [], n => n
  | .next :: calls, n => sinceRestart calls (n + 1)
  | .restart _ :: calls, _ => sinceRestart calls 0

/-- `Holds xs s`: the machine has the items `xs` left in the state `s`.  Each step gives away
the first of them. -/
structure Reads (next : σ → ο × σ) (out : Option α → ο) (Holds : List α → σ → Prop) : Prop where
  output : ∀ {xs s}, Holds xs s → (next s).1 = out xs.head?
  step : ∀ {xs s}, Holds xs s → Holds xs.tail (next s).2

def outputs (out : Option α → ο) (xs : List α) (n : Nat) : List ο :=
  (List.range n).map fun i => out xs[i]?

variable {next : σ → ο × σ} {restart : β → σ → σ} {out : Option α → ο}
  {Holds : List α → σ → Prop}

@[simp] theorem length_outputs (xs : List α) (n : Nat) : (outputs out xs n).length = n := by
  simp [outputs]

theorem outputs_succ (xs : List α) (n : Nat) :
    outputs out xs (n + 1) = outputs out xs n ++ [out (xs.drop n).head?] := by
  simp [outputs, List.range_succ]

/-- In any interleaving, what was handed out since the last restart is what the restart gave,
from its beginning, and then the end over and over. -/
theorem run_outputs_from (h : Reads next out Holds) (items : β → List α)
    (hrestart : ∀ b xs s, Holds xs s → Holds (items b) (restart b s)) (calls : List (Call β))
    (b : β) (n : Nat) {s : σ} (hs : Holds ((items b).drop n) s) :
    (run next restart calls (outputs out (items b) n) s).1 =
      outputs out (items (lastRestart calls b)) (sinceRestart calls n) := by
  induction calls generalizing b n s with
  | nil => rfl
  | cons call calls ih =>
    cases call with
    | next =>
      have hnext := h.step hs
      rw [List.tail_drop] at hnext
      simp only [run, lastRestart, sinceRestart, h.output hs, ← outputs_succ]
      exact ih b (n + 1) hnext
    | restart b' => exact ih b' 0 (hrestart b' _ s hs)

theorem run_outputs (h : Reads next out Holds) (items : β → List α)
    (hrestart : ∀ b xs s, Holds xs s → Holds (items b) (restart b s)) (calls : List (Call β))
    (b : β) {s : σ} (hs : Holds (items b) s) :
    (run next restart calls [] s).1 =
      outputs out (items (lastRestart calls b)) (sinceRestart calls 0) :=
  run_outputs_from h items hrestart calls b 0 hs

theorem lastRestart_mem (calls : List (Call β)) (b : β) :
    lastRestart calls b = b ∨ .restart (lastRestart calls b) ∈ calls := by
  induction calls generalizing b with
  | nil => exact .inl rfl
  | cons call calls ih =>
    cases call with
    | next => exact (ih b).imp id (List.mem_cons_of_mem _)
    | restart b' =>
      refine .inr ?_
      cases ih b' with
      | inl h => simp [lastRestart, h]
      | inr h => exact List.mem_cons_of_mem _ h

@[simp] theorem lastRestart_next (n : Nat) (b : β) : lastRestart (List.replicate n .next) b = b := by
  induction n with
  | zero => rfl
  | succ n ih => exact ih

@[simp] theorem sinceRestart_next (n k : Nat) :
    sinceRestart (List.replicate n (Call.next (β := β))) k = k + n := by
  induction n generalizing k with
  | zero => rfl
  | succ n ih => exact (ih (k + 1)).trans (by omega)

theorem getElem?_outputs {xs : List α} {n i : Nat} {o : ο} (h : (outputs out xs n)[i]? = some o) :
    o = out xs[i]? := by
  simp only [outputs, List.getElem?_map, Option.map_eq_some_iff] at h
  obtain ⟨j, hj, rfl⟩ := h
  obtain ⟨hlt, hget⟩ := List.getElem?_eq_some_iff.mp hj
  rw [List.getElem_range] at hget
  rw [hget]

theorem map_eq_of_outputs {xs : List α} {ys : List ο} (hend : ∀ x, out (some x) ≠ out none)
    (hys : out none ∉ ys) (h : outputs out xs (ys.length + 1) = ys ++ [out none]) :
    xs.map (fun x => out (some x)) = ys := by
  have hget : ∀ (i : Nat) o, (ys ++ [out none])[i]? = some o → o = out xs[i]? := by
    intro i o ho
    rw [← h] at ho
    exact getElem?_outputs ho
  have hlength : xs.length ≤ ys.length := by
    have hlast := hget ys.length (out none) (by simp)
    by_contra hlt
    rw [List.getElem?_eq_getElem (by omega)] at hlast
    exact hend _ hlast.symm
  have heach : ∀ (i : Nat) (hi : i < ys.length), ys[i] = out xs[i]? := by
    intro i hi
    refine hget i _ ?_
    rw [List.getElem?_append_left hi, List.getElem?_eq_getElem hi]
  apply List.ext_getElem
  · rw [List.length_map]
    by_contra hne
    have hlt : xs.length < ys.length := by omega
    have hnone := heach xs.length hlt
    rw [List.getElem?_eq_none (Nat.le_refl _)] at hnone
    exact hys (hnone ▸ List.getElem_mem hlt)
  · intro i hi hi'
    rw [List.length_map] at hi
    rw [List.getElem_map, heach i hi', List.getElem?_eq_getElem hi]

theorem outputs_eq_iff {γ : Type*} {out : Option α → ο} {out' : Option γ → ο} {xs : List α}
    {ys : List γ} (hlength : xs.length = ys.length) (hend : out none = out' none) :
    (∀ n, outputs out xs n = outputs out' ys n) ↔
      List.Forall₂ (fun x y => out (some x) = out' (some y)) xs ys := by
  rw [List.forall₂_iff_get]
  constructor
  · intro h
    refine ⟨hlength, fun i hx hy => ?_⟩
    have hi := congrArg (fun outs : List ο => outs[i]?) (h (i + 1))
    simpa [outputs, hx, hy] using hi
  · rintro ⟨-, h⟩ n
    refine List.map_congr_left fun i _ => ?_
    by_cases hx : i < xs.length
    · have hy : i < ys.length := hlength ▸ hx
      rw [List.getElem?_eq_getElem hx, List.getElem?_eq_getElem hy]
      exact h i hx hy
    · have hy : ¬ i < ys.length := hlength ▸ hx
      rw [List.getElem?_eq_none (by omega), List.getElem?_eq_none (by omega), hend]

end Reader
