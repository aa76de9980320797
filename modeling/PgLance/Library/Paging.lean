import Mathlib.Data.Nat.Notation
import Mathlib.Tactic.TypeStar

/-! Items that are asked for page by page, each answer with the token of the next page. -/

namespace Paging

variable {τ β ε : Type*}

/-- `none` when the fuel is spent before the last page. -/
def read (ask : Option τ → Except ε (List β × Option τ)) :
    Nat → Option τ → Option (Except ε (List β))
  | 0, _ => none
  | fuel + 1, token =>
    match ask token with
    | .error e => some (.error e)
    | .ok (items, none) => some (.ok items)
    | .ok (items, some next) => (read ask fuel (some next)).map (·.map (items ++ ·))

/-- The pages from a token on, each asked for with the token that the one before it carries. -/
inductive Splits (ask : Option τ → Except ε (List β × Option τ)) : Option τ → List β → Prop
  | last {token items} : ask token = .ok (items, none) → Splits ask token items
  | more {token items next rest} : ask token = .ok (items, some next) →
    Splits ask (some next) rest → Splits ask token (items ++ rest)

variable {ask : Option τ → Except ε (List β × Option τ)} {token : Option τ} {items : List β}

theorem read_error {e : ε} (h : ask token = .error e) (fuel : Nat) :
    read ask (fuel + 1) token = some (.error e) := by
  rw [read, h]

theorem read_last (h : ask token = .ok (items, none)) (fuel : Nat) :
    read ask (fuel + 1) token = some (.ok items) := by
  rw [read, h]

theorem read_more {next : τ} (h : ask token = .ok (items, some next)) (fuel : Nat) :
    read ask (fuel + 1) token = (read ask fuel (some next)).map (·.map (items ++ ·)) := by
  rw [read, h]

theorem read_mono {fuel fuel' : Nat} (hle : fuel ≤ fuel') {r : Except ε (List β)}
    (h : read ask fuel token = some r) : read ask fuel' token = some r := by
  induction fuel generalizing fuel' token r with
  | zero => cases h
  | succ fuel ih =>
    cases fuel' with
    | zero => exact absurd hle (Nat.not_succ_le_zero fuel)
    | succ fuel' =>
      match hask : ask token with
      | .error e => rwa [read_error hask] at h ⊢
      | .ok (items, none) => rwa [read_last hask] at h ⊢
      | .ok (items, some next) =>
        rw [read_more hask] at h ⊢
        obtain ⟨rest, hrest, rfl⟩ := Option.map_eq_some_iff.mp h
        rw [ih (Nat.le_of_succ_le_succ hle) hrest, Option.map_some]

theorem Splits.read (h : Splits ask token items) :
    ∃ fuel, read ask fuel token = some (.ok items) := by
  induction h with
  | last hask => exact ⟨1, read_last hask 0⟩
  | more hask _ ih =>
    obtain ⟨fuel, hread⟩ := ih
    refine ⟨fuel + 1, ?_⟩
    rw [read_more hask, hread]
    rfl

theorem Splits.of_read {fuel : Nat} (h : Paging.read ask fuel token = some (.ok items)) :
    Splits ask token items := by
  induction fuel generalizing token items with
  | zero => cases h
  | succ fuel ih =>
    match hask : ask token with
    | .error e =>
      rw [read_error hask] at h
      cases h
    | .ok (page, none) =>
      rw [read_last hask] at h
      cases h
      exact .last hask
    | .ok (page, some next) =>
      rw [read_more hask] at h
      obtain ⟨rest, hrest, hitems⟩ := Option.map_eq_some_iff.mp h
      cases rest with
      | error e => cases hitems
      | ok rest =>
        cases hitems
        exact .more hask (ih hrest)

end Paging
