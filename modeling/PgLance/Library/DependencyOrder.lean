import Mathlib.Data.Set.Finite.List
import Mathlib.Logic.Relation
import Mathlib.Order.WellFounded
import Mathlib.Data.Fintype.Order

/-! Orders of named items that refer to each other by name. -/

namespace DependencyOrder

variable {α κ : Type*} (name : α → κ) (deps : α → List κ)

def Refers (items : List α) (a b : κ) : Prop := ∃ x ∈ items, name x = a ∧ b ∈ deps x

def Acyclic (items : List α) : Prop := ∀ a, ¬ Relation.TransGen (Refers name deps items) a a

def Closed (items : List α) : Prop := ∀ x ∈ items, ∀ d ∈ deps x, d ∈ items.map name

/-- Each item comes after all that it refers to. -/
inductive Ordered : List α → Prop
  | nil : Ordered []
  | snoc {out : List α} {x : α} : Ordered out → (∀ d ∈ deps x, d ∈ out.map name) →
    Ordered (out ++ [x])

variable {name deps} {items out : List α}

theorem Ordered.mem_before (h : Ordered name deps out) {before after : List α} {x : α}
    (hout : out = before ++ x :: after) : ∀ d ∈ deps x, d ∈ before.map name := by
  induction h generalizing after with
  | nil => simp at hout
  | @snoc out y hordered hdeps ih =>
    cases after using List.reverseRecOn with
    | nil =>
      obtain ⟨rfl, hy⟩ := List.append_inj' hout rfl
      cases hy
      exact hdeps
    | append_singleton after z =>
      rw [← List.cons_append, ← List.append_assoc] at hout
      exact ih (List.append_inj' hout rfl).1

/-- Of items without cycles some item that is left refers to none that is left. -/
theorem exists_ready (done : κ → Prop) (hacyclic : Acyclic name deps items)
    (hclosed : Closed name deps items) {x : α} (hx : x ∈ items) (hleft : ¬ done (name x)) :
    ∃ y ∈ items, ¬ done (name y) ∧ ∀ d ∈ deps y, done d := by
  let Item := {k : κ // k ∈ items.map name}
  let below : Item → Item → Prop := fun a b => Relation.TransGen (Refers name deps items) b.1 a.1
  have : Finite Item := (items.map name).finite_toSet.to_subtype
  have : IsTrans Item below := ⟨fun _ _ _ hab hbc => hbc.trans hab⟩
  have : Std.Irrefl below := ⟨fun a => hacyclic a.1⟩
  have hwf : WellFounded below := Finite.wellFounded_of_trans_of_irrefl below
  obtain ⟨⟨k, hk⟩, hnotDone, hmin⟩ :=
    hwf.has_min {a | ¬ done a.1} ⟨⟨name x, List.mem_map_of_mem hx⟩, hleft⟩
  obtain ⟨y, hy, rfl⟩ := List.mem_map.mp hk
  refine ⟨y, hy, hnotDone, fun d hd => ?_⟩
  by_contra hd'
  exact hmin ⟨d, hclosed y hy d hd⟩ hd' (.single ⟨y, hy, rfl, hd⟩)

end DependencyOrder
