import Mathlib.Data.List.Basic

/-! Forests that are written as outlines: the nodes in preorder, each on a line with its level, which
is greater than that of its parent. -/

namespace Outline

inductive Rose (α : Type*)
  | node (value : α) (children : List (Rose α))

namespace Rose

variable {α β : Type*}

@[elab_as_elim, induction_eliminator]
theorem induct {motive : Rose α → Prop}
    (node : ∀ value children, (∀ t ∈ children, motive t) → motive (.node value children)) :
    ∀ t, motive t :=
  @Rose.rec α motive (fun ts => ∀ t ∈ ts, motive t) node (by simp)
    (fun _ _ ht hts => by simpa using ⟨ht, hts⟩)

mutual
def map (f : α → β) : Rose α → Rose β
  | .node value children => .node (f value) (mapForest f children)
termination_by structural t => t

def mapForest (f : α → β) : List (Rose α) → List (Rose β)
  | [] => []
  | t :: ts => map f t :: mapForest f ts
termination_by structural ts => ts
end

mutual
/-- The children stand further in than their parent, by at least its width. -/
def lines (width : α → Nat) (level : Nat) : Rose α → List (Nat × α)
  | .node value children =>
    (level, value) :: forestLines width (level + width value + 1) children
termination_by structural t => t

def forestLines (width : α → Nat) (level : Nat) : List (Rose α) → List (Nat × α)
  | [] => []
  | t :: ts => lines width level t ++ forestLines width level ts
termination_by structural ts => ts
end

end Rose

variable {α : Type*}

/-- A line takes the trees behind it that stand further in for its children. -/
def enter (line : Nat × α) (trees : List (Nat × Rose α)) : List (Nat × Rose α) :=
  (line.1, .node line.2 ((trees.takeWhile fun t => line.1 < t.1).map Prod.snd)) ::
    trees.dropWhile fun t => line.1 < t.1

def read (lines : List (Nat × α)) : List (Nat × Rose α) := lines.foldr enter []

def parse (lines : List (Nat × α)) : List (Rose α) := (read lines).map Prod.snd

def Closed (level : Nat) (trees : List (Nat × Rose α)) : Prop := ∀ t ∈ trees.head?, t.1 ≤ level

theorem enter_children (value : α) {level inner : Nat} (hinner : level < inner)
    (children : List (Rose α)) {trees : List (Nat × Rose α)} (hclosed : Closed level trees) :
    enter (level, value) (children.map (inner, ·) ++ trees) =
      (level, .node value children) :: trees := by
  have hchildren : ∀ t ∈ children.map (inner, ·), decide (level < t.1) = true := by
    simp [hinner]
  have hfirst : trees.takeWhile (fun t => level < t.1) = [] ∧
      trees.dropWhile (fun t => level < t.1) = trees := by
    cases trees with
    | nil => exact ⟨rfl, rfl⟩
    | cons t trees =>
      have ht : ¬ level < t.1 := by
        have := hclosed t rfl
        omega
      simp [ht]
  simp only [enter, List.takeWhile_append_of_pos hchildren,
    List.dropWhile_append_of_pos hchildren, hfirst, List.append_nil, List.map_map]
  simp [Function.comp_def]

theorem read_forestLines_of {width : α → Nat} {forest : List (Rose α)}
    (h : ∀ t ∈ forest, ∀ (level : Nat) (rest : List (Nat × α)), Closed level (read rest) →
      read (t.lines width level ++ rest) = (level, t) :: read rest)
    (level : Nat) {rest : List (Nat × α)} (hrest : Closed level (read rest)) :
    read (Rose.forestLines width level forest ++ rest) =
      forest.map (level, ·) ++ read rest := by
  induction forest with
  | nil => rfl
  | cons t ts ih =>
    rw [List.forall_mem_cons] at h
    have hts := ih h.2
    have hclosed : Closed level (read (Rose.forestLines width level ts ++ rest)) := by
      rw [hts]
      cases ts with
      | nil => exact hrest
      | cons t' ts' => simp [Closed]
    rw [Rose.forestLines, List.append_assoc, h.1 level _ hclosed, hts]
    rfl

/-- The lines of a tree are read back, whatever stands behind them no further in. -/
theorem read_lines (width : α → Nat) (t : Rose α) :
    ∀ (level : Nat) (rest : List (Nat × α)), Closed level (read rest) →
      read (t.lines width level ++ rest) = (level, t) :: read rest := by
  induction t with
  | node value children ih =>
    intro level rest hrest
    have hinner : level < level + width value + 1 := by omega
    have hclosed : Closed (level + width value + 1) (read rest) := by
      intro t ht
      have := hrest t ht
      omega
    have hchildren := read_forestLines_of ih _ hclosed
    rw [Rose.lines, List.cons_append]
    change enter (level, value) (read _) = _
    rw [hchildren, enter_children value hinner children hrest]

theorem parse_forestLines (width : α → Nat) (level : Nat) (forest : List (Rose α)) :
    parse (Rose.forestLines width level forest) = forest := by
  have hend : Closed level (read ([] : List (Nat × α))) := by simp [Closed, read]
  have hread := read_forestLines_of (fun (t : Rose α) (_ : t ∈ forest) => read_lines width t)
    level hend
  rw [List.append_nil] at hread
  rw [parse, hread]
  simp [read, Function.comp_def]

end Outline
