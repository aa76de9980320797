import Mathlib.Data.List.Nodup
import Mathlib.Data.List.Perm.Subperm
import Mathlib.Logic.Relation

/-! A search that visits, first come first served, everything reached from a start once. -/

namespace Worklist

variable {α β ε : Type*} [DecidableEq α]

def push (st : List α × List α) (child : α) : List α × List α :=
  if child ∈ st.2 then st else (st.1 ++ [child], child :: st.2)

/-- The queue and what has been seen; a visit yields items and children.  `none` when a visit does
not end or the fuel is spent before the queue. -/
def run (visit : α → Option (Except ε (List β × List α))) :
    Nat → List α → List α → Option (Except ε (List β))
  | _, [], _ => some (.ok [])
  | 0, _ :: _, _ => none
  | fuel + 1, x :: queue, seen =>
    match visit x with
    | none => none
    | some (.error e) => some (.error e)
    | some (.ok (items, children)) =>
      let st := children.foldl push (queue, seen)
      (run visit fuel st.1 st.2).map (·.map (items ++ ·))

theorem foldl_push (children queue seen : List α) :
    ∃ fresh, children.foldl push (queue, seen) = (queue ++ fresh, fresh.reverse ++ seen) ∧
      fresh.Nodup ∧ (∀ x ∈ fresh, x ∈ children ∧ x ∉ seen) ∧
      ∀ x ∈ children, x ∈ fresh ∨ x ∈ seen := by
  induction children generalizing queue seen with
  | nil => exact ⟨[], by simp⟩
  | cons child children ih =>
    rw [List.foldl_cons]
    by_cases hchild : child ∈ seen
    · obtain ⟨fresh, hfold, hnodup, hfresh, hall⟩ := ih queue seen
      refine ⟨fresh, by rw [push, if_pos hchild, hfold], hnodup, ?_, ?_⟩
      · intro x hx
        exact ⟨List.mem_cons_of_mem _ (hfresh x hx).1, (hfresh x hx).2⟩
      · intro x hx
        cases List.mem_cons.mp hx with
        | inl heq => exact .inr (heq ▸ hchild)
        | inr hx => exact hall x hx
    · obtain ⟨fresh, hfold, hnodup, hfresh, hall⟩ := ih (queue ++ [child]) (child :: seen)
      refine ⟨child :: fresh, ?_, ?_, ?_, ?_⟩
      · rw [push, if_neg hchild, hfold]
        simp
      · exact List.nodup_cons.mpr ⟨fun h => (hfresh _ h).2 List.mem_cons_self, hnodup⟩
      · intro x hx
        cases List.mem_cons.mp hx with
        | inl heq => exact ⟨heq ▸ List.mem_cons_self, heq ▸ hchild⟩
        | inr hx =>
          exact ⟨List.mem_cons_of_mem _ (hfresh x hx).1,
            fun h => (hfresh x hx).2 (List.mem_cons_of_mem _ h)⟩
      · intro x hx
        cases List.mem_cons.mp hx with
        | inl heq => exact .inl (heq ▸ List.mem_cons_self)
        | inr hx =>
          cases hall x hx with
          | inl h => exact .inl (List.mem_cons_of_mem _ h)
          | inr h =>
            cases List.mem_cons.mp h with
            | inl heq => exact .inl (heq ▸ List.mem_cons_self)
            | inr h => exact .inr h

variable {visit : α → Option (Except ε (List β × List α))}

theorem run_nil (visit : α → Option (Except ε (List β × List α))) (fuel : Nat) (seen : List α) :
    run visit fuel [] seen = some (.ok []) := by
  cases fuel <;> rfl

theorem run_error {x : α} {e : ε} (hvisit : visit x = some (.error e)) (fuel : Nat)
    (queue seen : List α) : run visit (fuel + 1) (x :: queue) seen = some (.error e) := by
  rw [run, hvisit]

theorem run_cons {x : α} {items : List β} {children queue seen queue' seen' : List α}
    (hvisit : visit x = some (.ok (items, children)))
    (hfold : children.foldl push (queue, seen) = (queue', seen')) (fuel : Nat) :
    run visit (fuel + 1) (x :: queue) seen =
      (run visit fuel queue' seen').map (·.map (items ++ ·)) := by
  rw [run, hvisit]
  simp only [hfold]

theorem run_cons_ok {x : α} {queue seen : List α} {fuel : Nat} {out : List β}
    (h : run visit (fuel + 1) (x :: queue) seen = some (.ok out)) :
    ∃ items children rest, visit x = some (.ok (items, children)) ∧
      run visit fuel (children.foldl push (queue, seen)).1 (children.foldl push (queue, seen)).2 =
        some (.ok rest) ∧ out = items ++ rest := by
  match hvisit : visit x with
  | none =>
    rw [run, hvisit] at h
    cases h
  | some (.error e) =>
    rw [run_error hvisit] at h
    cases h
  | some (.ok (items, children)) =>
    rw [run_cons hvisit rfl] at h
    obtain ⟨rest, hrest, hout⟩ := Option.map_eq_some_iff.mp h
    cases rest with
    | error e => cases hout
    | ok rest =>
      cases hout
      exact ⟨items, children, rest, rfl, hrest, rfl⟩

theorem run_mono {visit' : α → Option (Except ε (List β × List α))}
    (hvisits : ∀ x r, visit x = some r → visit' x = some r) {fuel fuel' : Nat}
    (hle : fuel ≤ fuel') {queue seen : List α} {r : Except ε (List β)}
    (h : run visit fuel queue seen = some r) : run visit' fuel' queue seen = some r := by
  induction fuel generalizing fuel' queue seen r with
  | zero =>
    cases queue with
    | nil => rwa [run_nil] at h ⊢
    | cons x queue => cases h
  | succ fuel ih =>
    cases queue with
    | nil => rwa [run_nil] at h ⊢
    | cons x queue =>
      cases fuel' with
      | zero => exact absurd hle (Nat.not_succ_le_zero fuel)
      | succ fuel' =>
        match hvisit : visit x with
        | none =>
          rw [run, hvisit] at h
          cases h
        | some (.error e) =>
          rw [run_error hvisit] at h
          rwa [run_error (hvisits x _ hvisit)]
        | some (.ok (items, children)) =>
          rw [run_cons hvisit rfl] at h
          obtain ⟨rest, hrest, rfl⟩ := Option.map_eq_some_iff.mp h
          rw [run_cons (hvisits x _ hvisit) rfl, ih (Nat.le_of_succ_le_succ hle) hrest,
            Option.map_some]

def Child (visit : α → Option (Except ε (List β × List α))) (x y : α) : Prop :=
  ∃ items children, visit x = some (.ok (items, children)) ∧ y ∈ children

structure Visited (visit : α → Option (Except ε (List β × List α))) (queue seen : List α)
    (out : List β) (done : List α) : Prop where
  items : ∀ b, b ∈ out ↔
    ∃ x ∈ done, ∃ items children, visit x = some (.ok (items, children)) ∧ b ∈ items
  visits : ∀ x ∈ done, ∃ items children, visit x = some (.ok (items, children))
  queued : ∀ x ∈ queue, x ∈ done
  reached : ∀ x ∈ done, ∃ y ∈ queue, Relation.ReflTransGen (Child visit) y x
  closed : ∀ x ∈ done, ∀ y, Child visit x y → y ∈ done ∨ y ∈ seen

/-- Where only so many can be reached and every visit to them ends, a search ends. -/
theorem run_ends (all : List α) {fuel : Nat} {queue seen : List α} (hseen : seen.Nodup)
    (hsub : ∀ x ∈ seen, x ∈ all) (hqueue : ∀ x ∈ queue, x ∈ seen)
    (hreached : ∀ y ∈ queue, ∀ x, Relation.ReflTransGen (Child visit) y x →
      x ∈ all ∧ (visit x).isSome) (hfuel : all.length + queue.length ≤ fuel + seen.length) :
    (run visit fuel queue seen).isSome := by
  induction fuel generalizing queue seen with
  | zero =>
    have hlength : seen.length ≤ all.length := (List.subperm_of_subset hseen hsub).length_le
    have hnil : queue = [] := List.eq_nil_of_length_eq_zero (by omega)
    rw [hnil, run_nil]
    rfl
  | succ fuel ih =>
    cases queue with
    | nil => rfl
    | cons x queue =>
      match hvisit : visit x with
      | none =>
        have hends := (hreached x List.mem_cons_self x .refl).2
        rw [hvisit] at hends
        cases hends
      | some (.error e) =>
        rw [run_error hvisit]
        rfl
      | some (.ok (items, children)) =>
        obtain ⟨fresh, hfold, hnodup, hfresh, -⟩ := foldl_push children queue seen
        have hchild : ∀ y ∈ fresh, Child visit x y :=
          fun y hy => ⟨items, children, hvisit, (hfresh y hy).1⟩
        rw [run_cons hvisit hfold, Option.isSome_map]
        apply ih
        · exact List.Nodup.append (List.nodup_reverse.mpr hnodup) hseen
            fun y hy => (hfresh y (List.mem_reverse.mp hy)).2
        · intro y hy
          cases List.mem_append.mp hy with
          | inl hy =>
            exact (hreached x List.mem_cons_self y
              (.single (hchild y (List.mem_reverse.mp hy)))).1
          | inr hy => exact hsub y hy
        · intro y hy
          cases List.mem_append.mp hy with
          | inl hy => exact List.mem_append_right _ (hqueue y (List.mem_cons_of_mem x hy))
          | inr hy => exact List.mem_append_left _ (List.mem_reverse.mpr hy)
        · intro y hy z hpath
          cases List.mem_append.mp hy with
          | inl hy => exact hreached y (List.mem_cons_of_mem x hy) z hpath
          | inr hy => exact hreached x List.mem_cons_self z (hpath.head (hchild y hy))
        · simp only [List.length_append, List.length_reverse, List.length_cons] at hfuel ⊢
          omega

theorem run_ok {fuel : Nat} {queue seen : List α}
    (h : ∀ y ∈ queue, ∀ x, Relation.ReflTransGen (Child visit) y x → ∀ e, visit x ≠ some (.error e))
    {r : Except ε (List β)} (hrun : run visit fuel queue seen = some r) :
    ∃ out, r = .ok out := by
  induction fuel generalizing queue seen r with
  | zero =>
    cases queue with
    | nil =>
      rw [run_nil] at hrun
      exact ⟨[], (Option.some.inj hrun).symm⟩
    | cons x queue => cases hrun
  | succ fuel ih =>
    cases queue with
    | nil =>
      rw [run_nil] at hrun
      exact ⟨[], (Option.some.inj hrun).symm⟩
    | cons x queue =>
      match hvisit : visit x with
      | none =>
        rw [run, hvisit] at hrun
        cases hrun
      | some (.error e) => exact absurd hvisit (h x List.mem_cons_self x .refl e)
      | some (.ok (items, children)) =>
        obtain ⟨fresh, hfold, -, hfresh, -⟩ := foldl_push children queue seen
        rw [run_cons hvisit hfold] at hrun
        obtain ⟨rest, hrest, rfl⟩ := Option.map_eq_some_iff.mp hrun
        have hout : ∃ out, rest = .ok out := by
          refine ih ?_ hrest
          intro y hy z hpath
          cases List.mem_append.mp hy with
          | inl hy => exact h y (List.mem_cons_of_mem x hy) z hpath
          | inr hy =>
            exact h x List.mem_cons_self z (hpath.head ⟨items, children, hvisit, (hfresh y hy).1⟩)
        obtain ⟨out, rfl⟩ := hout
        exact ⟨items ++ out, rfl⟩

def itemsOf (visit : α → Option (Except ε (List β × List α))) (x : α) : List β :=
  match visit x with
  | some (.ok (items, _)) => items
  | _ => []

theorem run_flatMap {fuel : Nat} {queue seen : List α} (hqueue : queue.Nodup)
    (hseen : ∀ x ∈ queue, x ∈ seen) {out : List β}
    (h : run visit fuel queue seen = some (.ok out)) :
    ∃ done : List α, out = done.flatMap (itemsOf visit) ∧ done.Nodup ∧
      (∀ x ∈ done, x ∈ queue ∨ x ∉ seen) ∧
      ∀ x ∈ done, ∃ y ∈ queue, Relation.ReflTransGen (Child visit) y x := by
  induction fuel generalizing queue seen out with
  | zero =>
    cases queue with
    | nil =>
      cases h
      exact ⟨[], by simp⟩
    | cons x queue => cases h
  | succ fuel ih =>
    cases queue with
    | nil =>
      cases h
      exact ⟨[], by simp⟩
    | cons x queue =>
      obtain ⟨items, children, rest, hvisit, hrest, rfl⟩ := run_cons_ok h
      obtain ⟨fresh, hfold, hnodup, hfresh, -⟩ := foldl_push children queue seen
      rw [hfold] at hrest
      rw [List.nodup_cons] at hqueue
      rw [List.forall_mem_cons] at hseen
      have hqueue' : (queue ++ fresh).Nodup :=
        hqueue.2.append hnodup fun y hy hy' => (hfresh y hy').2 (hseen.2 y hy)
      have hseen' : ∀ y ∈ queue ++ fresh, y ∈ fresh.reverse ++ seen := by
        intro y hy
        cases List.mem_append.mp hy with
        | inl hy => exact List.mem_append_right _ (hseen.2 y hy)
        | inr hy => exact List.mem_append_left _ (List.mem_reverse.mpr hy)
      obtain ⟨done, rfl, hdone, hold, hreached⟩ := ih hqueue' hseen' hrest
      refine ⟨x :: done, ?_, List.nodup_cons.mpr ⟨?_, hdone⟩, ?_, ?_⟩
      · rw [List.flatMap_cons, itemsOf, hvisit]
      · intro hx
        cases hold x hx with
        | inl hx =>
          cases List.mem_append.mp hx with
          | inl hx => exact hqueue.1 hx
          | inr hx => exact (hfresh x hx).2 hseen.1
        | inr hx => exact hx (List.mem_append_right _ hseen.1)
      · intro y hy
        cases List.mem_cons.mp hy with
        | inl heq => exact .inl (heq ▸ List.mem_cons_self)
        | inr hy =>
          cases hold y hy with
          | inl hy =>
            cases List.mem_append.mp hy with
            | inl hy => exact .inl (List.mem_cons_of_mem x hy)
            | inr hy => exact .inr (hfresh y hy).2
          | inr hy => exact .inr fun hmem => hy (List.mem_append_right _ hmem)
      · refine List.forall_mem_cons.mpr ⟨⟨x, List.mem_cons_self, .refl⟩, fun y hy => ?_⟩
        obtain ⟨z, hz, hpath⟩ := hreached y hy
        cases List.mem_append.mp hz with
        | inl hz => exact ⟨z, List.mem_cons_of_mem x hz, hpath⟩
        | inr hz =>
          exact ⟨x, List.mem_cons_self, hpath.head ⟨items, children, hvisit, (hfresh z hz).1⟩⟩

/-- A search that succeeds visits its queue and all that is reached from there. -/
theorem run_visited {fuel : Nat} {queue seen : List α} {out : List β}
    (h : run visit fuel queue seen = some (.ok out)) :
    ∃ done, Visited visit queue seen out done := by
  induction fuel generalizing queue seen out with
  | zero =>
    cases queue with
    | nil =>
      cases h
      exact ⟨[], by simp, by simp, by simp, by simp, by simp⟩
    | cons x queue => cases h
  | succ fuel ih =>
    cases queue with
    | nil =>
      cases h
      exact ⟨[], by simp, by simp, by simp, by simp, by simp⟩
    | cons x queue =>
      obtain ⟨items, children, rest, hvisit, hrest, rfl⟩ := run_cons_ok h
      obtain ⟨fresh, hfold, -, hfresh, hcovers⟩ := foldl_push children queue seen
      rw [hfold] at hrest
      obtain ⟨done, hdone⟩ := ih hrest
      refine ⟨x :: done, ?_, ?_, ?_, ?_, ?_⟩
      · intro b
        simp only [List.mem_append, hdone.items, List.mem_cons, exists_eq_or_imp, hvisit]
        simp
      · intro y hy
        cases List.mem_cons.mp hy with
        | inl heq => exact ⟨items, children, heq ▸ hvisit⟩
        | inr hy => exact hdone.visits y hy
      · intro y hy
        cases List.mem_cons.mp hy with
        | inl heq => exact heq ▸ List.mem_cons_self
        | inr hy => exact List.mem_cons_of_mem _ (hdone.queued y (List.mem_append_left _ hy))
      · intro y hy
        cases List.mem_cons.mp hy with
        | inl heq => exact ⟨x, List.mem_cons_self, heq ▸ .refl⟩
        | inr hy =>
          obtain ⟨z, hz, hpath⟩ := hdone.reached y hy
          cases List.mem_append.mp hz with
          | inl hz => exact ⟨z, List.mem_cons_of_mem x hz, hpath⟩
          | inr hz =>
            exact ⟨x, List.mem_cons_self, hpath.head ⟨items, children, hvisit, (hfresh z hz).1⟩⟩
      · intro y hy z hz
        have hmem : z ∈ done ∨ z ∈ seen := by
          cases List.mem_cons.mp hy with
          | inl heq =>
            subst heq
            obtain ⟨items', children', hvisit', hchild⟩ := hz
            rw [hvisit] at hvisit'
            cases hvisit'
            cases hcovers z hchild with
            | inl hz => exact .inl (hdone.queued z (List.mem_append_right _ hz))
            | inr hz => exact .inr hz
          | inr hy =>
            cases hdone.closed y hy z hz with
            | inl hz => exact .inl hz
            | inr hz =>
              cases List.mem_append.mp hz with
              | inl hz =>
                exact .inl (hdone.queued z (List.mem_append_right _ (List.mem_reverse.mp hz)))
              | inr hz => exact .inr hz
        cases hmem with
        | inl hz => exact .inl (List.mem_cons_of_mem x hz)
        | inr hz => exact .inr hz

theorem mem_run {root : α} {fuel : Nat} {out : List β}
    (h : run visit fuel [root] [root] = some (.ok out)) :
    (∀ x, Relation.ReflTransGen (Child visit) root x →
      ∃ items children, visit x = some (.ok (items, children))) ∧
    ∀ b, b ∈ out ↔ ∃ x, Relation.ReflTransGen (Child visit) root x ∧
      ∃ items children, visit x = some (.ok (items, children)) ∧ b ∈ items := by
  obtain ⟨done, hdone⟩ := run_visited h
  have hstart := hdone.queued root List.mem_cons_self
  have hvisited : ∀ y, Relation.ReflTransGen (Child visit) root y → y ∈ done := by
    intro y hy
    induction hy with
    | refl => exact hstart
    | tail hpath hchild ih =>
      cases hdone.closed _ ih _ hchild with
      | inl hmem => exact hmem
      | inr hroot => exact List.mem_singleton.mp hroot ▸ hstart
  refine ⟨fun x hx => hdone.visits x (hvisited x hx), ?_⟩
  intro b
  rw [hdone.items]
  constructor
  · rintro ⟨x, hx, hitems⟩
    obtain ⟨y, hy, hpath⟩ := hdone.reached x hx
    rw [List.mem_singleton.mp hy] at hpath
    exact ⟨x, hpath, hitems⟩
  · rintro ⟨x, hpath, hitems⟩
    exact ⟨x, hvisited x hpath, hitems⟩

end Worklist
