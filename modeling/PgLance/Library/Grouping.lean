import Mathlib.Data.List.Perm.Basic
import Std.Data.TreeMap

/-! Values grouped by their keys. -/

namespace Grouping

variable {κ α : Type*} [Ord κ]

def insertEntry (groups : Std.TreeMap κ (List α)) (entry : κ × α) : Std.TreeMap κ (List α) :=
  groups.insert entry.1 (groups.getD entry.1 [] ++ [entry.2])

def group (entries : List (κ × α)) : Std.TreeMap κ (List α) := entries.foldl insertEntry ∅

variable [Std.TransOrd κ] [Std.LawfulEqOrd κ] [DecidableEq κ]

def ofKey (k : κ) (entries : List (κ × α)) : List α :=
  (entries.filter fun entry => entry.1 = k).map Prod.snd

theorem getElem?_foldl_insertEntry (entries : List (κ × α)) {groups : Std.TreeMap κ (List α)}
    (hgroups : ∀ k : κ, groups[k]? ≠ some []) (k : κ) :
    (entries.foldl insertEntry groups)[k]? =
      if groups.getD k [] ++ ofKey k entries = [] then none
      else some (groups.getD k [] ++ ofKey k entries) := by
  induction entries generalizing groups with
  | nil =>
    simp only [List.foldl_nil, ofKey, List.filter_nil, List.map_nil, List.append_nil,
      Std.TreeMap.getD_eq_getD_getElem?]
    cases hk : groups[k]? with
    | none => simp
    | some values =>
      have hne : values ≠ [] := fun heq => hgroups k (heq ▸ hk)
      simp [hne]
  | cons entry entries ih =>
    have hnext : ∀ k : κ, (insertEntry groups entry)[k]? ≠ some [] := by
      intro k
      rw [insertEntry, Std.TreeMap.getElem?_insert]
      split
      · simp
      · exact hgroups k
    rw [List.foldl_cons, ih hnext]
    have hvalues : (insertEntry groups entry).getD k [] ++ ofKey k entries =
        groups.getD k [] ++ ofKey k (entry :: entries) := by
      rw [insertEntry, Std.TreeMap.getD_insert]
      by_cases hentry : entry.1 = k
      · subst hentry
        simp [ofKey]
      · simp [ofKey, hentry]
    rw [hvalues]

theorem getElem?_group (entries : List (κ × α)) (k : κ) :
    (group entries)[k]? = if ofKey k entries = [] then none else some (ofKey k entries) := by
  rw [group, getElem?_foldl_insertEntry entries (by simp)]
  simp

theorem mem_toList_group {entries : List (κ × α)} {k : κ} {values : List α} :
    (k, values) ∈ (group entries).toList ↔ values ≠ [] ∧ values = ofKey k entries := by
  rw [Std.TreeMap.mem_toList_iff_getElem?_eq_some, getElem?_group]
  split
  · rename_i hnil
    simp [hnil]
  · rename_i hne
    rw [Option.some.injEq]
    exact ⟨fun h => ⟨h ▸ hne, h.symm⟩, fun h => h.2.symm⟩

theorem toList_insertEntry_perm (groups : Std.TreeMap κ (List α)) (entry : κ × α) :
    ((insertEntry groups entry).toList.flatMap Prod.snd).Perm
      (groups.toList.flatMap Prod.snd ++ [entry.2]) := by
  have hold : (groups.toList.flatMap Prod.snd).Perm (groups.getD entry.1 [] ++
      (groups.toList.filter fun e => ¬ entry.1 == e.1).flatMap Prod.snd) := by
    cases hk : groups[entry.1]? with
    | none =>
      have hfilter : (groups.toList.filter fun e => ¬ entry.1 == e.1) = groups.toList := by
        rw [List.filter_eq_self]
        rintro ⟨k, values⟩ hmem
        have hne : entry.1 ≠ k := by
          rintro rfl
          rw [Std.TreeMap.mem_toList_iff_getElem?_eq_some, hk] at hmem
          cases hmem
        simpa using hne
      rw [hfilter, Std.TreeMap.getD_eq_getD_getElem?, hk]
      exact List.Perm.refl _
    | some values =>
      have hsame : (groups.insert entry.1 values).toList = groups.toList := by
        apply Std.TreeMap.Equiv.toList_eq
        apply Std.TreeMap.Equiv.of_forall_constGet?_eq
        intro k
        rw [Std.TreeMap.getElem?_insert]
        split
        · rename_i heq
          rw [← Std.LawfulEqOrd.eq_of_compare heq, hk]
        · rfl
      have hperm := Std.TreeMap.toList_insert_perm (t := groups) (k := entry.1) (v := values)
      rw [hsame] at hperm
      rw [Std.TreeMap.getD_eq_getD_getElem?, hk]
      simpa using hperm.flatMap_right Prod.snd
  have hnew := (Std.TreeMap.toList_insert_perm (t := groups) (k := entry.1)
    (v := groups.getD entry.1 [] ++ [entry.2])).flatMap_right Prod.snd
  refine hnew.trans (.trans ?_ (hold.append_right [entry.2]).symm)
  rw [List.flatMap_cons, List.append_assoc, List.append_assoc]
  exact (List.perm_append_comm).append_left _

theorem perm_group (entries : List (κ × α)) :
    ((group entries).toList.flatMap Prod.snd).Perm (entries.map Prod.snd) := by
  have hfoldl : ∀ groups : Std.TreeMap κ (List α),
      ((entries.foldl insertEntry groups).toList.flatMap Prod.snd).Perm
        (groups.toList.flatMap Prod.snd ++ entries.map Prod.snd) := by
    induction entries with
    | nil => simp
    | cons entry entries ih =>
      intro groups
      refine (ih (insertEntry groups entry)).trans ?_
      refine ((toList_insertEntry_perm groups entry).append_right _).trans ?_
      simp
  have hempty : (∅ : Std.TreeMap κ (List α)).toList = [] := by
    rw [← List.isEmpty_iff, Std.TreeMap.isEmpty_toList]
    exact Std.TreeMap.isEmpty_emptyc
  simpa [group, hempty] using hfoldl ∅

omit [Ord κ] [Std.TransOrd κ] [Std.LawfulEqOrd κ] [DecidableEq κ] in
theorem one_lt_length_filter_iff {p : α → Bool} {l : List α} {i : Nat} {x : α}
    (hget : l[i]? = some x) (hx : p x = true) :
    1 < (l.filter p).length ↔ ∃ j y, j ≠ i ∧ l[j]? = some y ∧ p y = true := by
  induction l generalizing i with
  | nil => cases hget
  | cons a l ih =>
    cases i with
    | zero =>
      cases hget
      rw [List.filter_cons_of_pos hx, List.length_cons, Nat.lt_add_left_iff_pos,
        List.length_filter_pos_iff]
      constructor
      · rintro ⟨y, hy, hpy⟩
        obtain ⟨j, hj⟩ := List.mem_iff_getElem?.mp hy
        exact ⟨j + 1, y, Nat.succ_ne_zero j, hj, hpy⟩
      · rintro ⟨j, y, hj, hy, hpy⟩
        obtain ⟨j, rfl⟩ := Nat.exists_eq_succ_of_ne_zero hj
        exact ⟨y, List.mem_of_getElem? hy, hpy⟩
    | succ i =>
      have hmem : x ∈ l.filter p := List.mem_filter.mpr ⟨List.mem_of_getElem? hget, hx⟩
      by_cases ha : p a = true
      · rw [List.filter_cons_of_pos ha, List.length_cons, Nat.lt_add_left_iff_pos]
        exact iff_of_true (List.length_pos_of_mem hmem) ⟨0, a, Nat.zero_ne_add_one i, rfl, ha⟩
      · rw [List.filter_cons_of_neg ha, ih hget]
        constructor
        · rintro ⟨j, y, hj, hy, hpy⟩
          exact ⟨j + 1, y, fun h => hj (Nat.succ.inj h), hy, hpy⟩
        · rintro ⟨j, y, hj, hy, hpy⟩
          cases j with
          | zero =>
            cases hy
            exact absurd hpy ha
          | succ j => exact ⟨j, y, fun h => hj (congrArg Nat.succ h), hy, hpy⟩

end Grouping
