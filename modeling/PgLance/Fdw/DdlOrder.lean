import PgLance.Fdw.Ddl
import PgLance.Library.DependencyOrder

/-! The order in which composite types are created. -/

namespace PgLance

open DependencyOrder

abbrev CompositesByName := List (String × CompositeTypeDef)

def compositesByName (types : List CompositeTypeDef) : CompositesByName :=
  (Std.TreeMap.ofList (types.map fun ty => (ty.typeName, ty))).toList

inductive OrderLoop (byName : CompositesByName) : OrderState → OrderState → Prop
  | stalled {st} : (byName.foldl orderStep st).out.length = st.out.length →
    OrderLoop byName st (byName.foldl orderStep st)
  | complete {st} : (byName.foldl orderStep st).out.length = byName.length →
    OrderLoop byName st (byName.foldl orderStep st)
  | again {st st'} : (byName.foldl orderStep st).out.length ≠ st.out.length →
    (byName.foldl orderStep st).out.length ≠ byName.length →
    OrderLoop byName (byName.foldl orderStep st) st' → OrderLoop byName st st'

abbrev OrderedTypes : List CompositeTypeDef → Prop :=
  Ordered CompositeTypeDef.typeName CompositeTypeDef.deps

structure CompositesByName.Keyed (byName : CompositesByName) : Prop where
  key : ∀ entry ∈ byName, entry.1 = entry.2.typeName
  nodup : (byName.map Prod.fst).Nodup

structure OrderState.Valid (byName : CompositesByName) (st : OrderState) : Prop where
  emitted : ∀ name, name ∈ st.emitted ↔ name ∈ st.out.map CompositeTypeDef.typeName
  nodup : (st.out.map CompositeTypeDef.typeName).Nodup
  mem : ∀ ty ∈ st.out, ty ∈ byName.map Prod.snd
  ordered : OrderedTypes st.out

section

variable {byName : CompositesByName} {st st' : OrderState} {entry : String × CompositeTypeDef}

theorem OrderState.Valid.subperm (h : st.Valid byName) (hkeyed : byName.Keyed) :
    (st.out.map CompositeTypeDef.typeName).Subperm (byName.map Prod.fst) := by
  apply List.subperm_of_subset h.nodup
  intro name hname
  obtain ⟨ty, hty, rfl⟩ := List.mem_map.mp hname
  obtain ⟨entry, hentry, rfl⟩ := List.mem_map.mp (h.mem ty hty)
  rw [← hkeyed.key entry hentry]
  exact List.mem_map_of_mem hentry

theorem OrderState.Valid.length_le (h : st.Valid byName) (hkeyed : byName.Keyed) :
    st.out.length ≤ byName.length := by
  simpa using (h.subperm hkeyed).length_le

theorem orderStep_cases (st : OrderState) (entry : String × CompositeTypeDef) :
    (orderStep st entry = st ∧ (entry.1 ∈ st.emitted ∨
      ∃ dep ∈ entry.2.deps, dep ∉ st.emitted)) ∨
    (entry.1 ∉ st.emitted ∧ (∀ dep ∈ entry.2.deps, dep ∈ st.emitted) ∧
      orderStep st entry = ⟨st.emitted.insert entry.1, st.out ++ [entry.2]⟩) := by
  rw [orderStep]
  by_cases hemitted : entry.1 ∈ st.emitted
  · exact .inl ⟨if_pos (Std.TreeSet.contains_iff_mem.mpr hemitted), .inl hemitted⟩
  · rw [if_neg (by simpa using hemitted)]
    by_cases hdeps : ∀ dep ∈ entry.2.deps, dep ∈ st.emitted
    · exact .inr ⟨hemitted, hdeps, if_pos (by simpa using hdeps)⟩
    · refine .inl ⟨if_neg (by simpa using hdeps), .inr ?_⟩
      simpa using hdeps

theorem orderStep_valid (h : st.Valid byName) (hkeyed : byName.Keyed) (hentry : entry ∈ byName) :
    (orderStep st entry).Valid byName := by
  have hkey := hkeyed.key entry hentry
  rcases orderStep_cases st entry with ⟨hsame, -⟩ | ⟨hnew, hdeps, hstep⟩
  · rw [hsame]
    exact h
  · rw [hstep]
    constructor
    · intro name
      rw [Std.TreeSet.mem_insert, Std.LawfulEqOrd.compare_eq_iff_eq, h.emitted, List.map_append,
        List.mem_append, List.map_singleton, List.mem_singleton, ← hkey, or_comm, eq_comm]
    · rw [List.map_append, List.map_singleton, ← hkey]
      apply List.Nodup.append h.nodup (List.nodup_singleton _)
      rwa [List.disjoint_singleton, ← h.emitted]
    · intro ty hty
      cases List.mem_append.mp hty with
      | inl hty => exact h.mem ty hty
      | inr hty =>
        rw [List.mem_singleton.mp hty]
        exact List.mem_map_of_mem hentry
    · exact .snoc h.ordered fun dep hdep => (h.emitted dep).mp (hdeps dep hdep)

theorem length_orderStep_le (st : OrderState) (entry : String × CompositeTypeDef) :
    st.out.length ≤ (orderStep st entry).out.length := by
  rcases orderStep_cases st entry with ⟨hsame, -⟩ | ⟨-, -, hstep⟩
  · rw [hsame]
  · rw [hstep]
    simp

theorem length_foldl_orderStep_le (entries : CompositesByName) (st : OrderState) :
    st.out.length ≤ (entries.foldl orderStep st).out.length := by
  induction entries generalizing st with
  | nil => exact le_refl _
  | cons entry entries ih => exact (length_orderStep_le st entry).trans (ih _)

theorem foldl_orderStep_valid (h : st.Valid byName) (hkeyed : byName.Keyed) :
    (byName.foldl orderStep st).Valid byName := by
  have hfold : ∀ entries : CompositesByName, (∀ entry ∈ entries, entry ∈ byName) →
      ∀ st : OrderState, st.Valid byName → (entries.foldl orderStep st).Valid byName := by
    intro entries
    induction entries with
    | nil => exact fun _ _ h => h
    | cons entry entries ih =>
      intro hsub st h
      rw [List.forall_mem_cons] at hsub
      exact ih hsub.2 _ (orderStep_valid h hkeyed hsub.1)
  exact hfold byName (fun _ h => h) st h

/-- A pass that emits nothing has found every definition emitted or in want of another. -/
theorem stalled_of_length (entries : CompositesByName)
    (h : (entries.foldl orderStep st).out.length = st.out.length) :
    entries.foldl orderStep st = st ∧ ∀ entry ∈ entries, entry.1 ∈ st.emitted ∨
      ∃ dep ∈ entry.2.deps, dep ∉ st.emitted := by
  induction entries with
  | nil => simp
  | cons entry entries ih =>
    rw [List.foldl_cons] at h ⊢
    have hrest := length_foldl_orderStep_le entries (orderStep st entry)
    rcases orderStep_cases st entry with ⟨hsame, hwhy⟩ | ⟨-, -, hstep⟩
    · rw [hsame] at h ⊢
      obtain ⟨hfold, hall⟩ := ih h
      exact ⟨hfold, List.forall_mem_cons.mpr ⟨hwhy, hall⟩⟩
    · have hlength := congrArg (fun st => st.out.length) hstep
      simp only [List.length_append, List.length_singleton] at hlength
      omega

theorem orderPasses_loop (hkeyed : byName.Keyed) {fuel : Nat} (h : st.Valid byName)
    (hfuel : byName.length < fuel + st.out.length) :
    OrderLoop byName st (orderPasses byName fuel st) := by
  induction fuel generalizing st with
  | zero =>
    have hle := h.length_le hkeyed
    omega
  | succ fuel ih =>
    have hle := length_foldl_orderStep_le byName st
    simp only [orderPasses]
    split
    · rename_i hstalled
      exact .stalled hstalled
    · rename_i hstalled
      split
      · rename_i hcomplete
        exact .complete hcomplete
      · rename_i hcomplete
        exact .again hstalled hcomplete (ih (foldl_orderStep_valid h hkeyed) (by omega))

/-- The loop ends when every definition is emitted or in want of another. -/
theorem OrderLoop.spec (hkeyed : byName.Keyed) (hloop : OrderLoop byName st st')
    (h : st.Valid byName) :
    st'.Valid byName ∧ ∀ entry ∈ byName, entry.1 ∈ st'.emitted ∨
      ∃ dep ∈ entry.2.deps, dep ∉ st'.emitted := by
  induction hloop with
  | stalled hlength =>
    obtain ⟨hfold, hall⟩ := stalled_of_length byName hlength
    rw [hfold]
    exact ⟨h, hall⟩
  | @complete st hlength =>
    have hvalid := foldl_orderStep_valid h hkeyed
    refine ⟨hvalid, fun entry hentry => .inl ?_⟩
    have hperm := (hvalid.subperm hkeyed).perm_of_length_le (by simp [hlength])
    rw [hvalid.emitted, hperm.mem_iff]
    exact List.mem_map_of_mem hentry
  | again _ _ _ ih => exact ih (foldl_orderStep_valid h hkeyed)

end

section

variable {types : List CompositeTypeDef}

theorem compositesByName_perm (hnames : (types.map CompositeTypeDef.typeName).Nodup) :
    (compositesByName types).Perm (types.map fun ty => (ty.typeName, ty)) := by
  have hdistinct : (types.map fun ty => (ty.typeName, ty)).Pairwise fun a b =>
      ¬ compare a.1 b.1 = .eq := by
    rw [List.pairwise_map]
    rw [List.Nodup, List.pairwise_map] at hnames
    exact hnames.imp fun hne heq => hne (Std.LawfulEqOrd.eq_of_compare heq)
  have hkeys : (compositesByName types).Pairwise fun a b => ¬ compare a.1 b.1 = .eq :=
    Std.TreeMap.distinct_keys_toList
  have hnodup : ∀ entries : CompositesByName,
      (entries.Pairwise fun a b => ¬ compare a.1 b.1 = .eq) → entries.Nodup := fun entries h =>
    h.imp fun hne heq => hne (by rw [heq]; exact Std.ReflCmp.compare_self)
  rw [List.perm_ext_iff_of_nodup (hnodup _ hkeys) (hnodup _ hdistinct)]
  intro entry
  rw [compositesByName, Std.TreeMap.mem_toList_iff_getElem?_eq_some]
  constructor
  · intro h
    by_contra hnot
    have hcontains : entry.1 ∈ Std.TreeMap.ofList (types.map fun ty => (ty.typeName, ty)) :=
      Std.TreeMap.mem_iff_isSome_getElem?.mpr (by simp [h])
    rw [Std.TreeMap.mem_ofList, List.contains_iff_mem] at hcontains
    obtain ⟨⟨name, ty⟩, hmem, hname⟩ := List.mem_map.mp hcontains
    have hsame : compare name entry.1 = .eq := Std.LawfulEqOrd.compare_eq_iff_eq.mpr hname
    have hget := Std.TreeMap.getElem?_ofList_of_mem hsame hdistinct hmem
    rw [h, Option.some.injEq] at hget
    exact hnot (by rwa [show entry = (name, ty) from Prod.ext hname.symm hget])
  · exact Std.TreeMap.getElem?_ofList_of_mem Std.ReflCmp.compare_self hdistinct

theorem compositesByName_keyed (hnames : (types.map CompositeTypeDef.typeName).Nodup) :
    (compositesByName types).Keyed := by
  have hperm := compositesByName_perm hnames
  constructor
  · intro entry hentry
    obtain ⟨ty, -, rfl⟩ := List.mem_map.mp (hperm.mem_iff.mp hentry)
    rfl
  · rw [(hperm.map Prod.fst).nodup_iff, List.map_map]
    exact hnames

theorem orderCompositeTypes_loop (hnames : (types.map CompositeTypeDef.typeName).Nodup) :
    ∃ st, OrderLoop (compositesByName types) ⟨∅, []⟩ st ∧
      st.Valid (compositesByName types) ∧
      orderCompositeTypes types = st.out ++ ((compositesByName types).filter fun entry =>
        !st.emitted.contains entry.1).map Prod.snd ∧
      ∀ entry ∈ compositesByName types, entry.1 ∈ st.emitted ∨
        ∃ dep ∈ entry.2.deps, dep ∉ st.emitted := by
  have hkeyed := compositesByName_keyed hnames
  have hstart : (⟨∅, []⟩ : OrderState).Valid (compositesByName types) :=
    ⟨by simp, List.nodup_nil, by simp, .nil⟩
  have hloop : OrderLoop (compositesByName types) ⟨∅, []⟩ (orderPasses (compositesByName types)
      ((compositesByName types).length + 1) ⟨∅, []⟩) := orderPasses_loop hkeyed hstart (by simp)
  obtain ⟨hvalid, hall⟩ := hloop.spec hkeyed hstart
  exact ⟨_, hloop, hvalid, rfl, hall⟩

theorem OrderState.Valid.perm {byName : CompositesByName} {st : OrderState}
    (h : st.Valid byName) (hkeyed : byName.Keyed) :
    (st.out ++ (byName.filter fun entry => !st.emitted.contains entry.1).map Prod.snd).Perm
      (byName.map Prod.snd) := by
  have hout : st.out.Perm
      ((byName.filter fun entry => st.emitted.contains entry.1).map Prod.snd) := by
    have hnames : ∀ entries : CompositesByName, (∀ entry ∈ entries, entry ∈ byName) →
        (entries.map Prod.snd).map CompositeTypeDef.typeName = entries.map Prod.fst := by
      intro entries hsub
      rw [List.map_map]
      exact List.map_congr_left fun entry hentry => (hkeyed.key entry (hsub entry hentry)).symm
    have hnodup : ((byName.filter fun entry => st.emitted.contains entry.1).map Prod.snd).Nodup := by
      apply List.Nodup.of_map CompositeTypeDef.typeName
      rw [hnames _ fun entry hentry => (List.mem_filter.mp hentry).1]
      exact hkeyed.nodup.sublist (List.filter_sublist.map Prod.fst)
    rw [List.perm_ext_iff_of_nodup (List.Nodup.of_map _ h.nodup) hnodup]
    intro ty
    constructor
    · intro hty
      obtain ⟨entry, hentry, rfl⟩ := List.mem_map.mp (h.mem ty hty)
      refine List.mem_map_of_mem (List.mem_filter.mpr ⟨hentry, ?_⟩)
      rw [Std.TreeSet.contains_iff_mem, hkeyed.key entry hentry, h.emitted]
      exact List.mem_map_of_mem hty
    · intro hty
      obtain ⟨entry, hentry, rfl⟩ := List.mem_map.mp hty
      obtain ⟨hentry, hemitted⟩ := List.mem_filter.mp hentry
      obtain ⟨ty, hty, hname⟩ := List.mem_map.mp
        ((h.emitted entry.1).mp (Std.TreeSet.contains_iff_mem.mp hemitted))
      obtain ⟨entry', hentry', rfl⟩ := List.mem_map.mp (h.mem ty hty)
      rw [← hkeyed.key entry' hentry'] at hname
      rwa [← List.inj_on_of_nodup_map hkeyed.nodup hentry' hentry hname]
  refine (hout.append_right _).trans ?_
  rw [← List.map_append]
  exact (List.filter_append_perm _ byName).map Prod.snd

theorem orderCompositeTypes_permutes (hnames : (types.map CompositeTypeDef.typeName).Nodup) :
    (orderCompositeTypes types).Perm types := by
  obtain ⟨st, -, hvalid, hresult, -⟩ := orderCompositeTypes_loop hnames
  have htypes : (types.map fun ty => (ty.typeName, ty)).map Prod.snd = types := by
    rw [List.map_map]
    exact List.map_id types
  have hmapped := (compositesByName_perm hnames).map Prod.snd
  rw [htypes] at hmapped
  rw [hresult]
  exact (hvalid.perm (compositesByName_keyed hnames)).trans hmapped

/-- The loop ends, every definition is returned once, and after those that it refers to where
there are no cycles. -/
theorem orderCompositeTypes_ordered (hnames : (types.map CompositeTypeDef.typeName).Nodup) :
    (∃ st, OrderLoop (compositesByName types) ⟨∅, []⟩ st ∧
      orderCompositeTypes types = st.out ++ ((compositesByName types).filter fun entry =>
        !st.emitted.contains entry.1).map Prod.snd) ∧
    (orderCompositeTypes types).Perm types ∧
    (Acyclic CompositeTypeDef.typeName CompositeTypeDef.deps types →
      Closed CompositeTypeDef.typeName CompositeTypeDef.deps types →
      ∀ before ty after, orderCompositeTypes types = before ++ ty :: after →
        ∀ dep ∈ ty.deps, dep ∈ before.map CompositeTypeDef.typeName) := by
  obtain ⟨st, hloop, hvalid, hresult, hall⟩ := orderCompositeTypes_loop hnames
  have hperm := compositesByName_perm hnames
  refine ⟨⟨st, hloop, hresult⟩, orderCompositeTypes_permutes hnames, ?_⟩
  · intro hacyclic hclosed
    have hemitted : ∀ ty ∈ types, ty.typeName ∈ st.emitted := by
      intro ty hty
      by_contra hleft
      obtain ⟨ready, hready, hnew, hdeps⟩ :=
        exists_ready (fun name => name ∈ st.emitted) hacyclic hclosed hty hleft
      have hentry : (ready.typeName, ready) ∈ compositesByName types :=
        hperm.mem_iff.mpr (List.mem_map_of_mem hready)
      cases hall _ hentry with
      | inl hold => exact hnew hold
      | inr hwant =>
        obtain ⟨dep, hdep, hnone⟩ := hwant
        exact hnone (hdeps dep hdep)
    have hnone : ((compositesByName types).filter fun entry =>
        !st.emitted.contains entry.1) = [] := by
      rw [List.filter_eq_nil_iff]
      intro entry hentry
      obtain ⟨ty, hty, rfl⟩ := List.mem_map.mp (hperm.mem_iff.mp hentry)
      simp [hemitted ty hty]
    rw [hresult, hnone, List.map_nil, List.append_nil]
    intro before ty after hout
    exact hvalid.ordered.mem_before hout

def pairTypes : List CompositeTypeDef :=
  [⟨"lance_t_a", [("b", "lance_t_a_b[]")]⟩, ⟨"lance_t_a_b", [("x", "int4")]⟩]

theorem refers_pairTypes {a b : String}
    (h : Refers CompositeTypeDef.typeName CompositeTypeDef.deps pairTypes a b) :
    a = "lance_t_a" ∧ b = "lance_t_a_b" := by
  obtain ⟨ty, hty, rfl, hb⟩ := h
  have hdeps : ∀ ty ∈ pairTypes, ∀ dep ∈ ty.deps,
      ty.typeName = "lance_t_a" ∧ dep = "lance_t_a_b" := by decide
  exact hdeps ty hty b hb

theorem pairTypes_acyclic :
    Acyclic CompositeTypeDef.typeName CompositeTypeDef.deps pairTypes := by
  intro a hcycle
  obtain ⟨b, hfirst, -⟩ := Relation.TransGen.head'_iff.mp hcycle
  obtain ⟨c, -, hlast⟩ := Relation.TransGen.tail'_iff.mp hcycle
  have heq := (refers_pairTypes hfirst).1.symm.trans (refers_pairTypes hlast).2
  exact absurd heq (by decide)

theorem pairTypes_closed :
    Closed CompositeTypeDef.typeName CompositeTypeDef.deps pairTypes := by
  have hdeps : ∀ ty ∈ pairTypes, ∀ dep ∈ ty.deps,
      dep ∈ pairTypes.map CompositeTypeDef.typeName := by decide
  exact hdeps

theorem orderCompositeTypes_ordered_pair :
    orderCompositeTypes pairTypes =
        [⟨"lance_t_a_b", [("x", "int4")]⟩] ++ ⟨"lance_t_a", [("b", "lance_t_a_b[]")]⟩ :: [] ∧
      "lance_t_a_b" ∈ [(⟨"lance_t_a_b", [("x", "int4")]⟩ : CompositeTypeDef)].map
        CompositeTypeDef.typeName := by
  have hresult : orderCompositeTypes pairTypes =
      [⟨"lance_t_a_b", [("x", "int4")]⟩] ++ ⟨"lance_t_a", [("b", "lance_t_a_b[]")]⟩ :: [] := by
    decide
  exact ⟨hresult, (orderCompositeTypes_ordered (by decide)).2.2 pairTypes_acyclic pairTypes_closed
    _ _ _ hresult "lance_t_a_b" (by decide)⟩

end

end PgLance
