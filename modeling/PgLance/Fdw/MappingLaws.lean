import PgLance.Fdw.DdlOrder

/-! The composite types of one mapping. -/

namespace PgLance

section

variable {tableName : String}

/-- Composite types are collected under their own names, which are derived from paths. -/
def MappingState.Keyed (tableName : String) (st : MappingState) : Prop :=
  ∀ (name : String) (ty : CompositeTypeDef), st.composites[name]? = some ty →
    ty.typeName = name ∧ ∃ path, name = compositeTypeName tableName path

theorem MappingState.Keyed.insert {st : MappingState} (h : st.Keyed tableName) (path : String)
    (fields : List (String × String)) :
    MappingState.Keyed tableName ⟨st.composites.insert (compositeTypeName tableName path)
      ⟨compositeTypeName tableName path, fields⟩, st.seen⟩ := by
  intro name ty hget
  simp only [Std.TreeMap.getElem?_insert, Std.LawfulEqOrd.compare_eq_iff_eq] at hget
  split at hget
  · rename_i heq
    cases hget
    exact ⟨heq, path, heq.symm⟩
  · exact h name ty hget

theorem keyed_pgTypesForFields {fields : List Field}
    (ih : ∀ f ∈ fields, ∀ path st, MappingState.Keyed tableName st →
      (pgTypeForArrow tableName f.dataType path st).2.Keyed tableName)
    (path : String) {st : MappingState} (h : st.Keyed tableName) :
    (pgTypesForFields tableName fields path st).2.Keyed tableName := by
  induction fields generalizing st with
  | nil => exact h
  | cons f fields ihs =>
    rw [List.forall_mem_cons] at ih
    exact ihs ih.2 (ih.1 _ st h)

theorem keyed_pgTypeForArrow (dt : DataType) (path : String) {st : MappingState}
    (h : st.Keyed tableName) : (pgTypeForArrow tableName dt path st).2.Keyed tableName := by
  induction dt generalizing path st with
  | leaf type => exact h
  | list kind elem ih => exact ih _ h
  | struct fields ih =>
    simp only [pgTypeForArrow]
    split
    · exact h
    · refine MappingState.Keyed.insert ?_ path _
      exact keyed_pgTypesForFields (fun f hf path st h => ih f hf path h) path h
  | map entries sorted ih => exact h
  | dictionary key value ihk ihv => exact ihv _ h

theorem keyed_pgTypesForColumns (fields : List Field) {st : MappingState}
    (h : st.Keyed tableName) : (pgTypesForColumns tableName fields st).2.Keyed tableName := by
  induction fields generalizing st with
  | nil => exact h
  | cons f fields ih => exact ih (keyed_pgTypeForArrow f.dataType f.name h)

theorem mem_compositeTypes_iff {fields : List Field} {ty : CompositeTypeDef} :
    ty ∈ (buildSchemaMapping tableName fields).compositeTypes ↔
      (pgTypesForColumns tableName fields ⟨∅, ∅⟩).2.composites[ty.typeName]? = some ty := by
  have hkeyed : (pgTypesForColumns tableName fields ⟨∅, ∅⟩).2.Keyed tableName :=
    keyed_pgTypesForColumns fields fun name ty hget => by simp at hget
  simp only [buildSchemaMapping, List.mem_map, Prod.exists,
    Std.TreeMap.mem_toList_iff_getElem?_eq_some]
  constructor
  · rintro ⟨name, ty, hget, rfl⟩
    rw [(hkeyed name ty hget).1]
    exact hget
  · intro hget
    exact ⟨ty.typeName, ty, hget, rfl⟩

theorem compositeTypes_path {fields : List Field} {ty : CompositeTypeDef}
    (h : ty ∈ (buildSchemaMapping tableName fields).compositeTypes) :
    ∃ path, ty.typeName = compositeTypeName tableName path := by
  have hkeyed : (pgTypesForColumns tableName fields ⟨∅, ∅⟩).2.Keyed tableName :=
    keyed_pgTypesForColumns fields fun name ty hget => by simp at hget
  exact (hkeyed _ ty (mem_compositeTypes_iff.mp h)).2

theorem compositeTypes_nodup (tableName : String) (fields : List Field) :
    ((buildSchemaMapping tableName fields).compositeTypes.map CompositeTypeDef.typeName).Nodup := by
  have hkeyed : (pgTypesForColumns tableName fields ⟨∅, ∅⟩).2.Keyed tableName :=
    keyed_pgTypesForColumns fields fun name ty hget => by simp at hget
  have hkeys : (buildSchemaMapping tableName fields).compositeTypes.map CompositeTypeDef.typeName =
      (pgTypesForColumns tableName fields ⟨∅, ∅⟩).2.composites.toList.map Prod.fst := by
    simp only [buildSchemaMapping, List.map_map]
    apply List.map_congr_left
    intro entry hentry
    exact (hkeyed entry.1 entry.2 (Std.TreeMap.mem_toList_iff_getElem?_eq_some.mp hentry)).1
  rw [hkeys, List.Nodup, List.pairwise_map]
  exact Std.TreeMap.distinct_keys_toList.imp fun hne heq =>
    hne (Std.LawfulEqOrd.compare_eq_iff_eq.mpr heq)

theorem orderCompositeTypes_perm (tableName : String) (fields : List Field) :
    (orderCompositeTypes (buildSchemaMapping tableName fields).compositeTypes).Perm
      (buildSchemaMapping tableName fields).compositeTypes :=
  orderCompositeTypes_permutes (compositeTypes_nodup tableName fields)

end

end PgLance
