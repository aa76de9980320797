import PgLance.Fdw.Convert
import PgLance.Library.Fallible

/-! The check of Arrow types at the begin of a scan against the conversion of their values. -/

namespace PgLance

open Fallible

def DataType.isDictionaryKey : DataType → Bool
  | .leaf .int8 | .leaf .int16 | .leaf .int32 | .leaf .int64
  | .leaf .uint8 | .leaf .uint16 | .leaf .uint32 | .leaf .uint64 => true
  | _ => false

namespace ArrowArray

/-- An array holds children of the types that its own type names. -/
inductive Valid : ArrowArray → Prop
  | primitive (type cells) : Valid (.primitive type cells)
  | list {kind elem slots values} : values.dataType = elem.dataType → Valid values →
    Valid (.list kind elem slots values)
  | struct {fields : List Field} {validity} {columns : List ArrowArray} :
    columns.map dataType = fields.map FieldOf.dataType → (∀ column ∈ columns, Valid column) →
    Valid (.struct fields validity columns)
  | map {entries sorted slots values} : values.dataType = entries.dataType → Valid values →
    Valid (.map entries sorted slots values)
  | dictionary {key value keys values} : key.isDictionaryKey = true → values.dataType = value →
    Valid values → Valid (.dictionary key value keys values)

/-- The value in a row is neither null nor empty, and no value inside it is. -/
inductive Solid : ArrowArray → Nat → Prop
  | primitive {type cells row} : (primitive type cells).isNull row = false →
    Solid (.primitive type cells) row
  | list {kind elem slots values row start n} : slots[row]? = some (some (start, n)) → 0 < n →
    (∀ i < n, Solid values (start + i)) → Solid (.list kind elem slots values) row
  | struct {fields validity columns row} : validity[row]? = some true →
    (∀ column ∈ columns, Solid column row) → Solid (.struct fields validity columns) row
  | map {entries sorted slots values row start n} : slots[row]? = some (some (start, n)) → 0 < n →
    (∀ i < n, Solid values (start + i)) → Solid (.map entries sorted slots values) row
  | dictionary {key value keys values row k} : keys[row]? = some (some k) → Solid values k.toNat →
    Solid (.dictionary key value keys values) row

end ArrowArray

def ConvertError.AboutValue (e : ConvertError) : Prop :=
  e.kind = .valueOutOfRange ∨ e.kind = .internal

@[simp] theorem ConvertError.aboutValue_internal (message : String) :
    (ConvertError.internal message).AboutValue := .inr rfl

@[simp] theorem ConvertError.aboutValue_valueOutOfRange (message : String) :
    (ConvertError.valueOutOfRange message).AboutValue := .inl rfl

theorem requireTargetOid_ok_iff {oid expected : Oid} {message : String} {u : Unit} :
    requireTargetOid oid expected message = .ok u ↔ oid = expected := by
  simp [requireTargetOid]

@[simp] theorem requireTargetOid_self (oid : Oid) (message : String) :
    requireTargetOid oid oid message = .ok () := requireTargetOid_ok_iff.mpr rfl

section

variable (cells : List (Option Scalar)) (row : Nat)

@[simp] theorem Cells.bool_fails : FailsOnly ConvertError.AboutValue (Cells.bool cells row) := by
  fun_cases Cells.bool <;> simp

@[simp] theorem Cells.int_fails (array : String) :
    FailsOnly ConvertError.AboutValue (Cells.int cells row array) := by
  fun_cases Cells.int <;> simp

@[simp] theorem Cells.float_fails (array : String) :
    FailsOnly ConvertError.AboutValue (Cells.float cells row array) := by
  fun_cases Cells.float <;> simp

@[simp] theorem Cells.utf8_fails (array : String) :
    FailsOnly ConvertError.AboutValue (Cells.utf8 cells row array) := by
  fun_cases Cells.utf8 <;> simp

@[simp] theorem Cells.binary_fails (array : String) :
    FailsOnly ConvertError.AboutValue (Cells.binary cells row array) := by
  fun_cases Cells.binary <;> simp

end

theorem ArrowArray.isNull_of_cell {type : LeafType} {cells : List (Option Scalar)} {row : Nat}
    {s : Scalar} (h : cells[row]? = some (some s)) : (primitive type cells).isNull row = false := by
  simp [isNull, h]

theorem Cells.int_of_cell {cells : List (Option Scalar)} {row : Nat} {i : Int}
    (h : cells[row]? = some (some (.int i))) (array : String) :
    Cells.int cells row array = .ok i := by
  rw [Cells.int, h]

@[simp] theorem listSlot_fails (slots : List Slot) (row : Nat) :
    FailsOnly ConvertError.AboutValue (listSlot slots row) := by
  fun_cases listSlot <;> simp

theorem dictionaryKeyToUsize_fails {key : DataType} (h : key.isDictionaryKey = true)
    (keys : List (Option Int)) (row : Nat) :
    FailsOnly ConvertError.AboutValue (dictionaryKeyToUsize key keys row) := by
  cases key with
  | leaf type =>
    cases type <;> cases h <;> simp only [dictionaryKeyToUsize] <;> split <;> try split
    all_goals simp
  | _ => cases h

variable (env : ConvertEnv)

theorem leafToJson_fails (type : LeafType) (cells : List (Option Scalar)) (row : Nat) :
    FailsOnly ConvertError.AboutValue (leafToJson env type cells row) := by
  cases type <;> simp [leafToJson]

theorem structColumnsToJson_fails {columns : List ArrowArray}
    (h : ∀ column ∈ columns, ∀ row,
      FailsOnly ConvertError.AboutValue (arrowValueToJson env column row))
    (fields : List Field) (row : Nat) (entries : List (String × Json)) :
    FailsOnly ConvertError.AboutValue (structColumnsToJson env fields columns row entries) := by
  induction columns generalizing fields entries with
  | nil => cases fields <;> simp [structColumnsToJson]
  | cons column columns ih =>
    cases fields with
    | nil => simp [structColumnsToJson]
    | cons f fields =>
      rw [List.forall_mem_cons] at h
      simp only [structColumnsToJson, failsOnly_bind]
      exact ⟨h.1 row, fun _ _ => ih h.2 fields _⟩

theorem arrowValueToJson_fails {array : ArrowArray} (h : array.Valid) (row : Nat) :
    FailsOnly ConvertError.AboutValue (arrowValueToJson env array row) := by
  induction array generalizing row with
  | primitive type cells =>
    simp only [arrowValueToJson]
    split
    · simp
    · exact leafToJson_fails env type cells row
  | list kind elem slots values ih =>
    cases h with
    | list _ h =>
      simp only [arrowValueToJson]
      split
      · simp
      · simp only [failsOnly_bind, listSlot_fails, true_and]
        intro slot _
        exact ⟨failsOnly_mapM fun i _ => ih h _, by simp⟩
  | struct fields validity columns ih =>
    cases h with
    | struct _ h =>
      simp only [arrowValueToJson]
      split
      · simp
      · rw [failsOnly_bind]
        refine ⟨?_, by simp⟩
        exact structColumnsToJson_fails env (fun column hc => ih column hc (h column hc)) fields row []
  | map entries sorted slots values ih =>
    simp only [arrowValueToJson]
    split <;> simp
  | dictionary key value keys values ih =>
    cases h with
    | dictionary hkey _ h =>
      simp only [arrowValueToJson]
      split
      · simp
      · rw [failsOnly_bind]
        refine ⟨dictionaryKeyToUsize_fails hkey keys row, ?_⟩
        intro valueIdx _
        split
        · simp
        · exact ih h valueIdx

theorem timestampToDatum_fails (unit : TimeUnit) (tz : Option String)
    (cells : List (Option Scalar)) (row : Nat) :
    FailsOnly ConvertError.AboutValue (timestampToDatum env unit tz cells row) := by
  have hmicros : FailsOnly ConvertError.AboutValue (timestampToUnixMicros unit cells row) := by
    cases unit <;> simp [timestampToUnixMicros]
  rw [timestampToDatum, failsOnly_bind]
  refine ⟨hmicros, ?_⟩
  intro micros _
  cases tz <;> simp only <;> split <;> simp

theorem decimalToDatum_fails (precision scale v : Int) :
    FailsOnly ConvertError.AboutValue (decimalToDatum env precision scale v) := by
  fun_cases decimalToDatum <;> simp

theorem calendarToDate_fails (date : CalendarDate) :
    FailsOnly ConvertError.AboutValue (calendarToDate env date) := by
  fun_cases calendarToDate <;> simp

theorem leafToDatum_fails {type : LeafType} {oid : Oid} (h : validateLeafType type oid = .ok ())
    (cells : List (Option Scalar)) (row : Nat) :
    FailsOnly ConvertError.AboutValue (leafToDatum env type cells row oid) := by
  cases type with
  | timestamp unit tz =>
    simp only [leafToDatum, failsOnly_bind, h, failsOnly_ok, true_and]
    intro _ _
    exact timestampToDatum_fails env unit tz cells row
  | uint64 =>
    simp only [validateLeafType, requireTargetOid_ok_iff] at h
    simp only [h, leafToDatum, requireTargetOid_self, failsOnly_bind, failsOnly_ok,
      Cells.int_fails, true_and]
    intro _ _ v _
    split <;> simp
  | date32 | date64 =>
    simp only [validateLeafType, requireTargetOid_ok_iff] at h
    simp only [h, leafToDatum, requireTargetOid_self, failsOnly_bind, failsOnly_ok,
      Cells.int_fails, true_and]
    intro _ _ v _
    split
    · exact calendarToDate_fails env _
    · simp
  | _ =>
    simp only [validateLeafType, requireTargetOid_ok_iff] at h
    simp [h, leafToDatum, decimalToDatum_fails, arrowValueToJson_fails env (.primitive _ cells)]

theorem structColumnToDatum_fails {fields : List Field} {columns : List ArrowArray}
    (htypes : columns.map ArrowArray.dataType = fields.map FieldOf.dataType) {row : Nat}
    (ih : ∀ column ∈ columns, ∀ oid,
      validateArrowTypeForPgOid env.catalog column.dataType oid = .ok () →
        FailsOnly ConvertError.AboutValue (arrowValueToDatum env column row oid))
    {name : String} {oid : Oid} (h : validateStructField env.catalog fields name oid = .ok ()) :
    FailsOnly ConvertError.AboutValue (structColumnToDatum env fields columns row name oid) := by
  induction fields generalizing columns with
  | nil => cases h
  | cons f fields ihfields =>
    cases columns with
    | nil => cases htypes
    | cons column columns =>
      rw [List.map_cons, List.map_cons, List.cons.injEq] at htypes
      rw [List.forall_mem_cons] at ih
      simp only [structColumnToDatum]
      simp only [validateStructField] at h
      by_cases hname : f.name = name
      · rw [if_pos hname] at h ⊢
        exact ih.1 oid (htypes.1 ▸ h)
      · rw [if_neg hname] at h ⊢
        exact ihfields htypes.2 ih.2 h

theorem arrowValueToDatum_fails (hjsonb : env.catalog.getElementType jsonbOid = invalidOid)
    {array : ArrowArray} (hvalid : array.Valid) {oid : Oid}
    (h : validateArrowTypeForPgOid env.catalog array.dataType oid = .ok ()) (row : Nat) :
    FailsOnly ConvertError.AboutValue (arrowValueToDatum env array row oid) := by
  induction array generalizing oid row with
  | primitive type cells =>
    simp only [arrowValueToDatum]
    split
    · simp
    · rw [failsOnly_map]
      exact leafToDatum_fails env h cells row
  | list kind elem slots values ih =>
    have hjson := arrowValueToJson_fails env hvalid row
    obtain ⟨name, elem, nullable⟩ := elem
    cases hvalid with
    | list htype hvalid =>
      simp only [ArrowArray.dataType, validateArrowTypeForPgOid] at h
      simp only [arrowValueToDatum]
      split
      · simp
      · by_cases helem : env.catalog.getElementType oid = invalidOid
        · have hoid : oid = jsonbOid := by
            by_contra hne
            simp [hne, helem] at h
          simpa [hoid, hjsonb] using hjson
        · have hne : oid ≠ jsonbOid := fun heq => helem (heq ▸ hjsonb)
          simp only [hne, helem, if_false] at h
          simp only [helem, if_false, failsOnly_bind, listSlot_fails, true_and]
          intro slot _
          exact ⟨failsOnly_mapM fun i _ => ih hvalid (htype ▸ h) _, by simp⟩
  | struct fields validity columns ih =>
    cases hvalid with
    | struct htypes hvalid =>
      simp only [ArrowArray.dataType, validateArrowTypeForPgOid] at h
      simp only [arrowValueToDatum]
      split
      · simp
      · cases hattrs : env.catalog.lookupTypeCache oid with
        | none => simp [hattrs] at h
        | some attrs =>
          simp only [hattrs, forM_ok_iff] at h
          simp only [failsOnly_bind, failsOnly_pure, implies_true, and_true]
          apply failsOnly_mapM
          intro attr hattr
          have hfield := h attr hattr
          split
          · simp
          · rename_i hdropped
            rw [if_neg hdropped] at hfield
            refine structColumnToDatum_fails env htypes ?_ hfield
            intro column hc oid h
            exact ih column hc (hvalid column hc) h row
  | map entries sorted slots values ih =>
    have hjson := arrowValueToJson_fails env hvalid row
    simp only [ArrowArray.dataType, validateArrowTypeForPgOid, requireTargetOid_ok_iff] at h
    simp only [arrowValueToDatum, h, requireTargetOid_self]
    split
    · simp
    · simp [hjson]
  | dictionary key value keys values ih =>
    cases hvalid with
    | dictionary hkey htype hvalid =>
      simp only [arrowValueToDatum]
      split
      · simp
      · rw [failsOnly_bind]
        refine ⟨dictionaryKeyToUsize_fails hkey keys row, ?_⟩
        intro valueIdx _
        split
        · simp
        · exact ih hvalid (htype ▸ h) valueIdx

theorem leafToDatum_ok {type : LeafType} {cells : List (Option Scalar)} {row : Nat} {oid : Oid}
    {datum : Datum} (h : leafToDatum env type cells row oid = .ok datum) :
    validateLeafType type oid = .ok () := by
  cases type <;> simp only [leafToDatum, bind_ok_iff] at h <;> obtain ⟨_, h, -⟩ := h
  case timestamp => exact h
  all_goals
    rw [requireTargetOid_ok_iff] at h
    simp [validateLeafType, h]

theorem dictionaryKeyToUsize_ok {key : DataType} {keys : List (Option Int)} {row : Nat} {k : Int}
    (hrow : keys[row]? = some (some k)) {valueIdx : Nat}
    (h : dictionaryKeyToUsize key keys row = .ok valueIdx) : valueIdx = k.toNat := by
  simp only [dictionaryKeyToUsize, hrow] at h
  split at h <;> try split at h
  all_goals cases h
  all_goals rfl

theorem structColumnToDatum_ok {fields : List Field} {columns : List ArrowArray}
    (htypes : columns.map ArrowArray.dataType = fields.map FieldOf.dataType) {row : Nat}
    (ih : ∀ column ∈ columns, ∀ oid datum, arrowValueToDatum env column row oid = .ok datum →
      validateArrowTypeForPgOid env.catalog column.dataType oid = .ok ())
    {name : String} {oid : Oid} {datum : Option Datum}
    (h : structColumnToDatum env fields columns row name oid = .ok datum) :
    validateStructField env.catalog fields name oid = .ok () := by
  induction fields generalizing columns with
  | nil => cases columns <;> cases h
  | cons f fields ihfields =>
    cases columns with
    | nil => cases htypes
    | cons column columns =>
      rw [List.map_cons, List.map_cons, List.cons.injEq] at htypes
      rw [List.forall_mem_cons] at ih
      simp only [structColumnToDatum] at h
      simp only [validateStructField]
      by_cases hname : f.name = name
      · rw [if_pos hname] at h ⊢
        exact htypes.1 ▸ ih.1 oid datum h
      · rw [if_neg hname] at h ⊢
        exact ihfields htypes.2 ih.2 h

/-- What fails the check is not converted, unless for a null or an empty list on the way. -/
theorem arrowValueToDatum_ok {array : ArrowArray} (hvalid : array.Valid) {row : Nat}
    (hsolid : array.Solid row) {oid : Oid} {datum : Option Datum}
    (h : arrowValueToDatum env array row oid = .ok datum) :
    validateArrowTypeForPgOid env.catalog array.dataType oid = .ok () := by
  induction array generalizing oid row datum with
  | primitive type cells =>
    cases hsolid with
    | primitive hnull =>
      simp only [arrowValueToDatum, hnull, Bool.false_eq_true, if_false, map_ok_iff] at h
      obtain ⟨d, h, -⟩ := h
      exact leafToDatum_ok env h
  | list kind elem slots values ih =>
    obtain ⟨name, elem, nullable⟩ := elem
    cases hvalid with
    | list htype hvalid =>
      cases hsolid with
      | @list _ _ _ _ _ start n hslot hpos hsolid =>
        simp only [ArrowArray.dataType, validateArrowTypeForPgOid]
        simp only [arrowValueToDatum, ArrowArray.isNull, hslot] at h
        by_cases hoid : oid = jsonbOid
        · rw [if_pos hoid]
        · by_cases helem : env.catalog.getElementType oid = invalidOid
          · simp [helem, hoid] at h
          · simp [helem, bind_ok_iff, functor_map_ok_iff, listSlot, hslot] at h
            obtain ⟨datums, hdatums, -⟩ := h
            obtain ⟨d, hd⟩ := exists_mapM_ok_iff.mp ⟨datums, hdatums⟩ 0 (List.mem_range.mpr hpos)
            rw [if_neg hoid, if_neg helem, ← show values.dataType = elem from htype]
            exact ih hvalid (hsolid 0 hpos) hd
  | struct fields validity columns ih =>
    cases hvalid with
    | struct htypes hvalid =>
      cases hsolid with
      | struct hrow hsolid =>
        simp only [ArrowArray.dataType, validateArrowTypeForPgOid]
        simp only [arrowValueToDatum, ArrowArray.isNull, hrow] at h
        cases hattrs : env.catalog.lookupTypeCache oid with
        | none => simp [hattrs] at h
        | some attrs =>
          simp [hattrs, functor_map_ok_iff] at h
          obtain ⟨values, hvalues, -⟩ := h
          rw [forM_ok_iff]
          intro attr hattr
          obtain ⟨d, hd⟩ := exists_mapM_ok_iff.mp ⟨values, hvalues⟩ attr hattr
          by_cases hdropped : attr.attisdropped = true
          · rw [if_pos hdropped]
          · rw [if_neg hdropped] at hd ⊢
            refine structColumnToDatum_ok env htypes ?_ hd
            intro column hc oid datum h
            exact ih column hc (hvalid column hc) (hsolid column hc) h
  | map entries sorted slots values ih =>
    cases hsolid with
    | map hslot =>
      simp [arrowValueToDatum, ArrowArray.isNull, hslot, bind_ok_iff] at h
      obtain ⟨⟨_, h⟩, -⟩ := h
      exact requireTargetOid_ok_iff.mpr (requireTargetOid_ok_iff.mp h)
  | dictionary key value keys values ih =>
    cases hvalid with
    | dictionary hkey htype hvalid =>
      cases hsolid with
      | dictionary hrow hsolid =>
        simp only [ArrowArray.dataType, validateArrowTypeForPgOid]
        simp [arrowValueToDatum, ArrowArray.isNull, hrow, bind_ok_iff] at h
        obtain ⟨valueIdx, hidx, h⟩ := h
        cases dictionaryKeyToUsize_ok hrow hidx
        split at h
        · cases h
        · exact htype ▸ ih hvalid hsolid h

/-- The check at the begin of a scan decides whether the values of a type are converted. -/
theorem validateArrowTypeForPgOid_decides
    (hjsonb : env.catalog.getElementType jsonbOid = invalidOid) (dt : DataType) (oid : Oid) :
    (validateArrowTypeForPgOid env.catalog dt oid = .ok () →
      ∀ array : ArrowArray, array.Valid → array.dataType = dt → ∀ row e,
        arrowValueToDatum env array row oid = .error e → e.AboutValue) ∧
    (∀ e, validateArrowTypeForPgOid env.catalog dt oid = .error e →
      ∀ array : ArrowArray, array.Valid → array.dataType = dt → ∀ row, array.Solid row →
        ∃ e', arrowValueToDatum env array row oid = .error e') := by
  constructor
  · intro h array hvalid htype row e he
    rw [← htype] at h
    exact arrowValueToDatum_fails env hjsonb hvalid h row e he
  · intro e h array hvalid htype row hsolid
    cases hconvert : arrowValueToDatum env array row oid with
    | error e' => exact ⟨e', rfl⟩
    | ok datum =>
      rw [← htype, arrowValueToDatum_ok env hvalid hsolid hconvert] at h
      cases h

def tagsCatalog : Catalog where
  getElementType oid := if oid = ⟨1007⟩ then int4Oid else invalidOid
  lookupTypeCache oid := if oid = ⟨90000⟩ then some [⟨"tags", ⟨1007⟩, false⟩] else none

def tagsField : Field := ⟨"tags", .list .list ⟨"item", .leaf .int32, true⟩, true⟩

def tagsArray : ArrowArray :=
  .struct [tagsField] [true]
    [.list .list ⟨"item", .leaf .int32, true⟩ [some (0, 1)] (.primitive .int32 [some (.int 7)])]

theorem validateArrowTypeForPgOid_decides_tags :
    (∀ e, arrowValueToDatum (.sample tagsCatalog) tagsArray 0 ⟨90000⟩ = .error e → e.AboutValue) ∧
    ∃ e, arrowValueToDatum (.sample tagsCatalog) tagsArray 0 textOid = .error e := by
  have hvalid : tagsArray.Valid := by
    refine .struct rfl ?_
    intro column hc
    rw [List.mem_singleton.mp hc]
    exact .list rfl (.primitive _ _)
  have hsolid : tagsArray.Solid 0 := by
    refine .struct rfl ?_
    intro column hc
    rw [List.mem_singleton.mp hc]
    refine .list rfl Nat.one_pos ?_
    intro i hi
    rw [Nat.lt_one_iff.mp hi]
    exact .primitive rfl
  exact ⟨(validateArrowTypeForPgOid_decides (.sample tagsCatalog) rfl (.struct [tagsField])
      ⟨90000⟩).1 rfl tagsArray hvalid rfl 0,
    (validateArrowTypeForPgOid_decides (.sample tagsCatalog) rfl (.struct [tagsField])
      textOid).2 _ rfl tagsArray hvalid rfl 0 hsolid⟩

end PgLance
