import PgLance.Fdw.JsonKeeps

/-! What the conversion makes of values that are encoded in different ways. -/

namespace PgLance

open Fallible

section

variable {env : ConvertEnv}

theorem requireTargetOid_bind_kind {β : Type} (oid expected : Oid) (message : String)
    (rest : Unit → Except ConvertError β) :
    (requireTargetOid oid expected message >>= rest).mapError ConvertError.kind =
      if oid = expected then (rest ()).mapError ConvertError.kind else .error .typeMismatch := by
  simp only [requireTargetOid]
  by_cases h : oid = expected
  · rw [if_neg (not_not.mpr h), if_pos h]
    rfl
  · rw [if_pos h, if_neg h]
    rfl

theorem mapError_map {α β ε δ : Type*} (g : ε → δ) (f : α → β) (r : Except ε α) :
    (r.map f).mapError g = (r.mapError g).map f := by
  cases r <;> rfl

theorem structColumnToDatum_decoded {columns : List ArrowArray} {row : Nat}
    (h : ∀ column ∈ columns, ∀ oid, (arrowValueToDatum env column row oid).mapError
      ConvertError.kind = (column.decoded env row).toDatum env oid)
    {fields : List Field} (name : String) (oid : Oid) :
    (structColumnToDatum env fields columns row name oid).mapError ConvertError.kind =
      Decoded.fieldToDatum env (fields.map FieldOf.name)
        (columns.map fun column => column.decoded env row) name oid := by
  induction columns generalizing fields with
  | nil => cases fields <;> rfl
  | cons column columns ih =>
    rw [List.forall_mem_cons] at h
    cases fields with
    | nil => rfl
    | cons f fields =>
      simp only [structColumnToDatum, List.map_cons, Decoded.fieldToDatum]
      split
      · exact h.1 oid
      · exact ih h.2

/-- The datum of a well-formed value, or the kind of its error, is that of what it holds. -/
theorem arrowValueToDatum_decoded {array : ArrowArray} (h : array.WellFormed) {row : Nat}
    (hrow : row < array.len) (oid : Oid) :
    (arrowValueToDatum env array row oid).mapError ConvertError.kind =
      (array.decoded env row).toDatum env oid := by
  induction array generalizing row oid with
  | primitive type cells =>
    rw [arrowValueToDatum, ArrowArray.decoded]
    split
    · rfl
    · have hcell : cells[row]? = [cells[row]?.join][0]? := by
        rw [List.getElem?_eq_getElem hrow]
        rfl
      rw [leafToDatum_congr hcell, Decoded.toDatum, mapError_map, mapError_map,
        leafToDatum_logical]
  | list kind elem slots values ih =>
    have hjson := arrowValueToJson_decoded env h hrow
    obtain ⟨hslots, hvalues⟩ := h.list_slots
    rw [ArrowArray.decoded] at hjson ⊢
    obtain hslot | ⟨start, n, hslot⟩ := slot_cases hrow
    · simp [hslot, arrowValueToDatum, ArrowArray.isNull, Decoded.toDatum, Except.mapError]
    · have hend := hslots start n (List.mem_of_getElem? hslot)
      have hnull : (ArrowArray.list kind elem slots values).isNull row = false := by
        simp [ArrowArray.isNull, hslot]
      simp only [hslot] at hjson ⊢
      rw [arrowValueToDatum, hnull, Decoded.toDatum, hjson]
      simp only [Bool.false_eq_true, if_false, listSlot, hslot]
      split
      · split <;> rfl
      · have hitems : ((List.range n).mapM fun i => arrowValueToDatum env values (start + i)
            (env.catalog.getElementType oid)).mapError ConvertError.kind =
            (List.range n).mapM fun i => (values.decoded env (start + i)).toDatum env
              (env.catalog.getElementType oid) := by
          rw [mapError_mapM]
          refine mapM_congr (List.forall₂_same.mpr fun i hi => ?_)
          exact ih hvalues (by rw [List.mem_range] at hi; omega) _
        rw [Decoded.itemsToDatum_eq, List.mapM_map]
        change ((List.range n).mapM (fun i => arrowValueToDatum env values (start + i)
          (env.catalog.getElementType oid)) >>= fun datums => pure
            (some (Datum.array (env.catalog.getElementType oid) datums))).mapError _ = _
        rw [mapError_bind, hitems]
        rfl
  | struct fields validity columns ih =>
    obtain ⟨htypes, hlengths, hcolumns⟩ := h.struct_columns
    have hvalid : validity[row]? = some validity[row] := List.getElem?_eq_getElem hrow
    simp only [arrowValueToDatum, ArrowArray.isNull, ArrowArray.decoded, hvalid]
    cases validity[row] with
    | false => rfl
    | true =>
      simp only [if_true, Decoded.toDatum]
      rw [if_neg (by decide)]
      cases env.catalog.lookupTypeCache oid with
      | none => rfl
      | some attrs =>
        have hvalues : Except.mapError ConvertError.kind (attrs.mapM fun attr =>
            if attr.attisdropped then .ok none
            else structColumnToDatum env fields columns row attr.attname attr.atttypid) =
            attrs.mapM fun attr => if attr.attisdropped then .ok none
              else Decoded.fieldToDatum env (fields.map FieldOf.name)
                (ArrowArray.decodedColumns env columns row) attr.attname attr.atttypid := by
          rw [mapError_mapM]
          refine mapM_congr (List.forall₂_same.mpr fun attr _ => ?_)
          rw [ArrowArray.decodedColumns_eq, ← structColumnToDatum_decoded fun column hc oid =>
            ih column hc (hcolumns column hc) (by rw [hlengths column hc]; exact hrow) oid]
          split <;> rfl
        refine (mapError_bind _ _ _).trans ?_
        rw [hvalues]
        rfl
  | map entries sorted slots values ih =>
    have hjson := arrowValueToJson_decoded env h hrow
    rw [ArrowArray.decoded] at hjson ⊢
    obtain hslot | ⟨start, n, hslot⟩ := slot_cases hrow
    · simp [hslot, arrowValueToDatum, ArrowArray.isNull, Decoded.toDatum, Except.mapError]
    · have hnull : (ArrowArray.map entries sorted slots values).isNull row = false := by
        simp [ArrowArray.isNull, hslot]
      simp only [hslot] at hjson ⊢
      rw [arrowValueToDatum, hnull, Decoded.toDatum, hjson]
      simp only [Bool.false_eq_true, if_false, requireTargetOid_bind_kind]
      rfl
  | dictionary key value keys values ih =>
    obtain ⟨hkey, hkeys, hvalues⟩ := h.dictionary_keys
    have hentry : keys[row]? = some keys[row] := List.getElem?_eq_getElem hrow
    cases hcase : keys[row] with
    | none => simp [hentry, hcase, arrowValueToDatum, ArrowArray.isNull, ArrowArray.decoded,
        Decoded.toDatum, Except.mapError]
    | some k =>
      rw [hcase] at hentry
      obtain ⟨hk, hlt⟩ := hkeys k (List.mem_of_getElem? hentry)
      have hlt : k.toNat < values.len := by omega
      simp [hentry, arrowValueToDatum, ArrowArray.isNull, ArrowArray.decoded,
        dictionaryKeyToUsize_key hkey hentry hk, not_le.mpr hlt, ih hvalues hlt, Bind.bind,
        Except.bind]

theorem LeafType.hasJson_of_no_buffer {type : LeafType} (h : type.hasNullBuffer = false) :
    type.hasJson = false := by
  cases type <;> first | rfl | cases h

end

namespace Decoded

/-- A struct has a name for each item, and only types without a null buffer leaves without a
value. -/
inductive Sound : Decoded → Prop
  | null : Sound .null
  | leaf {type : LeafType} {cell : Option Scalar} :
    (cell = none → type.hasNullBuffer = false) → Sound (.leaf type cell)
  | list {items : List Decoded} : (∀ x ∈ items, Sound x) → Sound (.list items)
  | struct {names : List String} {items : List Decoded} : items.length = names.length →
    (∀ x ∈ items, Sound x) → Sound (.struct names items)
  | map {text : String} {entries : List Decoded} : Sound (.map text entries)

inductive DistinctNames : Decoded → Prop
  | null : DistinctNames .null
  | leaf {type : LeafType} {cell : Option Scalar} : DistinctNames (.leaf type cell)
  | list {items : List Decoded} : (∀ x ∈ items, DistinctNames x) → DistinctNames (.list items)
  | struct {names : List String} {items : List Decoded} : names.Nodup →
    (∀ x ∈ items, DistinctNames x) → DistinctNames (.struct names items)
  | map {text : String} {entries : List Decoded} : DistinctNames (.map text entries)

variable {env : ConvertEnv}

theorem sound (env : ConvertEnv) {array : ArrowArray} (h : array.WellFormed) {row : Nat} (hrow : row < array.len) :
    (array.decoded env row).Sound := by
  induction array generalizing row with
  | primitive type cells =>
    rw [ArrowArray.decoded]
    split
    · exact .null
    · rename_i hnull
      refine .leaf fun hnone => ?_
      have hcell : cells[row]? = some cells[row]?.join := by
        rw [List.getElem?_eq_getElem hrow]
        rfl
      have hbuffer : type.logical.hasNullBuffer = type.hasNullBuffer := by cases type <;> rfl
      rw [hnone] at hcell
      simpa [hbuffer, ArrowArray.isNull, hcell] using hnull
  | list kind elem slots values ih =>
    obtain hdecoded | ⟨start, n, hn, hdecoded⟩ := decoded_list env h hrow
    · exact hdecoded ▸ .null
    · rw [hdecoded]
      refine .list fun x hx => ?_
      obtain ⟨k, hk, rfl⟩ := List.mem_map.mp hx
      rw [List.mem_range] at hk
      exact ih h.list_slots.2 (by omega)
  | struct fields validity columns ih =>
    obtain ⟨htypes, hlengths, hcolumns⟩ := h.struct_columns
    simp only [ArrowArray.decoded, ArrowArray.decodedColumns_eq]
    split
    · refine .struct (by simpa using congrArg List.length htypes) fun x hx => ?_
      obtain ⟨column, hc, rfl⟩ := List.mem_map.mp hx
      exact ih column hc (hcolumns column hc) (by rw [hlengths column hc]; exact hrow)
    · exact .null
  | map entries sorted slots values =>
    simp only [ArrowArray.decoded]
    split
    · exact .map
    · exact .null
  | dictionary key value keys values ih =>
    obtain hdecoded | ⟨k, hk, hdecoded⟩ := decoded_dictionary env h hrow
    · exact hdecoded ▸ .null
    · exact hdecoded ▸ ih h.dictionary_keys.2.2 hk

theorem toDatum_leaf_none {type : LeafType} (h : type.hasNullBuffer = false) (oid : Oid) :
    toDatum env (.leaf type none) oid =
      toDatum env (.map (env.debugDataType (.leaf type)) []) oid := by
  cases type with
  | null | union | runEndEncoded =>
    rw [toDatum, toDatum]
    simp only [leafToDatum, mapError_map, requireTargetOid_bind_kind]
    split <;> rfl
  | _ => cases h

theorem fieldToDatum_congr {xs ys : List Decoded}
    (h : List.Forall₂ (fun x y => ∀ oid, toDatum env x oid = toDatum env y oid) xs ys)
    (names : List String) (attname : String) (oid : Oid) :
    fieldToDatum env names xs attname oid = fieldToDatum env names ys attname oid := by
  induction h generalizing names with
  | nil => rfl
  | cons hxy _ ih =>
    cases names with
    | nil => rfl
    | cons name names => rw [fieldToDatum, fieldToDatum, hxy, ih]

theorem shown_leaf_none {type : LeafType} (h : type.hasNullBuffer = false) :
    (leaf type none).shown env = .map (env.debugDataType (.leaf type)) [] := by
  rw [shown, LeafType.hasJson_of_no_buffer h]
  rfl

theorem Sound.no_buffer {type : LeafType} (h : (Decoded.leaf type none).Sound) :
    type.hasNullBuffer = false := by
  cases h with
  | leaf h => exact h rfl

theorem Sound.list_items {items : List Decoded} (h : (Decoded.list items).Sound) :
    ∀ x ∈ items, x.Sound := by
  cases h
  assumption

theorem Sound.struct_items {names : List String} {items : List Decoded}
    (h : (Decoded.struct names items).Sound) : items.length = names.length ∧ ∀ x ∈ items, x.Sound := by
  cases h
  exact ⟨‹_›, ‹_›⟩

theorem DistinctNames.list_items {items : List Decoded} (h : (Decoded.list items).DistinctNames) :
    ∀ x ∈ items, x.DistinctNames := by
  cases h
  assumption

theorem DistinctNames.struct_items {names : List String} {items : List Decoded}
    (h : (Decoded.struct names items).DistinctNames) : names.Nodup ∧ ∀ x ∈ items, x.DistinctNames := by
  cases h
  exact ⟨‹_›, ‹_›⟩

theorem text_of_json {text text' : String} {entries entries' : List Decoded}
    (h : toJson env (.map text entries) = toJson env (.map text' entries')) : text = text' := by
  rw [toJson, toJson, Json.string.injEq] at h
  simpa using h

theorem toDatum_congr {x y : Decoded} (hx : x.Sound) (hy : y.Sound)
    (hlogical : x.logical = y.logical) (hshown : x.shown env = y.shown env) (oid : Oid) :
    x.toDatum env oid = y.toDatum env oid := by
  have hjson : x.toJson env = y.toJson env := by rw [← toJson_shown, hshown, toJson_shown]
  induction x generalizing y oid with
  | null =>
    cases y with
    | null => rfl
    | leaf type cell =>
      cases cell with
      | some s => cases hlogical
      | none =>
        rw [shown_leaf_none hy.no_buffer] at hshown
        cases hshown
    | _ => cases hlogical
  | leaf type cell =>
    cases cell with
    | some s =>
      cases y with
      | leaf type' cell' =>
        cases cell' with
        | some t =>
          cases hlogical
          rfl
        | none => cases hlogical
      | _ => cases hlogical
    | none =>
      rw [shown_leaf_none hx.no_buffer] at hshown
      cases y with
      | null => cases hshown
      | leaf type' cell' =>
        cases cell' with
        | some t => cases hlogical
        | none =>
          rw [shown_leaf_none hy.no_buffer] at hshown
          rw [toDatum_leaf_none hx.no_buffer, toDatum_leaf_none hy.no_buffer, hshown]
      | _ => cases hlogical
  | list items ih =>
    cases y with
    | list items' =>
      simp only [logical, logicalItems_eq, list.injEq] at hlogical
      simp only [shown, shownItems_eq, list.injEq] at hshown
      have hitems : List.Forall₂ (fun x y => ∀ oid, toDatum env x oid = toDatum env y oid) items
          items' :=
        forall₂_of_map hlogical hshown fun x hx' y hy' hlogical hshown oid =>
          ih x hx' (hx.list_items x hx') (hy.list_items y hy') hlogical hshown oid (by
            rw [← toJson_shown, hshown, toJson_shown])
      rw [toDatum, toDatum, hjson, itemsToDatum_eq, itemsToDatum_eq,
        mapM_congr (hitems.imp fun x y h => h (env.catalog.getElementType oid))]
    | leaf type cell => cases cell <;> cases hlogical
    | _ => cases hlogical
  | struct names items ih =>
    cases y with
    | struct names' items' =>
      simp only [logical, logicalItems_eq, struct.injEq] at hlogical
      simp only [shown, shownItems_eq, struct.injEq] at hshown
      obtain ⟨rfl, hlogical⟩ := hlogical
      have hitems : List.Forall₂ (fun x y => ∀ oid, toDatum env x oid = toDatum env y oid) items
          items' :=
        forall₂_of_map hlogical hshown.2 fun x hx' y hy' hlogical hshown oid =>
          ih x hx' (hx.struct_items.2 x hx') (hy.struct_items.2 y hy') hlogical hshown oid (by
            rw [← toJson_shown, hshown, toJson_shown])
      rw [toDatum, toDatum]
      simp only [fieldToDatum_congr hitems]
    | leaf type cell => cases cell <;> cases hlogical
    | _ => cases hlogical
  | map text entries =>
    cases y with
    | map text' entries' =>
      cases hshown
      rfl
    | leaf type cell => cases cell <;> cases hlogical
    | _ => cases hlogical

theorem shown_of_logical {x y : Decoded} (hx : x.Sound) (hy : y.Sound) (hnames : x.DistinctNames)
    (hlogical : x.logical = y.logical) (hjson : x.toJson env = y.toJson env) :
    x.shown env = y.shown env := by
  induction x generalizing y with
  | null =>
    cases y with
    | null => rfl
    | leaf type cell =>
      cases cell with
      | some s => cases hlogical
      | none =>
        rw [← toJson_shown (.leaf type none), shown_leaf_none hy.no_buffer] at hjson
        cases hjson
    | _ => cases hlogical
  | leaf type cell =>
    cases cell with
    | some s =>
      cases y with
      | leaf type' cell' =>
        cases cell' with
        | some t =>
          cases hlogical
          rfl
        | none => cases hlogical
      | _ => cases hlogical
    | none =>
      rw [← toJson_shown (.leaf type none), shown_leaf_none hx.no_buffer] at hjson
      rw [shown_leaf_none hx.no_buffer]
      cases y with
      | null => cases hjson
      | leaf type' cell' =>
        cases cell' with
        | some t => cases hlogical
        | none =>
          rw [← toJson_shown (.leaf type' none), shown_leaf_none hy.no_buffer] at hjson
          rw [shown_leaf_none hy.no_buffer, text_of_json hjson]
      | _ => cases hlogical
  | list items ih =>
    cases y with
    | list items' =>
      simp only [logical, logicalItems_eq, list.injEq] at hlogical
      simp only [toJson, itemsToJson_eq, Json.array.injEq] at hjson
      simp only [shown, shownItems_eq, list.injEq]
      refine map_shown_of_json (forall₂_of_map hlogical hjson fun x hx' y hy' hlogical _ => ?_) hjson
      exact ih x hx' (hx.list_items x hx') (hy.list_items y hy') (hnames.list_items x hx') hlogical
    | leaf type cell => cases cell <;> cases hlogical
    | _ => cases hlogical
  | struct names items ih =>
    cases y with
    | struct names' items' =>
      simp only [logical, logicalItems_eq, struct.injEq] at hlogical
      obtain ⟨rfl, hlogical⟩ := hlogical
      obtain ⟨hnodup, hnames⟩ := hnames.struct_items
      simp only [toJson, itemsToJson_eq, Json.object.injEq] at hjson
      have hitems := items_of_object hnodup (by simpa using hx.struct_items.1)
        (by simpa using hy.struct_items.1) hjson
      simp only [shown, shownItems_eq, struct.injEq, true_and]
      refine map_shown_of_json (forall₂_of_map hlogical hitems fun x hx' y hy' hlogical _ => ?_)
        hitems
      exact ih x hx' (hx.struct_items.2 x hx') (hy.struct_items.2 y hy') (hnames x hx') hlogical
    | leaf type cell => cases cell <;> cases hlogical
    | _ => cases hlogical
  | map text entries =>
    cases y with
    | map text' entries' => rw [shown, shown, text_of_json hjson]
    | leaf type cell => cases cell <;> cases hlogical
    | _ => cases hlogical

end Decoded

def LogicallyEqual (env : ConvertEnv) (a : ArrowArray) (i : Nat) (b : ArrowArray) (j : Nat) : Prop :=
  (a.decoded env i).logical = (b.decoded env j).logical

/-- They are converted to the same datum for each type, or fail with the same kind of error, and to
the same JSON. -/
def SameResults (env : ConvertEnv) (a : ArrowArray) (i : Nat) (b : ArrowArray) (j : Nat) : Prop :=
  (∀ oid, (arrowValueToDatum env a i oid).mapError ConvertError.kind =
    (arrowValueToDatum env b j oid).mapError ConvertError.kind) ∧
  arrowValueToJson env a i = arrowValueToJson env b j

/-- The conversion of values that are the same is the same if the texts that stand for their maps
are, and, where fields have distinct names, only then. -/
theorem sameResults_iff_shown_eq (env : ConvertEnv) {a b : ArrowArray} (ha : a.WellFormed)
    (hb : b.WellFormed) {i j : Nat} (hi : i < a.len) (hj : j < b.len)
    (h : LogicallyEqual env a i b j) :
    ((a.decoded env i).shown env = (b.decoded env j).shown env → SameResults env a i b j) ∧
    ((a.decoded env i).DistinctNames →
      (SameResults env a i b j ↔ (a.decoded env i).shown env = (b.decoded env j).shown env)) := by
  have hx := Decoded.sound env ha hi
  have hy := Decoded.sound env hb hj
  have hsame : (a.decoded env i).shown env = (b.decoded env j).shown env →
      SameResults env a i b j := by
    intro hshown
    refine ⟨fun oid => ?_, ?_⟩
    · rw [arrowValueToDatum_decoded ha hi, arrowValueToDatum_decoded hb hj]
      exact Decoded.toDatum_congr hx hy h hshown oid
    · rw [arrowValueToJson_decoded env ha hi, arrowValueToJson_decoded env hb hj, ← Decoded.toJson_shown,
        hshown, Decoded.toJson_shown]
  refine ⟨hsame, fun hnames => ⟨fun hresults => ?_, hsame⟩⟩
  have hjson := hresults.2
  rw [arrowValueToJson_decoded env ha hi, arrowValueToJson_decoded env hb hj, Except.ok.injEq] at hjson
  exact Decoded.shown_of_logical hx hy hnames h hjson

/-- The `Debug` text of a field, without the name `item` and the flag of one that is not nullable. -/
def debugField (name dataType : String) (nullable : Bool) : String :=
  "Field \x7b " ++ (if name = "item" then "" else "name: \"" ++ name ++ "\", ") ++
    "data_type: " ++ dataType ++ (if nullable then ", nullable: true" else "") ++ " \x7d"

def debugLeaf : LeafType → String
  | .utf8 => "Utf8"
  | .largeUtf8 => "LargeUtf8"
  | .int32 => "Int32"
  | type => reprStr type

def debugCall (name argument : String) : String :=
  name ++ "(" ++ argument ++ ")"

def debugPair (first second : String) : String :=
  first ++ ", " ++ second

mutual
def debugText : DataType → String
  | .leaf type => debugLeaf type
  | .list .list ⟨name, elem, nullable⟩ =>
    debugCall "List" (debugField name (debugText elem) nullable)
  | .list .largeList ⟨name, elem, nullable⟩ =>
    debugCall "LargeList" (debugField name (debugText elem) nullable)
  | .list (.fixedSizeList size) ⟨name, elem, nullable⟩ =>
    debugCall "FixedSizeList"
      (debugPair (debugField name (debugText elem) nullable) (toString size))
  | .struct fields => debugCall "Struct" ("[" ++ debugFields fields ++ "]")
  | .map ⟨name, entries, nullable⟩ sorted =>
    debugCall "Map" (debugPair (debugField name (debugText entries) nullable) (toString sorted))
  | .dictionary key value => debugCall "Dictionary" (debugPair (debugText key) (debugText value))
termination_by structural dt => dt

def debugFields : List Field → String
  | [] => ""
  | [⟨name, dt, nullable⟩] => debugField name (debugText dt) nullable
  | ⟨name, dt, nullable⟩ :: fields =>
    debugPair (debugField name (debugText dt) nullable) (debugFields fields)
termination_by structural fields => fields
end

def debugEnv : ConvertEnv := { plainEnv with debugDataType := debugText }

def wordsDictionary : ArrowArray :=
  .dictionary (.leaf .int8) (.leaf .utf8) [some 1, none]
    (.primitive .utf8 [some (.utf8 "a"), some (.utf8 "b")])

theorem wordsDictionary_wellFormed : wordsDictionary.WellFormed :=
  .dictionary rfl rfl (by simp [ArrowArray.len])
    (.primitive (by simp [LeafType.admits, LeafType.logical]))

/-- A dictionary and its decoded form with wide offsets. -/
theorem sameResults_iff_shown_eq_words :
    SameResults debugEnv wordsDictionary 0 (.primitive .largeUtf8 [some (.utf8 "b")]) 0 :=
  have h : (ArrowArray.primitive .largeUtf8 [some (.utf8 "b")]).WellFormed :=
    .primitive (by simp [LeafType.admits, LeafType.logical])
  (sameResults_iff_shown_eq debugEnv wordsDictionary_wellFormed h (i := 0) (j := 0) (by decide)
    (by decide) rfl).1 rfl

def wordMap (key : LeafType) : ArrowArray :=
  .map ⟨"entries", .struct [⟨"key", .leaf key, false⟩, ⟨"value", .leaf .int32, true⟩], false⟩ false
    [some (0, 1)]
    (.struct [⟨"key", .leaf key, false⟩, ⟨"value", .leaf .int32, true⟩] [true]
      [.primitive key [some (.utf8 "a")], .primitive .int32 [some (.int 1)]])

theorem wordMap_wellFormed {key : LeafType} (h : key.logical = .utf8) : (wordMap key).WellFormed := by
  refine .map rfl (by simp [ArrowArray.len]) (.struct rfl (by simp [ArrowArray.len]) ?_)
  rw [List.forall_mem_cons, List.forall_mem_singleton]
  exact ⟨.primitive (by simp [LeafType.admits, h]),
    .primitive (by simp [LeafType.admits, LeafType.range])⟩

theorem decoded_wordMap (env : ConvertEnv) (key : LeafType) :
    (wordMap key).decoded env 0 = .map (env.debugDataType (wordMap key).dataType)
      [.struct ["key", "value"]
        [.leaf key.logical (some (.utf8 "a")), .leaf .int32 (some (.int 1))]] := by
  cases key <;> rfl

theorem debugText_wordMap_ne :
    debugText (wordMap .utf8).dataType ≠ debugText (wordMap .largeUtf8).dataType := by
  intro h
  have hentries : "entries" ≠ "item" := by decide
  have hkey : "key" ≠ "item" := by decide
  have hvalue : "value" ≠ "item" := by decide
  have hwide : "LargeUtf8".length = "Utf8".length + 5 := by decide
  have hlength := congrArg String.length h
  simp only [wordMap, ArrowArray.dataType] at hlength
  simp only [debugText, debugLeaf, debugFields] at hlength
  simp only [debugCall, debugPair, debugField, if_neg hentries, if_neg hkey, if_neg hvalue]
    at hlength
  simp only [String.length_append, -String.reduceAppend] at hlength
  omega

/-- The texts of a map type with narrow and of one with wide offsets differ. -/
theorem sameResults_differs_for_maps :
    (wordMap .utf8).WellFormed ∧ (wordMap .largeUtf8).WellFormed ∧
      LogicallyEqual debugEnv (wordMap .utf8) 0 (wordMap .largeUtf8) 0 ∧
      ¬ SameResults debugEnv (wordMap .utf8) 0 (wordMap .largeUtf8) 0 := by
  refine ⟨wordMap_wellFormed rfl, wordMap_wellFormed rfl, ?_, ?_⟩
  · rw [LogicallyEqual, decoded_wordMap, decoded_wordMap, Decoded.logical, Decoded.logical]
    rfl
  · rintro ⟨-, hjson⟩
    rw [arrowValueToJson_decoded debugEnv (wordMap_wellFormed rfl) (by decide),
      arrowValueToJson_decoded debugEnv (wordMap_wellFormed rfl) (by decide), Except.ok.injEq,
      decoded_wordMap, decoded_wordMap] at hjson
    exact debugText_wordMap_ne (Decoded.text_of_json hjson)

end PgLance
