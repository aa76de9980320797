import PgLance.Fdw.JsonLaws

/-! Which values have different JSON. -/

namespace PgLance

open Fallible Lookup

/-- Booleans, integers, strings, binaries, decimals, dates and timestamps. -/
def LeafType.covered : LeafType → Bool
  | .boolean | .utf8 | .largeUtf8 | .binary | .largeBinary | .fixedSizeBinary _
  | .decimal32 _ _ | .decimal64 _ _ | .decimal128 _ _ | .decimal256 _ _
  | .date32 | .date64 | .timestamp _ _ => true
  | type => type.isInteger

inductive DataType.Covered : DataType → Prop
  | leaf {type : LeafType} : type.covered = true → Covered (.leaf type)
  | list {kind : ListKind} {elem : Field} : Covered elem.dataType → Covered (.list kind elem)
  | struct {fields : List Field} : (fields.map FieldOf.name).Nodup →
    (∀ f ∈ fields, Covered f.dataType) → Covered (.struct fields)
  | map {entries : Field} {sorted : Bool} : Covered entries.dataType →
    Covered (.map entries sorted)
  | dictionary {key value : DataType} : Covered value → Covered (.dictionary key value)

/-- Different bytes have different base64, and different decimals of a type different digits. -/
structure ConvertEnv.Exact (env : ConvertEnv) : Prop where
  base64 : Function.Injective env.base64Encode
  decimal : ∀ precision scale v w,
    (LeafType.decimal128 precision scale).admits (.int v) = true →
    (LeafType.decimal128 precision scale).admits (.int w) = true →
    env.valueAsString precision scale v = env.valueAsString precision scale w → v = w

namespace Decoded

variable {env : ConvertEnv}

theorem toJson_text {type : LeafType} (h : type.hasJson = false) (cell : Option Scalar) :
    toJson env (.leaf type cell) =
      .string ("<unsupported_type: " ++ env.debugDataType (.leaf type) ++ ">") := by
  cases type <;> first | rfl | cases h

theorem toJson_shown (x : Decoded) : (x.shown env).toJson env = x.toJson env := by
  induction x with
  | null | map => rfl
  | leaf type cell =>
    rw [shown]
    split
    · rfl
    · rename_i harm
      rw [toJson_text (by simpa using harm)]
      rfl
  | list items ih =>
    have hitems : items.map (toJson env ∘ shown env) = items.map (toJson env) := List.map_congr_left ih
    simp only [shown, shownItems_eq, toJson, itemsToJson_eq, List.map_map, hitems]
  | struct names items ih =>
    have hitems : items.map (toJson env ∘ shown env) = items.map (toJson env) := List.map_congr_left ih
    simp only [shown, shownItems_eq, toJson, itemsToJson_eq, List.map_map, hitems]

theorem map_shown_of_json {xs ys : List Decoded}
    (h : List.Forall₂ (fun x y => toJson env x = toJson env y → x.shown env = y.shown env) xs ys)
    (hjson : xs.map (toJson env) = ys.map (toJson env)) : xs.map (shown env) = ys.map (shown env) := by
  induction h with
  | nil => rfl
  | cons hxy _ ih =>
    rw [List.map_cons, List.map_cons, List.cons.injEq] at hjson
    rw [List.map_cons, List.map_cons, hxy hjson.1, ih hjson.2]

theorem items_of_object {names : List String} (hnodup : names.Nodup) {xs ys : List Json}
    (hxs : xs.length = names.length) (hys : ys.length = names.length)
    (h : (names.zip xs).foldl (fun entries (name, json) => jsonInsert name json entries) [] =
      (names.zip ys).foldl (fun entries (name, json) => jsonInsert name json entries) []) :
    xs = ys := by
  have hlookup : ∀ {zs : List Json}, zs.length = names.length → ∀ k (hk : k < zs.length)
      (hk' : k < names.length), ((names.zip zs).foldl
        (fun entries (name, json) => jsonInsert name json entries) []).lookup names[k] =
          some zs[k] := by
    intro zs hzs k hk hk'
    rw [lookup_foldl_jsonInsert, List.append_nil]
    apply lookup_of_mem
    · rw [List.map_reverse, List.nodup_reverse, List.map_fst_zip hzs.ge]
      exact hnodup
    · rw [List.mem_reverse, List.mem_iff_getElem]
      exact ⟨k, by simp [hk, hk'], by simp⟩
  apply List.ext_getElem (hxs.trans hys.symm)
  intro k hx hy
  have hk : k < names.length := hxs ▸ hx
  have hxk := hlookup hxs k hx hk
  rw [h, hlookup hys k hy hk] at hxk
  exact (Option.some.inj hxk).symm

end Decoded

section

variable {env : ConvertEnv}

theorem LeafType.admits_int {type : LeafType} (h : type.range.isSome = true) {s : Scalar}
    (hs : type.admits s = true) : ∃ i, s = .int i := by
  cases s with
  | int i => exact ⟨i, rfl⟩
  | _ => cases type <;> first | cases h; done | cases hs

theorem LeafType.admits_utf8 {type : LeafType} (h : type.logical = .utf8) {s : Scalar}
    (hs : type.admits s = true) : ∃ text, s = .utf8 text := by
  cases s with
  | utf8 text => exact ⟨text, rfl⟩
  | _ => cases type <;> first | cases h; done | cases hs

theorem LeafType.admits_binary {type : LeafType} (h : type.logical = .binary) {s : Scalar}
    (hs : type.admits s = true) : ∃ bytes, s = .binary bytes := by
  cases s with
  | binary bytes => exact ⟨bytes, rfl⟩
  | _ => cases type <;> first | cases h; done | cases hs

theorem leaf_shown_of_json (he : env.Exact) {type : LeafType} (hcovered : type.covered = true)
    {s t : Scalar} (hs : type.admits s = true) (ht : type.admits t = true)
    (h : Decoded.toJson env (.leaf type.logical (some s)) =
      Decoded.toJson env (.leaf type.logical (some t))) :
    (Decoded.leaf type.logical (some s)).shown env =
      (Decoded.leaf type.logical (some t)).shown env := by
  cases type with
  | boolean =>
    cases s <;> cases hs
    cases t <;> cases ht
    cases h
    rfl
  | utf8 | largeUtf8 =>
    obtain ⟨text, rfl⟩ := LeafType.admits_utf8 rfl hs
    obtain ⟨text', rfl⟩ := LeafType.admits_utf8 rfl ht
    cases h
    rfl
  | binary | largeBinary | fixedSizeBinary =>
    obtain ⟨bytes, rfl⟩ := LeafType.admits_binary rfl hs
    obtain ⟨bytes', rfl⟩ := LeafType.admits_binary rfl ht
    have hbytes : env.base64Encode bytes = env.base64Encode bytes' := Json.string.inj h
    rw [he.base64 hbytes]
  | decimal128 precision scale | decimal256 precision scale =>
    obtain ⟨v, rfl⟩ := LeafType.admits_int rfl hs
    obtain ⟨w, rfl⟩ := LeafType.admits_int rfl ht
    have hdigits : env.valueAsString precision scale v = env.valueAsString precision scale w :=
      Json.string.inj h
    rw [he.decimal precision scale v w hs ht hdigits]
  | int8 | int16 | int32 | int64 | uint8 | uint16 | uint32 =>
    obtain ⟨v, rfl⟩ := LeafType.admits_int rfl hs
    obtain ⟨w, rfl⟩ := LeafType.admits_int rfl ht
    cases h
    rfl
  | uint64 =>
    obtain ⟨v, rfl⟩ := LeafType.admits_int rfl hs
    obtain ⟨w, rfl⟩ := LeafType.admits_int rfl ht
    have hwrap : i64Wrap v = i64Wrap w := by
      have hnumber := Json.number.inj h
      exact JsonNumber.int.inj hnumber
    simp only [LeafType.admits, LeafType.range, decide_eq_true_eq] at hs ht
    have hvw : v = w := by
      simp only [i64Wrap, Int.bmod_def] at hwrap
      split at hwrap <;> split at hwrap <;> omega
    rw [hvw]
  | date32 | date64 | timestamp | decimal32 | decimal64 => rfl
  | _ => cases hcovered

theorem leaf_toJson_ne_null {type : LeafType} (hcovered : type.covered = true) {s : Scalar}
    (hs : type.admits s = true) :
    Decoded.toJson env (.leaf type.logical (some s)) ≠ .null := by
  intro h
  cases type with
  | boolean =>
    cases s <;> cases hs
    cases h
  | utf8 | largeUtf8 =>
    obtain ⟨text, rfl⟩ := LeafType.admits_utf8 rfl hs
    cases h
  | binary | largeBinary | fixedSizeBinary =>
    obtain ⟨bytes, rfl⟩ := LeafType.admits_binary rfl hs
    cases h
  | decimal128 | decimal256 | int8 | int16 | int32 | int64 | uint8 | uint16 | uint32 | uint64 =>
    obtain ⟨v, rfl⟩ := LeafType.admits_int rfl hs
    cases h
  | date32 | date64 | timestamp | decimal32 | decimal64 => cases h
  | _ => cases hcovered

theorem LeafType.hasNullBuffer_of_covered {type : LeafType} (h : type.covered = true) :
    type.hasNullBuffer = true := by
  cases type <;> first | rfl | cases h

theorem decoded_primitive (env : ConvertEnv) {type : LeafType} {cells : List (Option Scalar)}
    (hcovered : type.covered = true) (h : (ArrowArray.primitive type cells).WellFormed) {row : Nat}
    (hrow : row < cells.length) :
    (ArrowArray.primitive type cells).decoded env row = .null ∨
      ∃ s, type.admits s = true ∧
        (ArrowArray.primitive type cells).decoded env row = .leaf type.logical (some s) := by
  have hcell : cells[row]? = some cells[row] := List.getElem?_eq_getElem hrow
  have hbuffer := LeafType.hasNullBuffer_of_covered hcovered
  rw [ArrowArray.decoded, ArrowArray.isNull, hbuffer, hcell]
  cases hcase : cells[row] with
  | none => exact .inl rfl
  | some s =>
    rw [hcase] at hcell
    exact .inr ⟨s, h.cells_admit s (List.mem_of_getElem? hcell), rfl⟩

theorem decoded_dictionary (env : ConvertEnv) {key value : DataType} {keys : List (Option Int)} {values : ArrowArray}
    (h : (ArrowArray.dictionary key value keys values).WellFormed) {row : Nat}
    (hrow : row < keys.length) :
    (ArrowArray.dictionary key value keys values).decoded env row = .null ∨
      ∃ k < values.len,
        (ArrowArray.dictionary key value keys values).decoded env row = values.decoded env k := by
  have hkey : keys[row]? = some keys[row] := List.getElem?_eq_getElem hrow
  rw [ArrowArray.decoded, hkey]
  cases hcase : keys[row] with
  | none => exact .inl rfl
  | some k =>
    rw [hcase] at hkey
    obtain ⟨hmin, hmax⟩ := h.dictionary_keys.2.1 k (List.mem_of_getElem? hkey)
    exact .inr ⟨k.toNat, by omega, rfl⟩

theorem decoded_list (env : ConvertEnv) {kind : ListKind} {elem : Field} {slots : List Slot} {values : ArrowArray}
    (h : (ArrowArray.list kind elem slots values).WellFormed) {row : Nat}
    (hrow : row < slots.length) :
    (ArrowArray.list kind elem slots values).decoded env row = .null ∨
      ∃ start n, start + n ≤ values.len ∧
        (ArrowArray.list kind elem slots values).decoded env row =
          .list ((List.range n).map fun i => values.decoded env (start + i)) := by
  rw [ArrowArray.decoded]
  obtain hslot | ⟨start, n, hslot⟩ := slot_cases hrow
  · exact .inl (by rw [hslot])
  · exact .inr ⟨start, n, h.list_slots.1 start n (List.mem_of_getElem? hslot), by rw [hslot]⟩

theorem DataType.Covered.dictionary_value {key value : DataType}
    (h : (DataType.dictionary key value).Covered) : value.Covered := by
  cases h
  assumption

theorem DataType.Covered.list_elem {kind : ListKind} {elem : Field}
    (h : (DataType.list kind elem).Covered) : elem.dataType.Covered := by
  cases h
  assumption

theorem DataType.Covered.struct_fields {fields : List Field} (h : (DataType.struct fields).Covered) :
    (fields.map FieldOf.name).Nodup ∧ ∀ f ∈ fields, f.dataType.Covered := by
  cases h
  exact ⟨‹_›, ‹_›⟩

theorem decoded_of_json_null {array : ArrowArray} (h : array.WellFormed)
    (hcovered : array.dataType.Covered) {row : Nat} (hrow : row < array.len)
    (hnull : (array.decoded env row).toJson env = .null) : array.decoded env row = .null := by
  induction array generalizing row with
  | primitive type cells =>
    obtain ⟨hcovered⟩ := hcovered
    obtain hdecoded | ⟨s, hs, hdecoded⟩ := decoded_primitive env hcovered h hrow
    · exact hdecoded
    · rw [hdecoded] at hnull
      exact absurd hnull (leaf_toJson_ne_null hcovered hs)
  | list kind elem slots values | map entries sorted slots values =>
    simp only [ArrowArray.decoded] at hnull ⊢
    split at hnull
    · cases hnull
    · rfl
  | struct fields validity columns =>
    simp only [ArrowArray.decoded] at hnull ⊢
    split at hnull
    · cases hnull
    · rename_i hvalid
      exact if_neg hvalid
  | dictionary key value keys values ih =>
    obtain ⟨_, hkeys, hvalues⟩ := h.dictionary_keys
    obtain hdecoded | ⟨k, hk, hdecoded⟩ := decoded_dictionary env h hrow
    · exact hdecoded
    · rw [hdecoded] at hnull ⊢
      exact ih hvalues (by rw [h.dictionary_dataType]; exact hcovered.dictionary_value) hk hnull

theorem shown_of_json (he : env.Exact) {a b : ArrowArray} (ha : a.WellFormed) (hb : b.WellFormed)
    (htype : a.dataType = b.dataType) (hcovered : a.dataType.Covered) {i j : Nat} (hi : i < a.len)
    (hj : j < b.len)
    (h : (a.decoded env i).toJson env = (b.decoded env j).toJson env) :
    (a.decoded env i).shown env = (b.decoded env j).shown env := by
  induction a generalizing b i j with
  | primitive type cells =>
    cases b with
    | primitive type' cells' =>
      cases htype
      obtain ⟨hleaf⟩ := hcovered
      obtain ha' | ⟨s, hs, ha'⟩ := decoded_primitive env hleaf ha hi <;>
        obtain hb' | ⟨t, ht, hb'⟩ := decoded_primitive env hleaf hb hj <;>
        rw [ha', hb'] at h ⊢
      · exact absurd h.symm (leaf_toJson_ne_null hleaf ht)
      · exact absurd h (leaf_toJson_ne_null hleaf hs)
      · exact leaf_shown_of_json he hleaf hs ht h
    | _ => cases htype
  | list kind elem slots values ih =>
    cases b with
    | list kind' elem' slots' values' =>
      cases htype
      have hvalue := hcovered.list_elem
      obtain ha' | ⟨start, n, hn, ha'⟩ := decoded_list env ha hi <;>
        obtain hb' | ⟨start', n', hn', hb'⟩ := decoded_list env hb hj <;>
        rw [ha', hb'] at h ⊢
      · cases h
      · cases h
      · simp only [Decoded.toJson, Decoded.itemsToJson_eq, Json.array.injEq] at h
        simp only [Decoded.shown, Decoded.shownItems_eq, Decoded.list.injEq]
        refine Decoded.map_shown_of_json (List.forall₂_iff_zip.mpr ⟨?_, fun hmem hjson => ?_⟩) h
        · simpa using congrArg List.length h
        · obtain ⟨hx, hy⟩ := List.of_mem_zip hmem
          obtain ⟨k, hk, rfl⟩ := List.mem_map.mp hx
          obtain ⟨l, hl, rfl⟩ := List.mem_map.mp hy
          rw [List.mem_range] at hk hl
          exact ih ha.list_slots.2 hb.list_slots.2
            (ha.list_dataType.trans hb.list_dataType.symm) (by rw [ha.list_dataType]; exact hvalue)
            (by omega) (by omega) hjson
    | _ => cases htype
  | struct fields validity columns ih =>
    cases b with
    | struct fields' validity' columns' =>
      cases htype
      obtain ⟨htypes, hlengths, hcolumns⟩ := ha.struct_columns
      obtain ⟨htypes', hlengths', hcolumns'⟩ := hb.struct_columns
      obtain ⟨hnodup, hfields⟩ := hcovered.struct_fields
      simp only [ArrowArray.decoded, ArrowArray.decodedColumns_eq] at h ⊢
      split at h <;> split at h
      · rename_i hvalid hvalid'
        rw [if_pos hvalid, if_pos hvalid']
        simp only [Decoded.toJson, Decoded.itemsToJson_eq, Json.object.injEq] at h
        simp only [Decoded.shown, Decoded.shownItems_eq, Decoded.struct.injEq, true_and]
        have hlength := congrArg List.length htypes
        have hlength' := congrArg List.length htypes'
        simp only [List.length_map] at hlength hlength'
        have hjson := Decoded.items_of_object hnodup (by simpa using hlength)
          (by simpa using hlength') h
        have hsame : List.Forall₂ (fun c c' => c.dataType = c'.dataType) columns columns' := by
          have htypes := htypes.trans htypes'.symm
          rwa [← List.forall₂_eq_eq_eq, List.forall₂_map_left_iff,
            List.forall₂_map_right_iff] at htypes
        refine Decoded.map_shown_of_json ?_ hjson
        rw [List.forall₂_map_left_iff, List.forall₂_map_right_iff, List.forall₂_iff_zip]
        refine ⟨hlength.trans hlength'.symm, fun {c c'} hmem hjson => ?_⟩
        obtain ⟨hc, hc'⟩ := List.of_mem_zip hmem
        have hfield : c.dataType ∈ fields.map FieldOf.dataType :=
          htypes ▸ List.mem_map_of_mem hc
        obtain ⟨f, hf, hfc⟩ := List.mem_map.mp hfield
        exact ih c hc (hcolumns c hc) (hcolumns' c' hc') (List.forall₂_zip hsame hmem)
          (hfc ▸ hfields f hf) (by rw [hlengths c hc]; exact hi)
          (by rw [hlengths' c' hc']; exact hj) hjson
      · cases h
      · cases h
      · rename_i hvalid hvalid'
        rw [if_neg hvalid, if_neg hvalid']
    | _ => cases htype
  | map entries sorted slots values ih =>
    cases b with
    | map entries' sorted' slots' values' =>
      cases htype
      simp only [ArrowArray.decoded] at h ⊢
      split at h <;> split at h
      · rfl
      · cases h
      · cases h
      · rfl
    | _ => cases htype
  | dictionary key value keys values ih =>
    cases b with
    | dictionary key' value' keys' values' =>
      cases htype
      have hvalue : values.dataType.Covered := by
        rw [ha.dictionary_dataType]
        exact hcovered.dictionary_value
      have hsame := ha.dictionary_dataType.trans hb.dictionary_dataType.symm
      obtain ha' | ⟨k, hk, ha'⟩ := decoded_dictionary env ha hi <;>
        obtain hb' | ⟨l, hl, hb'⟩ := decoded_dictionary env hb hj <;>
        rw [ha', hb'] at h ⊢
      · rw [decoded_of_json_null hb.dictionary_keys.2.2 (hsame ▸ hvalue) hl h.symm]
      · rw [decoded_of_json_null ha.dictionary_keys.2.2 hvalue hk h]
      · exact ih ha.dictionary_keys.2.2 hb.dictionary_keys.2.2 hsame hvalue hk hl h
    | _ => cases htype

end

def KeepsData (env : ConvertEnv) (a : ArrowArray) (i : Nat) (b : ArrowArray) (j : Nat) : Prop :=
  (a.decoded env i).logical ≠ (b.decoded env j).logical →
    arrowValueToJson env a i ≠ arrowValueToJson env b j

/-- JSON tells values of one type apart exactly if they differ in more than the dates, timestamps
and maps in them. -/
theorem keepsData_iff_shown_ne {env : ConvertEnv} (he : env.Exact) {a b : ArrowArray}
    (ha : a.WellFormed) (hb : b.WellFormed) (htype : a.dataType = b.dataType)
    (hcovered : a.dataType.Covered) {i j : Nat} (hi : i < a.len) (hj : j < b.len) :
    KeepsData env a i b j ↔ ((a.decoded env i).logical ≠ (b.decoded env j).logical →
      (a.decoded env i).shown env ≠ (b.decoded env j).shown env) := by
  have hjson : arrowValueToJson env a i = arrowValueToJson env b j ↔
      (a.decoded env i).shown env = (b.decoded env j).shown env := by
    rw [arrowValueToJson_decoded env ha hi, arrowValueToJson_decoded env hb hj, Except.ok.injEq]
    refine ⟨shown_of_json he ha hb htype hcovered hi hj, fun hshown => ?_⟩
    rw [← Decoded.toJson_shown, hshown, Decoded.toJson_shown]
  rw [KeepsData, Ne, Ne, Ne, hjson]

def exactEnv : ConvertEnv :=
  { plainEnv with
    valueAsString := fun _ _ v => v.repr
    base64Encode := fun bytes => String.ofList (bytes.map fun byte => Char.ofNat byte.toNat) }

theorem exactEnv_exact : exactEnv.Exact where
  base64 bytes bytes' h := by
    have hchar : Function.Injective fun byte : UInt8 => Char.ofNat byte.toNat := by
      intro b c h
      have hnat := congrArg Char.toNat h
      rw [Char.toNat_ofNat, Char.toNat_ofNat, if_pos, if_pos] at hnat
      · exact UInt8.toNat_inj.mp hnat
      · exact .inl (lt_of_lt_of_le c.toNat_lt (by decide))
      · exact .inl (lt_of_lt_of_le b.toNat_lt (by decide))
    exact hchar.list_map (String.ofList_injective h)
  decimal _ _ _ _ _ _ h := Int.repr_injective h

def stampsArray : ArrowArray :=
  .list .list ⟨"item", .leaf (.timestamp .second none), true⟩ [some (0, 1), some (1, 1)]
    (.primitive (.timestamp .second none) [some (.int 0), some (.int 1)])

theorem stampsArray_wellFormed : stampsArray.WellFormed := by
  refine .list rfl ?_ (.primitive ?_)
  · intro start n h
    have hend : start + n ≤ 2 := by
      simp only [List.mem_cons, Option.some.injEq, Prod.mk.injEq, List.not_mem_nil, or_false] at h
      omega
    exact hend
  · simp [LeafType.admits, LeafType.range, i64Min, i64Max]

theorem keepsData_iff_shown_ne_stamps :
    KeepsData exactEnv stampsArray 0 stampsArray 1 ↔
      ((stampsArray.decoded exactEnv 0).logical ≠ (stampsArray.decoded exactEnv 1).logical →
        (stampsArray.decoded exactEnv 0).shown exactEnv ≠ (stampsArray.decoded exactEnv 1).shown exactEnv) :=
  keepsData_iff_shown_ne exactEnv_exact stampsArray_wellFormed stampsArray_wellFormed rfl
    (.list (.leaf rfl)) (by decide) (by decide)

/-- They have the same JSON. -/
theorem keepsData_loses_stamps : ¬ KeepsData exactEnv stampsArray 0 stampsArray 1 := by
  intro h
  refine h ?_ rfl
  intro hlogical
  have hitems := Decoded.list.inj hlogical
  cases hitems

end PgLance
