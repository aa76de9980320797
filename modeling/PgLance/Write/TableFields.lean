import PgLance.Library.Outline
import PgLance.Write.Storage
import PgLance.Arrow

/-! The fields of a table as rows, one for each field of the schema. -/

namespace PgLance

open Outline

/-- A field without its children, and the type that the SDK makes of it. -/
structure LanceFieldInfo where
  name : String
  id : Int
  parentId : Int
  dataType : DataType
  nullable : Bool
  metadata : List (String × String)

abbrev LanceField := Rose LanceFieldInfo

def LanceField.name : LanceField → String
  | .node field _ => field.name

structure ShownField where
  fieldId : Int
  parentId : Int
  fieldName : String
  dataType : String
  nullable : Bool
  metadata : String
  deriving DecidableEq, Repr

structure TableFieldRow extends ShownField where
  fieldPath : String
  deriving DecidableEq, Repr

structure TableFieldsEnv where
  displayDataType : DataType → String
  metadataJson : List (String × String) → String

section

variable (env : TableFieldsEnv)

def LanceFieldInfo.shown (field : LanceFieldInfo) : ShownField where
  fieldId := field.id
  parentId := field.parentId
  fieldName := field.name
  dataType := env.displayDataType field.dataType
  nullable := field.nullable
  metadata := env.metadataJson field.metadata

def fieldPathOf (parentPath : Option String) (name : String) : String :=
  match parentPath with
  | some parent => parent ++ "." ++ name
  | none => name

mutual
def collectFieldRows (parentPath : Option String) (rows : List TableFieldRow) :
    LanceField → List TableFieldRow
  | .node field children =>
    let path := fieldPathOf parentPath field.name
    collectFieldsRows (some path) (rows ++ [⟨field.shown env, path⟩]) children
termination_by structural field => field

def collectFieldsRows (parentPath : Option String) (rows : List TableFieldRow) :
    List LanceField → List TableFieldRow
  | [] => rows
  | field :: fields =>
    collectFieldsRows parentPath (collectFieldRows parentPath rows field) fields
termination_by structural fields => fields
end

def lanceTableFieldsImpl (host : Host) (dataset : Except String (List LanceField)) :
    Except String (List TableFieldRow) := do
  host.runtimeNew.mapError ("failed to create tokio runtime: " ++ ·)
  let fields ← dataset
  return collectFieldsRows env none [] fields

theorem collectFieldsRows_of {fields : List LanceField}
    (h : ∀ field ∈ fields, ∀ parentPath rows, collectFieldRows env parentPath rows field =
      rows ++ collectFieldRows env parentPath [] field)
    (parentPath : Option String) (rows : List TableFieldRow) :
    collectFieldsRows env parentPath rows fields =
      rows ++ fields.flatMap (collectFieldRows env parentPath []) := by
  induction fields generalizing rows with
  | nil => simp [collectFieldsRows]
  | cons field fields ih =>
    rw [List.forall_mem_cons] at h
    rw [collectFieldsRows, ih h.2, h.1, List.flatMap_cons, List.append_assoc]

theorem collectFieldRows_append (field : LanceField) :
    ∀ parentPath rows, collectFieldRows env parentPath rows field =
      rows ++ collectFieldRows env parentPath [] field := by
  induction field using Rose.induct with
  | node field children ih =>
    intro parentPath rows
    rw [collectFieldRows, collectFieldRows, collectFieldsRows_of env ih,
      collectFieldsRows_of env ih, List.nil_append, List.append_assoc]

theorem collectFieldsRows_eq (parentPath : Option String) (rows : List TableFieldRow)
    (fields : List LanceField) : collectFieldsRows env parentPath rows fields =
      rows ++ fields.flatMap (collectFieldRows env parentPath []) :=
  collectFieldsRows_of env (fun field _ => collectFieldRows_append env field) parentPath rows

/-- The row of a field stands before those of its children. -/
theorem collectFieldRows_node (parentPath : Option String) (field : LanceFieldInfo)
    (children : List LanceField) : collectFieldRows env parentPath [] (.node field children) =
      ⟨field.shown env, fieldPathOf parentPath field.name⟩ ::
        children.flatMap (collectFieldRows env (some (fieldPathOf parentPath field.name)) []) := by
  rw [collectFieldRows, collectFieldsRows_eq, List.nil_append]
  rfl

/-! The rows as an outline. -/

def pathLevel (parentPath : Option String) : Nat := parentPath.elim 0 fun path => path.length + 1

theorem length_fieldPathOf (parentPath : Option String) (name : String) :
    (fieldPathOf parentPath name).length = pathLevel parentPath + name.length := by
  cases parentPath with
  | none => simp [fieldPathOf, pathLevel]
  | some path =>
    have hdot : ".".length = 1 := by decide
    simp [fieldPathOf, pathLevel, hdot]

def TableFieldRow.line (row : TableFieldRow) : Nat × ShownField :=
  (row.fieldPath.length - row.fieldName.length, row.toShownField)

def nameWidth (field : ShownField) : Nat := field.fieldName.length

theorem line_fieldRow (parentPath : Option String) (field : LanceFieldInfo) :
    TableFieldRow.line ⟨field.shown env, fieldPathOf parentPath field.name⟩ =
      (pathLevel parentPath, field.shown env) := by
  have hlevel : (fieldPathOf parentPath field.name).length - field.name.length =
      pathLevel parentPath := by
    rw [length_fieldPathOf]
    omega
  exact congrArg (·, field.shown env) hlevel

theorem lines_fields_of {parentPath : Option String} {fields : List LanceField}
    (h : ∀ field ∈ fields, (collectFieldRows env parentPath [] field).map TableFieldRow.line =
      Rose.lines nameWidth (pathLevel parentPath) (field.map (LanceFieldInfo.shown env))) :
    (fields.flatMap (collectFieldRows env parentPath [])).map TableFieldRow.line =
      Rose.forestLines nameWidth (pathLevel parentPath)
        (Rose.mapForest (LanceFieldInfo.shown env) fields) := by
  induction fields with
  | nil => rfl
  | cons field fields ih =>
    rw [List.forall_mem_cons] at h
    rw [List.flatMap_cons, List.map_append, h.1, ih h.2, Rose.mapForest, Rose.forestLines]

theorem lines_field (field : LanceField) : ∀ parentPath : Option String,
    (collectFieldRows env parentPath [] field).map TableFieldRow.line =
      Rose.lines nameWidth (pathLevel parentPath) (field.map (LanceFieldInfo.shown env)) := by
  induction field using Rose.induct with
  | node field children ih =>
    intro parentPath
    have hlevel : pathLevel (some (fieldPathOf parentPath field.name)) =
        pathLevel parentPath + nameWidth (field.shown env) + 1 :=
      congrArg (· + 1) (length_fieldPathOf parentPath field.name)
    rw [collectFieldRows_node, List.map_cons, line_fieldRow,
      lines_fields_of env fun child hchild => ih child hchild _, hlevel, Rose.map, Rose.lines]

def rebuildFields (rows : List TableFieldRow) : List (Rose ShownField) :=
  parse (rows.map TableFieldRow.line)

theorem rebuildFields_collectFieldsRows (fields : List LanceField) :
    rebuildFields (collectFieldsRows env none [] fields) =
      Rose.mapForest (LanceFieldInfo.shown env) fields := by
  rw [rebuildFields, collectFieldsRows_eq, List.nil_append,
    lines_fields_of env fun field _ => lines_field env field none, parse_forestLines]

end

/-! The paths of the rows. -/

inductive LanceField.Dotless : LanceField → Prop
  | node {field : LanceFieldInfo} {children : List LanceField} : '.' ∉ field.name.toList →
    (∀ child ∈ children, Dotless child) → Dotless (.node field children)

inductive LanceField.Distinct : LanceField → Prop
  | node {field : LanceFieldInfo} {children : List LanceField} :
    (children.map LanceField.name).Nodup → (∀ child ∈ children, Distinct child) →
    Distinct (.node field children)

theorem LanceField.Dotless.name {field : LanceField} (h : field.Dotless) :
    '.' ∉ field.name.toList := by
  cases h
  assumption

def Under (path q : String) : Prop :=
  q = path ∨ ∃ rest : List Char, q.toList = path.toList ++ '.' :: rest

theorem takeWhile_name {name : List Char} (hname : '.' ∉ name) {tail : List Char}
    (htail : tail = [] ∨ ∃ rest, tail = '.' :: rest) :
    (name ++ tail).takeWhile (· != '.') = name := by
  have hall : ∀ c ∈ name, (c != '.') = true := by
    intro c hc
    have hne : c ≠ '.' := fun heq => hname (heq ▸ hc)
    simpa using hne
  rw [List.takeWhile_append_of_pos hall]
  rcases htail with rfl | ⟨rest, rfl⟩ <;> simp

theorem toList_fieldPathOf (parentPath : Option String) (name : String) :
    (fieldPathOf parentPath name).toList =
      (parentPath.elim [] fun path => path.toList ++ ['.']) ++ name.toList := by
  have hdot : ".".toList = ['.'] := by decide
  cases parentPath with
  | none => rfl
  | some path => simp [fieldPathOf, hdot]

theorem Under.tail {path q : String} (h : Under path q) :
    ∃ tail, q.toList = path.toList ++ tail ∧ (tail = [] ∨ ∃ rest, tail = '.' :: rest) := by
  rcases h with rfl | ⟨rest, hrest⟩
  · exact ⟨[], by simp, .inl rfl⟩
  · exact ⟨_, hrest, .inr ⟨rest, rfl⟩⟩

theorem Under.name_eq {parentPath : Option String} {a b q : String} (ha : '.' ∉ a.toList)
    (hb : '.' ∉ b.toList) (hqa : Under (fieldPathOf parentPath a) q)
    (hqb : Under (fieldPathOf parentPath b) q) : a = b := by
  obtain ⟨tail, hq, htail⟩ := hqa.tail
  obtain ⟨tail', hq', htail'⟩ := hqb.tail
  rw [toList_fieldPathOf, List.append_assoc] at hq hq'
  have hsame : a.toList ++ tail = b.toList ++ tail' :=
    List.append_cancel_left (hq.symm.trans hq')
  have hchars := congrArg (fun cs : List Char => cs.takeWhile (· != '.')) hsame
  simp only [takeWhile_name ha htail, takeWhile_name hb htail'] at hchars
  exact String.toList_inj.mp hchars

theorem under_of_child {path name q : String} (h : Under (fieldPathOf (some path) name) q) :
    ∃ rest : List Char, q.toList = path.toList ++ '.' :: rest := by
  obtain ⟨tail, hq, -⟩ := h.tail
  rw [toList_fieldPathOf] at hq
  exact ⟨name.toList ++ tail, by simpa using hq⟩

section

variable (env : TableFieldsEnv)

theorem under_of_mem (field : LanceField) : ∀ (parentPath : Option String) (row : TableFieldRow),
    row ∈ collectFieldRows env parentPath [] field →
      Under (fieldPathOf parentPath field.name) row.fieldPath := by
  induction field using Rose.induct with
  | node field children ih =>
    intro parentPath row hrow
    rw [collectFieldRows_node, List.mem_cons, List.mem_flatMap] at hrow
    rcases hrow with rfl | ⟨child, hchild, hrow⟩
    · exact .inl rfl
    · exact .inr (under_of_child (ih child hchild _ row hrow))

theorem mem_paths (field : LanceField) (parentPath : Option String) :
    fieldPathOf parentPath field.name ∈
      (collectFieldRows env parentPath [] field).map TableFieldRow.fieldPath := by
  cases field with
  | node field children =>
    rw [collectFieldRows_node, List.map_cons]
    exact List.mem_cons_self

theorem disjoint_paths_iff {field other : LanceField} (hfield : field.Dotless)
    (hother : other.Dotless) (parentPath : Option String) :
    List.Disjoint ((collectFieldRows env parentPath [] field).map TableFieldRow.fieldPath)
      ((collectFieldRows env parentPath [] other).map TableFieldRow.fieldPath) ↔
      field.name ≠ other.name := by
  constructor
  · intro h hname
    exact h (mem_paths env field parentPath) (hname ▸ mem_paths env other parentPath)
  · intro hname q hq hq'
    obtain ⟨row, hrow, rfl⟩ := List.mem_map.mp hq
    obtain ⟨row', hrow', hpath⟩ := List.mem_map.mp hq'
    have hunder' := under_of_mem env other parentPath row' hrow'
    rw [hpath] at hunder'
    exact hname (Under.name_eq hfield.name hother.name
      (under_of_mem env field parentPath row hrow) hunder')

theorem disjoint_flatMap_iff {α β : Type} {xs : List β} {items : List α} {f : α → List β} :
    List.Disjoint xs (items.flatMap f) ↔ ∀ item ∈ items, List.Disjoint xs (f item) := by
  constructor
  · intro h item hitem x hx hx'
    exact h hx (List.mem_flatMap.mpr ⟨item, hitem, hx'⟩)
  · intro h x hx hx'
    obtain ⟨item, hitem, hx'⟩ := List.mem_flatMap.mp hx'
    exact h item hitem hx hx'

theorem nodup_fields_iff_of {parentPath : Option String} {fields : List LanceField}
    (hdotless : ∀ field ∈ fields, field.Dotless)
    (h : ∀ field ∈ fields,
      ((collectFieldRows env parentPath [] field).map TableFieldRow.fieldPath).Nodup ↔
        field.Distinct) :
    ((fields.flatMap (collectFieldRows env parentPath [])).map TableFieldRow.fieldPath).Nodup ↔
      (fields.map LanceField.name).Nodup ∧ ∀ field ∈ fields, field.Distinct := by
  induction fields with
  | nil => simp
  | cons field fields ih =>
    rw [List.forall_mem_cons] at h hdotless
    have hdisjoint : List.Disjoint
        ((collectFieldRows env parentPath [] field).map TableFieldRow.fieldPath)
        ((fields.flatMap (collectFieldRows env parentPath [])).map TableFieldRow.fieldPath) ↔
          field.name ∉ fields.map LanceField.name := by
      have heach := fun other hother =>
        disjoint_paths_iff env hdotless.1 (hdotless.2 other hother) parentPath
      rw [List.map_flatMap, disjoint_flatMap_iff]
      simp only [List.mem_map, not_exists, not_and]
      exact forall₂_congr fun other hother => (heach other hother).trans ne_comm
    rw [List.flatMap_cons, List.map_append, List.nodup_append', h.1, ih hdotless.2 h.2, hdisjoint,
      List.map_cons, List.nodup_cons, List.forall_mem_cons]
    tauto

theorem nodup_field_iff (field : LanceField) : field.Dotless → ∀ parentPath : Option String,
    ((collectFieldRows env parentPath [] field).map TableFieldRow.fieldPath).Nodup ↔
      field.Distinct := by
  induction field using Rose.induct with
  | node field children ih =>
    rintro ⟨-, hdotless⟩ parentPath
    have hchildren := nodup_fields_iff_of env hdotless fun child hchild =>
      ih child hchild (hdotless child hchild) (some (fieldPathOf parentPath field.name))
    have hown : fieldPathOf parentPath field.name ∉ (children.flatMap (collectFieldRows env
        (some (fieldPathOf parentPath field.name)) [])).map TableFieldRow.fieldPath := by
      intro hmem
      obtain ⟨row, hrow, hpath⟩ := List.mem_map.mp hmem
      obtain ⟨child, -, hrow⟩ := List.mem_flatMap.mp hrow
      obtain ⟨rest, hrest⟩ := under_of_child (under_of_mem env child _ row hrow)
      rw [hpath] at hrest
      simp at hrest
    rw [collectFieldRows_node, List.map_cons, List.nodup_cons, hchildren]
    constructor
    · rintro ⟨-, hnames, hdistinct⟩
      exact .node hnames hdistinct
    · rintro ⟨hnames, hdistinct⟩
      exact ⟨hown, hnames, hdistinct⟩

end

/-- The rows of a table stand for its fields and no others: the schema is read back from them,
whatever the names are.  Where no name has a dot, each path is that of one field exactly if siblings
have names of their own. -/
theorem lanceTableFieldsImpl_lossless (env : TableFieldsEnv) (host : Host)
    (dataset : Except String (List LanceField)) {rows : List TableFieldRow}
    (h : lanceTableFieldsImpl env host dataset = .ok rows) :
    ∃ fields, dataset = .ok fields ∧
      rebuildFields rows = Rose.mapForest (LanceFieldInfo.shown env) fields ∧
      ((∀ field ∈ fields, field.Dotless) →
        ((rows.map TableFieldRow.fieldPath).Nodup ↔
          (fields.map LanceField.name).Nodup ∧ ∀ field ∈ fields, field.Distinct)) := by
  cases hruntime : host.runtimeNew with
  | error e =>
    rw [lanceTableFieldsImpl, hruntime] at h
    cases h
  | ok u =>
    rw [lanceTableFieldsImpl, hruntime] at h
    cases dataset with
    | error e => cases h
    | ok fields =>
      cases h
      refine ⟨fields, rfl, rebuildFields_collectFieldsRows env fields, fun hdotless => ?_⟩
      rw [collectFieldsRows_eq, List.nil_append]
      exact nodup_fields_iff_of env hdotless fun field hfield =>
        nodup_field_iff env field (hdotless field hfield) none

def TableFieldsEnv.sample : TableFieldsEnv := ⟨fun _ => "Int32", fun _ => "\x7b\x7d"⟩

def LanceField.sample (name : String) (id parentId : Int) (children : List LanceField) :
    LanceField :=
  .node ⟨name, id, parentId, .leaf .int32, true, []⟩ children

theorem LanceField.name_sample (name : String) (id parentId : Int) (children : List LanceField) :
    (LanceField.sample name id parentId children).name = name := rfl

theorem LanceField.sample_dotless_iff {name : String} {id parentId : Int}
    {children : List LanceField} : (LanceField.sample name id parentId children).Dotless ↔
      '.' ∉ name.toList ∧ ∀ child ∈ children, child.Dotless := by
  constructor
  · rintro ⟨hname, hchildren⟩
    exact ⟨hname, hchildren⟩
  · rintro ⟨hname, hchildren⟩
    exact .node hname hchildren

theorem LanceField.sample_distinct_iff {name : String} {id parentId : Int}
    {children : List LanceField} : (LanceField.sample name id parentId children).Distinct ↔
      (children.map LanceField.name).Nodup ∧ ∀ child ∈ children, child.Distinct := by
  constructor
  · rintro ⟨hnames, hchildren⟩
    exact ⟨hnames, hchildren⟩
  · rintro ⟨hnames, hchildren⟩
    exact .node hnames hchildren

def sampleTableFields : List LanceField :=
  [.sample "s" 0 (-1) [.sample "a" 1 0 [], .sample "b" 2 0 [.sample "a" 3 2 []]],
    .sample "t" 4 (-1) []]

theorem lanceTableFieldsImpl_lossless_sample : ∃ rows,
    lanceTableFieldsImpl .sample .sample (.ok sampleTableFields) = .ok rows ∧
      rows.map TableFieldRow.fieldPath = ["s", "s.a", "s.b", "s.b.a", "t"] ∧
      rebuildFields rows = Rose.mapForest (LanceFieldInfo.shown .sample) sampleTableFields ∧
      (rows.map TableFieldRow.fieldPath).Nodup := by
  refine ⟨_, rfl, by decide, ?_⟩
  obtain ⟨fields, hfields, hrebuild, hnodup⟩ :=
    lanceTableFieldsImpl_lossless .sample .sample (.ok sampleTableFields) rfl
  cases hfields
  refine ⟨hrebuild, (hnodup ?_).mpr ⟨by decide, ?_⟩⟩
  · simp [sampleTableFields, LanceField.sample_dotless_iff]
  · simp [sampleTableFields, LanceField.sample_distinct_iff, LanceField.name_sample]

/-- A dot in a name can make two paths the same. -/
example : (collectFieldsRows .sample none []
    [.sample "s" 0 (-1) [.sample "a" 1 0 []], .sample "s.a" 2 (-1) []]).map
      TableFieldRow.fieldPath = ["s", "s.a", "s.a"] := by decide

end PgLance
