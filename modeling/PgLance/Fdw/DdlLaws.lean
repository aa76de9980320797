import PgLance.Fdw.Ddl
import PgLance.Fdw.DeclaredLaws
import PgLance.Fdw.Naming

/-! What PostgreSQL reads in the generated statements. -/

namespace PgLance

open SqlText

inductive TypeRef
  | base (type : LeafType)
  | composite (table path : String)
  | array (elem : TypeRef)

namespace TypeRef

def text : TypeRef → String
  | .base type => pgTypeForLeaf type
  | .composite table path => compositeTypeName table path
  | .array elem => elem.text ++ "[]"

def tokens (schema : String) : TypeRef → List Token
  | .base type => [.word (pgTypeForLeaf type)]
  | .composite table path => [.ident schema, .punct '.', .ident (compositeTypeName table path)]
  | .array elem => elem.tokens schema ++ [.punct '[', .punct ']']

def ofArrow (table : String) : DataType → String → TypeRef
  | .leaf type, _ => .base type
  | .list _ ⟨_, elem, _⟩, path => .array (ofArrow table elem (path ++ "_item"))
  | .struct _, path => .composite table path
  | .map _ _, _ => .base .null
  | .dictionary _ value, path => ofArrow table value (path ++ "_dict")
termination_by structural dt => dt

theorem text_ofArrow (table : String) (dt : DataType) (path : String) :
    (ofArrow table dt path).text = declaredType table dt path := by
  induction dt generalizing path with
  | list kind elem ih => simp only [ofArrow, text, declaredType, ih]
  | dictionary key value ihk ihv => simp only [ofArrow, declaredType, ihv]
  | _ => rfl

end TypeRef

abbrev ColumnRef := String × TypeRef

def ColumnRef.text (column : ColumnRef) : String × String := (column.1, column.2.text)

theorem columnTypes_eq_text (table : String) (fields : List Field) :
    (buildSchemaMapping table fields).columnTypes =
      (fields.map fun f => (f.name, TypeRef.ofArrow table f.dataType f.name)).map
        ColumnRef.text := by
  rw [columnTypes_buildSchemaMapping, List.map_map]
  apply List.map_congr_left
  intro f _
  simp [ColumnRef.text, TypeRef.text_ofArrow]

def columnTokens (schema : String) (column : ColumnRef) : List Token :=
  .ident column.1 :: column.2.tokens schema

def columnsTokens (schema : String) (columns : List ColumnRef) : List Token :=
  List.intercalate [.punct ','] (columns.map (columnTokens schema))

def optionsTokens (options : List (String × String)) : List Token :=
  List.intercalate [.punct ','] (options.map fun option => [.ident option.1, .literal option.2])

/-- A command whose failure with one condition is caught. -/
def guardedTokens (command : List Token) (condition : String) : List Token :=
  Token.word "begin" :: command ++ [Token.punct ';', .word "exception", .word "when",
    .word condition, .word "then", .word "null", .punct ';', .word "end"]

def createSchemaTokens (schema : String) : List Token :=
  guardedTokens [.word "create", .word "schema", .ident schema] "duplicate_schema"

def createCompositeTypeTokens (schema typeName : String) (columns : List ColumnRef) : List Token :=
  guardedTokens ([Token.word "create", .word "type", .ident schema, .punct '.', .ident typeName,
    .word "as", .punct '('] ++ columnsTokens schema columns ++ [Token.punct ')']) "duplicate_object"

def createForeignTableTokens (server schema table : String) (options : List (String × String))
    (columns : List ColumnRef) : List Token :=
  guardedTokens ([Token.word "create", .word "foreign", .word "table", .ident schema, .punct '.',
    .ident table, .punct '('] ++ columnsTokens schema columns ++ [Token.punct ')', .word "server",
    .ident server, .word "options", .punct '('] ++ optionsTokens options ++ [Token.punct ')'])
    "duplicate_table"

theorem toList_quoteIdent (ident : String) :
    (quoteIdent ident).toList = '"' :: double '"' ident.toList ++ ['"'] := by
  simp [quoteIdent]

theorem toList_quoteLiteral (value : String) :
    (quoteLiteral value).toList = '\'' :: double '\'' value.toList ++ ['\''] := by
  simp [quoteLiteral]

theorem feed_quoteIdent (ident : String) {c : Char} (hc : c ≠ '"') (rest : List Char) :
    feed .start ((quoteIdent ident).toList ++ c :: rest) =
      prepend [.ident ident] (feed .start (c :: rest)) := by
  have h := feed_quoted_ident ident.toList hc rest
  rw [String.ofList_toList] at h
  rw [← h, toList_quoteIdent]
  simp

theorem feed_quoteLiteral (value : String) {c : Char} (hc : c ≠ '\'') (rest : List Char) :
    feed .start ((quoteLiteral value).toList ++ c :: rest) =
      prepend [.literal value] (feed .start (c :: rest)) := by
  have h := feed_quoted_literal value.toList hc rest
  rw [String.ofList_toList] at h
  rw [← h, toList_quoteLiteral]
  simp

theorem isNameChar_toLower {c : Char} (h : (c.toLower.isAlphanum || c.toLower == '_') = true) :
    isNameChar c.toLower = true := by
  simpa [isNameChar, Char.isAlphanum] using h

theorem compositeTypeName_chars (table path : String) :
    ∀ c ∈ (compositeTypeName table path).toList, isNameChar c = true := by
  have hmap : ∀ c ∈ ((("lance_" ++ table ++ "_" ++ path).toLower).map fun c =>
      if c.isAlphanum || c == '_' then c else '_').toList, isNameChar c = true := by
    intro c hc
    simp only [String.toList_map, String.toLower, List.map_map, List.mem_map] at hc
    obtain ⟨d, -, rfl⟩ := hc
    simp only [Function.comp_apply]
    split
    · exact isNameChar_toLower ‹_›
    · decide
  intro c hc
  simp only [compositeTypeName] at hc
  split at hc
  · rw [String.toList_ofList] at hc
    exact hmap c (List.mem_of_mem_take hc)
  · exact hmap c hc

theorem isLanceType_compositeTypeName (table path : String) :
    isLanceType (compositeTypeName table path).toList = true := by
  have hmap : isLanceType ((("lance_" ++ table ++ "_" ++ path).toLower).map fun c =>
      if c.isAlphanum || c == '_' then c else '_').toList = true := by
    simp [isLanceType, String.toLower, String.toList_map]
  simp only [compositeTypeName]
  split
  · rw [isLanceType, List.isPrefixOf_iff_prefix] at hmap ⊢
    have hlength : "lance_".toList.length ≤ 60 := by decide
    apply List.IsPrefix.trans (List.prefix_take_iff.mpr ⟨hmap, hlength⟩)
    rw [String.toList_ofList]
  · exact hmap

theorem splitArrays_compositeTypeName (table path : String) :
    Text.splitArrays (compositeTypeName table path).toList =
      (0, (compositeTypeName table path).toList) := by
  apply Text.splitArrays_of_forall
  intro c hc
  have hname := toNat_of_isNameChar (compositeTypeName_chars table path c hc)
  constructor
  · exact Text.isWhitespace_of_printable (by omega)
  · rintro rfl
    revert hname
    decide

theorem qualifyTypeString_array (ty schema : String) :
    qualifyTypeString (ty ++ "[]") schema = qualifyTypeString ty schema ++ "[]" := by
  have hsplit := Text.splitArrays_append_brackets ty.toList
  simp only [qualifyTypeString, String.toList_append, show "[]".toList = ['[', ']'] from rfl,
    hsplit, List.replicate_succ', String.join_append, ← String.append_assoc]
  rfl

theorem qualifyTypeString_composite (table path schema : String) :
    qualifyTypeString (compositeTypeName table path) schema =
      qualifyCompositeType (compositeTypeName table path) schema := by
  simp [qualifyTypeString, splitArrays_compositeTypeName, isLanceType_compositeTypeName,
    String.ofList_toList]

theorem base_split : ∀ name ∈ baseTypes.map Prod.fst,
    Text.splitArrays name.toList = (0, name.toList) ∧ isLanceType name.toList = false := by
  decide

theorem qualifyTypeString_base (type : LeafType) (schema : String) :
    qualifyTypeString (pgTypeForLeaf type) schema = pgTypeForLeaf type := by
  obtain ⟨hsplit, hlance⟩ := base_split _ (pgTypeForLeaf_mem type)
  simp [qualifyTypeString, hsplit, hlance, String.ofList_toList]

theorem feed_base : ∀ name ∈ baseTypes.map Prod.fst,
    feed .start name.toList = some ([], .word name.toList) := by
  decide

theorem feed_type (schema : String) (ty : TypeRef) {c : Char} (hc : c = ',' ∨ c = ')' ∨ c = '[')
    (rest : List Char) :
    feed .start ((qualifyTypeString ty.text schema).toList ++ c :: rest) =
      prepend (ty.tokens schema) (feed .start (c :: rest)) := by
  induction ty generalizing c rest with
  | base type =>
    have hname := feed_base _ (pgTypeForLeaf_mem type)
    have hend : step (.word (pgTypeForLeaf type).toList) c = emit (.word (pgTypeForLeaf type)) c := by
      rcases hc with rfl | rfl | rfl <;> simp [step, isWordChar, isWordStart]
    rw [TypeRef.text, qualifyTypeString_base, feed_append, hname, Option.bind_some,
      feed_cons_of_emit hend]
    cases feed .start (c :: rest) <;> rfl
  | composite table path =>
    have hquote : c ≠ '"' := by rcases hc with rfl | rfl | rfl <;> decide
    rw [TypeRef.text, qualifyTypeString_composite, qualifyCompositeType]
    simp only [String.toList_append, List.append_assoc]
    rw [show ".".toList = ['.'] from rfl, List.singleton_append, feed_quoteIdent _ (by decide),
      feed_punct (by decide), feed_quoteIdent _ hquote]
    simp [TypeRef.tokens]
  | array elem ih =>
    rw [TypeRef.text, qualifyTypeString_array, String.toList_append, List.append_assoc,
      show "[]".toList = ['[', ']'] from rfl]
    simp only [List.cons_append, List.nil_append]
    rw [ih (.inr (.inr rfl)), feed_punct (by decide), feed_punct (by decide)]
    simp [TypeRef.tokens]

theorem feed_column (schema : String) (column : ColumnRef) {c : Char} (hc : c = ',' ∨ c = ')')
    (rest : List Char) :
    feed .start ((columnSql schema column.text).toList ++ c :: rest) =
      prepend (columnTokens schema column) (feed .start (c :: rest)) := by
  simp only [columnSql, ColumnRef.text, String.toList_append, List.append_assoc]
  rw [show " ".toList = [' '] from rfl, List.singleton_append, feed_quoteIdent _ (by decide),
    feed_space, feed_type schema column.2 (by tauto)]
  simp [columnTokens]

theorem feed_option (option : String × String) {c : Char} (hc : c = ',' ∨ c = ')')
    (rest : List Char) :
    feed .start ((optionSql option).toList ++ c :: rest) =
      prepend [.ident option.1, .literal option.2] (feed .start (c :: rest)) := by
  have hquote : c ≠ '\'' := by rcases hc with rfl | rfl <;> decide
  simp only [optionSql, String.toList_append, List.append_assoc]
  rw [show " ".toList = [' '] from rfl, List.singleton_append, feed_quoteIdent _ (by decide),
    feed_space, feed_quoteLiteral _ hquote]
  simp

theorem feed_intercalate {α : Type} (sql : α → String) (tokens : α → List Token)
    (h : ∀ x, ∀ c, c = ',' ∨ c = ')' → ∀ rest, feed .start ((sql x).toList ++ c :: rest) =
      prepend (tokens x) (feed .start (c :: rest))) (xs : List α) (rest : List Char) :
    feed .start ((String.intercalate ", " (xs.map sql)).toList ++ ')' :: rest) =
      prepend (List.intercalate [.punct ','] (xs.map tokens)) (feed .start (')' :: rest)) := by
  rw [String.toList_intercalate, show ", ".toList = [',', ' '] from rfl]
  induction xs with
  | nil => simp [List.intercalate]
  | cons x xs ih =>
    cases xs with
    | nil => simpa [List.intercalate] using h x ')' (.inr rfl) rest
    | cons y ys =>
      simp only [List.map_cons, List.intercalate_cons_cons, List.append_assoc] at ih ⊢
      rw [List.cons_append, List.cons_append, List.nil_append, h x ',' (.inl rfl), feed_punct (by decide), feed_space, ih]
      simp

/-- The text is a `DO` statement whose body reads as the tokens, with a `$$` in the body exactly
when one of the names has one. -/
def IsDo (sql : String) (tokens : List Token) (names : List String) : Prop :=
  ∃ body, sql.toList = "DO $$".toList ++ body ++ "$$;".toList ∧
    feed .start body = some (tokens, .start) ∧
    (hasDollars body = false ↔ ∀ name ∈ names, hasDollars name.toList = false)

theorem hasDollars_quoteIdent (ident : String) (rest : List Char) :
    hasDollars ((quoteIdent ident).toList ++ rest) =
      (hasDollars ident.toList || hasDollars rest) := by
  have htext : (quoteIdent ident).toList ++ rest =
      '"' :: (double '"' ident.toList ++ '"' :: rest) := by simp [toList_quoteIdent]
  rw [htext, hasDollars_cons (by decide), hasDollars_append_cons _ (by decide),
    hasDollars_double (by decide)]

theorem hasDollars_quoteLiteral (value : String) (rest : List Char) :
    hasDollars ((quoteLiteral value).toList ++ rest) =
      (hasDollars value.toList || hasDollars rest) := by
  have htext : (quoteLiteral value).toList ++ rest =
      '\'' :: (double '\'' value.toList ++ '\'' :: rest) := by simp [toList_quoteLiteral]
  rw [htext, hasDollars_cons (by decide), hasDollars_append_cons _ (by decide),
    hasDollars_double (by decide)]

def guardedSql (command condition : String) : String :=
  "DO $$ BEGIN " ++ command ++ "; EXCEPTION WHEN " ++ condition ++ " THEN NULL; END $$;"

theorem isDo_guardedSql {command condition : String} {tokens : List Token} {names : List String}
    (hfeed : ∀ rest, feed .start (command.toList ++ ';' :: rest) =
      prepend tokens (feed .start (';' :: rest)))
    (hdollars : hasDollars command.toList = false ↔
      ∀ name ∈ names, hasDollars name.toList = false)
    (hcondition : condition ∈ ["duplicate_schema", "duplicate_object", "duplicate_table"]) :
    IsDo (guardedSql command condition) (guardedTokens tokens condition) names := by
  obtain ⟨opening, hopening⟩ : ∃ t, t = " BEGIN ".toList := ⟨_, rfl⟩
  obtain ⟨handler, hhandler⟩ : ∃ t, t = " EXCEPTION WHEN ".toList := ⟨_, rfl⟩
  obtain ⟨closing, hclosing⟩ : ∃ t, t = " THEN NULL; END ".toList := ⟨_, rfl⟩
  have htext : guardedSql command condition = "DO $$ BEGIN " ++ command ++
      "; EXCEPTION WHEN " ++ condition ++ " THEN NULL; END $$;" := rfl
  have hopen : "DO $$ BEGIN ".toList = "DO $$".toList ++ opening := by
    rw [hopening]; decide
  have hhandle : "; EXCEPTION WHEN ".toList = ';' :: handler := by
    rw [hhandler]; decide
  have hclose : " THEN NULL; END $$;".toList = closing ++ "$$;".toList := by
    rw [hclosing]; decide
  refine ⟨opening ++ (command.toList ++ ';' :: (handler ++ (condition.toList ++ closing))),
    ?_, ?_, ?_⟩
  · rw [htext]
    simp only [String.toList_append]
    rw [hopen, hhandle, hclose]
    simp only [List.append_assoc, List.cons_append]
  · have hbegin : feed .start opening = some ([.word "begin"], .start) := by
      rw [hopening]; decide
    have hwhen : feed .start (';' :: handler) =
        some ([.punct ';', .word "exception", .word "when"], .start) := by
      rw [hhandler]; decide
    have hend : ∀ condition ∈ ["duplicate_schema", "duplicate_object", "duplicate_table"],
        feed .start (condition.toList ++ closing) =
          some ([.word condition, .word "then", .word "null", .punct ';', .word "end"], .start) := by
      rw [hclosing]; decide
    rw [feed_text hbegin, hfeed, ← List.cons_append, feed_text hwhen, hend _ hcondition]
    simp [guardedTokens]
  · have hopening' : '$' ∉ opening := by rw [hopening]; decide
    have hrest : ∀ condition ∈ ["duplicate_schema", "duplicate_object", "duplicate_table"],
        hasDollars (handler ++ (condition.toList ++ closing)) = false := by
      rw [hhandler, hclosing]; decide
    rw [hasDollars_text hopening', hasDollars_append_cons _ (by decide), hrest _ hcondition,
      Bool.or_false, hdollars]

theorem isDo_createSchemaSql (schema : String) :
    IsDo (createSchemaSql schema) (createSchemaTokens schema) [schema] := by
  have htext : createSchemaSql schema =
      guardedSql ("CREATE SCHEMA " ++ quoteIdent schema) "duplicate_schema" := by
    have hleft : "DO $$ BEGIN CREATE SCHEMA " = "DO $$ BEGIN " ++ "CREATE SCHEMA " := by
      decide
    have hright : "; EXCEPTION WHEN duplicate_schema THEN NULL; END $$;" =
        "; EXCEPTION WHEN " ++ "duplicate_schema" ++ " THEN NULL; END $$;" := by decide
    change "DO $$ BEGIN CREATE SCHEMA " ++ quoteIdent schema ++
        "; EXCEPTION WHEN duplicate_schema THEN NULL; END $$;" =
      "DO $$ BEGIN " ++ ("CREATE SCHEMA " ++ quoteIdent schema) ++ "; EXCEPTION WHEN " ++
        "duplicate_schema" ++ " THEN NULL; END $$;"
    rw [hleft, hright]
    simp only [String.append_assoc]
  rw [htext]
  apply isDo_guardedSql
  · intro rest
    have hcommand : feed .start "CREATE SCHEMA ".toList =
        some ([.word "create", .word "schema"], .start) := by decide
    rw [String.toList_append, List.append_assoc, feed_text hcommand, feed_quoteIdent _ (by decide),
      prepend_prepend]
    rfl
  · have hcommand : '$' ∉ "CREATE SCHEMA ".toList := by decide
    rw [String.toList_append, hasDollars_text hcommand, ← List.append_nil (quoteIdent schema).toList,
      hasDollars_quoteIdent]
    simp [hasDollars, splitDollars]
  · decide

theorem hasDollars_qualifyTypeString {schema : String} (hschema : hasDollars schema.toList = false)
    (ty : TypeRef) {c : Char} (hc : c ≠ '$') (rest : List Char) :
    hasDollars ((qualifyTypeString ty.text schema).toList ++ c :: rest) = hasDollars rest := by
  induction ty generalizing c rest with
  | base type =>
    have hname : ∀ name ∈ baseTypes.map Prod.fst, '$' ∉ name.toList := by decide
    rw [TypeRef.text, qualifyTypeString_base, hasDollars_text (hname _ (pgTypeForLeaf_mem type)),
      hasDollars_cons hc]
  | composite table path =>
    have hname : '$' ∉ (compositeTypeName table path).toList := by
      intro hmem
      exact absurd (compositeTypeName_chars table path '$' hmem) (by decide)
    have htext : '$' ∉ (".".toList) := by decide
    rw [TypeRef.text, qualifyTypeString_composite, qualifyCompositeType]
    simp only [String.toList_append, List.append_assoc]
    rw [hasDollars_quoteIdent, hschema, Bool.false_or, hasDollars_text htext, hasDollars_quoteIdent,
      ← List.append_nil (compositeTypeName table path).toList, hasDollars_text hname,
      hasDollars_cons hc]
    rfl
  | array elem ih =>
    rw [TypeRef.text, qualifyTypeString_array, String.toList_append, List.append_assoc,
      show "[]".toList = ['[', ']'] from rfl]
    simp only [List.cons_append, List.nil_append]
    rw [ih (by decide), hasDollars_cons (by decide), hasDollars_cons hc]

theorem hasDollars_columnSql {schema : String} (hschema : hasDollars schema.toList = false)
    (column : ColumnRef) {c : Char} (hc : c ≠ '$') (rest : List Char) :
    hasDollars ((columnSql schema column.text).toList ++ c :: rest) =
      (hasDollars column.1.toList || hasDollars rest) := by
  simp only [columnSql, ColumnRef.text, String.toList_append, List.append_assoc]
  rw [hasDollars_quoteIdent, show " ".toList = [' '] from rfl, List.singleton_append,
    hasDollars_cons (by decide), hasDollars_qualifyTypeString hschema column.2 hc]

theorem hasDollars_optionSql (option : String × String) {c : Char} (hc : c ≠ '$')
    (rest : List Char) :
    hasDollars ((optionSql option).toList ++ c :: rest) =
      (hasDollars option.1.toList || hasDollars option.2.toList || hasDollars rest) := by
  simp only [optionSql, String.toList_append, List.append_assoc]
  rw [hasDollars_quoteIdent, show " ".toList = [' '] from rfl, List.singleton_append,
    hasDollars_cons (by decide), hasDollars_quoteLiteral, hasDollars_cons hc, Bool.or_assoc]

theorem hasDollars_intercalate {α : Type} (sql : α → String) (dollars : α → Bool)
    (h : ∀ x, ∀ c, c ≠ '$' → ∀ rest, hasDollars ((sql x).toList ++ c :: rest) =
      (dollars x || hasDollars rest)) (xs : List α) {c : Char} (hc : c ≠ '$') (rest : List Char) :
    hasDollars ((String.intercalate ", " (xs.map sql)).toList ++ c :: rest) =
      (xs.any dollars || hasDollars rest) := by
  rw [String.toList_intercalate, show ", ".toList = [',', ' '] from rfl]
  induction xs with
  | nil => simp [List.intercalate, hasDollars_cons hc]
  | cons x xs ih =>
    cases xs with
    | nil => simpa [List.intercalate] using h x c hc rest
    | cons y ys =>
      simp only [List.map_cons, List.intercalate_cons_cons, List.append_assoc] at ih ⊢
      rw [List.cons_append, List.cons_append, List.nil_append, h x ',' (by decide),
        hasDollars_cons (by decide), ih]
      simp [Bool.or_assoc]

theorem feed_columnsSql (schema : String) (columns : List ColumnRef) (rest : List Char) :
    feed .start ((columnsSql schema (columns.map ColumnRef.text)).toList ++ ')' :: rest) =
      prepend (columnsTokens schema columns) (feed .start (')' :: rest)) := by
  rw [columnsSql, List.map_map]
  exact feed_intercalate _ (columnTokens schema) (fun column _ => feed_column schema column) _ _

theorem feed_optionsSql (options : List (String × String)) (rest : List Char) :
    feed .start ((String.intercalate ", " (options.map optionSql)).toList ++ ')' :: rest) =
      prepend (optionsTokens options) (feed .start (')' :: rest)) :=
  feed_intercalate _ _ (fun option _ => feed_option option) _ _

theorem hasDollars_columnsSql {schema : String} (hschema : hasDollars schema.toList = false)
    (columns : List ColumnRef) (rest : List Char) :
    hasDollars ((columnsSql schema (columns.map ColumnRef.text)).toList ++ ')' :: rest) =
      (columns.any (fun column => hasDollars column.1.toList) || hasDollars rest) := by
  rw [columnsSql, List.map_map]
  exact hasDollars_intercalate _ _ (fun column _ => hasDollars_columnSql hschema column) _
    (by decide) _

theorem hasDollars_optionsSql (options : List (String × String)) (rest : List Char) :
    hasDollars ((String.intercalate ", " (options.map optionSql)).toList ++ ')' :: rest) =
      (options.any (fun option => hasDollars option.1.toList || hasDollars option.2.toList) ||
        hasDollars rest) :=
  hasDollars_intercalate _ _ (fun option _ => hasDollars_optionSql option) _ (by decide) _

theorem isDo_createCompositeTypeSql (schema typeName : String) (columns : List ColumnRef) :
    IsDo (createCompositeTypeSql schema ⟨typeName, columns.map ColumnRef.text⟩)
      (createCompositeTypeTokens schema typeName columns)
      (schema :: typeName :: columns.map Prod.fst) := by
  have htext : createCompositeTypeSql schema ⟨typeName, columns.map ColumnRef.text⟩ =
      guardedSql ("CREATE TYPE " ++ (quoteIdent schema ++ "." ++ quoteIdent typeName) ++ " AS (" ++
        columnsSql schema (columns.map ColumnRef.text) ++ ")") "duplicate_object" := by
    have hleft : "DO $$ BEGIN CREATE TYPE " = "DO $$ BEGIN " ++ "CREATE TYPE " := by decide
    have hright : "); EXCEPTION WHEN duplicate_object THEN NULL; END $$;" =
        ")" ++ "; EXCEPTION WHEN " ++ "duplicate_object" ++ " THEN NULL; END $$;" := by
      decide
    change "DO $$ BEGIN CREATE TYPE " ++ (quoteIdent schema ++ "." ++ quoteIdent typeName) ++
        " AS (" ++ columnsSql schema (columns.map ColumnRef.text) ++
        "); EXCEPTION WHEN duplicate_object THEN NULL; END $$;" =
      "DO $$ BEGIN " ++ ("CREATE TYPE " ++ (quoteIdent schema ++ "." ++ quoteIdent typeName) ++
        " AS (" ++ columnsSql schema (columns.map ColumnRef.text) ++ ")") ++ "; EXCEPTION WHEN " ++
        "duplicate_object" ++ " THEN NULL; END $$;"
    rw [hleft, hright]
    simp only [String.append_assoc]
  have hdot : ".".toList = ['.'] := rfl
  have hparen : ")".toList = [')'] := rfl
  rw [htext]
  apply isDo_guardedSql
  · intro rest
    have hcommand : feed .start "CREATE TYPE ".toList =
        some ([.word "create", .word "type"], .start) := by decide
    have hopen : " AS (".toList = ' ' :: "AS (".toList := by decide
    have has : feed .start "AS (".toList = some ([.word "as", .punct '('], .start) := by
      decide
    simp only [String.toList_append, List.append_assoc]
    rw [hdot, hparen, hopen, feed_text hcommand, List.singleton_append, feed_quoteIdent _ (by decide),
      feed_punct (by decide), List.cons_append, feed_quoteIdent _ (by decide), feed_space,
      feed_text has, List.singleton_append, feed_columnsSql, feed_punct (by decide)]
    simp
  · have hcommand : '$' ∉ "CREATE TYPE ".toList := by decide
    have has : '$' ∉ " AS (".toList := by decide
    simp only [String.toList_append, List.append_assoc]
    rw [hdot, hparen, hasDollars_text hcommand, hasDollars_quoteIdent, List.singleton_append,
      hasDollars_cons (by decide), hasDollars_quoteIdent, hasDollars_text has]
    cases hschema : hasDollars schema.toList with
    | true => simp [hschema]
    | false =>
      rw [hasDollars_columnsSql hschema]
      simp [hschema, hasDollars_nil]
  · decide

theorem isDo_createForeignTableSql (server schema table : String)
    (options : List (String × String)) (columns : List ColumnRef) :
    IsDo (createForeignTableSql server schema table options (columns.map ColumnRef.text))
      (createForeignTableTokens server schema table options columns)
      (server :: schema :: table :: (columns.map Prod.fst ++
        options.flatMap fun option => [option.1, option.2])) := by
  have htext : createForeignTableSql server schema table options (columns.map ColumnRef.text) =
      guardedSql ("CREATE FOREIGN TABLE " ++ quoteIdent schema ++ "." ++ quoteIdent table ++ " (" ++
        columnsSql schema (columns.map ColumnRef.text) ++ ") SERVER " ++ quoteIdent server ++
        " OPTIONS (" ++ String.intercalate ", " (options.map optionSql) ++ ")")
        "duplicate_table" := by
    have hleft : "DO $$ BEGIN CREATE FOREIGN TABLE " =
        "DO $$ BEGIN " ++ "CREATE FOREIGN TABLE " := by decide
    have hright : "); EXCEPTION WHEN duplicate_table THEN NULL; END $$;" =
        ")" ++ "; EXCEPTION WHEN " ++ "duplicate_table" ++ " THEN NULL; END $$;" := by
      decide
    change "DO $$ BEGIN CREATE FOREIGN TABLE " ++ quoteIdent schema ++ "." ++ quoteIdent table ++
        " (" ++ columnsSql schema (columns.map ColumnRef.text) ++ ") SERVER " ++
        quoteIdent server ++ " OPTIONS (" ++ String.intercalate ", " (options.map optionSql) ++
        "); EXCEPTION WHEN duplicate_table THEN NULL; END $$;" =
      "DO $$ BEGIN " ++ ("CREATE FOREIGN TABLE " ++ quoteIdent schema ++ "." ++ quoteIdent table ++
        " (" ++ columnsSql schema (columns.map ColumnRef.text) ++ ") SERVER " ++
        quoteIdent server ++ " OPTIONS (" ++ String.intercalate ", " (options.map optionSql) ++
        ")") ++ "; EXCEPTION WHEN " ++ "duplicate_table" ++ " THEN NULL; END $$;"
    rw [hleft, hright]
    simp only [String.append_assoc]
  have hdot : ".".toList = ['.'] := rfl
  have hparen : ")".toList = [')'] := rfl
  have hcolumns : " (".toList = [' ', '('] := rfl
  have hserver : ") SERVER ".toList = ')' :: " SERVER ".toList := by decide
  have hoptions : " OPTIONS (".toList = ' ' :: "OPTIONS (".toList := by decide
  rw [htext]
  apply isDo_guardedSql
  · intro rest
    have hcommand : feed .start "CREATE FOREIGN TABLE ".toList =
        some ([.word "create", .word "foreign", .word "table"], .start) := by decide
    have hserver' : feed .start " SERVER ".toList = some ([.word "server"], .start) := by
      decide
    have hoptions' : feed .start "OPTIONS (".toList =
        some ([.word "options", .punct '('], .start) := by decide
    simp only [String.toList_append, List.append_assoc]
    rw [hdot, hparen, hcolumns, hserver, hoptions]
    simp only [List.cons_append, List.nil_append]
    rw [feed_text hcommand, feed_quoteIdent _ (by decide), feed_punct (by decide),
      feed_quoteIdent _ (by decide), feed_space, feed_punct (by decide), feed_columnsSql,
      feed_punct (by decide), feed_text hserver', feed_quoteIdent _ (by decide), feed_space,
      feed_text hoptions', feed_optionsSql, feed_punct (by decide)]
    simp
  · have hcommand : '$' ∉ "CREATE FOREIGN TABLE ".toList := by decide
    have hserver' : '$' ∉ " SERVER ".toList := by decide
    have hoptions' : '$' ∉ "OPTIONS (".toList := by decide
    simp only [String.toList_append, List.append_assoc]
    rw [hdot, hparen, hcolumns, hserver, hoptions]
    simp only [List.cons_append, List.nil_append]
    rw [hasDollars_text hcommand, hasDollars_quoteIdent, hasDollars_cons (by decide),
      hasDollars_quoteIdent, hasDollars_cons (by decide), hasDollars_cons (by decide)]
    cases hschema : hasDollars schema.toList with
    | true => simp [hschema]
    | false =>
      rw [hasDollars_columnsSql hschema, hasDollars_text hserver', hasDollars_quoteIdent,
        hasDollars_cons (by decide), hasDollars_text hoptions', hasDollars_optionsSql]
      simp only [hschema, hasDollars_nil, Bool.or_false, Bool.false_or, Bool.or_eq_false_iff,
        List.any_eq_false, Bool.not_eq_true, List.forall_mem_cons, List.forall_mem_append,
        List.forall_mem_map, List.forall_mem_flatMap, List.not_mem_nil, false_implies,
        implies_true, and_true]
      tauto
  · decide

theorem TypeRef.plain_tokens (schema : String) (ty : TypeRef) :
    ∀ t ∈ ty.tokens schema, t.plain = true := by
  induction ty with
  | base type =>
    have hname : ∀ name ∈ baseTypes.map Prod.fst, (Token.word name).plain = true := by
      decide
    intro t ht
    rw [List.mem_singleton.mp ht]
    exact hname _ (pgTypeForLeaf_mem type)
  | composite table path => simp [tokens, Token.plain]
  | array elem ih =>
    intro t ht
    cases List.mem_append.mp ht with
    | inl helem => exact ih t helem
    | inr hbracket =>
      simp only [List.mem_cons, List.not_mem_nil, or_false] at hbracket
      rcases hbracket with rfl | rfl <;> rfl

theorem plain_columnsTokens (schema : String) (columns : List ColumnRef) :
    ∀ t ∈ columnsTokens schema columns, t.plain = true := by
  refine Text.forall_mem_intercalate (by decide) ?_
  rw [List.forall_mem_map]
  intro column _
  rw [columnTokens, List.forall_mem_cons]
  exact ⟨rfl, column.2.plain_tokens schema⟩

theorem plain_guardedTokens {command : List Token} (h : ∀ t ∈ command, t.plain = true)
    {condition : String}
    (hcondition : condition ∈ ["duplicate_schema", "duplicate_object", "duplicate_table"]) :
    ∀ t ∈ guardedTokens command condition, t.plain = true := by
  have hhandler : ∀ condition ∈ ["duplicate_schema", "duplicate_object", "duplicate_table"],
      ∀ t ∈ guardedTokens [] condition, t.plain = true := by decide
  have hwords := hhandler condition hcondition
  simp only [guardedTokens, List.cons_append, List.nil_append, List.forall_mem_cons,
    List.forall_mem_append] at hwords ⊢
  exact ⟨hwords.1, h, hwords.2⟩

theorem IsDo.readDo_iff {sql : String} {tokens : List Token} {names : List String}
    (h : IsDo sql tokens names) (hplain : ∀ t ∈ tokens, t.plain = true) :
    readDo sql.toList = some tokens ↔ ∀ name ∈ names, hasDollars name.toList = false := by
  obtain ⟨body, htext, hfeed, hdollars⟩ := h
  rw [htext, SqlText.readDo_iff hfeed hplain, hdollars]

/-- The generated statements are read as the commands that were asked for exactly when no name,
key or value in them contains a `$$`. -/
theorem readDo_ddl_iff (server schema table typeName : String) (options : List (String × String))
    (columns : List ColumnRef) :
    (readDo (createSchemaSql schema).toList = some (createSchemaTokens schema) ↔
      hasDollars schema.toList = false) ∧
    (readDo (createCompositeTypeSql schema ⟨typeName, columns.map ColumnRef.text⟩).toList =
        some (createCompositeTypeTokens schema typeName columns) ↔
      ∀ name ∈ schema :: typeName :: columns.map Prod.fst, hasDollars name.toList = false) ∧
    (readDo (createForeignTableSql server schema table options
        (columns.map ColumnRef.text)).toList =
        some (createForeignTableTokens server schema table options columns) ↔
      ∀ name ∈ server :: schema :: table :: (columns.map Prod.fst ++
        options.flatMap fun option => [option.1, option.2]), hasDollars name.toList = false) := by
  refine ⟨?_, ?_, ?_⟩
  · rw [(isDo_createSchemaSql schema).readDo_iff, List.forall_mem_singleton]
    apply plain_guardedTokens
    · simp only [List.forall_mem_cons]
      exact ⟨by decide, by decide, rfl, by simp⟩
    · decide
  · apply (isDo_createCompositeTypeSql schema typeName columns).readDo_iff
    apply plain_guardedTokens
    · simp only [List.forall_mem_append, List.forall_mem_cons]
      exact ⟨⟨⟨by decide, by decide, rfl, rfl, rfl, by decide, rfl, by simp⟩,
        plain_columnsTokens schema columns⟩, rfl, by simp⟩
    · decide
  · have hoptions : ∀ t ∈ optionsTokens options, t.plain = true := by
      refine Text.forall_mem_intercalate (by decide) ?_
      rw [List.forall_mem_map]
      intro option _
      simp [Token.plain]
    apply (isDo_createForeignTableSql server schema table options columns).readDo_iff
    apply plain_guardedTokens
    · simp only [List.forall_mem_append, List.forall_mem_cons]
      exact ⟨⟨⟨⟨⟨by decide, by decide, by decide, rfl, rfl, rfl, rfl, by simp⟩,
        plain_columnsTokens schema columns⟩, rfl, by decide, rfl, by decide, rfl, by simp⟩,
        hoptions⟩, rfl, by simp⟩
    · decide

/-- The name of the column ends the body of the statement, and what comes after the name's `$$`
is read as SQL. -/
theorem createForeignTableSql_dollars :
    let sql := createForeignTableSql "srv" "public" "t" [("uri", "/d")]
      [("a$$; DROP TABLE accounts; --", "int4")]
    lex sql.toList = some [.word "do",
      .dollar " BEGIN CREATE FOREIGN TABLE \"public\".\"t\" (\"a", .punct ';', .word "drop",
      .word "table", .word "accounts", .punct ';', .comment] ∧
    readDo sql.toList ≠ some (createForeignTableTokens "srv" "public" "t" [("uri", "/d")]
      [("a$$; DROP TABLE accounts; --", .base .int32)]) := by
  decide +kernel

end PgLance
