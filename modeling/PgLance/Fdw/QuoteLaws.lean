import PgLance.Fdw.Attach
import PgLance.Fdw.DdlLaws
import PgLance.Library.SqlTemplate

/-! Quoted names and values as PostgreSQL reads them back, on their own and in the statements
that are sent without a `DO` block: the drop of a foreign table and the catalogue lookups. -/

namespace PgLance

open SqlText

def relkindSql (schema table : String) : String :=
  "SELECT ( SELECT c.relkind::text FROM pg_class c " ++
    "JOIN pg_namespace n ON n.oid = c.relnamespace " ++
    "WHERE n.nspname = " ++ quoteLiteral schema ++ " AND c.relname = " ++ quoteLiteral table ++ " )"

def detailsSql (schema table : String) : String :=
  "SELECT ( SELECT fs.srvname FROM pg_class c " ++
    "JOIN pg_namespace n ON n.oid = c.relnamespace " ++
    "JOIN pg_foreign_table ft ON ft.ftrelid = c.oid " ++
    "JOIN pg_foreign_server fs ON fs.oid = ft.ftserver " ++
    "WHERE n.nspname = " ++ quoteLiteral schema ++ " AND c.relname = " ++ quoteLiteral table ++
    " LIMIT 1 ), ( SELECT opt.option_value FROM pg_class c " ++
    "JOIN pg_namespace n ON n.oid = c.relnamespace " ++
    "JOIN pg_foreign_table ft ON ft.ftrelid = c.oid " ++
    "LEFT JOIN LATERAL pg_options_to_table(ft.ftoptions) opt ON opt.option_name = " ++
    quoteLiteral optNsTableId ++
    " WHERE n.nspname = " ++ quoteLiteral schema ++ " AND c.relname = " ++ quoteLiteral table ++
    " LIMIT 1 )"

def localNamespaceTablesSql (serverName : String) : String :=
  "SELECT n.nspname::text AS local_schema, c.relname::text AS local_table, " ++
    "c.oid::bigint AS relid, opt.option_value AS table_id_json, " ++
    "opt_bs.option_value AS batch_size FROM pg_class c " ++
    "JOIN pg_namespace n ON n.oid = c.relnamespace " ++
    "JOIN pg_foreign_table ft ON ft.ftrelid = c.oid " ++
    "JOIN pg_foreign_server fs ON fs.oid = ft.ftserver " ++
    "JOIN LATERAL pg_options_to_table(ft.ftoptions) opt ON opt.option_name = " ++
    quoteLiteral optNsTableId ++
    " LEFT JOIN LATERAL pg_options_to_table(ft.ftoptions) opt_bs ON opt_bs.option_name = " ++
    quoteLiteral optBatchSize ++
    " WHERE fs.srvname = " ++ quoteLiteral serverName ++ " ORDER BY n.nspname, c.relname"

/-! The same statements as fixed text with arguments in it. -/

structure Template where
  pieces : List Piece
  last : String

namespace Template

def chars (template : Template) : List Char := formatChars template.pieces template.last

def tokens (template : Template) : List Token := formatTokens template.pieces template.last

def dropForeignTable (schema table : String) : Template where
  pieces := [("DROP FOREIGN TABLE ", .ident schema), (".", .ident table)]
  last := ";"

def relkind (schema table : String) : Template where
  pieces :=
    [("SELECT ( SELECT c.relkind::text FROM pg_class c " ++
        "JOIN pg_namespace n ON n.oid = c.relnamespace " ++
        "WHERE n.nspname = ", .literal schema),
      (" AND c.relname = ", .literal table)]
  last := " )"

def details (schema table : String) : Template where
  pieces :=
    [("SELECT ( SELECT fs.srvname FROM pg_class c " ++
        "JOIN pg_namespace n ON n.oid = c.relnamespace " ++
        "JOIN pg_foreign_table ft ON ft.ftrelid = c.oid " ++
        "JOIN pg_foreign_server fs ON fs.oid = ft.ftserver " ++
        "WHERE n.nspname = ", .literal schema),
      (" AND c.relname = ", .literal table),
      (" LIMIT 1 ), ( SELECT opt.option_value FROM pg_class c " ++
        "JOIN pg_namespace n ON n.oid = c.relnamespace " ++
        "JOIN pg_foreign_table ft ON ft.ftrelid = c.oid " ++
        "LEFT JOIN LATERAL pg_options_to_table(ft.ftoptions) opt ON opt.option_name = ",
        .literal optNsTableId),
      (" WHERE n.nspname = ", .literal schema),
      (" AND c.relname = ", .literal table)]
  last := " LIMIT 1 )"

def localNamespaceTables (serverName : String) : Template where
  pieces :=
    [("SELECT n.nspname::text AS local_schema, c.relname::text AS local_table, " ++
        "c.oid::bigint AS relid, opt.option_value AS table_id_json, " ++
        "opt_bs.option_value AS batch_size FROM pg_class c " ++
        "JOIN pg_namespace n ON n.oid = c.relnamespace " ++
        "JOIN pg_foreign_table ft ON ft.ftrelid = c.oid " ++
        "JOIN pg_foreign_server fs ON fs.oid = ft.ftserver " ++
        "JOIN LATERAL pg_options_to_table(ft.ftoptions) opt ON opt.option_name = ",
        .literal optNsTableId),
      (" LEFT JOIN LATERAL pg_options_to_table(ft.ftoptions) opt_bs ON opt_bs.option_name = ",
        .literal optBatchSize),
      (" WHERE fs.srvname = ", .literal serverName)]
  last := " ORDER BY n.nspname, c.relname"

theorem chars_ident (s : String) : (Argument.ident s).chars = (quoteIdent s).toList := by
  rw [toList_quoteIdent]
  rfl

theorem chars_literal (s : String) : (Argument.literal s).chars = (quoteLiteral s).toList := by
  rw [toList_quoteLiteral]
  rfl

theorem chars_dropForeignTable (schema table : String) :
    (dropForeignTable schema table).chars = (dropForeignTableSql schema table).toList := by
  unfold chars dropForeignTable dropForeignTableSql
  simp only [formatChars, chars_ident, String.toList_append, List.append_assoc]

theorem chars_relkind (schema table : String) :
    (relkind schema table).chars = (relkindSql schema table).toList := by
  unfold chars relkind relkindSql
  simp only [formatChars, chars_literal, String.toList_append, List.append_assoc]

theorem chars_details (schema table : String) :
    (details schema table).chars = (detailsSql schema table).toList := by
  unfold chars details detailsSql
  simp only [formatChars, chars_literal, String.toList_append, List.append_assoc]

theorem chars_localNamespaceTables (serverName : String) :
    (localNamespaceTables serverName).chars = (localNamespaceTablesSql serverName).toList := by
  unfold chars localNamespaceTables localNamespaceTablesSql
  simp only [formatChars, chars_literal, String.toList_append, List.append_assoc]

end Template

/-- What PostgreSQL makes of a token: a name is cut to 63 bytes, and a quoted one is not
empty. -/
def storeToken : Token → Option Token
  | .word s => some (.word (truncateIdentifier s))
  | .ident s => if s = "" then none else some (.ident (truncateIdentifier s))
  | token => some token

def Storable (name : String) : Prop := name ≠ "" ∧ name.utf8ByteSize ≤ 63

instance (name : String) : Decidable (Storable name) := by
  unfold Storable
  infer_instance

theorem truncateIdentifier_eq_iff (name : String) :
    truncateIdentifier name = name ↔ name.utf8ByteSize ≤ 63 := by
  constructor
  · intro h
    by_contra hlong
    rw [truncateIdentifier, if_pos (by omega)] at h
    have hclip := utf8ByteSize_mbCharClip 63 name.toList
    rw [h] at hclip
    exact hlong hclip
  · exact truncateIdentifier_of_le

theorem storeToken_ident_iff (name : String) :
    storeToken (.ident name) = some (.ident name) ↔ Storable name := by
  simp only [storeToken, Storable]
  split <;> simp [*, truncateIdentifier_eq_iff]

def readIdent : List Char → Option (String × List Char)
  | [] => none
  | c :: cs =>
    if c = '"' then
      match readDelimited false [] cs with
      | some (name, rest) =>
        if name = [] then none else some (truncateIdentifier (String.ofList name), rest)
      | none => none
    else none

def readLiteral : List Char → Option (String × List Char)
  | [] => none
  | c :: cs =>
    if c = '\'' then
      (readConstant none [] cs).map fun (value, rest) => (String.ofList value, rest)
    else none

theorem readIdent_quoteIdent {s : String} (hs : '\x00' ∉ s.toList) {rest : List Char}
    (hrest : rest.head? ≠ some '"') :
    readIdent ((quoteIdent s).toList ++ rest) =
      if s = "" then none else some (truncateIdentifier s, rest) := by
  have hread := readDelimited_double [] hs rest
  rw [List.nil_append, readDelimited_stop _ hrest] at hread
  have htext : (quoteIdent s).toList ++ rest =
      '"' :: (double '"' s.toList ++ '"' :: rest) := by simp [toList_quoteIdent]
  rw [htext, readIdent, if_pos rfl, hread]
  simp [String.ofList_toList]

theorem readIdent_quoteIdent_iff {s : String} (hs : '\x00' ∉ s.toList) {rest : List Char}
    (hrest : rest.head? ≠ some '"') :
    readIdent ((quoteIdent s).toList ++ rest) = some (s, rest) ↔ Storable s := by
  rw [readIdent_quoteIdent hs hrest, Storable]
  split <;> simp [*, truncateIdentifier_eq_iff]

theorem readLiteral_quoteLiteral_iff {s : String} (hs : '\x00' ∉ s.toList) (rest : List Char) :
    readLiteral ((quoteLiteral s).toList ++ rest) = some (s, rest) ↔
      goesOn .quote rest = false := by
  have htext : (quoteLiteral s).toList ++ rest =
      '\'' :: (double '\'' s.toList ++ '\'' :: rest) := by simp [toList_quoteLiteral]
  rw [htext, readLiteral, if_pos rfl, ← readConstant_double_iff hs]
  constructor
  · intro h
    obtain ⟨⟨value, rest'⟩, hread, heq⟩ := Option.map_eq_some_iff.mp h
    cases heq
    rw [hread, String.toList_ofList]
  · intro hread
    simp [hread, String.ofList_toList]

def Kept (text : String) : Prop := Fixed text ∧ ∀ t ∈ lexed text, storeToken t = some t

instance (text : String) : Decidable (Kept text) := by
  unfold Kept
  infer_instance

def Leads (text : String) : Prop := Kept text ∧ Complete text

instance (text : String) : Decidable (Leads text) := by
  unfold Leads
  infer_instance

theorem Leads.append {first second : String} (hfirst : Leads first) (hsecond : Leads second) :
    Leads (first ++ second) := by
  obtain ⟨⟨hfixed, hkept⟩, hcomplete⟩ := hfirst
  obtain ⟨⟨hfixed', hkept'⟩, hcomplete'⟩ := hsecond
  have hlexed : lexed (first ++ second) = lexed first ++ lexed second := by
    rw [lexed, hcomplete.lex_append hfixed', Option.getD_some]
  refine ⟨⟨hfixed.append hcomplete hfixed', ?_⟩, hcomplete.append hcomplete'⟩
  rw [hlexed, List.forall_mem_append]
  exact ⟨hkept, hkept'⟩

theorem leads_namespace : Leads "JOIN pg_namespace n ON n.oid = c.relnamespace " := by
  decide +kernel

theorem leads_table : Leads "JOIN pg_foreign_table ft ON ft.ftrelid = c.oid " := by
  decide +kernel

theorem leads_server : Leads "JOIN pg_foreign_server fs ON fs.oid = ft.ftserver " := by
  decide +kernel

namespace Template

def texts (template : Template) : List String := template.pieces.map Prod.fst

def arguments (template : Template) : List Argument := template.pieces.map Prod.snd

structure Sound (template : Template) : Prop where
  texts : ∀ text ∈ template.texts, Leads text
  last : Kept template.last

theorem sound_dropForeignTable (schema table : String) : (dropForeignTable schema table).Sound := by
  constructor
  · change ∀ text ∈ ["DROP FOREIGN TABLE ", "."], Leads text
    decide +kernel
  · change Kept ";"
    decide +kernel

theorem sound_relkind (schema table : String) : (relkind schema table).Sound := by
  constructor
  · have hselect : Leads "SELECT ( SELECT c.relkind::text FROM pg_class c " := by decide +kernel
    have hnspname : Leads "WHERE n.nspname = " := by decide +kernel
    have hrelname : Leads " AND c.relname = " := by decide +kernel
    exact List.forall_mem_cons.mpr ⟨(hselect.append leads_namespace).append hnspname,
      List.forall_mem_singleton.mpr hrelname⟩
  · change Kept " )"
    decide +kernel

theorem sound_details (schema table : String) : (details schema table).Sound := by
  constructor
  · have hserver : Leads "SELECT ( SELECT fs.srvname FROM pg_class c " := by decide +kernel
    have hnspname : Leads "WHERE n.nspname = " := by decide +kernel
    have hoption : Leads " LIMIT 1 ), ( SELECT opt.option_value FROM pg_class c " := by
      decide +kernel
    have hname : Leads
        "LEFT JOIN LATERAL pg_options_to_table(ft.ftoptions) opt ON opt.option_name = " := by
      decide +kernel
    have hrest : ∀ text ∈ [" WHERE n.nspname = ", " AND c.relname = "], Leads text := by
      decide +kernel
    have hrelname := hrest _ (List.mem_cons_of_mem _ List.mem_cons_self)
    exact List.forall_mem_cons.mpr
      ⟨(((hserver.append leads_namespace).append leads_table).append leads_server).append hnspname,
        List.forall_mem_cons.mpr ⟨hrelname, List.forall_mem_cons.mpr
          ⟨((hoption.append leads_namespace).append leads_table).append hname, hrest⟩⟩⟩
  · change Kept " LIMIT 1 )"
    decide +kernel

theorem sound_localNamespaceTables (serverName : String) :
    (localNamespaceTables serverName).Sound := by
  constructor
  · have hnames : Leads
        "SELECT n.nspname::text AS local_schema, c.relname::text AS local_table, " := by
      decide +kernel
    have hvalues : Leads "c.oid::bigint AS relid, opt.option_value AS table_id_json, " := by
      decide +kernel
    have hsize : Leads "opt_bs.option_value AS batch_size FROM pg_class c " := by decide +kernel
    have hname : Leads
        "JOIN LATERAL pg_options_to_table(ft.ftoptions) opt ON opt.option_name = " := by
      decide +kernel
    have hrest : ∀ text ∈
        [" LEFT JOIN LATERAL pg_options_to_table(ft.ftoptions) opt_bs ON opt_bs.option_name = ",
          " WHERE fs.srvname = "], Leads text := by
      decide +kernel
    exact List.forall_mem_cons.mpr ⟨(((((hnames.append hvalues).append hsize).append
      leads_namespace).append leads_table).append leads_server).append hname, hrest⟩
  · change Kept " ORDER BY n.nspname, c.relname"
    decide +kernel

/-- A statement is read as its fixed text with its arguments in it exactly when PostgreSQL keeps
the arguments. -/
theorem readSql_iff {template : Template} (h : template.Sound)
    (hargs : ∀ arg ∈ template.arguments, '\x00' ∉ arg.value.toList) :
    readSql storeToken template.chars = some template.tokens ↔
      ∀ arg ∈ template.arguments, storeToken arg.token = some arg.token := by
  have htexts := h.texts
  rw [texts, List.forall_mem_map] at htexts
  rw [arguments, List.forall_mem_map] at hargs ⊢
  exact readSql_formatChars_iff ⟨fun p hp => ⟨(htexts p hp).1.1, (htexts p hp).2⟩, h.last.1⟩ hargs
    (fun p hp => (htexts p hp).1.2) h.last.2

theorem readSql_literals {template : Template} (h : template.Sound) {values : List String}
    (hvalues : template.arguments = values.map .literal)
    (hnul : ∀ value ∈ values, '\x00' ∉ value.toList) :
    readSql storeToken template.chars = some template.tokens := by
  rw [readSql_iff h] <;> rw [hvalues, List.forall_mem_map]
  · intro value _
    rfl
  · exact hnul

end Template

def dropForeignTableTokens (schema table : String) : List Token :=
  [.word "drop", .word "foreign", .word "table", .ident schema, .punct '.', .ident table,
    .punct ';']

theorem tokens_dropForeignTable (schema table : String) :
    (Template.dropForeignTable schema table).tokens = dropForeignTableTokens schema table := by
  have hdrop : lexed "DROP FOREIGN TABLE " = [.word "drop", .word "foreign", .word "table"] := by
    decide
  have hdot : lexed "." = [.punct '.'] := by decide
  have hsemi : lexed ";" = [.punct ';'] := by decide
  simp only [Template.tokens, Template.dropForeignTable, formatTokens, hdrop, hdot, hsemi]
  rfl

theorem readSql_dropForeignTable_iff {schema table : String} (hschema : '\x00' ∉ schema.toList)
    (htable : '\x00' ∉ table.toList) :
    readSql storeToken (dropForeignTableSql schema table).toList =
        some (dropForeignTableTokens schema table) ↔
      Storable schema ∧ Storable table := by
  have hargs : (Template.dropForeignTable schema table).arguments =
      [.ident schema, .ident table] := rfl
  rw [← Template.chars_dropForeignTable, ← tokens_dropForeignTable,
    Template.readSql_iff (Template.sound_dropForeignTable schema table)]
  · simp [hargs, Argument.token, storeToken_ident_iff]
  · simpa [hargs, Argument.value] using ⟨hschema, htable⟩

theorem readSql_lookups {schema table serverName : String} (hschema : '\x00' ∉ schema.toList)
    (htable : '\x00' ∉ table.toList) (hserver : '\x00' ∉ serverName.toList) :
    readSql storeToken (relkindSql schema table).toList =
        some (Template.relkind schema table).tokens ∧
      readSql storeToken (detailsSql schema table).toList =
        some (Template.details schema table).tokens ∧
      readSql storeToken (localNamespaceTablesSql serverName).toList =
        some (Template.localNamespaceTables serverName).tokens := by
  have hid : '\x00' ∉ optNsTableId.toList := by decide
  have hsize : '\x00' ∉ optBatchSize.toList := by decide
  refine ⟨?_, ?_, ?_⟩
  · have hargs : (Template.relkind schema table).arguments = [schema, table].map .literal := rfl
    rw [← Template.chars_relkind]
    apply Template.readSql_literals (Template.sound_relkind schema table) hargs
    simp [hschema, htable]
  · have hargs : (Template.details schema table).arguments =
        [schema, table, optNsTableId, schema, table].map .literal := rfl
    rw [← Template.chars_details]
    apply Template.readSql_literals (Template.sound_details schema table) hargs
    simp [hschema, htable, hid]
  · have hargs : (Template.localNamespaceTables serverName).arguments =
        [optNsTableId, optBatchSize, serverName].map .literal := rfl
    rw [← Template.chars_localNamespaceTables]
    apply Template.readSql_literals (Template.sound_localNamespaceTables serverName) hargs
    simp [hid, hsize, hserver]

/-- A quoted name is read back with what follows it exactly when it is storable, and a quoted
value exactly when the constant does not go on behind it. The drop of a foreign table names the
table that was asked for exactly when both of its names are storable, and the lookups always
compare with the values that they were given. -/
theorem quoting_read_back {s schema table serverName : String} (hs : '\x00' ∉ s.toList)
    (hschema : '\x00' ∉ schema.toList) (htable : '\x00' ∉ table.toList)
    (hserver : '\x00' ∉ serverName.toList) (rest : List Char) :
    (rest.head? ≠ some '"' →
      readIdent ((quoteIdent s).toList ++ rest) =
        (if s = "" then none else some (truncateIdentifier s, rest)) ∧
      (readIdent ((quoteIdent s).toList ++ rest) = some (s, rest) ↔ Storable s)) ∧
    (readLiteral ((quoteLiteral s).toList ++ rest) = some (s, rest) ↔
      rest.head? ≠ some '\'' ∧ goesOn .blank rest = false) ∧
    (readSql storeToken (dropForeignTableSql schema table).toList =
        some (dropForeignTableTokens schema table) ↔
      Storable schema ∧ Storable table) ∧
    readSql storeToken (relkindSql schema table).toList =
      some (Template.relkind schema table).tokens ∧
    readSql storeToken (detailsSql schema table).toList =
      some (Template.details schema table).tokens ∧
    readSql storeToken (localNamespaceTablesSql serverName).toList =
      some (Template.localNamespaceTables serverName).tokens := by
  refine ⟨?_, ?_, readSql_dropForeignTable_iff hschema htable,
    readSql_lookups hschema htable hserver⟩
  · intro hrest
    exact ⟨readIdent_quoteIdent hs hrest, readIdent_quoteIdent_iff hs hrest⟩
  · rw [readLiteral_quoteLiteral_iff hs, goesOn_quote]

theorem quoting_read_back_names :
    readIdent ((quoteIdent "a\"\"").toList ++ ".\"b\"".toList) =
      some ("a\"\"", ".\"b\"".toList) ∧
    readLiteral ((quoteLiteral "'it''s'").toList ++ " LIMIT 1".toList) =
      some ("'it''s'", " LIMIT 1".toList) ∧
    readSql storeToken (dropForeignTableSql "a\".\"b" "t\"").toList =
      some (dropForeignTableTokens "a\".\"b" "t\"") := by
  have hident := @quoting_read_back "a\"\"" "a\".\"b" "t\"" "srv" (by decide) (by decide)
    (by decide) (by decide) ".\"b\"".toList
  have hliteral := @quoting_read_back "'it''s'" "a\".\"b" "t\"" "srv" (by decide) (by decide)
    (by decide) (by decide) " LIMIT 1".toList
  exact ⟨(hident.1 (by decide)).2.mpr (by decide), hliteral.2.1.mpr (by decide),
    hident.2.2.1.mpr (by decide)⟩

/-- A name that is empty or longer than 63 bytes, and a value before a line with another
constant on it. -/
theorem quoting_not_read_back :
    let long := String.ofList (List.replicate 64 'a')
    readIdent ((quoteIdent "").toList ++ [';']) ≠ some ("", [';']) ∧
    readIdent ((quoteIdent long).toList ++ [';']) ≠ some (long, [';']) ∧
    readLiteral ((quoteLiteral "a").toList ++ "\n'b'".toList) ≠ some ("a", "\n'b'".toList) ∧
    readSql storeToken (dropForeignTableSql "public" long).toList ≠
      some (dropForeignTableTokens "public" long) := by
  have hlong : '\x00' ∉ (String.ofList (List.replicate 64 'a')).toList := by
    rw [String.toList_ofList]
    decide
  have hsize : ¬ Storable (String.ofList (List.replicate 64 'a')) := by
    simp [Storable]
    decide
  refine ⟨?_, ?_, ?_, ?_⟩
  · rw [ne_eq, readIdent_quoteIdent_iff (by decide) (by decide)]
    decide
  · rw [ne_eq, readIdent_quoteIdent_iff hlong (by decide)]
    exact hsize
  · rw [ne_eq, readLiteral_quoteLiteral_iff (by decide)]
    decide
  · rw [ne_eq, readSql_dropForeignTable_iff (by decide) hlong]
    exact fun h => hsize h.2

end PgLance
