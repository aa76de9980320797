import PgLance.Fdw.DdlLaws

/-! Type texts in the form in which they are compared. -/

namespace PgLance

def typeAliases : List (String × String) :=
  [("boolean", "boolean"), ("int2", "int2"), ("smallint", "int2"), ("int4", "int4"),
    ("integer", "int4"), ("int8", "int8"), ("bigint", "int8"), ("float4", "float4"),
    ("real", "float4"), ("float8", "float8"), ("double precision", "float8"), ("text", "text"),
    ("bytea", "bytea"), ("date", "date"), ("timestamp", "timestamp"),
    ("timestamp without time zone", "timestamp"), ("timestamptz", "timestamptz"),
    ("timestamp with time zone", "timestamptz"), ("numeric", "numeric"), ("jsonb", "jsonb")]

def canonicalAlias (base : String) : String := (typeAliases.lookup base).getD base

def plainText (cs : List Char) : List Char :=
  Text.collapse (((Text.trim cs).map Char.toLower).filter (· ≠ '"'))

/-- The number of `[]` after a type's name, and the name without qualifiers. -/
def typeParts (input : String) : Nat × String :=
  let (dims, base) := Text.lastSegment (plainText input.toList)
  (dims, canonicalAlias (String.ofList base))

def withArrays (parts : Nat × String) : String :=
  parts.2 ++ String.join (List.replicate parts.1 "[]")

def canonicalTypeString (input : String) : String := withArrays (typeParts input)

theorem isWhitespace_toLower (c : Char) :
    Text.isWhitespace c.toLower = Text.isWhitespace c := by
  by_cases hupper : c.isUpper = true
  · have hlower : c.toLower.isLower = true := by
      rw [Char.isLower_toLower_eq_isAlpha, Char.isAlpha, hupper, Bool.true_or]
    have hspace : ∀ d : Char, d.isUpper = true ∨ d.isLower = true →
        Text.isWhitespace d = false := by
      intro d hd
      simp only [Char.isUpper, isLower_iff, decide_eq_true_eq,
        UInt32.le_iff_toNat_le, ge_iff_le] at hd
      change (65 ≤ d.toNat ∧ d.toNat ≤ 90) ∨ (97 ≤ d.toNat ∧ d.toNat ≤ 122) at hd
      exact Text.isWhitespace_of_printable (by omega)
    rw [hspace c (.inl hupper), hspace _ (.inr hlower)]
  · rw [Char.toLower_eq_of_not_isUpper hupper]

def lowerUnquoted (cs : List Char) : List Char := (cs.map Char.toLower).filter (· ≠ '"')

theorem lowerUnquoted_append (xs ys : List Char) :
    lowerUnquoted (xs ++ ys) = lowerUnquoted xs ++ lowerUnquoted ys := by
  simp [lowerUnquoted]

theorem lowerUnquoted_whitespace {cs : List Char} (h : ∀ c ∈ cs, Text.isWhitespace c = true) :
    ∀ c ∈ lowerUnquoted cs, Text.isWhitespace c = true := by
  intro c hc
  obtain ⟨d, hd, rfl⟩ := List.mem_map.mp (List.mem_filter.mp hc).1
  rw [isWhitespace_toLower]
  exact h d hd

theorem plainText_eq (cs : List Char) : plainText cs = Text.collapse (lowerUnquoted cs) := by
  obtain ⟨before, after, hcs, hbefore, hafter⟩ := Text.exists_trim cs
  conv => rhs; rw [hcs]
  rw [lowerUnquoted_append, lowerUnquoted_append, Text.collapse_padded
    (lowerUnquoted_whitespace hbefore) (lowerUnquoted_whitespace hafter)]
  rfl

theorem typeParts_qualified (before after : String) :
    typeParts (before ++ "." ++ after) = typeParts after := by
  have hdot : lowerUnquoted ['.'] = ['.'] := by decide
  simp only [typeParts, plainText_eq, String.toList_append, lowerUnquoted_append]
  rw [show ".".toList = ['.'] from rfl, hdot, List.append_assoc, List.singleton_append,
    Text.lastSegment_collapse_dot]

theorem typeParts_array (s : String) :
    typeParts (s ++ "[]") = ((typeParts s).1 + 1, (typeParts s).2) := by
  have hbrackets : lowerUnquoted ['[', ']'] = ['[', ']'] := by decide
  simp only [typeParts, plainText_eq, String.toList_append, lowerUnquoted_append]
  rw [show "[]".toList = ['[', ']'] from rfl, hbrackets, Text.lastSegment_collapse_brackets]

theorem typeParts_quoteIdent (name : String) : typeParts (quoteIdent name) = typeParts name := by
  have hdouble : ∀ cs, lowerUnquoted (SqlText.double '"' cs) = lowerUnquoted cs := by
    intro cs
    induction cs with
    | nil => rfl
    | cons c cs ih =>
      have hquotes : lowerUnquoted ['"', '"'] = lowerUnquoted ['"'] := by decide
      have hcons : lowerUnquoted (c :: cs) = lowerUnquoted [c] ++ lowerUnquoted cs :=
        lowerUnquoted_append [c] cs
      rw [SqlText.double, List.flatMap_cons, lowerUnquoted_append, hcons, ← ih]
      congr 1
      by_cases hc : c = '"'
      · rw [if_pos hc, hc, hquotes]
      · rw [if_neg hc]
  have hquote : lowerUnquoted ['"'] = [] := by decide
  rw [typeParts, typeParts, toList_quoteIdent, plainText_eq, plainText_eq,
    ← List.singleton_append, lowerUnquoted_append, lowerUnquoted_append, hdouble, hquote,
    List.nil_append, List.append_nil]

theorem typeParts_of_nameChars {name : String} (h : ∀ c ∈ name.toList, isNameChar c = true) :
    typeParts name = (0, canonicalAlias name) := by
  have hchars : ∀ c ∈ name.toList, Text.isWhitespace c = false ∧ c ≠ ']' ∧ c ≠ '.' ∧ c ≠ '"' ∧
      c.toLower = c := by
    intro c hc
    have hname := toNat_of_isNameChar (h c hc)
    have hne : ∀ d : Char, d.toNat ≠ c.toNat → c ≠ d := fun d hd heq => hd (heq ▸ rfl)
    refine ⟨Text.isWhitespace_of_printable (by omega), hne _ ?_, hne _ ?_, hne _ ?_, ?_⟩
    · change 93 ≠ c.toNat
      omega
    · change 46 ≠ c.toNat
      omega
    · change 34 ≠ c.toNat
      omega
    · apply Char.toLower_eq_of_not_isUpper
      simp only [Char.isUpper, decide_eq_true_eq, UInt32.le_iff_toNat_le, ge_iff_le]
      change ¬ (65 ≤ c.toNat ∧ c.toNat ≤ 90)
      omega
  have hlower : lowerUnquoted name.toList = name.toList := by
    rw [lowerUnquoted, List.map_congr_left (fun c hc => (hchars c hc).2.2.2.2), List.map_id']
    rw [List.filter_eq_self]
    intro c hc
    simpa using (hchars c hc).2.2.2.1
  have hsegment : Text.lastSegment name.toList = (0, name.toList) := by
    apply Text.lastSegment_of_forall
    intro c hc
    exact ⟨(hchars c hc).1, (hchars c hc).2.1, (hchars c hc).2.2.1⟩
  simp only [typeParts, plainText_eq, hlower,
    Text.collapse_of_forall (fun c hc => (hchars c hc).1), hsegment, String.ofList_toList]

theorem toList_withArrays (parts : Nat × String) :
    (withArrays parts).toList =
      parts.2.toList ++ (List.replicate parts.1 ['[', ']']).flatten := by
  have hbrackets : "[]".toList = ['[', ']'] := rfl
  simp only [withArrays, String.toList_append, String.toList_join, List.flatMap_replicate,
    hbrackets]

theorem append_brackets_inj {xs ys : List Char} (hxs : ∀ cs, xs ≠ cs ++ ['[', ']'])
    (hys : ∀ cs, ys ≠ cs ++ ['[', ']']) (m n : Nat)
    (h : xs ++ (List.replicate m ['[', ']']).flatten =
      ys ++ (List.replicate n ['[', ']']).flatten) : m = n ∧ xs = ys := by
  induction m generalizing n with
  | zero =>
    cases n with
    | zero => exact ⟨rfl, by simpa using h⟩
    | succ n =>
      rw [List.replicate_succ', List.flatten_append, ← List.append_assoc] at h
      exact absurd (by simpa using h) (hxs (ys ++ (List.replicate n ['[', ']']).flatten))
  | succ m ih =>
    cases n with
    | zero =>
      rw [List.replicate_succ', List.flatten_append, ← List.append_assoc] at h
      exact absurd (by simpa using h.symm) (hys (xs ++ (List.replicate m ['[', ']']).flatten))
    | succ n =>
      rw [List.replicate_succ', List.replicate_succ', List.flatten_append, List.flatten_append,
        ← List.append_assoc, ← List.append_assoc] at h
      obtain ⟨hmn, hcs⟩ := ih n (List.append_cancel_right h)
      exact ⟨congrArg Nat.succ hmn, hcs⟩

theorem withArrays_inj {p q : Nat × String} (hp : ∀ cs, p.2.toList ≠ cs ++ ['[', ']'])
    (hq : ∀ cs, q.2.toList ≠ cs ++ ['[', ']']) (h : withArrays p = withArrays q) : p = q := by
  have hlist := congrArg String.toList h
  rw [toList_withArrays, toList_withArrays] at hlist
  obtain ⟨hdims, hname⟩ := append_brackets_inj hp hq p.1 q.1 hlist
  exact Prod.ext hdims (String.toList_inj.mp hname)

theorem canonicalAlias_cases (base : String) :
    canonicalAlias base ∈ typeAliases.map Prod.snd ∨ canonicalAlias base = base := by
  rw [canonicalAlias]
  cases h : typeAliases.lookup base with
  | none => exact .inr rfl
  | some name =>
    have hmem : ∀ l : List (String × String), l.lookup base = some name →
        name ∈ l.map Prod.snd := by
      intro l hl
      induction l with
      | nil => cases hl
      | cons p l ih =>
        rw [List.lookup_cons] at hl
        split at hl
        · cases hl
          exact List.mem_cons_self
        · exact List.mem_cons_of_mem _ (ih hl)
    exact .inl (hmem _ h)

theorem canonicalAlias_not_brackets {base : List Char} (h : ∀ cs, base ≠ cs ++ ['[', ']'])
    (cs : List Char) : (canonicalAlias (String.ofList base)).toList ≠ cs ++ ['[', ']'] := by
  have haliases : ∀ name ∈ typeAliases.map Prod.snd, name.toList.getLast? ≠ some ']' := by
    decide
  intro heq
  cases canonicalAlias_cases (String.ofList base) with
  | inl halias =>
    apply haliases _ halias
    rw [heq]
    simp
  | inr halias =>
    rw [halias, String.toList_ofList] at heq
    exact h cs heq

theorem snd_typeParts (s : String) :
    (typeParts s).2 = canonicalAlias (String.ofList (Text.lastSegment (plainText s.toList)).2) := by
  rw [typeParts]

theorem typeParts_not_brackets (s : String) (cs : List Char) :
    (typeParts s).2.toList ≠ cs ++ ['[', ']'] := by
  rw [snd_typeParts]
  exact canonicalAlias_not_brackets (Text.lastSegment_not_brackets (plainText s.toList)) cs

theorem canonicalTypeString_inj {s t : String} :
    canonicalTypeString s = canonicalTypeString t ↔ typeParts s = typeParts t := by
  constructor
  · exact withArrays_inj (typeParts_not_brackets s) (typeParts_not_brackets t)
  · exact congrArg withArrays

theorem mem_typeParts {s : String} (hdot : '.' ∉ s.toList) (h : '(' ∈ s.toList) :
    '(' ∈ (typeParts s).2.toList := by
  have hlower : ∀ c ∈ ['(', '.'], ∀ cs, c ∈ lowerUnquoted cs ↔ c ∈ cs := by
    intro c hc cs
    simp only [lowerUnquoted, List.mem_filter, List.mem_map]
    constructor
    · rintro ⟨⟨d, hd, rfl⟩, -⟩
      have hd' : d = d.toLower := by
        by_contra hne
        have hupper : d.isUpper = true := by
          by_contra hup
          exact hne (Char.toLower_eq_of_not_isUpper hup).symm
        have hlow : d.toLower.isLower = true := by
          rw [Char.isLower_toLower_eq_isAlpha, Char.isAlpha, hupper, Bool.true_or]
        simp only [List.mem_cons, List.not_mem_nil, or_false] at hc
        rcases hc with hc | hc <;> rw [hc] at hlow <;> revert hlow <;> decide
      rwa [← hd']
    · intro hmem
      simp only [List.mem_cons, List.not_mem_nil, or_false] at hc
      rcases hc with rfl | rfl <;> exact ⟨⟨_, hmem, by decide⟩, by decide⟩
  have hsegment : '(' ∈ (Text.lastSegment (plainText s.toList)).2 := by
    rw [plainText_eq]
    apply Text.mem_lastSegment (by decide) (by decide)
    · rw [Text.mem_collapse (by decide) (by decide), hlower '.' (by decide)]
      exact hdot
    · rw [Text.mem_collapse (by decide) (by decide), hlower '(' (by decide)]
      exact h
  have hkeys : ∀ base ∈ typeAliases.map Prod.fst, '(' ∉ base.toList := by decide
  rw [snd_typeParts, canonicalAlias]
  cases hlookup : typeAliases.lookup
      (String.ofList (Text.lastSegment (plainText s.toList)).2) with
  | none => simpa using hsegment
  | some name =>
    have hkey : ∀ (l : List (String × String)) (base : String), l.lookup base = some name →
        base ∈ l.map Prod.fst := by
      intro l base hl
      induction l with
      | nil => cases hl
      | cons p l ih =>
        rw [List.lookup_cons] at hl
        split at hl
        · rename_i heq
          exact List.mem_cons.mpr (.inl (beq_iff_eq.mp heq))
        · exact List.mem_cons_of_mem _ (ih hl)
    exact absurd (by simpa using hsegment) (hkeys _ (hkey _ _ hlookup))

end PgLance
