import PgLance.Fdw.NamingLaws

/-! What generated names look like, and when two namespaces share a schema. -/

namespace PgLance

open Separator

/-- `String::truncate`, which panics inside a character. -/
def truncateChars : Nat → List Char → Option (List Char)
  | _, [] => some []
  | n, c :: cs =>
    if n = 0 then some []
    else if c.utf8Size ≤ n then (truncateChars (n - c.utf8Size) cs).map (c :: ·) else none

def sanitizeIdentChecked (input : String) : Option String :=
  let out := uncut input
  if 63 < (String.ofList out).utf8ByteSize then (truncateChars 63 out).map String.ofList
  else some (String.ofList out)

def mappedChar (ch : Char) : Char := if isNameChar ch.toLower then ch.toLower else '_'

/-- The runs of letters and digits of an input, lower-cased. -/
def nameWords (input : String) : List (List Char) := words '_' (input.toList.map mappedChar)

def digitGuard : List (List Char) → List Char
  | (c :: _) :: _ => if c.isDigit then ['_'] else []
  | _ => []

/-- The cut at 63 letters falls right behind an underscore between two words. -/
def CutBehindWord (input : String) : Prop :=
  ∃ k < (nameWords input).length, (digitGuard (nameWords input)).length +
    (((nameWords input).take k).map (·.length + 1)).sum = 63

instance (input : String) : Decidable (CutBehindWord input) := by
  unfold CutBehindWord
  infer_instance

structure CleanName (name : String) : Prop where
  bytes : 1 ≤ name.utf8ByteSize ∧ name.utf8ByteSize ≤ 63
  chars : ∃ c cs, name.toList = c :: cs ∧ (c.isLower = true ∨ c = '_') ∧
    ∀ d ∈ cs, d.isLower = true ∨ d.isDigit = true ∨ d = '_'
  spaced : ¬ ['_', '_'] <:+: name.toList
  first : name.toList.head? = some '_' →
    name = "_" ∨ ∃ d rest, name.toList = '_' :: d :: rest ∧ d.isDigit = true
  last : name.toList.getLast? = some '_' → name = "_"

theorem sanitizeChars_eq (last : Bool) (cs : List Char) :
    sanitizeChars last cs = squeeze '_' last (cs.map mappedChar) := by
  induction cs generalizing last with
  | nil => rfl
  | cons c cs ih =>
    simp only [sanitizeChars, List.map_cons, squeeze, ← ih]
    rfl

/-- A name before the cut is an underscore or its words, joined behind the guard of a digit. -/
theorem uncut_cases (input : String) :
    (nameWords input = [] ∧ uncut input = ['_']) ∨
    ∃ c w ws, nameWords input = (c :: w) :: ws ∧ c ≠ '_' ∧
      Spaced '_' (c :: w ++ ws.flatMap ('_' :: ·)) ∧
      (c :: w ++ ws.flatMap ('_' :: ·)).getLast? ≠ some '_' ∧
      uncut input = digitGuard ((c :: w) :: ws) ++ (c :: w ++ ws.flatMap ('_' :: ·)) := by
  have htrim : trimUnderscores (sanitizeChars false input.toList) =
      trim '_' (squeeze '_' false (input.toList.map mappedChar)) := by
    rw [sanitizeChars_eq]
    rfl
  have hwords := @words_trim_squeeze Char _ '_' (input.toList.map mappedChar)
  have hspaced := @spaced_trim_squeeze Char _ '_' (input.toList.map mappedChar)
  have hhead := @head?_trim Char _ '_' (squeeze '_' false (input.toList.map mappedChar))
  have hlast := @getLast?_trim Char _ '_' (squeeze '_' false (input.toList.map mappedChar))
  rw [uncut, htrim, nameWords, ← hwords]
  generalize trim '_' (squeeze '_' false (input.toList.map mappedChar)) = out at *
  cases out with
  | nil => exact .inl ⟨rfl, rfl⟩
  | cons c cs =>
    have hc : c ≠ '_' := fun heq => hhead (by rw [heq, List.head?_cons])
    have hjoined := eq_joined hspaced hlast
    rw [scan_cons, if_neg hc] at hjoined
    refine .inr ⟨c, (scan '_' cs).1, (scan '_' cs).2, words_cons hc cs, hc, ?_, ?_, ?_⟩
    · rwa [← hjoined]
    · rwa [← hjoined]
    · rw [← hjoined]
      simp only [List.isEmpty_cons, Bool.false_eq_true, if_false, List.head?_cons, Option.any_some,
        digitGuard]
      split <;> rfl

theorem spaced_uncut (input : String) : Spaced '_' (uncut input) := by
  obtain ⟨-, huncut⟩ | ⟨c, w, ws, -, hc, hspaced, -, huncut⟩ := uncut_cases input
  · rw [huncut]
    exact .singleton _
  · rw [huncut, digitGuard]
    split
    · refine List.IsChain.cons hspaced fun d hd _ heq => hc ?_
      have hhead : some c = some d := hd
      exact (Option.some.inj hhead).trans heq
    · exact hspaced

theorem last_uncut {input : String} (h : (uncut input).getLast? = some '_') :
    uncut input = ['_'] := by
  obtain ⟨-, huncut⟩ | ⟨c, w, ws, -, -, -, hlast, huncut⟩ := uncut_cases input
  · exact huncut
  · rw [huncut, List.getLast?_append_of_ne_nil _ (by simp)] at h
    exact absurd h hlast

theorem uncut_start (input : String) : uncut input = ['_'] ∨
    (∃ d rest, uncut input = '_' :: d :: rest ∧ d.isDigit = true) ∨
    ∃ c rest, uncut input = c :: rest ∧ c.isLower = true := by
  obtain ⟨-, huncut⟩ | ⟨c, w, ws, -, hc, -, -, huncut⟩ := uncut_cases input
  · exact .inl huncut
  · have hname : isNameChar c = true := by
      apply isNameChar_of_mem_uncut input
      rw [huncut]
      simp
    by_cases hdigit : c.isDigit = true
    · refine .inr (.inl ⟨c, w ++ ws.flatMap ('_' :: ·), ?_, hdigit⟩)
      rw [huncut, digitGuard, if_pos hdigit]
      rfl
    · refine .inr (.inr ⟨c, w ++ ws.flatMap ('_' :: ·), ?_, ?_⟩)
      · rw [huncut, digitGuard, if_neg hdigit]
        rfl
      · simpa [isNameChar, hdigit, hc] using hname

theorem cutBehindWord_iff (input : String) :
    CutBehindWord input ↔ (uncut input)[62]? = some '_' := by
  obtain ⟨hwords, huncut⟩ | ⟨c, w, ws, hwords, -, -, -, huncut⟩ := uncut_cases input
  · simp [CutBehindWord, hwords, huncut]
  · have hfree : ∀ x ∈ (c :: w) :: ws, '_' ∉ x := fun x hx =>
      @not_mem_of_mem_words Char _ '_' (input.toList.map mappedChar) x
        (by rwa [← nameWords, hwords])
    rw [List.forall_mem_cons] at hfree
    have hguard : (digitGuard ((c :: w) :: ws)).length ≤ 1 := by
      rw [digitGuard]
      split <;> simp
    rw [CutBehindWord, hwords, huncut, List.getElem?_append_right (by omega),
      getElem?_joined hfree.1 hfree.2]
    constructor
    · rintro ⟨k, hk, hsum⟩
      cases k with
      | zero =>
        rw [List.take_zero, List.map_nil, List.sum_nil] at hsum
        omega
      | succ k => exact ⟨k, by simpa using hk, by omega⟩
    · rintro ⟨k, hk, hsum⟩
      exact ⟨k + 1, by simpa using hk, by omega⟩

/-! A cut name is clean exactly when no underscore is left at its end. -/

theorem truncateChars_of_ascii (n : Nat) {cs : List Char} (h : ∀ c ∈ cs, c.utf8Size = 1) :
    truncateChars n cs = some (cs.take n) := by
  induction cs generalizing n with
  | nil => simp [truncateChars]
  | cons c cs ih =>
    rw [List.forall_mem_cons] at h
    cases n with
    | zero => simp [truncateChars]
    | succ n => simp [truncateChars, h.1, ih n h.2]

theorem sanitizeIdentChecked_eq (input : String) :
    sanitizeIdentChecked input = some (sanitizeIdent input) := by
  have hascii : ∀ c ∈ uncut input, c.utf8Size = 1 := by
    intro c hc
    have hname : ∀ d ∈ [c], isNameChar d = true := by
      simpa using isNameChar_of_mem_uncut input c hc
    simpa using utf8ByteSize_of_nameChars hname
  have hsize := utf8ByteSize_of_nameChars (isNameChar_of_mem_uncut input)
  simp only [sanitizeIdentChecked, truncateChars_of_ascii 63 hascii, Option.map_some, hsize]
  split
  · rfl
  · rw [← String.ofList_toList (s := sanitizeIdent input), toList_sanitizeIdent,
      List.take_of_length_le (by omega)]

theorem spaced_iff {sep : Char} {cs : List Char} : Spaced sep cs ↔ ¬ [sep, sep] <:+: cs := by
  constructor
  · intro h hinfix
    obtain ⟨xs, ys, rfl⟩ := hinfix
    have hpair : Spaced sep [sep, sep] := h.left_of_append.right_of_append
    exact hpair.rel rfl rfl
  · intro h
    refine (List.isChain_isInfix cs).imp fun a b hab ha hb => h ?_
    rwa [ha, hb] at hab

theorem eq_underscore_iff {name : String} : name = "_" ↔ name.toList = ['_'] := by
  rw [← String.toList_inj]
  rfl

theorem sanitizeIdent_start (input : String) : sanitizeIdent input = "_" ∨
    (∃ d rest, (sanitizeIdent input).toList = '_' :: d :: rest ∧ d.isDigit = true) ∨
    ∃ c rest, (sanitizeIdent input).toList = c :: rest ∧ c.isLower = true := by
  rw [eq_underscore_iff, toList_sanitizeIdent]
  obtain huncut | ⟨d, rest, huncut, hd⟩ | ⟨c, rest, huncut, hc⟩ := uncut_start input
  · rw [huncut]
    exact .inl rfl
  · rw [huncut]
    exact .inr (.inl ⟨d, rest.take 61, rfl, hd⟩)
  · rw [huncut]
    exact .inr (.inr ⟨c, rest.take 62, rfl, hc⟩)

theorem last_sanitizeIdent {input : String} (h : ¬ CutBehindWord input)
    (hlast : (sanitizeIdent input).toList.getLast? = some '_') : sanitizeIdent input = "_" := by
  rw [eq_underscore_iff]
  rw [toList_sanitizeIdent] at hlast ⊢
  rw [cutBehindWord_iff] at h
  by_cases hlength : (uncut input).length ≤ 62
  · rw [List.take_of_length_le (by omega)] at hlast ⊢
    exact last_uncut hlast
  · rw [List.getLast?_eq_getElem?, List.length_take, Nat.min_eq_left (by omega),
      List.getElem?_take_of_lt (by omega)] at hlast
    exact absurd hlast h

theorem sanitizeIdent_ne_of_cut {input : String} (h : CutBehindWord input) :
    (sanitizeIdent input).toList.getLast? = some '_' ∧ sanitizeIdent input ≠ "_" := by
  rw [cutBehindWord_iff] at h
  have hlength : 62 < (uncut input).length := by
    by_contra hle
    rw [List.getElem?_eq_none (by omega)] at h
    cases h
  constructor
  · rwa [toList_sanitizeIdent, List.getLast?_eq_getElem?, List.length_take,
      Nat.min_eq_left (by omega), List.getElem?_take_of_lt (by omega)]
  · rw [ne_eq, eq_underscore_iff, toList_sanitizeIdent]
    intro heq
    have hone := congrArg List.length heq
    rw [List.length_take, List.length_singleton] at hone
    omega

theorem isNameChar_cases {c : Char} (h : isNameChar c = true) :
    c.isLower = true ∨ c.isDigit = true ∨ c = '_' := by
  simpa [isNameChar, or_assoc] using h

theorem cleanName_sanitizeIdent {input : String} (h : ¬ CutBehindWord input) :
    CleanName (sanitizeIdent input) where
  bytes := by
    have hsize := utf8ByteSize_of_nameChars (isNameChar_of_mem_sanitizeIdent input)
    rw [String.ofList_toList] at hsize
    rw [hsize]
    refine ⟨?_, length_sanitizeIdent input⟩
    obtain hname | ⟨d, rest, hname, -⟩ | ⟨c, rest, hname, -⟩ := sanitizeIdent_start input
    · rw [hname]
      decide
    · simp [hname]
    · simp [hname]
  chars := by
    have hchars := isNameChar_of_mem_sanitizeIdent input
    obtain hname | ⟨d, rest, hname, -⟩ | ⟨c, rest, hname, hc⟩ := sanitizeIdent_start input
    · exact ⟨'_', [], eq_underscore_iff.mp hname, .inr rfl, by simp⟩
    · refine ⟨'_', d :: rest, hname, .inr rfl, fun e he => isNameChar_cases (hchars e ?_)⟩
      rw [hname]
      exact List.mem_cons_of_mem _ he
    · refine ⟨c, rest, hname, .inl hc, fun e he => isNameChar_cases (hchars e ?_)⟩
      rw [hname]
      exact List.mem_cons_of_mem _ he
  spaced := by
    rw [← spaced_iff, toList_sanitizeIdent]
    exact (spaced_uncut input).take 63
  first := by
    intro hfirst
    obtain hname | hdigit | ⟨c, rest, hname, hc⟩ := sanitizeIdent_start input
    · exact .inl hname
    · exact .inr hdigit
    · rw [hname, List.head?_cons, Option.some.injEq] at hfirst
      rw [hfirst] at hc
      exact absurd hc (by decide)
  last := last_sanitizeIdent h

/-! A clean name is kept as it is. -/

theorem mappedChar_of_isNameChar {c : Char} (h : isNameChar c = true) : mappedChar c = c := by
  rw [mappedChar, toLower_of_isNameChar h, if_pos h]

theorem CleanName.isNameChar {name : String} (h : CleanName name) :
    ∀ d ∈ name.toList, isNameChar d = true := by
  obtain ⟨c, cs, hname, hc, hcs⟩ := h.chars
  rw [hname]
  intro d hd
  obtain rfl | hmem := List.mem_cons.mp hd
  · obtain hlower | rfl := hc
    · simp [PgLance.isNameChar, hlower]
    · decide
  · obtain hlower | hdigit | rfl := hcs d hmem
    · simp [PgLance.isNameChar, hlower]
    · simp [PgLance.isNameChar, hdigit]
    · decide

theorem CleanName.uncut_eq {name : String} (h : CleanName name) : uncut name = name.toList := by
  have hsqueeze : sanitizeChars false name.toList = name.toList := by
    rw [sanitizeChars_eq, List.map_congr_left fun d hd => mappedChar_of_isNameChar (h.isNameChar d hd),
      List.map_id', (squeeze_of_spaced (spaced_iff.mpr h.spaced)).1]
  have htrim : ∀ cs : List Char, trimUnderscores cs = trim '_' cs := fun _ => rfl
  have hlast : name ≠ "_" → name.toList.getLast? ≠ some '_' := fun hne heq => hne (h.last heq)
  obtain ⟨c, cs, hname, hc, -⟩ := h.chars
  rw [uncut, hsqueeze, htrim]
  by_cases hunderscore : name = "_"
  · subst hunderscore
    decide
  · have hend := hlast hunderscore
    obtain hlower | rfl := hc
    · have hhead : name.toList.head? ≠ some '_' := by
        rw [hname, List.head?_cons]
        rintro heq
        rw [Option.some.inj heq] at hlower
        exact absurd hlower (by decide)
      have hdigit : c.isDigit = false := by
        rw [isLower_iff] at hlower
        simp only [Char.isDigit, Bool.and_eq_false_iff, decide_eq_false_iff_not, ge_iff_le,
          UInt32.le_iff_toNat_le]
        change ¬ 48 ≤ c.toNat ∨ ¬ c.toNat ≤ 57
        omega
      rw [trim_of_ends hhead hend, hname]
      simp [hdigit]
    · obtain heq | ⟨d, rest, hdigits, hd⟩ := h.first (by rw [hname, List.head?_cons])
      · exact absurd heq hunderscore
      · have hhead : (d :: rest).head? ≠ some '_' := by
          rw [List.head?_cons]
          rintro heq
          rw [Option.some.inj heq] at hd
          exact absurd hd (by decide)
        have hrest : (d :: rest).getLast? ≠ some '_' := by
          rwa [hdigits, List.getLast?_cons_cons] at hend
        rw [hdigits, trim_sep, trim_of_ends hhead hrest]
        simp [hd]

theorem CleanName.sanitizeIdent_eq {name : String} (h : CleanName name) :
    sanitizeIdent name = name := by
  have hsize := utf8ByteSize_of_nameChars h.isNameChar
  rw [String.ofList_toList] at hsize
  have hbytes := h.bytes.2
  rw [← String.toList_inj, toList_sanitizeIdent, h.uncut_eq, List.take_of_length_le (by omega)]

theorem not_clean_of_cut {input : String} (h : CutBehindWord input) :
    ¬ ∃ name, sanitizeIdentChecked input = some name ∧ CleanName name ∧
      sanitizeIdentChecked name = some name := by
  rintro ⟨name, hname, hclean, -⟩
  rw [sanitizeIdentChecked_eq, Option.some.injEq] at hname
  obtain ⟨hlast, hne⟩ := sanitizeIdent_ne_of_cut h
  rw [hname] at hlast hne
  exact hne (hclean.last hlast)

/-- A generated name is clean and kept by a second pass exactly when the cut leaves no
underscore that stood between two words. -/
theorem sanitizeIdent_clean_iff (input : String) :
    (∃ name, sanitizeIdentChecked input = some name ∧ CleanName name ∧
      sanitizeIdentChecked name = some name) ↔ ¬ CutBehindWord input := by
  constructor
  · exact fun hclean hcut => not_clean_of_cut hcut hclean
  · intro hcut
    have hclean := cleanName_sanitizeIdent hcut
    refine ⟨sanitizeIdent input, sanitizeIdentChecked_eq input, hclean, ?_⟩
    rw [sanitizeIdentChecked_eq, hclean.sanitizeIdent_eq]

/-- Sixty-two letters, a hyphen and a letter. -/
theorem sanitizeIdent_trailing_underscore :
    ¬ ∃ name, sanitizeIdentChecked (String.ofList (List.replicate 62 'a' ++ ['-', 'b'])) =
      some name ∧ CleanName name ∧ sanitizeIdentChecked name = some name := by
  apply not_clean_of_cut
  have hwords : nameWords (String.ofList (List.replicate 62 'a' ++ ['-', 'b'])) =
      [List.replicate 62 'a', ['b']] := by
    rw [nameWords, String.toList_ofList]
    decide
  rw [CutBehindWord, hwords]
  exact ⟨1, by decide, by decide⟩

/-! Schemas of namespaces. -/

def joinedSchema (schemaPrefix : String) (ns : List String) : String :=
  ns.foldl (fun schema seg => schema ++ "__" ++ sanitizeIdent seg) (sanitizeIdent schemaPrefix)

theorem toList_joinedSchema (schemaPrefix : String) (ns : List String) :
    (joinedSchema schemaPrefix ns).toList = (sanitizeIdent schemaPrefix).toList ++
      joinDoubled '_' (ns.map fun seg => (sanitizeIdent seg).toList) := by
  rw [joinedSchema]
  generalize sanitizeIdent schemaPrefix = schema
  induction ns generalizing schema with
  | nil => simp [joinDoubled]
  | cons seg ns ih =>
    have hsep : "__".toList = ['_', '_'] := by decide
    rw [List.foldl_cons, ih, String.toList_append, String.toList_append, List.map_cons,
      joinDoubled_cons, List.append_assoc, List.append_assoc, hsep, List.cons_append,
      List.cons_append, List.nil_append]

theorem utf8ByteSize_joinedSchema (schemaPrefix : String) (ns : List String) :
    (joinedSchema schemaPrefix ns).utf8ByteSize = (joinedSchema schemaPrefix ns).toList.length := by
  have hchars : ∀ c ∈ (joinedSchema schemaPrefix ns).toList, isNameChar c = true := by
    rw [toList_joinedSchema]
    intro c hc
    obtain hprefix | hsegs := List.mem_append.mp hc
    · exact isNameChar_of_mem_sanitizeIdent schemaPrefix c hprefix
    · obtain ⟨cs, hcs, hmem⟩ := List.mem_flatMap.mp hsegs
      obtain ⟨seg, -, rfl⟩ := List.mem_map.mp hcs
      simp only [List.mem_cons] at hmem
      obtain rfl | rfl | hmem := hmem
      · decide
      · decide
      · exact isNameChar_of_mem_sanitizeIdent seg c hmem
  have hsize := utf8ByteSize_of_nameChars hchars
  rwa [String.ofList_toList] at hsize

theorem segment_sanitizeIdent {seg : String} (h : (sanitizeIdent seg).toList.length < 63) :
    Segment '_' (sanitizeIdent seg).toList where
  ne_nil := by
    obtain hname | ⟨d, rest, hname, -⟩ | ⟨c, rest, hname, -⟩ := sanitizeIdent_start seg
    · rw [hname]
      decide
    · simp [hname]
    · simp [hname]
  spaced := by
    rw [toList_sanitizeIdent]
    exact (spaced_uncut seg).take 63
  last := by
    intro hlast
    rw [toList_sanitizeIdent, List.length_take] at h
    rw [toList_sanitizeIdent, List.take_of_length_le (by omega)] at hlast ⊢
    exact last_uncut hlast

theorem segments_of_joinedSchema {schemaPrefix : String} {ns : List String}
    (h : (joinedSchema schemaPrefix ns).utf8ByteSize ≤ 63) :
    ∀ cs ∈ ns.map fun seg => (sanitizeIdent seg).toList, Segment '_' cs := by
  rw [utf8ByteSize_joinedSchema, toList_joinedSchema, List.length_append] at h
  intro cs hcs
  have hlength := @length_add_two_le Char '_' _ _ hcs
  obtain ⟨seg, -, rfl⟩ := List.mem_map.mp hcs
  exact segment_sanitizeIdent (by omega)

theorem schemaAndTableForTableId_append (schemaPrefix : String) {ns : List String} (table : String)
    (h : (joinedSchema schemaPrefix ns).utf8ByteSize ≤ 63) :
    schemaAndTableForTableId schemaPrefix (ns ++ [table]) =
      .ok (joinedSchema schemaPrefix ns, sanitizeIdent table) := by
  rw [utf8ByteSize_joinedSchema] at h
  simp only [schemaAndTableForTableId, List.getLast?_append, List.getLast?_singleton,
    Option.some_or, List.dropLast_concat]
  rw [← joinedSchema]
  split
  · rfl
  · rw [List.take_of_length_le h, String.ofList_toList]

/-- Schema names that were not cut tell the namespaces they stand for apart. -/
theorem schema_eq_iff (schemaPrefix : String) {ns₁ ns₂ : List String} (table₁ table₂ : String)
    (h₁ : (joinedSchema schemaPrefix ns₁).utf8ByteSize ≤ 63)
    (h₂ : (joinedSchema schemaPrefix ns₂).utf8ByteSize ≤ 63) :
    ∃ schema₁ schema₂,
      schemaAndTableForTableId schemaPrefix (ns₁ ++ [table₁]) =
        .ok (schema₁, sanitizeIdent table₁) ∧
      schemaAndTableForTableId schemaPrefix (ns₂ ++ [table₂]) =
        .ok (schema₂, sanitizeIdent table₂) ∧
      (schema₁ = schema₂ ↔ ns₁.map sanitizeIdent = ns₂.map sanitizeIdent) ∧
      (ns₁.length ≠ ns₂.length → schema₁ ≠ schema₂) := by
  have hiff : joinedSchema schemaPrefix ns₁ = joinedSchema schemaPrefix ns₂ ↔
      ns₁.map sanitizeIdent = ns₂.map sanitizeIdent := by
    have hlists : ∀ ns : List String, ns.map (fun seg => (sanitizeIdent seg).toList) =
        (ns.map sanitizeIdent).map String.toList := fun ns => by rw [List.map_map]; rfl
    have hinj : Function.Injective (List.map String.toList) :=
      List.map_injective_iff.mpr fun _ _ => String.toList_inj.mp
    rw [← String.toList_inj, toList_joinedSchema, toList_joinedSchema, List.append_cancel_left_eq]
    constructor
    · intro heq
      have hsegs := joinDoubled_injective (segments_of_joinedSchema h₁)
        (segments_of_joinedSchema h₂) heq
      rw [hlists, hlists] at hsegs
      exact hinj hsegs
    · intro heq
      rw [hlists, hlists, heq]
  refine ⟨_, _, schemaAndTableForTableId_append _ table₁ h₁,
    schemaAndTableForTableId_append _ table₂ h₂, hiff, fun hlength heq => hlength ?_⟩
  simpa using congrArg List.length (hiff.mp heq)

theorem schema_eq_iff_nested : ∃ schema₁ schema₂,
    schemaAndTableForTableId "lance" (["a", ""] ++ ["t"]) = .ok (schema₁, sanitizeIdent "t") ∧
    schemaAndTableForTableId "lance" (["a", "1"] ++ ["t"]) = .ok (schema₂, sanitizeIdent "t") ∧
    (schema₁ = schema₂ ↔ ["a", ""].map sanitizeIdent = ["a", "1"].map sanitizeIdent) ∧
    (["a", ""].length ≠ ["a", "1"].length → schema₁ ≠ schema₂) :=
  schema_eq_iff "lance" "t" "t" (by decide) (by decide)

end PgLance
