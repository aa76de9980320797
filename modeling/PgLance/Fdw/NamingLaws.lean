import PgLance.Library.Separator
import PgLance.Fdw.Namespace

/-! Generated names of tables against those of their composite types. -/

namespace PgLance

theorem getLast?_trimUnderscores (cs : List Char) : (trimUnderscores cs).getLast? ≠ some '_' :=
  Separator.getLast?_trim cs

theorem getLast?_sanitizeIdent {input : String}
    (hhead : (sanitizeIdent input).toList.head? ≠ some '_')
    (hlength : (sanitizeIdent input).toList.length < 63) :
    (sanitizeIdent input).toList.getLast? ≠ some '_' := by
  simp only [sanitizeIdent, String.toList_ofList] at hhead hlength ⊢
  by_cases hempty : (trimUnderscores (sanitizeChars false input.toList)).isEmpty = true
  · rw [if_pos hempty] at hhead
    exact absurd rfl hhead
  · rw [if_neg hempty] at hhead hlength ⊢
    split at hhead
    · exact absurd rfl hhead
    · rename_i hdigit
      rw [if_neg hdigit] at hlength ⊢
      rw [List.length_take] at hlength
      rw [List.take_of_length_le (by omega)]
      exact getLast?_trimUnderscores _

def compositeChar (c : Char) : Char :=
  if c.toLower.isAlphanum || c.toLower == '_' then c.toLower else '_'

theorem isNameChar_compositeChar (c : Char) : isNameChar (compositeChar c) = true := by
  rw [compositeChar]
  split
  · exact isNameChar_toLower ‹_›
  · decide

theorem toLower_of_isNameChar {c : Char} (h : isNameChar c = true) : c.toLower = c := by
  have hname := toNat_of_isNameChar h
  apply Char.toLower_eq_of_not_isUpper
  simp only [Char.isUpper, decide_eq_true_eq, UInt32.le_iff_toNat_le, ge_iff_le]
  change ¬ (65 ≤ c.toNat ∧ c.toNat ≤ 90)
  omega

theorem compositeChar_of_isNameChar {c : Char} (h : isNameChar c = true) : compositeChar c = c := by
  have halnum : (c.isAlphanum || c == '_') = true := by
    simp only [isNameChar, Bool.or_eq_true] at h
    simp only [Char.isAlphanum, Char.isAlpha, Bool.or_eq_true]
    tauto
  rw [compositeChar, toLower_of_isNameChar h, if_pos halnum]

theorem toList_compositeTypeName (table path : String) : (compositeTypeName table path).toList =
    (("lance_" ++ table ++ "_" ++ path).toList.map compositeChar).take 60 := by
  have hlist : ((("lance_" ++ table ++ "_" ++ path).toLower).map fun c =>
      if c.isAlphanum || c == '_' then c else '_').toList =
        ("lance_" ++ table ++ "_" ++ path).toList.map compositeChar := by
    rw [String.toList_map, String.toLower, String.toList_map, List.map_map]
    rfl
  have hchars : ∀ c ∈ ("lance_" ++ table ++ "_" ++ path).toList.map compositeChar,
      isNameChar c = true := by
    intro c hc
    obtain ⟨d, -, rfl⟩ := List.mem_map.mp hc
    exact isNameChar_compositeChar d
  have hsize := utf8ByteSize_of_nameChars hchars
  rw [← hlist, String.ofList_toList] at hsize
  simp only [compositeTypeName]
  split
  · rw [String.toList_ofList, hlist]
  · rw [← hlist, List.take_of_length_le (by omega)]

theorem compositeTypeName_ne_sanitizeIdent (input path : String) :
    compositeTypeName (sanitizeIdent input) path ≠ sanitizeIdent input := by
  intro heq
  have hchars := isNameChar_of_mem_sanitizeIdent input
  have hlist := toList_compositeTypeName (sanitizeIdent input) path
  rw [heq] at hlist
  have hlast : (sanitizeIdent input).toList.head? ≠ some '_' →
      (sanitizeIdent input).toList.length < 63 →
        (sanitizeIdent input).toList.getLast? ≠ some '_' := getLast?_sanitizeIdent
  have hkept : (sanitizeIdent input).toList.map compositeChar = (sanitizeIdent input).toList := by
    conv => rhs; rw [← List.map_id (sanitizeIdent input).toList]
    exact List.map_congr_left fun c hc => compositeChar_of_isNameChar (hchars c hc)
  obtain ⟨rest, hname⟩ : ∃ rest, ("lance_" ++ sanitizeIdent input ++ "_" ++ path).toList.map
      compositeChar = "lance_".toList ++ ((sanitizeIdent input).toList ++ '_' :: rest) := by
    refine ⟨path.toList.map compositeChar, ?_⟩
    have hlance : "lance_".toList.map compositeChar = "lance_".toList := by decide
    have hunderscore : "_".toList.map compositeChar = ['_'] := by decide
    simp only [String.toList_append, List.map_append, hlance, hunderscore, hkept,
      List.append_assoc, List.singleton_append]
  rw [hname] at hlist
  generalize (sanitizeIdent input).toList = cs at hlist hlast
  have hlength : cs.length = 60 := by
    have h := congrArg List.length hlist
    simp only [List.length_take, List.length_append, List.length_cons] at h
    omega
  -- the name repeats every six letters what it starts with
  have hstart : ∀ i < 6, cs[i]? = "lance_".toList[i]? := by
    intro i hi
    have h := congrArg (fun l : List Char => l[i]?) hlist
    rwa [List.getElem?_take_of_lt (by omega), List.getElem?_append_left (by simpa using hi)] at h
  have hrepeat : ∀ i < 54, cs[i + 6]? = cs[i]? := by
    intro i hi
    have h := congrArg (fun l : List Char => l[i + 6]?) hlist
    rwa [List.getElem?_take_of_lt (by omega), List.getElem?_append_right (by simp),
      show i + 6 - "lance_".toList.length = i by simp,
      List.getElem?_append_left (by omega)] at h
  have hend : cs[59]? = some '_' := by
    rw [hrepeat 53 (by omega), hrepeat 47 (by omega), hrepeat 41 (by omega), hrepeat 35 (by omega),
      hrepeat 29 (by omega), hrepeat 23 (by omega), hrepeat 17 (by omega), hrepeat 11 (by omega),
      hrepeat 5 (by omega), hstart 5 (by omega)]
    rfl
  have hhead : cs[0]? = some 'l' := hstart 0 (by omega)
  apply hlast
  · rw [List.head?_eq_getElem?, hhead]
    decide
  · omega
  · rw [List.getLast?_eq_getElem?, hlength]
    exact hend

end PgLance
