import Mathlib.Data.List.Basic

/-! Local names for the tables of a remote namespace. -/

namespace PgLance

abbrev TableId := List String

def isNameChar (c : Char) : Bool := c.isLower || c.isDigit || c == '_'

theorem isLower_iff {c : Char} : c.isLower = true ↔ 97 ≤ c.toNat ∧ c.toNat ≤ 122 := by
  have hdef : c.isLower = (decide (c.val ≥ 'a'.val) && decide (c.val ≤ 'z'.val)) := rfl
  rw [hdef, Bool.and_eq_true, decide_eq_true_iff, decide_eq_true_iff]
  rfl

theorem toNat_of_isNameChar {c : Char} (h : isNameChar c = true) :
    (48 ≤ c.toNat ∧ c.toNat ≤ 57) ∨ c.toNat = 95 ∨ (97 ≤ c.toNat ∧ c.toNat ≤ 122) := by
  simp only [isNameChar, isLower_iff, Char.isDigit, Bool.or_eq_true, Bool.and_eq_true,
    decide_eq_true_eq, UInt32.le_iff_toNat_le, ge_iff_le, beq_iff_eq] at h
  change ((97 ≤ c.toNat ∧ c.toNat ≤ 122) ∨ (48 ≤ c.toNat ∧ c.toNat ≤ 57)) ∨ c = '_' at h
  rcases h with (hlower | hdigit) | rfl
  · omega
  · omega
  · decide

/-- Other characters become underscores, of which no two stand together. -/
def sanitizeChars (lastWasUnderscore : Bool) : List Char → List Char
  | [] => []
  | ch :: rest =>
    let mapped := if isNameChar ch.toLower then ch.toLower else '_'
    if mapped = '_' then
      if lastWasUnderscore then sanitizeChars true rest else '_' :: sanitizeChars true rest
    else mapped :: sanitizeChars false rest

def trimUnderscores (cs : List Char) : List Char :=
  ((cs.dropWhile (· == '_')).reverse.dropWhile (· == '_')).reverse

def sanitizeIdent (input : String) : String :=
  let out := trimUnderscores (sanitizeChars false input.toList)
  let out := if out.isEmpty then ['_'] else out
  let out := if out.head?.any Char.isDigit then '_' :: out else out
  String.ofList (out.take 63)

def uncut (input : String) : List Char :=
  let out := trimUnderscores (sanitizeChars false input.toList)
  let out := if out.isEmpty then ['_'] else out
  if out.head?.any Char.isDigit then '_' :: out else out

theorem toList_sanitizeIdent (input : String) :
    (sanitizeIdent input).toList = (uncut input).take 63 := String.toList_ofList

def schemaAndTableForTableId (schemaPrefix : String) (tableId : TableId) :
    Except String (String × String) :=
  match tableId.getLast? with
  | none => .error "table_id must not be empty"
  | some last =>
    let schema := tableId.dropLast.foldl (fun schema seg => schema ++ "__" ++ sanitizeIdent seg)
      (sanitizeIdent schemaPrefix)
    let schema := if tableId.dropLast.isEmpty then schema else String.ofList (schema.toList.take 63)
    .ok (schema, sanitizeIdent last)

example : sanitizeIdent "a---b" = "a_b" ∧ sanitizeIdent "__a__" = "a" ∧ sanitizeIdent "" = "_" ∧
    sanitizeIdent "123" = "_123" := by decide

example : (schemaAndTableForTableId "lance" ["TeamA", "images", "train"]).toOption =
    some ("lance__teama__images", "train") := by decide

theorem schemaAndTableForTableId_ok (schemaPrefix : String) {tableId : TableId} (h : tableId ≠ []) :
    ∃ place, schemaAndTableForTableId schemaPrefix tableId = .ok place := by
  cases hlast : tableId.getLast? with
  | none => exact absurd (List.getLast?_eq_none_iff.mp hlast) h
  | some last => simp [schemaAndTableForTableId, hlast]

end PgLance
