import Mathlib.Data.List.TakeWhile

/-! Texts as lists of characters, with the operations of Rust's `str` on them. -/

namespace Text

/-- The characters with the Unicode property `White_Space`. -/
def isWhitespace (c : Char) : Bool :=
  (0x9 ≤ c.val && c.val ≤ 0xd) || c.val == 0x20 || c.val == 0x85 || c.val == 0xa0 ||
    c.val == 0x1680 || (0x2000 ≤ c.val && c.val ≤ 0x200a) || c.val == 0x2028 || c.val == 0x2029 ||
    c.val == 0x202f || c.val == 0x205f || c.val == 0x3000

theorem isWhitespace_of_printable {c : Char} (h : 33 ≤ c.toNat ∧ c.toNat ≤ 126) :
    isWhitespace c = false := by
  simp only [isWhitespace, Bool.or_eq_false_iff, Bool.and_eq_false_iff, beq_eq_false_iff_ne,
    decide_eq_false_iff_not, UInt32.le_iff_toNat_le, ne_eq, ← UInt32.toNat_inj]
  change (((((((((((¬ 9 ≤ c.toNat ∨ ¬ c.toNat ≤ 13) ∧ ¬ c.toNat = 32) ∧ ¬ c.toNat = 133) ∧
    ¬ c.toNat = 160) ∧ ¬ c.toNat = 5760) ∧ (¬ 8192 ≤ c.toNat ∨ ¬ c.toNat ≤ 8202)) ∧
    ¬ c.toNat = 8232) ∧ ¬ c.toNat = 8233) ∧ ¬ c.toNat = 8239) ∧ ¬ c.toNat = 8287) ∧
    ¬ c.toNat = 12288)
  omega

def trimStart (cs : List Char) : List Char := cs.dropWhile isWhitespace

def trimEnd (cs : List Char) : List Char := (trimStart cs.reverse).reverse

def trim (cs : List Char) : List Char := trimEnd (trimStart cs)

/-- Strips `[]` from the end of a reversed text for as long as there is one, with the white space
before it, and counts. -/
def stripArrays : List Char → Nat × List Char
  | [] => (0, [])
  | ']' :: '[' :: rest => ((stripArrays rest).1 + 1, (stripArrays rest).2)
  | c :: rest => if isWhitespace c then stripArrays rest else (0, c :: rest)

def splitArrays (cs : List Char) : Nat × List Char :=
  ((stripArrays (trim cs).reverse).1, (stripArrays (trim cs).reverse).2.reverse)

theorem stripArrays_of_whitespace {c : Char} (h : isWhitespace c = true) (rest : List Char) :
    stripArrays (c :: rest) = stripArrays rest := by
  have hne : c ≠ ']' := by
    intro hc
    rw [hc] at h
    exact absurd h (by decide)
  rw [stripArrays.eq_3 c rest (fun _ hc _ => hne hc), if_pos h]

theorem stripArrays_of_ne {c : Char} (h : isWhitespace c = false) (hne : c ≠ ']')
    (rest : List Char) : stripArrays (c :: rest) = (0, c :: rest) := by
  rw [stripArrays.eq_3 c rest (fun _ hc _ => hne hc), h, if_neg Bool.false_ne_true]

theorem stripArrays_trimStart (cs : List Char) : stripArrays (trimStart cs) = stripArrays cs := by
  induction cs with
  | nil => rfl
  | cons c cs ih =>
    cases h : isWhitespace c with
    | true =>
      rw [stripArrays_of_whitespace h, ← ih, trimStart, List.dropWhile_cons_of_pos h]
      rfl
    | false => rw [trimStart, List.dropWhile_cons_of_neg (by simp [h])]

theorem trimStart_append {ds : List Char} (h : trimStart ds = ds) (cs : List Char) :
    trimStart (cs ++ ds) = trimStart cs ++ ds := by
  induction cs with
  | nil => exact h
  | cons c cs ih =>
    cases hc : isWhitespace c with
    | true =>
      rw [List.cons_append, trimStart, List.dropWhile_cons_of_pos hc, trimStart,
        List.dropWhile_cons_of_pos hc]
      exact ih
    | false =>
      rw [List.cons_append, trimStart, List.dropWhile_cons_of_neg (by simp [hc]), trimStart,
        List.dropWhile_cons_of_neg (by simp [hc]), List.cons_append]

theorem splitArrays_eq (cs : List Char) :
    splitArrays cs =
      ((stripArrays (trimStart cs).reverse).1, (stripArrays (trimStart cs).reverse).2.reverse) := by
  rw [splitArrays, trim, trimEnd, List.reverse_reverse, stripArrays_trimStart]

theorem splitArrays_append_brackets (cs : List Char) :
    splitArrays (cs ++ ['[', ']']) = ((splitArrays cs).1 + 1, (splitArrays cs).2) := by
  simp only [splitArrays_eq]
  rw [trimStart_append (by decide), List.reverse_append]
  rfl

theorem trimStart_of_forall {cs : List Char} (h : ∀ c ∈ cs, isWhitespace c = false) :
    trimStart cs = cs := by
  cases cs with
  | nil => rfl
  | cons c cs => rw [trimStart, List.dropWhile_cons_of_neg (by simp [h c (by simp)])]

theorem splitArrays_of_forall {cs : List Char} (h : ∀ c ∈ cs, isWhitespace c = false ∧ c ≠ ']') :
    splitArrays cs = (0, cs) := by
  rw [splitArrays_eq, trimStart_of_forall fun c hc => (h c hc).1]
  cases hrev : cs.reverse with
  | nil => simp [List.reverse_eq_nil_iff.mp hrev, stripArrays]
  | cons c rest =>
    have hc := h c (List.mem_reverse.mp (hrev ▸ List.mem_cons_self))
    rw [stripArrays_of_ne hc.1 hc.2, ← hrev, List.reverse_reverse]

def squeeze (pending : Bool) : List Char → List Char
  | [] => []
  | c :: cs =>
    if isWhitespace c then squeeze true cs
    else if pending then ' ' :: c :: squeeze false cs
    else c :: squeeze false cs

/-- `split_whitespace().join(" ")`. -/
def collapse (cs : List Char) : List Char := squeeze false (trimStart cs)

def pendingAfter (pending : Bool) (cs : List Char) : Bool :=
  cs.foldl (fun _ c => isWhitespace c) pending

theorem squeeze_append (pending : Bool) (xs ys : List Char) :
    squeeze pending (xs ++ ys) = squeeze pending xs ++ squeeze (pendingAfter pending xs) ys := by
  induction xs generalizing pending with
  | nil => rfl
  | cons c xs ih =>
    cases hc : isWhitespace c with
    | true => simp [squeeze, pendingAfter, hc, ih]
    | false => cases pending <;> simp [squeeze, pendingAfter, hc, ih]

theorem squeeze_of_whitespace (pending : Bool) {cs : List Char}
    (h : ∀ c ∈ cs, isWhitespace c = true) : squeeze pending cs = [] := by
  induction cs generalizing pending with
  | nil => rfl
  | cons c cs ih =>
    rw [List.forall_mem_cons] at h
    rw [squeeze, if_pos h.1, ih _ h.2]

theorem trimStart_of_whitespace {cs : List Char} (h : ∀ c ∈ cs, isWhitespace c = true)
    (rest : List Char) : trimStart (cs ++ rest) = trimStart rest :=
  List.dropWhile_append_of_pos h

theorem collapse_padded {before after : List Char} (hbefore : ∀ c ∈ before, isWhitespace c = true)
    (hafter : ∀ c ∈ after, isWhitespace c = true) (cs : List Char) :
    collapse (before ++ cs ++ after) = collapse cs := by
  rw [collapse, List.append_assoc, trimStart_of_whitespace hbefore, collapse]
  by_cases hcs : ∀ c ∈ cs, isWhitespace c = true
  · have hall : ∀ c ∈ cs ++ after, isWhitespace c = true := by
      intro c hc
      exact (List.mem_append.mp hc).elim (hcs c) (hafter c)
    have htrim : ∀ ds : List Char, (∀ c ∈ ds, isWhitespace c = true) → trimStart ds = [] := by
      intro ds hds
      simpa [trimStart] using trimStart_of_whitespace hds []
    rw [htrim _ hall, htrim _ hcs]
  · have hne : trimStart cs ≠ [] := by
      intro hnil
      exact hcs (List.dropWhile_eq_nil_iff.mp hnil)
    rw [trimStart, List.dropWhile_append]
    have hempty : (cs.dropWhile isWhitespace).isEmpty = false := by
      rw [List.isEmpty_eq_false_iff]
      exact hne
    rw [hempty, if_neg Bool.false_ne_true, squeeze_append, squeeze_of_whitespace _ hafter,
      List.append_nil]
    rfl

theorem exists_trim (cs : List Char) : ∃ before after, cs = before ++ trim cs ++ after ∧
    (∀ c ∈ before, isWhitespace c = true) ∧ ∀ c ∈ after, isWhitespace c = true := by
  have hends : ∀ ds : List Char, ∃ before, ds = before ++ trimStart ds ∧
      ∀ c ∈ before, isWhitespace c = true := by
    intro ds
    refine ⟨ds.takeWhile isWhitespace, (List.takeWhile_append_dropWhile).symm, ?_⟩
    intro c hc
    exact List.mem_takeWhile_imp hc
  obtain ⟨before, hbefore, hb⟩ := hends cs
  obtain ⟨after, hafter, ha⟩ := hends (trimStart cs).reverse
  refine ⟨before, after.reverse, ?_, hb, ?_⟩
  · rw [trim, trimEnd, List.append_assoc, ← List.reverse_append, ← hafter, List.reverse_reverse,
      ← hbefore]
  · intro c hc
    exact ha c (List.mem_reverse.mp hc)

theorem stripArrays_append_dot (rev rest : List Char) :
    stripArrays (rev ++ '.' :: rest) =
      ((stripArrays rev).1, (stripArrays rev).2 ++ '.' :: rest) := by
  fun_induction stripArrays rev with
  | case1 => rfl
  | case2 tail ih => simp only [List.cons_append, stripArrays, ih]
  | case3 c tail hbrackets hc ih => rw [List.cons_append, stripArrays_of_whitespace hc, ih]
  | case4 c tail hbrackets hc =>
    rw [List.cons_append, stripArrays.eq_3, if_neg hc]
    intro tail' hclose hopen
    cases tail with
    | nil => simp at hopen
    | cons d tail =>
      rw [List.cons_append, List.cons.injEq] at hopen
      exact hbrackets tail hclose (by rw [hopen.1])

theorem stripArrays_append_whitespace (rev : List Char) {w : Char} (hw : isWhitespace w = true) :
    stripArrays (rev ++ [w]) =
      ((stripArrays rev).1, if (stripArrays rev).2 = [] then [] else (stripArrays rev).2 ++ [w]) := by
  fun_induction stripArrays rev with
  | case1 => rw [List.nil_append, stripArrays_of_whitespace hw]; rfl
  | case2 tail ih => simp only [List.cons_append, stripArrays, ih]
  | case3 c tail hbrackets hc ih => rw [List.cons_append, stripArrays_of_whitespace hc, ih]
  | case4 c tail hbrackets hc =>
    rw [List.cons_append, stripArrays.eq_3, if_neg hc]
    · rfl
    · intro tail' hclose hopen
      cases tail with
      | nil =>
        rw [List.nil_append, List.cons.injEq] at hopen
        rw [hopen.1] at hw
        exact absurd hw (by decide)
      | cons d tail =>
        rw [List.cons_append, List.cons.injEq] at hopen
        exact hbrackets tail hclose (by rw [hopen.1])

theorem stripArrays_rest (rev : List Char) :
    (∀ c, (stripArrays rev).2.head? = some c → isWhitespace c = false) ∧
      ∀ rest, (stripArrays rev).2 ≠ ']' :: '[' :: rest := by
  fun_induction stripArrays rev with
  | case1 => simp
  | case2 tail ih => exact ih
  | case3 c tail hbrackets hc ih => exact ih
  | case4 c tail hbrackets hc =>
    refine ⟨by simpa using hc, ?_⟩
    intro rest heq
    rw [List.cons.injEq] at heq
    exact hbrackets rest heq.1 heq.2

/-- The segment after the last dot, without the `[]` after it, and their number. -/
def lastSegment (cs : List Char) : Nat × List Char :=
  let r := stripArrays cs.reverse
  (r.1, trim (r.2.takeWhile (· ≠ '.')).reverse)

theorem trim_space (cs : List Char) : trim (' ' :: cs) = trim cs := by
  rw [trim, trimStart, List.dropWhile_cons_of_pos (by decide)]
  rfl

theorem takeWhile_append_dot (xs ys : List Char) :
    (xs ++ '.' :: ys).takeWhile (· ≠ '.') = xs.takeWhile (· ≠ '.') := by
  induction xs with
  | nil => simp
  | cons x xs ih => by_cases hx : x = '.' <;> simp_all

theorem lastSegment_append_dot (before after : List Char) :
    lastSegment (before ++ '.' :: after) = lastSegment after := by
  have hreverse : (before ++ '.' :: after).reverse = after.reverse ++ '.' :: before.reverse := by
    simp
  simp only [lastSegment, hreverse, stripArrays_append_dot, takeWhile_append_dot]

theorem lastSegment_space (cs : List Char) : lastSegment (' ' :: cs) = lastSegment cs := by
  simp only [lastSegment, List.reverse_cons, stripArrays_append_whitespace _ (show
    isWhitespace ' ' = true by decide), Prod.mk.injEq, true_and]
  split
  · rename_i hnil
    rw [hnil]
  · generalize (stripArrays cs.reverse).2 = r
    by_cases hdot : '.' ∈ r
    · obtain ⟨xs, ys, rfl⟩ := List.append_of_mem hdot
      simp only [List.append_assoc, List.cons_append, takeWhile_append_dot]
    · have hall : ∀ c ∈ r, decide (c ≠ '.') = true := by
        intro c hc
        have hne : c ≠ '.' := fun heq => hdot (heq ▸ hc)
        simpa using hne
      rw [List.takeWhile_append_of_pos hall, List.takeWhile_eq_self_iff.mpr hall]
      simpa using trim_space r.reverse

theorem lastSegment_squeeze (cs : List Char) :
    lastSegment (squeeze false cs) = lastSegment (collapse cs) := by
  have hpending : ∀ ds, squeeze true ds = [] ∧ collapse ds = [] ∨
      squeeze true ds = ' ' :: collapse ds := by
    intro ds
    induction ds with
    | nil => exact .inl ⟨rfl, rfl⟩
    | cons d ds ih =>
      cases hd : isWhitespace d with
      | true =>
        rw [squeeze, if_pos hd, collapse, trimStart, List.dropWhile_cons_of_pos hd]
        exact ih
      | false => simp [squeeze, collapse, trimStart, hd]
  cases cs with
  | nil => rfl
  | cons c cs =>
    cases hc : isWhitespace c with
    | true =>
      have hcollapse : collapse (c :: cs) = collapse cs := by
        rw [collapse, trimStart, List.dropWhile_cons_of_pos hc]
        rfl
      rw [squeeze, if_pos hc, hcollapse]
      rcases hpending cs with ⟨hsqueeze, hnil⟩ | hsqueeze
      · rw [hsqueeze, hnil]
      · rw [hsqueeze, lastSegment_space]
    | false => rw [collapse, trimStart, List.dropWhile_cons_of_neg (by simp [hc])]

theorem lastSegment_collapse_dot (before after : List Char) :
    lastSegment (collapse (before ++ '.' :: after)) = lastSegment (collapse after) := by
  have htrim : trimStart ('.' :: after) = '.' :: after := by
    rw [trimStart, List.dropWhile_cons_of_neg (by decide)]
  rw [collapse, trimStart_append htrim, squeeze_append, ← lastSegment_squeeze after]
  cases pendingAfter false (trimStart before) with
  | true =>
    have hdot : squeeze true ('.' :: after) = ' ' :: '.' :: squeeze false after := by
      rw [squeeze, if_neg (by decide), if_pos rfl]
    rw [hdot, ← List.singleton_append, ← List.append_assoc, lastSegment_append_dot]
  | false =>
    have hdot : squeeze false ('.' :: after) = '.' :: squeeze false after := by
      rw [squeeze, if_neg (by decide), if_neg Bool.false_ne_true]
    rw [hdot, lastSegment_append_dot]

theorem lastSegment_collapse_brackets (cs : List Char) :
    lastSegment (collapse (cs ++ ['[', ']'])) =
      ((lastSegment (collapse cs)).1 + 1, (lastSegment (collapse cs)).2) := by
  have htrim : trimStart ['[', ']'] = ['[', ']'] := by decide
  have hbrackets : ∀ ds : List Char, lastSegment (ds ++ ['[', ']']) =
      ((lastSegment ds).1 + 1, (lastSegment ds).2) := by
    intro ds
    have hreverse : (ds ++ ['[', ']']).reverse = ']' :: '[' :: ds.reverse := by simp
    simp only [lastSegment, hreverse, stripArrays]
  have hspace : ∀ ds : List Char, lastSegment (ds ++ [' ']) = lastSegment ds := by
    intro ds
    simp only [lastSegment, List.reverse_append, List.reverse_singleton, List.singleton_append,
      stripArrays_of_whitespace (show isWhitespace ' ' = true by decide)]
  rw [collapse, trimStart_append htrim, squeeze_append]
  cases pendingAfter false (trimStart cs) with
  | true =>
    rw [show squeeze true ['[', ']'] = [' '] ++ ['[', ']'] by decide, ← List.append_assoc,
      hbrackets, hspace]
    rfl
  | false =>
    rw [show squeeze false ['[', ']'] = ['[', ']'] by decide, hbrackets]
    rfl

theorem lastSegment_not_brackets (cs ds : List Char) :
    (lastSegment cs).2 ≠ ds ++ ['[', ']'] := by
  obtain ⟨hspace, hbrackets⟩ := stripArrays_rest cs.reverse
  intro heq
  obtain ⟨before, after, htrim, -, hafter⟩ :=
    exists_trim ((stripArrays cs.reverse).2.takeWhile (· ≠ '.')).reverse
  change trim _ = _ at heq
  rw [heq] at htrim
  have htake := congrArg List.reverse htrim
  rw [List.reverse_reverse] at htake
  have hrest := @List.takeWhile_append_dropWhile _ (· ≠ '.') (stripArrays cs.reverse).2
  rw [htake] at hrest
  simp only [List.reverse_append, List.append_assoc] at hrest
  cases hrev : after.reverse with
  | nil =>
    rw [hrev] at hrest
    exact hbrackets _ hrest.symm
  | cons c rest =>
    rw [hrev] at hrest
    have hc := hafter c (List.mem_reverse.mp (hrev ▸ List.mem_cons_self))
    rw [hspace c (by rw [← hrest]; rfl)] at hc
    cases hc

theorem collapse_of_forall {cs : List Char} (h : ∀ c ∈ cs, isWhitespace c = false) :
    collapse cs = cs := by
  rw [collapse, trimStart_of_forall h]
  induction cs with
  | nil => rfl
  | cons c cs ih =>
    rw [List.forall_mem_cons] at h
    rw [squeeze, h.1, if_neg Bool.false_ne_true, if_neg Bool.false_ne_true, ih h.2]

theorem trim_of_forall {cs : List Char} (h : ∀ c ∈ cs, isWhitespace c = false) : trim cs = cs := by
  have hreverse : ∀ c ∈ cs.reverse, isWhitespace c = false :=
    fun c hc => h c (List.mem_reverse.mp hc)
  rw [trim, trimStart_of_forall h, trimEnd, trimStart_of_forall hreverse, List.reverse_reverse]

theorem lastSegment_of_forall {cs : List Char}
    (h : ∀ c ∈ cs, isWhitespace c = false ∧ c ≠ ']' ∧ c ≠ '.') : lastSegment cs = (0, cs) := by
  have hstrip : stripArrays cs.reverse = (0, cs.reverse) := by
    cases hrev : cs.reverse with
    | nil => rfl
    | cons c rest =>
      have hc := h c (List.mem_reverse.mp (hrev ▸ List.mem_cons_self))
      exact stripArrays_of_ne hc.1 hc.2.1 rest
  have hdots : ∀ c ∈ cs.reverse, decide (c ≠ '.') = true := by
    intro c hc
    simpa using (h c (List.mem_reverse.mp hc)).2.2
  simp only [lastSegment, hstrip]
  rw [List.takeWhile_eq_self_iff.mpr hdots, List.reverse_reverse,
    trim_of_forall fun c hc => (h c hc).1]

theorem mem_squeeze {c : Char} (hc : c ≠ ' ') (hspace : isWhitespace c = false) (pending : Bool)
    (cs : List Char) : c ∈ squeeze pending cs ↔ c ∈ cs := by
  induction cs generalizing pending with
  | nil => simp [squeeze]
  | cons d cs ih =>
    cases hd : isWhitespace d with
    | true =>
      have hne : c ≠ d := by
        rintro rfl
        rw [hspace] at hd
        cases hd
      rw [squeeze, if_pos hd, ih, List.mem_cons, or_iff_right hne]
    | false => cases pending <;> simp [squeeze, hd, hc, ih]

theorem mem_trimStart {c : Char} (hspace : isWhitespace c = false) (cs : List Char) :
    c ∈ trimStart cs ↔ c ∈ cs := by
  constructor
  · exact fun h => (List.dropWhile_sublist _).subset h
  · intro h
    rw [← List.takeWhile_append_dropWhile (p := isWhitespace) (l := cs), List.mem_append] at h
    cases h with
    | inl h =>
      have htrue := List.mem_takeWhile_imp h
      rw [hspace] at htrue
      cases htrue
    | inr h => exact h

theorem mem_collapse {c : Char} (hc : c ≠ ' ') (hspace : isWhitespace c = false)
    (cs : List Char) : c ∈ collapse cs ↔ c ∈ cs := by
  rw [collapse, mem_squeeze hc hspace, mem_trimStart hspace]

theorem mem_stripArrays {c : Char} (hc : c ≠ '[' ∧ c ≠ ']') (hspace : isWhitespace c = false)
    {rev : List Char} (h : c ∈ rev) : c ∈ (stripArrays rev).2 := by
  fun_induction stripArrays rev with
  | case1 => cases h
  | case2 tail ih => exact ih (by simpa [hc.1, hc.2] using h)
  | case3 d tail hbrackets hd ih =>
    apply ih
    cases List.mem_cons.mp h with
    | inl heq =>
      rw [heq, hd] at hspace
      cases hspace
    | inr h => exact h
  | case4 d tail hbrackets hd => exact h

theorem mem_lastSegment {c : Char} (hc : c ≠ '[' ∧ c ≠ ']') (hspace : isWhitespace c = false)
    {cs : List Char} (hdot : '.' ∉ cs) (h : c ∈ cs) : c ∈ (lastSegment cs).2 := by
  have hrest : ∀ d ∈ (stripArrays cs.reverse).2, d ∈ cs := by
    have hsub : ∀ rev : List Char, ∀ d ∈ (stripArrays rev).2, d ∈ rev := by
      intro rev
      fun_induction stripArrays rev <;> simp_all
    exact fun d hd => List.mem_reverse.mp (hsub _ d hd)
  have hdots : ∀ d ∈ (stripArrays cs.reverse).2, decide (d ≠ '.') = true := by
    intro d hd
    have hne : d ≠ '.' := fun heq => hdot (heq ▸ hrest d hd)
    simpa using hne
  have hmem := mem_stripArrays hc hspace (List.mem_reverse.mpr h)
  simp only [lastSegment]
  rw [List.takeWhile_eq_self_iff.mpr hdots, trim, trimEnd, List.mem_reverse, mem_trimStart hspace,
    List.mem_reverse, mem_trimStart hspace, List.mem_reverse]
  exact hmem

theorem forall_mem_intercalate {α : Type} {p : α → Prop} {sep : List α} {xs : List (List α)}
    (hsep : ∀ a ∈ sep, p a) (h : ∀ x ∈ xs, ∀ a ∈ x, p a) : ∀ a ∈ sep.intercalate xs, p a := by
  induction xs with
  | nil => simp [List.intercalate]
  | cons x xs ih =>
    rw [List.forall_mem_cons] at h
    cases xs with
    | nil => simpa [List.intercalate] using h.1
    | cons y ys =>
      simp only [List.intercalate_cons_cons, List.forall_mem_append]
      exact ⟨⟨h.1, hsep⟩, ih h.2⟩

end Text
