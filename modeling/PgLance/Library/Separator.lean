import Mathlib

/-! Words with a separator between them, and segments with a doubled one before each. -/

namespace Separator

variable {α : Type*}

def Spaced (sep : α) (cs : List α) : Prop := cs.IsChain fun a b => a = sep → b ≠ sep

section

variable [DecidableEq α] (sep : α)

def squeeze (last : Bool) : List α → List α
  | [] => []
  | c :: cs =>
    if c = sep then if last then squeeze true cs else sep :: squeeze true cs
    else c :: squeeze false cs

def trim (cs : List α) : List α :=
  ((cs.dropWhile (· == sep)).reverse.dropWhile (· == sep)).reverse

def consWord : List α × List (List α) → List (List α)
  | ([], ws) => ws
  | (c :: w, ws) => (c :: w) :: ws

def scan : List α → List α × List (List α)
  | [] => ([], [])
  | c :: cs =>
    match scan cs with
    | (w, ws) => if c = sep then ([], consWord (w, ws)) else (c :: w, ws)

theorem scan_cons (c : α) (cs : List α) : scan sep (c :: cs) =
    if c = sep then ([], consWord (scan sep cs)) else (c :: (scan sep cs).1, (scan sep cs).2) := rfl

def words (cs : List α) : List (List α) := consWord (scan sep cs)

variable {sep}

@[simp] theorem words_sep (cs : List α) : words sep (sep :: cs) = words sep cs := by
  simp [words, scan_cons, consWord]

theorem words_cons {c : α} (h : c ≠ sep) (cs : List α) :
    words sep (c :: cs) = (c :: (scan sep cs).1) :: (scan sep cs).2 := by
  simp [words, scan_cons, consWord, h]

/-! Squeezing and trimming keep the words. -/

theorem scan_squeeze (cs : List α) :
    scan sep (squeeze sep false cs) = scan sep cs ∧
      words sep (squeeze sep true cs) = words sep cs := by
  induction cs with
  | nil => exact ⟨rfl, rfl⟩
  | cons c cs ih =>
    by_cases hc : c = sep
    · subst hc
      have hwords : consWord (scan c (squeeze c true cs)) = consWord (scan c cs) := ih.2
      simp [squeeze, scan_cons, hwords, ih.2]
    · simp [squeeze, scan_cons, words_cons hc, hc, ih.1]

theorem words_dropWhile (cs : List α) : words sep (cs.dropWhile (· == sep)) = words sep cs := by
  induction cs with
  | nil => rfl
  | cons c cs ih =>
    by_cases hc : c = sep
    · rw [List.dropWhile_cons_of_pos (by simp [hc]), ih, hc, words_sep]
    · rw [List.dropWhile_cons_of_neg (by simp [hc])]

theorem scan_append_sep (cs : List α) : scan sep (cs ++ [sep]) = scan sep cs := by
  induction cs with
  | nil => simp [scan, consWord]
  | cons c cs ih => simp only [List.cons_append, scan_cons, ih]

theorem scan_trimEnd (cs : List α) :
    scan sep (cs.reverse.dropWhile (· == sep)).reverse = scan sep cs := by
  induction cs using List.reverseRecOn with
  | nil => rfl
  | append_singleton cs c ih =>
    rw [List.reverse_append, List.reverse_singleton, List.singleton_append]
    by_cases hc : c = sep
    · rw [List.dropWhile_cons_of_pos (by simp [hc]), ih, hc, scan_append_sep]
    · rw [List.dropWhile_cons_of_neg (by simp [hc]), List.reverse_cons, List.reverse_reverse]

theorem words_trim (cs : List α) : words sep (trim sep cs) = words sep cs := by
  rw [trim, words, scan_trimEnd]
  exact words_dropWhile cs

theorem words_trim_squeeze (cs : List α) :
    words sep (trim sep (squeeze sep false cs)) = words sep cs := by
  rw [words_trim, words, (scan_squeeze cs).1, words]

theorem getLast?_trim (cs : List α) : (trim sep cs).getLast? ≠ some sep := by
  rw [trim, List.getLast?_reverse]
  intro hhead
  have hnot := List.head?_dropWhile_not (· == sep) (cs.dropWhile (· == sep)).reverse
  rw [hhead] at hnot
  simp at hnot

theorem trim_prefix_dropWhile (cs : List α) : trim sep cs <+: cs.dropWhile (· == sep) := by
  rw [trim, ← List.reverse_suffix, List.reverse_reverse]
  exact List.dropWhile_suffix _

theorem head?_trim (cs : List α) : (trim sep cs).head? ≠ some sep := by
  obtain ⟨rest, hrest⟩ : trim sep cs <+: cs.dropWhile (· == sep) := trim_prefix_dropWhile cs
  intro hhead
  have hnot := List.head?_dropWhile_not (· == sep) cs
  rw [← hrest, List.head?_append, hhead] at hnot
  simp at hnot

theorem spaced_squeeze (last : Bool) (cs : List α) :
    Spaced sep (squeeze sep last cs) ∧ (last = true → (squeeze sep last cs).head? ≠ some sep) := by
  induction cs generalizing last with
  | nil => exact ⟨.nil, by simp [squeeze]⟩
  | cons c cs ih =>
    by_cases hc : c = sep
    · cases last
      · refine ⟨?_, by simp⟩
        simp only [squeeze, hc, if_pos, Bool.false_eq_true, if_false]
        refine List.IsChain.cons (ih true).1 fun d hd _ heq => (ih true).2 rfl ?_
        rw [Option.mem_def.mp hd, heq]
      · simpa [squeeze, hc] using ih true
    · simp only [squeeze, hc, if_false, List.head?_cons, ne_eq, Option.some.injEq,
        not_false_eq_true, implies_true, and_true]
      exact List.IsChain.cons (ih false).1 fun d _ heq => absurd heq hc

theorem spaced_trim_squeeze (cs : List α) : Spaced sep (trim sep (squeeze sep false cs)) := by
  obtain ⟨xs, hxs⟩ : (squeeze sep false cs).dropWhile (· == sep) <:+ squeeze sep false cs :=
    List.dropWhile_suffix _
  obtain ⟨ys, hys⟩ : trim sep (squeeze sep false cs) <+: _ := trim_prefix_dropWhile _
  have hspaced : Spaced sep (squeeze sep false cs) := (spaced_squeeze false cs).1
  rw [← hxs, ← hys] at hspaced
  exact hspaced.right_of_append.left_of_append

theorem squeeze_of_spaced {cs : List α} (h : Spaced sep cs) :
    squeeze sep false cs = cs ∧ (cs.head? ≠ some sep → squeeze sep true cs = cs) := by
  induction cs with
  | nil => exact ⟨rfl, fun _ => rfl⟩
  | cons c cs ih =>
    have hrest := ih (List.IsChain.tail h)
    by_cases hc : c = sep
    · have hhead : cs.head? ≠ some sep := fun heq => List.IsChain.rel_head? h heq hc rfl
      subst hc
      simp [squeeze, hrest.2 hhead]
    · simp [squeeze, hc, hrest.1]

theorem trim_of_ends {cs : List α} (hhead : cs.head? ≠ some sep) (hlast : cs.getLast? ≠ some sep) :
    trim sep cs = cs := by
  have hkeep : ∀ ds : List α, ds.head? ≠ some sep → ds.dropWhile (· == sep) = ds := by
    intro ds hds
    cases ds with
    | nil => rfl
    | cons d ds => exact List.dropWhile_cons_of_neg (by simpa using hds)
  rw [trim, hkeep cs hhead, hkeep cs.reverse (by rwa [List.head?_reverse]), List.reverse_reverse]

theorem trim_sep (cs : List α) : trim sep (sep :: cs) = trim sep cs := by
  rw [trim, List.dropWhile_cons_of_pos (by simp), trim]

/-! A spaced text without a separator at its end is its words, joined. -/

theorem not_mem_scan (cs : List α) : sep ∉ (scan sep cs).1 ∧ ∀ w ∈ (scan sep cs).2, sep ∉ w := by
  induction cs with
  | nil => simp [scan]
  | cons c cs ih =>
    by_cases hc : c = sep
    · simp only [scan_cons, hc, if_true, List.not_mem_nil, not_false_eq_true, true_and]
      cases hscan : scan sep cs with
      | mk w ws =>
        rw [hscan] at ih
        cases w with
        | nil => exact ih.2
        | cons d w => exact List.forall_mem_cons.mpr ih
    · simp only [scan_cons, hc, if_false, List.mem_cons, not_or]
      exact ⟨⟨fun heq => hc heq.symm, ih.1⟩, ih.2⟩

theorem not_mem_of_mem_words {cs w : List α} (h : w ∈ words sep cs) : sep ∉ w := by
  have hscan := @not_mem_scan α _ sep cs
  rw [words] at h
  cases hpair : scan sep cs with
  | mk first rest =>
    rw [hpair] at h hscan
    cases first with
    | nil => exact hscan.2 w h
    | cons c first =>
      obtain rfl | hmem := List.mem_cons.mp h
      · exact hscan.1
      · exact hscan.2 w hmem

theorem eq_joined {cs : List α} (hspaced : Spaced sep cs) (hlast : cs.getLast? ≠ some sep) :
    cs = (scan sep cs).1 ++ (scan sep cs).2.flatMap (sep :: ·) := by
  induction cs with
  | nil => rfl
  | cons c cs ih =>
    have hrest : cs.getLast? ≠ some sep := by
      intro heq
      rw [List.getLast?_cons, heq] at hlast
      exact hlast rfl
    have hjoined := ih (List.IsChain.tail hspaced) hrest
    by_cases hc : c = sep
    · cases cs with
      | nil => exact absurd (by rw [hc]; rfl) hlast
      | cons d ds =>
        have hd : d ≠ sep := hspaced.rel hc
        have hwords := words_cons hd ds
        rw [words] at hwords
        rw [scan_cons, if_pos hc, hwords]
        simp only [scan_cons, hd, if_false] at hjoined
        simpa [hc] using hjoined
    · simpa [scan, hc] using hjoined

theorem getElem?_joined {w : List α} {ws : List (List α)} (hw : sep ∉ w)
    (hws : ∀ x ∈ ws, sep ∉ x) (n : Nat) :
    (w ++ ws.flatMap (sep :: ·))[n]? = some sep ↔
      ∃ k < ws.length, (((w :: ws).take (k + 1)).map (·.length + 1)).sum = n + 1 := by
  induction ws generalizing w n with
  | nil =>
    simp only [List.flatMap_nil, List.append_nil, List.length_nil, Nat.not_lt_zero, false_and,
      exists_false, iff_false]
    exact fun h => hw (List.mem_of_getElem? h)
  | cons x ws ih =>
    rw [List.forall_mem_cons] at hws
    rw [List.flatMap_cons, List.cons_append]
    rcases lt_trichotomy n w.length with hlt | heq | hgt
    · rw [List.getElem?_append_left hlt]
      constructor
      · exact fun h => absurd (List.mem_of_getElem? h) hw
      · rintro ⟨k, -, hsum⟩
        simp only [List.take_succ_cons, List.map_cons, List.sum_cons] at hsum
        omega
    · subst heq
      simp only [List.getElem?_append_right le_rfl, Nat.sub_self, List.getElem?_cons_zero, true_iff]
      exact ⟨0, by simp, by simp⟩
    · obtain ⟨m, rfl⟩ := Nat.exists_eq_add_of_lt hgt
      rw [List.getElem?_append_right (by omega), show w.length + m + 1 - w.length = m + 1 by omega,
        List.getElem?_cons_succ, ih hws.1 hws.2]
      constructor
      · rintro ⟨k, hk, hsum⟩
        refine ⟨k + 1, by simpa using hk, ?_⟩
        rw [List.take_succ_cons, List.map_cons, List.sum_cons, hsum]
        omega
      · rintro ⟨k, hk, hsum⟩
        cases k with
        | zero =>
          simp only [Nat.zero_add, List.take_succ_cons, List.take_zero, List.map_cons,
            List.map_nil, List.sum_cons, List.sum_nil] at hsum
          omega
        | succ k =>
          refine ⟨k, by simpa using hk, ?_⟩
          rw [List.take_succ_cons, List.map_cons, List.sum_cons] at hsum
          omega

end

/-! Segments behind doubled separators. -/

variable {sep : α}

/-- A text in which a doubled separator cannot begin: it ends in none, unless it is only one. -/
structure Segment (sep : α) (cs : List α) : Prop where
  ne_nil : cs ≠ []
  spaced : Spaced sep cs
  last : cs.getLast? = some sep → cs = [sep]

def joinDoubled (sep : α) (segs : List (List α)) : List α := segs.flatMap fun seg => sep :: sep :: seg

theorem joinDoubled_cons (x : List α) (xs : List (List α)) :
    joinDoubled sep (x :: xs) = sep :: sep :: (x ++ joinDoubled sep xs) := rfl

theorem length_add_two_le {x : List α} {xs : List (List α)} (h : x ∈ xs) :
    x.length + 2 ≤ (joinDoubled sep xs).length := by
  induction xs with
  | nil => cases h
  | cons y xs ih =>
    rw [joinDoubled_cons, List.length_cons, List.length_cons, List.length_append]
    obtain rfl | hmem := List.mem_cons.mp h
    · omega
    · have hle := ih hmem
      omega

theorem Segment.eq_nil_of_append {x z : List α} {xs ys : List (List α)} (hx : x ≠ [])
    (h : Segment sep (x ++ z)) (hz : z ++ joinDoubled sep ys = joinDoubled sep xs) : z = [] := by
  cases xs with
  | nil => exact (List.append_eq_nil_iff.mp hz).1
  | cons y xs =>
    rw [joinDoubled_cons] at hz
    match z, hz with
    | [], _ => rfl
    | [c], hz =>
      have hc : c = sep := (List.cons.inj hz).1
      have hone := congrArg List.length (h.last (by rw [List.getLast?_append, hc]; rfl))
      have hpos := List.length_pos_iff.mpr hx
      simp only [List.length_append, List.length_singleton] at hone
      omega
    | c :: d :: z, hz =>
      have hc : c = sep := (List.cons.inj hz).1
      have hd : d = sep := (List.cons.inj (List.cons.inj hz).2).1
      have hpair : (c :: d :: z).IsChain fun a b => a = sep → b ≠ sep := h.spaced.right_of_append
      exact absurd hd (hpair.rel hc)

theorem joinDoubled_injective {xs ys : List (List α)} (hxs : ∀ x ∈ xs, Segment sep x)
    (hys : ∀ y ∈ ys, Segment sep y) (h : joinDoubled sep xs = joinDoubled sep ys) : xs = ys := by
  induction xs generalizing ys with
  | nil =>
    cases ys with
    | nil => rfl
    | cons y ys => cases h
  | cons x xs ih =>
    cases ys with
    | nil => cases h
    | cons y ys =>
      rw [List.forall_mem_cons] at hxs hys
      rw [joinDoubled_cons, joinDoubled_cons, List.cons.injEq, List.cons.injEq] at h
      have hjoined : x ++ joinDoubled sep xs = y ++ joinDoubled sep ys := h.2.2
      have hsame : x = y := by
        obtain ⟨z, hy, hz⟩ | ⟨z, hx, hz⟩ := List.append_eq_append_iff.mp hjoined
        · have hnil := (hy ▸ hys.1).eq_nil_of_append hxs.1.ne_nil hz.symm
          rw [hy, hnil, List.append_nil]
        · have hnil := (hx ▸ hxs.1).eq_nil_of_append hys.1.ne_nil hz.symm
          rw [hx, hnil, List.append_nil]
      subst hsame
      rw [ih hxs.2 hys.2 (List.append_cancel_left hjoined)]

end Separator
