import Mathlib.Data.List.Basic

/-! The lexical rules of PostgreSQL, as a reader that takes one character at a time: words,
quoted identifiers, string constants, `$$` bodies, comments and single punctuation characters.
Tagged dollar quotes and parameters are refused. -/

namespace SqlText

inductive Token
  | word (s : String)
  | ident (s : String)
  | literal (s : String)
  | dollar (body : String)
  | punct (c : Char)
  | comment
  deriving DecidableEq, Repr

inductive Mode
  | start
  | word (acc : List Char)
  | ident (acc : List Char)
  /-- After a quote inside an identifier, which is doubled or ends it. -/
  | identQuote (acc : List Char)
  | literal (acc : List Char)
  | literalQuote (acc : List Char)
  | opening
  | body (acc : List Char)
  | bodyDollar (acc : List Char)
  | dash
  | slash
  | line
  | block (depth : Nat) (previous : Char)
  deriving DecidableEq, Repr

def isSpace (c : Char) : Bool :=
  c == ' ' || c == '\t' || c == '\n' || c == '\r' || c == '\x0b' || c == '\x0c'

def isNewline (c : Char) : Bool := c == '\n' || c == '\r'

def isWordStart (c : Char) : Bool := c.isAlphanum || c == '_' || c.val ≥ 128

def isWordChar (c : Char) : Bool := isWordStart c || c == '$'

def enter (c : Char) : List Token × Mode :=
  if isSpace c then ([], .start)
  else if c = '"' then ([], .ident [])
  else if c = '\'' then ([], .literal [])
  else if c = '$' then ([], .opening)
  else if c = '-' then ([], .dash)
  else if c = '/' then ([], .slash)
  else if isWordStart c then ([], .word [c.toLower])
  else ([.punct c], .start)

def emit (token : Token) (c : Char) : Option (List Token × Mode) :=
  some (token :: (enter c).1, (enter c).2)

def step : Mode → Char → Option (List Token × Mode)
  | .start, c => some (enter c)
  | .word acc, c =>
    if isWordChar c then some ([], .word (acc ++ [c.toLower]))
    else emit (.word (String.ofList acc)) c
  | .ident acc, c => if c = '"' then some ([], .identQuote acc) else some ([], .ident (acc ++ [c]))
  | .identQuote acc, c =>
    if c = '"' then some ([], .ident (acc ++ [c])) else emit (.ident (String.ofList acc)) c
  | .literal acc, c =>
    if c = '\'' then some ([], .literalQuote acc) else some ([], .literal (acc ++ [c]))
  | .literalQuote acc, c =>
    if c = '\'' then some ([], .literal (acc ++ [c])) else emit (.literal (String.ofList acc)) c
  | .opening, c => if c = '$' then some ([], .body []) else none
  | .body acc, c => if c = '$' then some ([], .bodyDollar acc) else some ([], .body (acc ++ [c]))
  | .bodyDollar acc, c =>
    if c = '$' then some ([.dollar (String.ofList acc)], .start)
    else some ([], .body (acc ++ ['$', c]))
  | .dash, c => if c = '-' then some ([], .line) else emit (.punct '-') c
  | .slash, c => if c = '*' then some ([], .block 0 ' ') else emit (.punct '/') c
  | .line, c => if isNewline c then some ([.comment], .start) else some ([], .line)
  | .block depth previous, c =>
    if previous = '*' ∧ c = '/' then
      match depth with
      | 0 => some ([.comment], .start)
      | depth + 1 => some ([], .block depth ' ')
    else if previous = '/' ∧ c = '*' then some ([], .block (depth + 1) ' ')
    else some ([], .block depth c)

def feed : Mode → List Char → Option (List Token × Mode)
  | m, [] => some ([], m)
  | m, c :: cs => do
    let (tokens, m) ← step m c
    let (rest, m) ← feed m cs
    return (tokens ++ rest, m)

def finish : Mode → Option (List Token)
  | .start => some []
  | .word acc => some [.word (String.ofList acc)]
  | .identQuote acc => some [.ident (String.ofList acc)]
  | .literalQuote acc => some [.literal (String.ofList acc)]
  | .dash => some [.punct '-']
  | .slash => some [.punct '/']
  | .line => some [.comment]
  | _ => none

def lex (text : List Char) : Option (List Token) := do
  let (tokens, m) ← feed .start text
  return tokens ++ (← finish m)

/-- The tokens in the body of a text that is one `DO` statement. -/
def readDo (text : List Char) : Option (List Token) :=
  match lex text with
  | some [.word "do", .dollar body, .punct ';'] => lex body.toList
  | _ => none

theorem feed_cons_of_step {m m' : Mode} {c : Char} (h : step m c = some ([], m')) (cs : List Char) :
    feed m (c :: cs) = feed m' cs := by
  simp only [feed, h, bind, Option.bind]
  cases feed m' cs <;> rfl

theorem feed_append (m : Mode) (xs ys : List Char) :
    feed m (xs ++ ys) = (feed m xs).bind fun r =>
      (feed r.2 ys).map fun s => (r.1 ++ s.1, s.2) := by
  induction xs generalizing m with
  | nil => simp [feed]
  | cons c xs ih =>
    simp only [List.cons_append, feed]
    cases hstep : step m c with
    | none => rfl
    | some r =>
      simp only [bind, Option.bind, ih]
      cases feed r.2 xs with
      | none => rfl
      | some s => cases h : feed s.2 ys <;> simp [h]

theorem feed_append_of {m m₁ m₂ : Mode} {xs ys : List Char} {ts us : List Token}
    (hxs : feed m xs = some (ts, m₁)) (hys : feed m₁ ys = some (us, m₂)) :
    feed m (xs ++ ys) = some (ts ++ us, m₂) := by
  simp [feed_append, hxs, hys]

def prepend (ts : List Token) (r : Option (List Token × Mode)) : Option (List Token × Mode) :=
  r.map fun r => (ts ++ r.1, r.2)

@[simp] theorem prepend_prepend (ts us : List Token) (r : Option (List Token × Mode)) :
    prepend ts (prepend us r) = prepend (ts ++ us) r := by
  cases r <;> simp [prepend]

@[simp] theorem prepend_some (ts us : List Token) (m : Mode) :
    prepend ts (some (us, m)) = some (ts ++ us, m) := rfl

@[simp] theorem prepend_nil (r : Option (List Token × Mode)) : prepend [] r = r := by
  cases r <;> rfl

theorem feed_space (rest : List Char) : feed .start (' ' :: rest) = feed .start rest :=
  feed_cons_of_step (by decide) rest

theorem feed_punct {c : Char} (h : enter c = ([.punct c], .start)) (rest : List Char) :
    feed .start (c :: rest) = prepend [.punct c] (feed .start rest) := by
  have hstep : step .start c = some ([.punct c], .start) := by rw [← h]; rfl
  simp only [feed, hstep, bind, Option.bind, prepend]
  cases feed .start rest <;> rfl

theorem feed_text {text : List Char} {ts : List Token} (h : feed .start text = some (ts, .start))
    (rest : List Char) : feed .start (text ++ rest) = prepend ts (feed .start rest) := by
  rw [feed_append, h, Option.bind_some, prepend]

def double (quote : Char) (cs : List Char) : List Char :=
  cs.flatMap fun c => if c = quote then [c, c] else [c]

theorem feed_ident_double (acc cs rest : List Char) :
    feed (.ident acc) (double '"' cs ++ '"' :: rest) = feed (.identQuote (acc ++ cs)) rest := by
  induction cs generalizing acc with
  | nil =>
    rw [List.append_nil]
    exact feed_cons_of_step (by simp [step]) rest
  | cons c cs ih =>
    have hcs := ih (acc ++ [c])
    rw [List.append_assoc, List.singleton_append] at hcs
    rw [← hcs]
    by_cases hc : c = '"'
    · have hopen : step (.ident acc) '"' = some ([], .identQuote acc) := by simp [step]
      have hdouble : step (.identQuote acc) '"' = some ([], .ident (acc ++ ['"'])) := by simp [step]
      simp only [double, List.flatMap_cons, hc, if_true, List.cons_append, List.nil_append]
      rw [feed_cons_of_step hopen, feed_cons_of_step hdouble]
    · have hstay : step (.ident acc) c = some ([], .ident (acc ++ [c])) := by simp [step, hc]
      simp only [double, List.flatMap_cons, hc, if_false, List.cons_append, List.nil_append]
      rw [feed_cons_of_step hstay]

theorem feed_literal_double (acc cs rest : List Char) :
    feed (.literal acc) (double '\'' cs ++ '\'' :: rest) = feed (.literalQuote (acc ++ cs)) rest := by
  induction cs generalizing acc with
  | nil =>
    rw [List.append_nil]
    exact feed_cons_of_step (by simp [step]) rest
  | cons c cs ih =>
    have hcs := ih (acc ++ [c])
    rw [List.append_assoc, List.singleton_append] at hcs
    rw [← hcs]
    by_cases hc : c = '\''
    · have hopen : step (.literal acc) '\'' = some ([], .literalQuote acc) := by simp [step]
      have hdouble : step (.literalQuote acc) '\'' = some ([], .literal (acc ++ ['\''])) := by
        simp [step]
      simp only [double, List.flatMap_cons, hc, if_true, List.cons_append, List.nil_append]
      rw [feed_cons_of_step hopen, feed_cons_of_step hdouble]
    · have hstay : step (.literal acc) c = some ([], .literal (acc ++ [c])) := by simp [step, hc]
      simp only [double, List.flatMap_cons, hc, if_false, List.cons_append, List.nil_append]
      rw [feed_cons_of_step hstay]

theorem feed_cons_of_emit {m : Mode} {c : Char} {token : Token} (h : step m c = emit token c)
    (cs : List Char) :
    feed m (c :: cs) = prepend [token] (feed .start (c :: cs)) := by
  have hstart : step .start c = some (enter c) := rfl
  simp only [feed, h, hstart, emit, bind, Option.bind, prepend]
  cases feed (enter c).2 cs <;> rfl

theorem feed_quoted_ident (cs : List Char) {c : Char} (hc : c ≠ '"') (rest : List Char) :
    feed .start ('"' :: double '"' cs ++ '"' :: c :: rest) =
      prepend [.ident (String.ofList cs)] (feed .start (c :: rest)) := by
  have hopen : step .start '"' = some ([], .ident []) := by decide
  have hend : step (.identQuote cs) c = emit (.ident (String.ofList cs)) c := by simp [step, hc]
  rw [List.cons_append, feed_cons_of_step hopen, feed_ident_double, List.nil_append,
    feed_cons_of_emit hend]

theorem feed_quoted_literal (cs : List Char) {c : Char} (hc : c ≠ '\'') (rest : List Char) :
    feed .start ('\'' :: double '\'' cs ++ '\'' :: c :: rest) =
      prepend [.literal (String.ofList cs)] (feed .start (c :: rest)) := by
  have hopen : step .start '\'' = some ([], .literal []) := by decide
  have hend : step (.literalQuote cs) c = emit (.literal (String.ofList cs)) c := by
    simp [step, hc]
  rw [List.cons_append, feed_cons_of_step hopen, feed_literal_double, List.nil_append,
    feed_cons_of_emit hend]

/-! A text without dollars, comments and unfinished tokens. -/

def Token.plain : Token → Bool
  | .word s => !s.toList.contains '$'
  | .dollar _ | .comment => false
  | _ => true

def Mode.Tainted : Mode → Prop
  | .word acc => '$' ∈ acc
  | .opening | .body _ | .bodyDollar _ | .line | .block _ _ => True
  | _ => False

theorem tainted_step {m m' : Mode} {c : Char} {ts : List Token} (hm : m.Tainted)
    (h : step m c = some (ts, m')) : m'.Tainted ∨ ∃ t ∈ ts, t.plain = false := by
  cases m with
  | word acc =>
    simp only [step] at h
    split at h
    · cases h
      exact .inl (List.mem_append_left _ hm)
    · cases h
      change '$' ∈ acc at hm
      exact .inr ⟨_, List.mem_cons_self, by simpa [Token.plain] using hm⟩
  | opening =>
    simp only [step] at h
    split at h <;> cases h
    exact .inl trivial
  | body acc =>
    simp only [step] at h
    split at h <;> cases h <;> exact .inl trivial
  | bodyDollar acc =>
    simp only [step] at h
    split at h <;> cases h
    · exact .inr ⟨_, List.mem_cons_self, rfl⟩
    · exact .inl trivial
  | line =>
    simp only [step] at h
    split at h <;> cases h
    · exact .inr ⟨_, List.mem_cons_self, rfl⟩
    · exact .inl trivial
  | block depth previous =>
    simp only [step] at h
    split at h
    · cases depth <;> cases h
      · exact .inr ⟨_, List.mem_cons_self, rfl⟩
      · exact .inl trivial
    · split at h <;> cases h <;> exact .inl trivial
  | _ => cases hm

theorem tainted_feed {m m' : Mode} {cs : List Char} {ts : List Token} (hm : m.Tainted)
    (h : feed m cs = some (ts, m')) : m'.Tainted ∨ ∃ t ∈ ts, t.plain = false := by
  induction cs generalizing m ts with
  | nil =>
    cases h
    exact .inl hm
  | cons c cs ih =>
    simp only [feed, bind, Option.bind_eq_some_iff] at h
    obtain ⟨⟨us, m₁⟩, hstep, ⟨vs, m₂⟩, hfeed, h⟩ := h
    cases h
    cases tainted_step hm hstep with
    | inl hm₁ =>
      cases ih hm₁ hfeed with
      | inl hm' => exact .inl hm'
      | inr hvs =>
        obtain ⟨t, ht, hplain⟩ := hvs
        exact .inr ⟨t, List.mem_append_right _ ht, hplain⟩
    | inr hus =>
      obtain ⟨t, ht, hplain⟩ := hus
      exact .inr ⟨t, List.mem_append_left _ ht, hplain⟩

theorem tainted_step_dollar {m m' : Mode} {ts us : List Token} (hm : finish m = some us)
    (h : step m '$' = some (ts, m')) : m'.Tainted := by
  cases m with
  | word acc =>
    have hword : isWordChar '$' = true := by decide
    simp only [step, hword, if_true, Option.some.injEq, Prod.mk.injEq] at h
    rw [← h.2]
    exact List.mem_append_right _ (by decide)
  | start | identQuote | literalQuote | dash | slash | line =>
    simp [step, emit, enter, isSpace, isNewline] at h
    rw [← h.2]
    trivial
  | _ => cases hm

theorem lex_of_dollar {xs ys : List Char} {ts : List Token} {m : Mode}
    (h : feed .start (xs ++ '$' :: ys) = some (ts, m)) (hplain : ∀ t ∈ ts, t.plain = true)
    (hm : ¬ m.Tainted) : lex xs = none := by
  simp only [feed_append, Option.bind_eq_some_iff, Option.map_eq_some_iff] at h
  obtain ⟨⟨us, m₁⟩, hxs, ⟨vs, m₂⟩, hys, h⟩ := h
  cases h
  simp only [feed, bind, Option.bind_eq_some_iff] at hys
  obtain ⟨⟨ws, m₃⟩, hstep, ⟨zs, m₄⟩, hfeed, hys⟩ := hys
  cases hys
  cases hfinish : finish m₁ with
  | none => simp [lex, hxs, hfinish]
  | some es =>
    cases tainted_feed (tainted_step_dollar hfinish hstep) hfeed with
    | inl htainted => exact absurd htainted hm
    | inr hzs =>
      obtain ⟨t, ht, hfalse⟩ := hzs
      have htrue := hplain t (List.mem_append_right _ (List.mem_append_right _ ht))
      cases hfalse.symm.trans htrue

/-! Dollar quotes. -/

def splitDollars : List Char → Option (List Char × List Char)
  | [] => none
  | c :: cs =>
    if c = '$' ∧ cs.head? = some '$' then some ([], cs.tail)
    else (splitDollars cs).map fun p => (c :: p.1, p.2)

def hasDollars (cs : List Char) : Bool := (splitDollars cs).isSome

theorem hasDollars_nil : hasDollars [] = false := rfl

theorem splitDollars_append {cs before after : List Char} (h : splitDollars cs = some (before, after))
    (rest : List Char) : splitDollars (cs ++ rest) = some (before, after ++ rest) := by
  induction cs generalizing before with
  | nil => cases h
  | cons c cs ih =>
    simp only [splitDollars] at h
    split at h
    · rename_i hdollars
      cases h
      cases cs with
      | nil => simp at hdollars
      | cons d cs => simpa [splitDollars] using hdollars
    · rename_i hdollars
      obtain ⟨⟨x, y⟩, hsplit, heq⟩ := Option.map_eq_some_iff.mp h
      cases heq
      have hhead : ¬ (c = '$' ∧ (cs ++ rest).head? = some '$') := by
        cases cs with
        | nil => cases hsplit
        | cons d cs => exact hdollars
      simp only [List.cons_append, splitDollars, hhead, if_false, ih hsplit, Option.map_some]

theorem splitDollars_eq {cs before after : List Char}
    (h : splitDollars cs = some (before, after)) : cs = before ++ '$' :: '$' :: after := by
  induction cs generalizing before with
  | nil => cases h
  | cons c cs ih =>
    simp only [splitDollars] at h
    split at h
    · rename_i hdollars
      cases h
      cases cs with
      | nil => simp at hdollars
      | cons d cs => simpa using hdollars
    · obtain ⟨⟨x, y⟩, hsplit, heq⟩ := Option.map_eq_some_iff.mp h
      cases heq
      rw [ih hsplit, List.cons_append]

theorem hasDollars_cons {c : Char} (h : c ≠ '$') (cs : List Char) :
    hasDollars (c :: cs) = hasDollars cs := by
  simp [hasDollars, splitDollars, h]

theorem hasDollars_append_cons (cs : List Char) {c : Char} (h : c ≠ '$') (rest : List Char) :
    hasDollars (cs ++ c :: rest) = (hasDollars cs || hasDollars rest) := by
  induction cs with
  | nil => simpa [hasDollars, splitDollars] using hasDollars_cons h rest
  | cons d cs ih =>
    have hhead : (cs ++ c :: rest).head? = some '$' ↔ cs.head? = some '$' := by
      cases cs <;> simp [h]
    simp only [hasDollars] at ih ⊢
    simp only [List.cons_append, splitDollars, hhead]
    split
    · rfl
    · simpa using ih

theorem hasDollars_double {quote : Char} (h : quote ≠ '$') (cs : List Char) :
    hasDollars (double quote cs) = hasDollars cs := by
  induction cs with
  | nil => rfl
  | cons c cs ih =>
    by_cases hc : c = '$'
    · have hne : ¬ c = quote := fun heq => h (heq ▸ hc)
      have hhead : (double quote cs).head? = some '$' ↔ cs.head? = some '$' := by
        cases cs with
        | nil => rfl
        | cons d cs =>
          by_cases hd : d = quote <;> simp [double, hd]
      simp only [double, List.flatMap_cons, hne, if_false, List.singleton_append]
      simp only [hasDollars] at ih ⊢
      change (splitDollars (c :: double quote cs)).isSome = _
      simp only [splitDollars, hhead]
      split
      · rfl
      · simpa using ih
    · rw [hasDollars_cons hc, ← ih]
      by_cases hq : c = quote
      · simp only [double, List.flatMap_cons, hq, if_true, List.cons_append, List.nil_append,
          hasDollars_cons h]
      · simp only [double, List.flatMap_cons, hq, if_false, List.cons_append, List.nil_append,
          hasDollars_cons hc]

theorem hasDollars_text {text : List Char} (h : '$' ∉ text) (rest : List Char) :
    hasDollars (text ++ rest) = hasDollars rest := by
  induction text with
  | nil => rfl
  | cons c text ih =>
    rw [List.mem_cons, not_or] at h
    rw [List.cons_append, hasDollars_cons (Ne.symm h.1), ih h.2]

theorem feed_body {cs before after : List Char} (h : splitDollars cs = some (before, after))
    (acc : List Char) :
    feed (.body acc) cs = (feed .start after).map fun r =>
      (.dollar (String.ofList (acc ++ before)) :: r.1, r.2) := by
  induction cs generalizing acc before with
  | nil => cases h
  | cons c cs ih =>
    simp only [splitDollars] at h
    by_cases hc : c = '$'
    · cases cs with
      | nil => simp [splitDollars] at h
      | cons d cs =>
        by_cases hd : d = '$'
        · simp only [hc, hd, List.head?_cons, and_self, if_true, Option.some.injEq, List.tail_cons,
            Prod.mk.injEq] at h
          rw [hc, hd, ← h.1, ← h.2, List.append_nil]
          cases hrest : feed .start cs <;> simp [feed, step, hrest]
        · simp only [List.head?_cons, Option.some.injEq, hd, and_false, if_false] at h
          obtain ⟨⟨x, y⟩, hsplit, heq⟩ := Option.map_eq_some_iff.mp h
          cases heq
          have hfeed := ih hsplit (acc ++ ['$'])
          have hopen : step (.body acc) '$' = some ([], .bodyDollar acc) := by simp [step]
          have hback : step (.bodyDollar acc) d = some ([], .body (acc ++ ['$', d])) := by
            simp [step, hd]
          have hstay : step (.body (acc ++ ['$'])) d = some ([], .body (acc ++ ['$', d])) := by
            simp [step, hd]
          rw [feed_cons_of_step hstay] at hfeed
          rw [hc, feed_cons_of_step hopen, feed_cons_of_step hback, hfeed]
          simp
    · simp only [hc, false_and, if_false] at h
      obtain ⟨⟨x, y⟩, hsplit, heq⟩ := Option.map_eq_some_iff.mp h
      cases heq
      have hfeed := ih hsplit (acc ++ [c])
      have hstay : step (.body acc) c = some ([], .body (acc ++ [c])) := by simp [step, hc]
      rw [feed_cons_of_step hstay, hfeed]
      simp

theorem splitDollars_close {body : List Char} (h : hasDollars body = false)
    (hlast : body.getLast? ≠ some '$') (rest : List Char) :
    splitDollars (body ++ '$' :: '$' :: rest) = some (body, rest) := by
  induction body with
  | nil => simp [splitDollars]
  | cons c cs ih =>
    cases cs with
    | nil =>
      have hc : c ≠ '$' := by simpa using hlast
      simp [splitDollars, hc]
    | cons d cs =>
      rw [hasDollars, splitDollars] at h
      split at h
      · cases h
      · rename_i hdollars
        have hcs := ih (by simpa [hasDollars] using h) (by simpa using hlast)
        rw [List.cons_append, splitDollars, hcs]
        simpa using hdollars

theorem step_dollar_start {m : Mode} {ts : List Token} (h : step m '$' = some (ts, .start)) :
    ∃ t ∈ ts, t.plain = false := by
  cases m with
  | bodyDollar acc =>
    cases h
    exact ⟨_, List.mem_cons_self, rfl⟩
  | block depth previous =>
    have hne : ¬ (previous = '*' ∧ '$' = '/') := by simp
    simp [step] at h
  | word acc =>
    have hword : isWordChar '$' = true := by decide
    simp [step, hword] at h
  | _ => simp [step, emit, enter, isSpace, isNewline] at h

theorem getLast?_of_feed {body : List Char} {ts : List Token}
    (h : feed .start body = some (ts, .start)) (hplain : ∀ t ∈ ts, t.plain = true) :
    body.getLast? ≠ some '$' := by
  intro hlast
  obtain ⟨xs, rfl⟩ := List.getLast?_eq_some_iff.mp hlast
  simp only [feed_append, Option.bind_eq_some_iff, Option.map_eq_some_iff] at h
  obtain ⟨⟨us, m⟩, hxs, ⟨vs, m'⟩, hdollar, heq⟩ := h
  cases heq
  simp only [feed, bind, Option.bind_eq_some_iff] at hdollar
  obtain ⟨⟨ws, m₁⟩, hstep, _, hnil, heq⟩ := hdollar
  cases hnil
  cases heq
  obtain ⟨t, ht, hfalse⟩ := step_dollar_start hstep
  cases hfalse.symm.trans (hplain t (by simp [ht]))

/-- A `DO` statement is read as the tokens of its body when no `$$` ends the body earlier, and
else not at all. -/
theorem readDo_iff {body : List Char} {ts : List Token}
    (h : feed .start body = some (ts, .start)) (hplain : ∀ t ∈ ts, t.plain = true) :
    readDo ("DO $$".toList ++ body ++ "$$;".toList) = some ts ↔ hasDollars body = false := by
  have hopen : feed .start "DO $$".toList = some ([.word "do"], .body []) := by decide
  have hsemi : feed .start [';'] = some ([.punct ';'], .start) := by decide
  cases hdollars : hasDollars body with
  | false =>
    have hsplit := splitDollars_close hdollars (getLast?_of_feed h hplain) [';']
    have hbody := feed_body hsplit []
    rw [hsemi, Option.map_some] at hbody
    have hlex : lex ("DO $$".toList ++ body ++ "$$;".toList) =
        some [.word "do", .dollar (String.ofList body), .punct ';'] := by
      have htext := feed_append_of hopen hbody
      rw [← List.append_assoc] at htext
      simp only [lex, bind, Option.bind, show "$$;".toList = ['$', '$', ';'] from rfl]
      rw [htext]
      rfl
    simp only [readDo, hlex]
    simp [lex, h, finish]
  | true =>
    obtain ⟨⟨before, after⟩, hsplit⟩ := Option.isSome_iff_exists.mp hdollars
    have hbody := feed_body (splitDollars_append hsplit "$$;".toList) []
    have hbefore : lex before = none := by
      rw [splitDollars_eq hsplit] at h
      exact lex_of_dollar h hplain id
    simp only [reduceCtorEq, iff_false]
    intro hread
    have hlex : lex ("DO $$".toList ++ body ++ "$$;".toList) =
        (lex (after ++ "$$;".toList)).map fun rest =>
          .word "do" :: .dollar (String.ofList before) :: rest := by
      rw [lex, List.append_assoc, feed_append, hopen, Option.bind_some, hbody]
      simp only [lex, bind]
      cases feed .start (after ++ "$$;".toList) with
      | none => rfl
      | some r => cases hfinish : finish r.2 <;> simp [hfinish]
    simp only [readDo, hlex] at hread
    cases hrest : lex (after ++ "$$;".toList) with
    | none => simp only [hrest, Option.map_none, reduceCtorEq] at hread
    | some rest =>
      simp only [hrest, Option.map_some] at hread
      split at hread
      · rename_i text heq
        simp only [Option.some.injEq, List.cons.injEq, Token.dollar.injEq] at heq
        rw [← heq.2.1, String.toList_ofList, hbefore] at hread
        cases hread
      · cases hread

end SqlText
