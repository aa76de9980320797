import Mathlib.Data.List.Chain
import Mathlib.Tactic.MkIffOfInductiveProp
import PgLance.Library.SqlText

/-! Quoted tokens read back on their own, and statements put together from fixed text and quoted
arguments. A text ends at a NUL. -/

namespace SqlText

/-- A quoted name up to the first quote that is not doubled, and the text behind it. The flag
says that a quote was just read. -/
def readDelimited : Bool → List Char → List Char → Option (List Char × List Char)
  | false, _, [] => none
  | true, acc, [] => some (acc, [])
  | false, acc, c :: cs =>
    if c = '"' then readDelimited true acc cs
    else if c = '\x00' then none
    else readDelimited false (acc ++ [c]) cs
  | true, acc, c :: cs =>
    if c = '"' then readDelimited false (acc ++ [c]) cs else some (acc, c :: cs)

theorem readDelimited_double (acc : List Char) {cs : List Char} (hcs : '\x00' ∉ cs)
    (rest : List Char) :
    readDelimited false acc (double '"' cs ++ '"' :: rest) =
      readDelimited true (acc ++ cs) rest := by
  induction cs generalizing acc with
  | nil => simp [double, readDelimited]
  | cons c cs ih =>
    rw [List.mem_cons, not_or] at hcs
    have hrest := ih (acc ++ [c]) hcs.2
    rw [List.append_assoc, List.singleton_append] at hrest
    rw [← hrest]
    by_cases hc : c = '"'
    · simp [double, List.flatMap_cons, hc, readDelimited]
    · have hnul : ¬ c = '\x00' := Ne.symm hcs.1
      simp [double, List.flatMap_cons, hc, hnul, readDelimited]

theorem readDelimited_stop (acc : List Char) {rest : List Char} (h : rest.head? ≠ some '"') :
    readDelimited true acc rest = some (acc, rest) := by
  cases rest with
  | nil => rfl
  | cons c rest =>
    have hc : ¬ c = '"' := by simpa using h
    simp [readDelimited, hc]

/-- What stands between a quote in a string constant and a quote with which the constant goes
on: nothing, or white space and comments with a newline in them. -/
inductive Gap
  | quote
  | blank
  | blankDash
  | blankComment
  | newline
  | newlineDash
  | newlineComment
  deriving DecidableEq, Repr

inductive GapStep
  | double
  | resume
  | wait (gap : Gap)
  | stop
  deriving DecidableEq, Repr

namespace Gap

def blankStep (c : Char) : GapStep :=
  if isNewline c then .wait .newline
  else if isSpace c then .wait .blank
  else if c = '-' then .wait .blankDash
  else .stop

def step : Gap → Char → GapStep
  | .quote, c => if c = '\'' then .double else blankStep c
  | .blank, c => blankStep c
  | .blankDash, c => if c = '-' then .wait .blankComment else .stop
  | .blankComment, c =>
    if c = '\x00' then .stop
    else if isNewline c then .wait .newline
    else .wait .blankComment
  | .newline, c =>
    if c = '\'' then .resume
    else if isSpace c then .wait .newline
    else if c = '-' then .wait .newlineDash
    else .stop
  | .newlineDash, c => if c = '-' then .wait .newlineComment else .stop
  | .newlineComment, c =>
    if c = '\x00' then .stop
    else if isNewline c then .wait .newline
    else .wait .newlineComment

end Gap

def goesOn : Gap → List Char → Bool
  | _, [] => false
  | gap, c :: cs =>
    match gap.step c with
    | .double | .resume => true
    | .wait gap => goesOn gap cs
    | .stop => false

/-- A string constant and the text behind it. After a quote, the state holds the gap and the
text behind that quote, where the constant ends unless it goes on. -/
def readConstant : Option (Gap × List Char) → List Char → List Char →
    Option (List Char × List Char)
  | none, _, [] => none
  | some (_, stop), acc, [] => some (acc, stop)
  | none, acc, c :: cs =>
    if c = '\'' then readConstant (some (.quote, cs)) acc cs
    else if c = '\x00' then none
    else readConstant none (acc ++ [c]) cs
  | some (gap, stop), acc, c :: cs =>
    match gap.step c with
    | .double => readConstant none (acc ++ [c]) cs
    | .resume => readConstant none acc cs
    | .wait gap => readConstant (some (gap, stop)) acc cs
    | .stop => some (acc, stop)

theorem readConstant_double (acc : List Char) {cs : List Char} (hcs : '\x00' ∉ cs)
    (rest : List Char) :
    readConstant none acc (double '\'' cs ++ '\'' :: rest) =
      readConstant (some (.quote, rest)) (acc ++ cs) rest := by
  induction cs generalizing acc with
  | nil => simp [double, readConstant]
  | cons c cs ih =>
    rw [List.mem_cons, not_or] at hcs
    have hrest := ih (acc ++ [c]) hcs.2
    rw [List.append_assoc, List.singleton_append] at hrest
    rw [← hrest]
    by_cases hc : c = '\''
    · simp [double, List.flatMap_cons, hc, readConstant, Gap.step]
    · have hnul : ¬ c = '\x00' := Ne.symm hcs.1
      simp [double, List.flatMap_cons, hc, hnul, readConstant]

theorem readConstant_stop {gap : Gap} {text : List Char} (h : goesOn gap text = false)
    (stop acc : List Char) : readConstant (some (gap, stop)) acc text = some (acc, stop) := by
  induction text generalizing gap with
  | nil => rfl
  | cons c text ih =>
    simp only [goesOn] at h
    simp only [readConstant]
    cases hstep : gap.step c with
    | double | resume => simp [hstep] at h
    | wait next =>
      rw [hstep] at h
      exact ih h
    | stop => rfl

theorem length_readConstant {text : List Char} :
    (∀ {acc value rest}, readConstant none acc text = some (value, rest) →
      rest.length < text.length) ∧
    ∀ {gap stop acc value rest}, goesOn gap text = true →
      readConstant (some (gap, stop)) acc text = some (value, rest) →
      rest.length < text.length := by
  induction text with
  | nil => simp [readConstant, goesOn]
  | cons c text ih =>
    obtain ⟨hopen, hgap⟩ := ih
    constructor
    · intro acc value rest h
      simp only [readConstant] at h
      split at h
      · cases hgoes : goesOn .quote text with
        | true =>
          have hlt := hgap hgoes h
          exact Nat.lt_succ_of_lt hlt
        | false =>
          rw [readConstant_stop hgoes] at h
          cases h
          exact Nat.lt_succ_self _
      · split at h
        · cases h
        · exact Nat.lt_succ_of_lt (hopen h)
    · intro gap stop acc value rest hgoes h
      simp only [goesOn] at hgoes
      simp only [readConstant] at h
      cases hstep : gap.step c with
      | double | resume =>
        rw [hstep] at h
        exact Nat.lt_succ_of_lt (hopen h)
      | wait next =>
        rw [hstep] at h hgoes
        exact Nat.lt_succ_of_lt (hgap hgoes h)
      | stop => simp [hstep] at hgoes

/-- A constant is read back with the text behind it exactly where it does not go on. -/
theorem readConstant_double_iff {cs : List Char} (hcs : '\x00' ∉ cs) (rest : List Char) :
    readConstant none [] (double '\'' cs ++ '\'' :: rest) = some (cs, rest) ↔
      goesOn .quote rest = false := by
  rw [readConstant_double [] hcs, List.nil_append]
  constructor
  · intro h
    cases hgoes : goesOn .quote rest with
    | false => rfl
    | true => exact absurd (length_readConstant.2 hgoes h) (Nat.lt_irrefl _)
  · intro hgoes
    exact readConstant_stop hgoes rest cs

theorem goesOn_quote (rest : List Char) :
    goesOn .quote rest = false ↔ rest.head? ≠ some '\'' ∧ goesOn .blank rest = false := by
  cases rest with
  | nil => simp [goesOn]
  | cons c rest => by_cases hc : c = '\'' <;> simp [goesOn, Gap.step, hc]

/-! Templates: fixed text with quoted arguments in it. -/

inductive Argument
  | ident (s : String)
  | literal (s : String)
  deriving DecidableEq, Repr

namespace Argument

def value : Argument → String
  | .ident s | .literal s => s

def quote : Argument → Char
  | .ident _ => '"'
  | .literal _ => '\''

def chars (arg : Argument) : List Char :=
  arg.quote :: double arg.quote arg.value.toList ++ [arg.quote]

def token : Argument → Token
  | .ident s => .ident s
  | .literal s => .literal s

end Argument

def lexed (text : String) : List Token := (lex text.toList).getD []

def isFixed : Token → Bool
  | .word _ | .punct _ => true
  | _ => false

/-- Fixed text that can stand next to an argument: its tokens are words and punctuation, and it
does not begin with a quote. -/
@[mk_iff]
structure Fixed (text : String) : Prop where
  reads : (lex text.toList).isSome = true
  nonempty : lexed text ≠ []
  plain : ∀ t ∈ lexed text, isFixed t = true
  nul : '\x00' ∉ text.toList
  head : (text.toList.head?.any fun c => c != '"' && c != '\'') = true

instance (text : String) : Decidable (Fixed text) := decidable_of_iff _ (fixed_iff text).symm

def Complete (text : String) : Prop :=
  (feed .start text.toList).map Prod.snd = some .start

instance (text : String) : Decidable (Complete text) := by
  unfold Complete
  infer_instance

theorem Fixed.lex_eq {text : String} (h : Fixed text) : lex text.toList = some (lexed text) := by
  obtain ⟨ts, hts⟩ := Option.isSome_iff_exists.mp h.reads
  rw [lexed, hts, Option.getD_some]

theorem Fixed.toList_eq {text : String} (h : Fixed text) :
    ∃ c cs, text.toList = c :: cs ∧ c ≠ '"' ∧ c ≠ '\'' := by
  have hhead := h.head
  cases htext : text.toList with
  | nil => simp [htext] at hhead
  | cons c cs => exact ⟨c, cs, rfl, by simpa [htext] using hhead⟩

theorem Complete.feed_eq {text : String} (h : Complete text) :
    feed .start text.toList = some (lexed text, .start) := by
  obtain ⟨⟨ts, m⟩, hfeed, hm⟩ := Option.map_eq_some_iff.mp h
  simp only at hm
  rw [hm] at hfeed
  simp [lexed, lex, hfeed, finish]

theorem lex_of_feed {xs ys : List Char} {ts : List Token}
    (h : feed .start xs = prepend ts (feed .start ys)) : lex xs = (lex ys).map (ts ++ ·) := by
  simp only [lex, h, bind, prepend]
  cases feed .start ys with
  | none => rfl
  | some r => cases hfinish : finish r.2 <;> simp [hfinish]

theorem Complete.lex_append {first second : String} (hfirst : Complete first)
    (hsecond : Fixed second) :
    lex (first ++ second).toList = some (lexed first ++ lexed second) := by
  rw [String.toList_append, lex_of_feed (feed_text hfirst.feed_eq second.toList), hsecond.lex_eq,
    Option.map_some]

theorem Fixed.append {first second : String} (hfirst : Fixed first) (hcomplete : Complete first)
    (hsecond : Fixed second) : Fixed (first ++ second) := by
  have hlex := hcomplete.lex_append hsecond
  have hlexed : lexed (first ++ second) = lexed first ++ lexed second := by
    rw [lexed, hlex, Option.getD_some]
  refine ⟨by rw [hlex, Option.isSome_some], ?_, ?_, ?_, ?_⟩
  · rw [hlexed]
    exact List.append_ne_nil_of_left_ne_nil hfirst.nonempty _
  · rw [hlexed, List.forall_mem_append]
    exact ⟨hfirst.plain, hsecond.plain⟩
  · rw [String.toList_append, List.mem_append, not_or]
    exact ⟨hfirst.nul, hsecond.nul⟩
  · obtain ⟨c, cs, hcs, -⟩ := hfirst.toList_eq
    have hhead := hfirst.head
    rw [String.toList_append, hcs]
    rwa [hcs] at hhead

theorem Complete.append {first second : String} (hfirst : Complete first)
    (hsecond : Complete second) : Complete (first ++ second) := by
  rw [Complete, String.toList_append, feed_text hfirst.feed_eq, hsecond.feed_eq]
  rfl

abbrev Piece := String × Argument

def formatChars : List Piece → String → List Char
  | [], last => last.toList
  | (text, arg) :: pieces, last => text.toList ++ (arg.chars ++ formatChars pieces last)

def formatTokens : List Piece → String → List Token
  | [], last => lexed last
  | (text, arg) :: pieces, last => lexed text ++ arg.token :: formatTokens pieces last

structure WellFormed (pieces : List Piece) (last : String) : Prop where
  pieces : ∀ p ∈ pieces, Fixed p.1 ∧ Complete p.1
  last : Fixed last

theorem WellFormed.tail {p : Piece} {pieces : List Piece} {last : String}
    (h : WellFormed (p :: pieces) last) : WellFormed pieces last :=
  ⟨fun q hq => h.pieces q (List.mem_cons_of_mem _ hq), h.last⟩

theorem WellFormed.formatChars_eq {pieces : List Piece} {last : String}
    (h : WellFormed pieces last) :
    ∃ c rest, formatChars pieces last = c :: rest ∧ c ≠ '"' ∧ c ≠ '\'' := by
  have hcons : ∀ {text : String}, Fixed text → ∀ rest, ∃ c cs,
      text.toList ++ rest = c :: cs ∧ c ≠ '"' ∧ c ≠ '\'' := by
    intro text hfixed rest
    obtain ⟨c, cs, hcs, hquote⟩ := hfixed.toList_eq
    exact ⟨c, cs ++ rest, by rw [hcs, List.cons_append], hquote⟩
  cases pieces with
  | nil => simpa [formatChars] using hcons h.last []
  | cons p pieces => exact hcons (h.pieces p List.mem_cons_self).1 _

theorem feed_argument (arg : Argument) {c : Char} (hdouble : c ≠ '"') (hsingle : c ≠ '\'')
    (rest : List Char) :
    feed .start (arg.chars ++ c :: rest) = prepend [arg.token] (feed .start (c :: rest)) := by
  cases arg with
  | ident s =>
    have h := feed_quoted_ident s.toList hdouble rest
    rw [String.ofList_toList] at h
    simpa [Argument.chars, Argument.quote, Argument.value, Argument.token] using h
  | literal s =>
    have h := feed_quoted_literal s.toList hsingle rest
    rw [String.ofList_toList] at h
    simpa [Argument.chars, Argument.quote, Argument.value, Argument.token] using h

/-- Fixed text reads as it does alone, and every argument as one token that holds its value. -/
theorem lex_formatChars {pieces : List Piece} {last : String} (h : WellFormed pieces last) :
    lex (formatChars pieces last) = some (formatTokens pieces last) := by
  induction pieces with
  | nil => exact h.last.lex_eq
  | cons p pieces ih =>
    obtain ⟨text, arg⟩ := p
    obtain ⟨-, hcomplete⟩ := h.pieces (text, arg) List.mem_cons_self
    obtain ⟨c, rest, hrest, hdouble, hsingle⟩ := h.tail.formatChars_eq
    have htext := lex_of_feed (feed_text hcomplete.feed_eq (arg.chars ++ formatChars pieces last))
    have harg := lex_of_feed (feed_argument arg hdouble hsingle rest)
    rw [← hrest, ih h.tail] at harg
    rw [formatChars, htext, harg]
    simp [formatTokens]

theorem forall_mem_formatTokens {P : Token → Prop} {pieces : List Piece} {last : String} :
    (∀ t ∈ formatTokens pieces last, P t) ↔
      (∀ p ∈ pieces, (∀ t ∈ lexed p.1, P t) ∧ P p.2.token) ∧ ∀ t ∈ lexed last, P t := by
  induction pieces with
  | nil => simp [formatTokens]
  | cons p pieces ih =>
    obtain ⟨text, arg⟩ := p
    rw [formatTokens, List.forall_mem_append, List.forall_mem_cons, ih, List.forall_mem_cons]
    tauto

theorem not_mem_formatChars {pieces : List Piece} {last : String} (h : WellFormed pieces last)
    (hargs : ∀ p ∈ pieces, '\x00' ∉ p.2.value.toList) : '\x00' ∉ formatChars pieces last := by
  induction pieces with
  | nil => exact h.last.nul
  | cons p pieces ih =>
    obtain ⟨text, arg⟩ := p
    rw [List.forall_mem_cons] at hargs
    have htext := (h.pieces (text, arg) List.mem_cons_self).1.nul
    have hrest := ih h.tail hargs.2
    have hdouble : '\x00' ∉ double arg.quote arg.value.toList := by
      intro hmem
      obtain ⟨c, hc, hmem⟩ := List.mem_flatMap.mp hmem
      have heq : '\x00' = c := by
        split at hmem <;> simpa using hmem
      exact hargs.1 (heq ▸ hc)
    have hquote : '\x00' ≠ arg.quote := by cases arg <;> simp [Argument.quote]
    simp [formatChars, Argument.chars, htext, hdouble, hquote, hrest]

/-! Statements. `store` is what a system makes of one token, where it cuts a name that is too
long and refuses one that is empty. -/

def isLiteral : Token → Bool
  | .literal _ => true
  | _ => false

/-- No two string constants with nothing but white space and comments between them, which may be
one constant. -/
def Apart (tokens : List Token) : Prop :=
  tokens.IsChain fun a b => ¬ (isLiteral a = true ∧ isLiteral b = true)

instance (tokens : List Token) : Decidable (Apart tokens) := by
  unfold Apart
  infer_instance

theorem not_isLiteral {t : Token} (h : isFixed t = true) : isLiteral t = false := by
  cases t <;> first | rfl | cases h

theorem ne_comment {t : Token} (h : isFixed t = true) : t ≠ .comment := by
  rintro rfl
  cases h

theorem apart_fixed_append {ts us : List Token} (hts : ∀ t ∈ ts, isFixed t = true)
    (hus : Apart us) : Apart (ts ++ us) := by
  induction ts with
  | nil => exact hus
  | cons t ts ih =>
    rw [List.forall_mem_cons] at hts
    refine List.isChain_cons.mpr ⟨?_, ih hts.2⟩
    intro u _ hboth
    exact Bool.noConfusion ((not_isLiteral hts.1).symm.trans hboth.1)

theorem Fixed.apart_cons {text : String} (h : Fixed text) (t : Token) {ts : List Token}
    (hts : Apart (lexed text ++ ts)) : Apart (t :: (lexed text ++ ts)) := by
  refine List.isChain_cons.mpr ⟨?_, hts⟩
  intro u hu hboth
  rw [List.head?_append_of_ne_nil _ h.nonempty] at hu
  have hfixed := h.plain u (List.mem_of_mem_head? hu)
  exact Bool.noConfusion ((not_isLiteral hfixed).symm.trans hboth.2)

theorem apart_formatTokens {pieces : List Piece} {last : String} (h : WellFormed pieces last) :
    Apart (formatTokens pieces last) := by
  induction pieces with
  | nil =>
    have hlast : Apart (lexed last ++ []) := apart_fixed_append h.last.plain List.IsChain.nil
    rwa [List.append_nil] at hlast
  | cons p pieces ih =>
    obtain ⟨text, arg⟩ := p
    obtain ⟨hfixed, -⟩ := h.pieces (text, arg) List.mem_cons_self
    have htail := ih h.tail
    apply apart_fixed_append hfixed.plain
    cases pieces with
    | nil =>
      rw [formatTokens, ← List.append_nil (lexed last)] at htail ⊢
      exact h.last.apart_cons arg.token htail
    | cons q pieces => exact (h.tail.pieces q List.mem_cons_self).1.apart_cons arg.token htail

section

variable (store : Token → Option Token)

def readSql (text : List Char) : Option (List Token) :=
  if '\x00' ∈ text then none
  else do
    let tokens := (← lex text).filter (· ≠ .comment)
    if Apart tokens then tokens.mapM store else none

variable {store}

theorem mapM_eq_self_iff {tokens : List Token} :
    tokens.mapM store = some tokens ↔ ∀ t ∈ tokens, store t = some t := by
  induction tokens with
  | nil => simp
  | cons t tokens ih =>
    rw [List.forall_mem_cons, ← ih, List.mapM_cons]
    simp only [Option.pure_def, Option.bind_eq_bind, Option.bind_eq_some_iff, Option.some.injEq,
      List.cons.injEq]
    constructor
    · rintro ⟨u, hu, us, hus, rfl, rfl⟩
      exact ⟨hu, hus⟩
    · rintro ⟨ht, htokens⟩
      exact ⟨t, ht, tokens, htokens, rfl, rfl⟩

theorem readSql_formatChars_iff {pieces : List Piece} {last : String}
    (h : WellFormed pieces last) (hargs : ∀ p ∈ pieces, '\x00' ∉ p.2.value.toList)
    (hpieces : ∀ p ∈ pieces, ∀ t ∈ lexed p.1, store t = some t)
    (hlast : ∀ t ∈ lexed last, store t = some t) :
    readSql store (formatChars pieces last) = some (formatTokens pieces last) ↔
      ∀ p ∈ pieces, store p.2.token = some p.2.token := by
  have hcomment : ∀ t ∈ formatTokens pieces last, t ≠ .comment := by
    rw [forall_mem_formatTokens]
    refine ⟨fun p hp => ⟨fun t ht => ne_comment ((h.pieces p hp).1.plain t ht), ?_⟩,
      fun t ht => ne_comment (h.last.plain t ht)⟩
    obtain ⟨text, arg⟩ := p
    cases arg <;> simp [Argument.token]
  have hfilter : (formatTokens pieces last).filter (· ≠ .comment) = formatTokens pieces last := by
    rw [List.filter_eq_self]
    simpa using hcomment
  rw [readSql, if_neg (not_mem_formatChars h hargs), lex_formatChars h]
  simp only [Option.bind_eq_bind, Option.bind_some, hfilter, if_pos (apart_formatTokens h)]
  rw [mapM_eq_self_iff, forall_mem_formatTokens]
  constructor
  · rintro ⟨hkept, -⟩ p hp
    exact (hkept p hp).2
  · intro hkept
    exact ⟨fun p hp => ⟨hpieces p hp, hkept p hp⟩, hlast⟩

end

end SqlText
