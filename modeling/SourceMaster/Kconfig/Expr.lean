import SourceMaster.Kconfig.Text

/-!
# Kconfig expressions

The generated lines are read by the Kconfig front end in `scripts/config`. Conditions are written in
this part of its language: symbols with `&&`, `||`, `!` and parentheses.

* `lex` follows `lexer.l`: words are made of letters, digits, `_`, `-`, `/` and `.`, blanks
  separate, and unknown characters are skipped. Comparisons, quotes and the like become `other`.
* `evalToks` follows the grammar of `parser.y` with its precedences (`||` below `&&` below `!`), as
  a machine that reads token by token. A frame holds what is known at one level of parentheses.
* `Reads` is the same grammar as a relation. By `eval_of_reads` the machine computes what the
  grammar reads.
-/

namespace SourceMaster.Kconfig

open List

inductive Tok where
  | word (w : Text)
  | and
  | or
  | not
  | lp
  | rp
  | other
  deriving DecidableEq, Repr

/-! ## The lexer -/

/-- `({n}|[/.])` with `n = [A-Za-z0-9_-]`. -/
def isWordChar (c : Char) : Bool :=
  c.isAlphanum || c = '_' || c = '-' || c = '/' || c = '.'

/-- The word read so far, and a character that may be the first half of an operator. -/
structure LexState where
  out : List Tok
  word : Text
  pend : Option Char
  deriving DecidableEq, Repr

def LexState.init : LexState := ⟨[], [], none⟩

def wordTok (w : Text) : List Tok := if w = [] then [] else [.word w]

/-- A `!` alone is a token; a single `&` or `|` is an unknown character. -/
def pendTok : Option Char → List Tok
  | some c => if c = '!' then [.not] else []
  | none => []

def charTok (c : Char) : List Tok :=
  if c = '(' then [.lp]
  else if c = ')' then [.rp]
  else if c = '=' ∨ c = '<' ∨ c = '>' ∨ c = '"' ∨ c = '\'' ∨ c = '$' ∨ c = '#' then [.other]
  else []

variable (st : LexState)

def LexState.flush : List Tok := st.out ++ pendTok st.pend ++ wordTok st.word

def lexFresh (c : Char) : LexState :=
  if isWordChar c then ⟨st.out ++ pendTok st.pend, st.word ++ [c], none⟩
  else if c = '&' ∨ c = '|' ∨ c = '!' then ⟨st.flush, [], some c⟩
  else ⟨st.flush ++ charTok c, [], none⟩

def lexStep (c : Char) : LexState :=
  if st.pend = some '&' ∧ c = '&' then ⟨st.out ++ [.and], [], none⟩
  else if st.pend = some '|' ∧ c = '|' then ⟨st.out ++ [.or], [], none⟩
  else if st.pend = some '!' ∧ c = '=' then ⟨st.out ++ [.other], [], none⟩
  else lexFresh st c

def lex (s : Text) : List Tok := (s.foldl lexStep .init).flush

variable (out : List Tok) {c : Char} {ρ : Text → Bool} (s : Text)

lemma lexStep_out (st : LexState) (c : Char) : lexStep ⟨out ++ st.out, st.word, st.pend⟩ c =
      ⟨out ++ (lexStep st c).out, (lexStep st c).word, (lexStep st c).pend⟩ := by
  unfold lexStep lexFresh LexState.flush
  split_ifs <;> simp [append_assoc]

lemma foldl_lexStep_out (out : List Tok) : ∀ (s : Text) (st : LexState),
    s.foldl lexStep ⟨out ++ st.out, st.word, st.pend⟩ =
      ⟨out ++ (s.foldl lexStep st).out, (s.foldl lexStep st).word, (s.foldl lexStep st).pend⟩
  | [], _ => rfl
  | c :: s, st => by
    rw [foldl_cons, lexStep_out]
    exact foldl_lexStep_out out s (lexStep st c)

lemma lex_from : (s.foldl lexStep ⟨out, [], none⟩).flush = out ++ lex s := by
  have h := foldl_lexStep_out out s .init
  simp only [LexState.init, append_nil] at h
  rw [h]
  simp [lex, LexState.flush, LexState.init, append_assoc]

/-- A character that ends every token in front of it and takes part in none after it. -/
def IsSep (c : Char) : Prop := isWordChar c = false ∧ c ≠ '&' ∧ c ≠ '|' ∧ c ≠ '!' ∧ c ≠ '='

lemma lexStep_sep (hc : IsSep c) (st : LexState) : lexStep st c =
    ⟨st.flush ++ charTok c, [], none⟩ := by
  obtain ⟨hw, ha, ho, hn, he⟩ := hc
  simp [lexStep, lexFresh, hw, ha, ho, hn, he]

lemma lex_sep (hc : IsSep c) (s t : Text) : lex (s ++ c :: t) = lex s ++ charTok c ++ lex t := by
  rw [lex, foldl_append, foldl_cons, lexStep_sep hc, lex_from]
  rfl

lemma isSep_blank : IsSep ' ' := by unfold IsSep; decide

lemma isSep_rp : IsSep ')' := by unfold IsSep; decide

lemma lex_andText (t : Text) : lex (s ++ " && ".toList ++ t) = lex s ++ .and :: lex t := by
  have hstr : s ++ " && ".toList ++ t = s ++ ' ' :: ("&& ".toList ++ t) := by simp
  have hand : lex ("&& ".toList ++ t) = .and :: lex t := lex_from [.and] t
  rw [hstr, lex_sep isSep_blank, hand]
  simp [charTok]

lemma lex_notOrText (t : Text) : lex ("!(".toList ++ s ++ ") || ".toList ++ t) =
      .not :: .lp :: (lex s ++ .rp :: .or :: lex t) := by
  have hstr : "!(".toList ++ s ++ ") || ".toList ++ t =
      "!(".toList ++ (s ++ ')' :: (" || ".toList ++ t)) := by simp
  have hopen : ∀ u : Text, lex ("!(".toList ++ u) = .not :: .lp :: lex u :=
    fun u => lex_from [.not, .lp] u
  have hor : lex (" || ".toList ++ t) = .or :: lex t := lex_from [.or] t
  rw [hstr, hopen, lex_sep isSep_rp, hor]
  simp [charTok]

lemma lex_word {w : Text} (hne : w ≠ []) (hw : ∀ c ∈ w, isWordChar c) : lex w = [.word w] := by
  have hfold : ∀ (w u : Text), (∀ c ∈ w, isWordChar c) →
      w.foldl lexStep ⟨[], u, none⟩ = ⟨[], u ++ w, none⟩ := by
    intro w
    induction w with
    | nil => intro u _; simp
    | cons c w ih =>
      intro u h
      have hc : isWordChar c = true := h c (by simp)
      have hstep : lexStep ⟨[], u, none⟩ c = ⟨[], u ++ [c], none⟩ := by
        simp [lexStep, lexFresh, hc, pendTok]
      rw [foldl_cons, hstep, ih _ (fun x hx => h x (by simp [hx]))]
      simp
  rw [lex, LexState.init, hfold w [] hw]
  simp [LexState.flush, pendTok, wordTok, hne]

/-! ## The evaluator -/

/-- The finished disjuncts, the conjuncts of the current one, and whether the next operand is
negated. -/
structure Frame where
  disj : Bool
  conj : Bool
  neg : Bool
  deriving DecidableEq, Repr

def Frame.init : Frame := ⟨false, true, false⟩

structure EvalState where
  frame : Frame
  /-- The frames of the open parentheses around the current one. -/
  stack : List Frame
  /-- An operand must come next. -/
  operand : Bool
  deriving DecidableEq, Repr

def Frame.take (f : Frame) (v : Bool) : Frame := ⟨f.disj, f.conj && (v ^^ f.neg), false⟩

section

variable (ρ : Text → Bool)

def evalStep (st : EvalState) : Tok → Option EvalState
  | .word w => if st.operand then some ⟨st.frame.take (ρ w), st.stack, false⟩ else none
  | .not => if st.operand then some ⟨{ st.frame with neg := !st.frame.neg }, st.stack, true⟩
    else none
  | .lp => if st.operand then some ⟨.init, st.frame :: st.stack, true⟩ else none
  | .and => if st.operand then none else some { st with operand := true }
  | .or =>
    if st.operand then none
    else some ⟨⟨st.frame.disj || st.frame.conj, true, false⟩, st.stack, true⟩
  | .rp =>
    if st.operand then none
    else match st.stack with
      | [] => none
      | f :: fs => some ⟨f.take (st.frame.disj || st.frame.conj), fs, false⟩
  | .other => none

def evalToks (ts : List Tok) : Option Bool :=
  match ts.foldlM (evalStep ρ) ⟨.init, [], true⟩ with
  | some ⟨f, [], false⟩ => some (f.disj || f.conj)
  | _ => none

def holds (s : Text) : Prop := evalToks ρ (lex s) = some true

instance (ρ : Text → Bool) (s : Text) : Decidable (holds ρ s) :=
  inferInstanceAs (Decidable (_ = _))

/-! ## The grammar -/

inductive Level where
  | unary
  | and
  | or
  deriving DecidableEq, Repr

/-- `Reads ρ l ts v`: the tokens are an expression of level `l`, with value `v` under `ρ`. -/
inductive Reads (ρ : Text → Bool) : Level → List Tok → Bool → Prop
  | word (w : Text) : Reads ρ .unary [.word w] (ρ w)
  | not {t v} : Reads ρ .unary t v → Reads ρ .unary (.not :: t) (!v)
  | paren {t v} : Reads ρ .or t v → Reads ρ .unary (.lp :: (t ++ [.rp])) v
  | ofUnary {t v} : Reads ρ .unary t v → Reads ρ .and t v
  | and {t v u w} : Reads ρ .and t v → Reads ρ .unary u w → Reads ρ .and (t ++ .and :: u) (v && w)
  | ofAnd {t v} : Reads ρ .and t v → Reads ρ .or t v
  | or {t v u w} : Reads ρ .or t v → Reads ρ .and u w → Reads ρ .or (t ++ .or :: u) (v || w)

/-- The machine after an expression of each level. A conjunction has taken the value into the frame;
a disjunction is read from a fresh frame. -/
def Level.After (t : List Tok) (v : Bool) : Level → Prop
  | .unary => ∀ f fs, t.foldlM (evalStep ρ) ⟨f, fs, true⟩ = some ⟨f.take v, fs, false⟩
  | .and => ∀ d c fs, t.foldlM (evalStep ρ) ⟨⟨d, c, false⟩, fs, true⟩ =
      some ⟨⟨d, c && v, false⟩, fs, false⟩
  | .or => ∀ fs, ∃ d c, t.foldlM (evalStep ρ) ⟨.init, fs, true⟩ = some ⟨⟨d, c, false⟩, fs, false⟩ ∧
      (d || c) = v

end

variable {v : Bool} {w : Bool} {t : List Tok} {u : List Tok}

lemma after_of_reads {l : Level} (h : Reads ρ l t v) : l.After ρ t v := by
  induction h with
  | word w => intro f fs; rfl
  | @not t v _ ih =>
    intro f fs
    show t.foldlM (evalStep ρ) ⟨{ f with neg := !f.neg }, fs, true⟩ = _
    rw [ih]
    simp [Frame.take]
  | @paren t v _ ih =>
    intro f fs
    obtain ⟨d, c, hrun, hv⟩ := ih (f :: fs)
    rw [foldlM_cons]
    show (t ++ [Tok.rp]).foldlM (evalStep ρ) ⟨.init, f :: fs, true⟩ = _
    rw [foldlM_append, hrun, ← hv]
    rfl
  | ofUnary _ ih =>
    intro d c fs
    rw [ih]
    simp [Frame.take]
  | @and t v u w _ _ ih₁ ih₂ =>
    intro d c fs
    rw [foldlM_append, ih₁]
    show u.foldlM (evalStep ρ) ⟨⟨d, c && v, false⟩, fs, true⟩ = _
    rw [ih₂]
    simp [Frame.take, Bool.and_assoc]
  | @ofAnd t v _ ih =>
    intro fs
    exact ⟨false, v, by rw [Frame.init, ih]; simp, by simp⟩
  | @or t v u w _ _ ih₁ ih₂ =>
    intro fs
    obtain ⟨d, c, hrun, hv⟩ := ih₁ fs
    refine ⟨d || c, w, ?_, by rw [hv]⟩
    rw [foldlM_append, hrun]
    show u.foldlM (evalStep ρ) ⟨⟨d || c, true, false⟩, fs, true⟩ = _
    rw [ih₂]
    simp

lemma eval_of_reads (h : Reads ρ .or t v) : evalToks ρ t = some v := by
  obtain ⟨d, c, hrun, hv⟩ := after_of_reads h []
  rw [evalToks, hrun]
  simp [hv]

lemma holds_iff {s : Text} (h : Reads ρ .or (lex s) v) : holds ρ s ↔ v = true := by
  rw [holds, eval_of_reads h, Option.some.injEq]

/-! ## Texts of the generated lines -/

lemma Reads.and_and (ht : Reads ρ .and t v) (hu : Reads ρ .and u w) :
    Reads ρ .and (t ++ .and :: u) (v && w) := by
  generalize hl : Level.and = l at hu
  induction hu with
  | word | not | paren | ofAnd | or => cases hl
  | ofUnary h _ => exact ht.and h
  | @and u₁ w₁ u₂ w₂ _ h₂ ih₁ _ =>
    have h := (ih₁ hl).and h₂
    rw [Bool.and_assoc] at h
    simpa [append_assoc] using h

lemma Reads.or_or (ht : Reads ρ .or t v) (hu : Reads ρ .or u w) :
    Reads ρ .or (t ++ .or :: u) (v || w) := by
  generalize hl : Level.or = l at hu
  induction hu with
  | word | not | paren | ofUnary | and => cases hl
  | ofAnd h _ => exact ht.or h
  | @or u₁ w₁ u₂ w₂ _ h₂ ih₁ _ =>
    have h := (ih₁ hl).or h₂
    rw [Bool.or_assoc] at h
    simpa [append_assoc] using h

lemma reads_andText {s t : Text} (hs : Reads ρ .and (lex s) v) (ht : Reads ρ .and (lex t) w) :
    Reads ρ .and (lex (s ++ " && ".toList ++ t)) (v && w) := by
  rw [lex_andText]
  exact hs.and_and ht

lemma reads_notOrText {s t : Text} (hs : Reads ρ .or (lex s) v) (ht : Reads ρ .or (lex t) w) :
    Reads ρ .or (lex ("!(".toList ++ s ++ ") || ".toList ++ t)) (!v || w) := by
  rw [lex_notOrText]
  have h := ((hs.paren.not).ofUnary.ofAnd).or_or ht
  simpa [append_assoc] using h

lemma reads_word {w : Text} (hne : w ≠ []) (hw : ∀ c ∈ w, isWordChar c) :
    Reads ρ .unary (lex w) (ρ w) := by
  rw [lex_word hne hw]
  exact Reads.word w

end SourceMaster.Kconfig
