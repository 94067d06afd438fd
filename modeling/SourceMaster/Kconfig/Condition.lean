import SourceMaster.Kconfig.Expr

/-!
# Conditions

The conditions of dependencies, as trees. Parentheses are nodes of their own, so that every
condition text has a tree, and `Cond.Wf` says that the tree is the one Kconfig reads the text as.
With `Cond.holds_text` the value of a condition text is the value of its tree.
-/

namespace SourceMaster.Kconfig

open List LexState

inductive Cond where
  | sym (w : Text)
  | not (c : Cond)
  | paren (c : Cond)
  | and (a b : Cond)
  | or (a b : Cond)
  deriving DecidableEq, Repr

namespace Cond

def text : Cond → Text
  | sym w => w
  | not c => '!' :: c.text
  | paren c => '(' :: c.text ++ [')']
  | and a b => a.text ++ "&&".toList ++ b.text
  | or a b => a.text ++ "||".toList ++ b.text

def level : Cond → Level
  | sym _ => .unary
  | not _ => .unary
  | paren _ => .unary
  | and _ _ => .and
  | or _ _ => .or

/-- The text is read as this tree: the operands bind tightly enough, and symbols are words. `0` is
no symbol.
-/
def Wf : Cond → Prop
  | sym w => w ≠ [] ∧ (∀ c ∈ w, isWordChar c) ∧ w ≠ ['0']
  | not c => c.Wf ∧ c.level = .unary
  | paren c => c.Wf
  | and a b => a.Wf ∧ b.Wf ∧ a.level ≠ .or ∧ b.level = .unary
  | or a b => a.Wf ∧ b.Wf ∧ b.level ≠ .or

def val (ρ : Text → Bool) : Cond → Bool
  | sym w => ρ w
  | not c => !c.val ρ
  | paren c => c.val ρ
  | and a b => a.val ρ && b.val ρ
  | or a b => a.val ρ || b.val ρ

end Cond

/-! ## The Kconfig reading -/

variable {ρ : Text → Bool} {c : Cond}

lemma Cond.pend_text (h : c.Wf) : ∀ st : LexState, (c.text.foldl lexStep st).pend = none := by
  induction c with
  | sym w =>
    obtain ⟨hne, hw, -⟩ := h
    intro st
    obtain ⟨w', x, rfl⟩ : ∃ w' x, w = w' ++ [x] :=
      ⟨w.dropLast, w.getLast hne, (dropLast_append_getLast hne).symm⟩
    have hx : isWordChar x := hw x (by simp)
    have hxop : x ≠ '&' ∧ x ≠ '|' ∧ x ≠ '=' := by
      refine ⟨?_, ?_, ?_⟩ <;> rintro rfl <;> revert hx <;> decide
    rw [Cond.text, foldl_append]
    simp [lexStep, lexFresh, hx, hxop.1, hxop.2.1, hxop.2.2]
  | not c ih => intro st; exact ih h.1 _
  | paren c _ =>
    intro st
    rw [Cond.text, foldl_append]
    show (lexStep _ ')').pend = none
    rw [lexStep_sep isSep_rp]
  | and a b _ ihb => intro st; rw [Cond.text, foldl_append]; exact ihb h.2.1 _
  | or a b _ ihb => intro st; rw [Cond.text, foldl_append]; exact ihb h.2.1 _

lemma lex_op {s : Text} (hs : (s.foldl lexStep .init).pend = none) (t : Text) :
    lex (s ++ "&&".toList ++ t) = lex s ++ .and :: lex t ∧
    lex (s ++ "||".toList ++ t) = lex s ++ .or :: lex t := by
  have hand : "&&".toList.foldl lexStep (s.foldl lexStep .init) = ⟨lex s ++ [.and], [], none⟩ := by
    simp [lexStep, lexFresh, isWordChar, hs, lex, flush]
  have hor : "||".toList.foldl lexStep (s.foldl lexStep .init) = ⟨lex s ++ [.or], [], none⟩ := by
    simp [lexStep, lexFresh, isWordChar, hs, lex, flush]
  constructor
  · rw [lex, foldl_append, foldl_append, hand, lex_from]
    simp
  · rw [lex, foldl_append, foldl_append, hor, lex_from]
    simp

lemma Cond.head_text (h : c.Wf) : ∃ x xs, c.text = x :: xs ∧
    (isWordChar x ∨ x = '!' ∨ x = '(') := by
  induction c with
  | sym w =>
    obtain ⟨hne, hw, -⟩ := h
    cases w with
    | nil => exact absurd rfl hne
    | cons x xs => exact ⟨x, xs, rfl, Or.inl (hw x (by simp))⟩
  | not c _ => exact ⟨'!', c.text, rfl, Or.inr (Or.inl rfl)⟩
  | paren c _ => exact ⟨'(', c.text ++ [')'], rfl, Or.inr (Or.inr rfl)⟩
  | and a b iha _ =>
    obtain ⟨x, xs, hx, hp⟩ := iha h.1
    exact ⟨x, xs ++ "&&".toList ++ b.text, by rw [Cond.text, hx]; rfl, hp⟩
  | or a b iha _ =>
    obtain ⟨x, xs, hx, hp⟩ := iha h.1
    exact ⟨x, xs ++ "||".toList ++ b.text, by rw [Cond.text, hx]; rfl, hp⟩

lemma lex_not (h : c.Wf) : lex ('!' :: c.text) = .not :: lex c.text := by
  obtain ⟨x, xs, hx, hp⟩ := Cond.head_text h
  have hne : x ≠ '=' := by
    rcases hp with hp | rfl | rfl
    · rintro rfl; revert hp; decide
    · decide
    · decide
  have hstep : lexStep ⟨[], [], some '!'⟩ x =
      ⟨[.not] ++ (lexStep .init x).out, (lexStep .init x).word, (lexStep .init x).pend⟩ := by
    rw [← lexStep_out]
    simp [lexStep, lexFresh, hne, init, flush, pendTok, wordTok]
  have hbang : ('!' :: c.text).foldl lexStep .init =
    xs.foldl lexStep (lexStep ⟨[], [], some '!'⟩ x) := by
    rw [hx]
    rfl
  rw [lex, hbang, hstep, foldl_lexStep_out, hx, lex]
  simp [flush]

lemma lex_paren (c : Cond) : lex c.paren.text = .lp :: (lex c.text ++ [.rp]) := by
  have hopen : lex ('(' :: (c.text ++ [')'])) = .lp :: lex (c.text ++ [')']) :=
    lex_from [.lp] (c.text ++ [')'])
  rw [Cond.text, cons_append, hopen, lex_sep isSep_rp]
  simp [charTok, lex, init, flush, pendTok, wordTok]

lemma Cond.reads (h : c.Wf) : Reads ρ c.level (lex c.text) (c.val ρ) := by
  -- an operand of a lower level is also one of every higher level
  have hlift : ∀ {l : Level} {t : List Tok} {v : Bool}, Reads ρ l t v → l ≠ .or →
    Reads ρ .and t v := by
    intro l t v hr hl
    cases l with
    | unary => exact hr.ofUnary
    | and => exact hr
    | or => exact absurd rfl hl
  have hor : ∀ {l : Level} {t : List Tok} {v : Bool}, Reads ρ l t v → Reads ρ .or t v := by
    intro l t v hr
    cases l with
    | unary => exact hr.ofUnary.ofAnd
    | and => exact hr.ofAnd
    | or => exact hr
  induction c with
  | sym w => exact reads_word h.1 h.2.1
  | not c ih =>
    have hc := ih h.1
    rw [h.2] at hc
    rw [Cond.text, lex_not h.1]
    exact hc.not
  | paren c ih =>
    rw [lex_paren]
    exact (hor (ih h)).paren
  | and a b iha ihb =>
    have hb := ihb h.2.1
    rw [h.2.2.2] at hb
    rw [Cond.text, (lex_op (Cond.pend_text h.1 .init) b.text).1]
    exact (hlift (iha h.1) h.2.2.1).and hb
  | or a b iha ihb =>
    rw [Cond.text, (lex_op (Cond.pend_text h.1 .init) b.text).2]
    exact (hor (iha h.1)).or (hlift (ihb h.2.1) h.2.2)

lemma Cond.holds_text (h : c.Wf) : holds ρ c.text ↔ c.val ρ := by
  apply holds_iff
  have hr := Cond.reads (ρ := ρ) h
  cases hl : c.level with
  | unary => rw [hl] at hr; exact hr.ofUnary.ofAnd
  | and => rw [hl] at hr; exact hr.ofAnd
  | or => rw [hl] at hr; exact hr

/-! ## Facts about the texts -/

lemma Cond.not_mem_text (h : c.Wf) {x : Char} (hx : isWordChar x = false)
    (hop : x ∉ "!()&|".toList) : x ∉ c.text := by
  simp only [String.reduceToList, mem_cons, not_mem_nil, or_false, not_or] at hop
  induction c with
  | sym w =>
    intro hmem
    simp [h.2.1 x hmem] at hx
  | not c ih => simp [Cond.text, hop, ih h.1]
  | paren c ih => simp [Cond.text, hop, ih h]
  | and a b iha ihb => simp [Cond.text, hop, iha h.1, ihb h.2.1]
  | or a b iha ihb => simp [Cond.text, hop, iha h.1, ihb h.2.1]

lemma Cond.perlTrue_text (h : c.Wf) : perlTrue c.text := by
  obtain ⟨x, xs, hx, -⟩ := Cond.head_text h
  have hne : c.text ≠ ['0'] := by
    intro h0
    have hl := congrArg length h0
    cases c with
    | sym w => exact h.2.2 h0
    | not c => simp [Cond.text] at h0
    | paren c => simp [Cond.text] at h0
    | and a b => simp [Cond.text] at hl; omega
    | or a b => simp [Cond.text] at hl; omega
  rw [perlTrue]
  simp [hne]
  simp [hx]

end SourceMaster.Kconfig
