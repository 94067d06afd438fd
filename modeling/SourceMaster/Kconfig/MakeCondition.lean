import SourceMaster.Kconfig.Condition
import SourceMaster.Kconfig.MconfDepends

/-!
# Conditions in the generated make rules

`gen_package_mk` turns a dependency `COND:pkg` into a make rule that is guarded by the condition.
The condition is taken apart as text: `get_conditional_dep` looks at a leading `!`, `gen_condition`
removes every `!`, `(` and `)`, and what is left is split at `||` and then at `&&`.

`Cond.flat` is what is left of a condition after the removal: a list of lists of symbols. The two
readings of a condition are compared through it.
-/

namespace SourceMaster.Kconfig

open List Bool Cond

/-! ## The generator -/

/-- Split a text at every `aa`, as `split` does before it drops trailing empty fields. -/
def splitOp (a : Char) : Text → List Text
  | [] => [[]]
  | [c] => [[c]]
  | c :: d :: s =>
    if c = a ∧ d = a then [] :: splitOp a s
    else match splitOp a (d :: s) with
      | [] => [[c]]
      | x :: xs => (c :: x) :: xs

/-- `split` leaves out empty fields at the end. -/
def dropTrailingEmpty (xs : List Text) : List Text :=
  (xs.reverse.dropWhile (fun x => x = [])).reverse

def split2 (a : Char) (s : Text) : List Text := dropTrailingEmpty (splitOp a s)

def configVar (sym : Text) : Text := "$(CONFIG_".toList ++ sym ++ [')']

variable (condition : Text)

def andCondition : Text :=
  match split2 '&' condition with
  | [x] => configVar x
  | xs => "$(and ".toList ++ joinText [','] (xs.map configVar) ++ [')']

def stripCond : Text :=
  condition.filter (fun c => !(c = '(' || c = ')' || c = '!'))

def genCondition : Text :=
  (split2 '|' (stripCond condition)).flatMap andCondition

def afterBang : Text → Option Text
  | [] => none
  | c :: rest => if c = '!' ∧ rest ≠ [] then some rest else none

def getConditionalDep (condition depstr : Text) : Text :=
  if perlTrue condition then
    match afterBang condition with
    | some rest => "$(if ".toList ++ genCondition rest ++ ",,".toList ++ depstr ++ [')']
    | none => "$(if ".toList ++ genCondition condition ++ [','] ++ depstr ++ [')']
  else depstr

/-- `"\$(curdir)/$path/compile"`, under the condition that the package is enabled if there are
several. -/
def providerDep (several : Bool) (v : Pkg) : Text :=
  let depstr := "$(curdir)/".toList ++ v.src.path ++ "/compile".toList
  if several then "$(if $(CONFIG_PACKAGE_".toList ++ v.name ++ "),".toList ++ depstr ++ [')']
  else depstr

/-- The part of `gen_package_mk` for one dependency: the make texts for the rule of its source. An
entry with `@` is no package, and every `+` is removed. -/
def genPackageMkDep (md : Metadata) (srcname dep : Text) : List Text :=
  if '@' ∈ dep then []
  else
    let dep := dep.filter (· ≠ '+')
    let (condition, dep) := (matchColon dep).getD ([], dep)
    match vpackage md dep with
    | none => []
    | some vpkgDep =>
      let vdeps := vpkgDep.filter (fun v => srcname ≠ v.src.name)
      vdeps.map (fun v => getConditionalDep condition (providerDep (1 < vdeps.length) v))

/-! ## What make does with the text -/

abbrev MakeConj := List Text

def MakeConj.render (g : MakeConj) : Text :=
  match g with
  | [x] => configVar x
  | xs => "$(and ".toList ++ joinText [','] (xs.map configVar) ++ [')']

/-- `$(and …)` expands to something iff it has an argument and no argument is empty. -/
def MakeConj.expands (ρ : Text → Bool) (g : MakeConj) : Bool := g != [] && g.all ρ

/-- A guarded text `$(if …,dep)` or `$(if …,,dep)`. The condition is the conjunctions one after the
other. -/
structure MakeIf where
  cond : List MakeConj
  negated : Bool
  deriving DecidableEq, Repr

def MakeIf.render (m : MakeIf) (depstr : Text) : Text :=
  "$(if ".toList ++ m.cond.flatMap MakeConj.render ++ (if m.negated then ",,".toList else [',']) ++
    depstr ++ [')']

def MakeIf.active (ρ : Text → Bool) (m : MakeIf) : Bool :=
  m.cond.any (MakeConj.expands ρ) ^^ m.negated

/-! ## What the removal leaves of a condition -/

namespace Cond

/-- The last list of `xs` and the first one of `ys` become one. -/
def glue {α : Type} : List (List α) → List (List α) → List (List α)
  | [], ys => ys
  | [x], y :: ys => (x ++ y) :: ys
  | [x], [] => [x]
  | x :: x' :: xs, ys => x :: glue (x' :: xs) ys

/-- The symbols of the condition after the removal, in the lists that `split` leaves. -/
def flat : Cond → List (List Text)
  | sym w => [[w]]
  | not c => c.flat
  | paren c => c.flat
  | and a b => glue a.flat b.flat
  | or a b => a.flat ++ b.flat

def conj : Cond → Bool
  | sym _ => true
  | not _ => false
  | paren c => c.conj
  | and a b => a.conj && b.conj
  | or _ _ => false

/-- A condition without `!` in which no `||` stands under an `&&`. -/
def dnf : Cond → Bool
  | sym _ => true
  | not _ => false
  | paren c => c.dnf
  | and a b => a.conj && b.conj
  | or a b => a.dnf && b.dnf

end Cond

def makeIf (c : Cond) : MakeIf := ⟨c.flat, c.text.head? = some '!'⟩

/-! ## The make reading: what `split` leaves of a condition -/

variable {xs : List Text} (a : Char) {s : Text} {ρ : Text → Bool} {c : Cond}

lemma splitOp_ne_nil (s : Text) : splitOp a s ≠ [] := by
  fun_cases splitOp a s <;> simp [*]

lemma splitOp_append (a : Char) : ∀ (x y : Text), (x.getLast? ≠ some a ∨ y.head? ≠ some a) →
    splitOp a (x ++ y) = glue (splitOp a x) (splitOp a y)
  | [], y, _ => by
    cases h : splitOp a y with
    | nil => exact absurd h (splitOp_ne_nil a y)
    | cons z zs => simp [splitOp, glue, h]
  | [c], y, h => by
    cases y with
    | nil => simp [splitOp, glue]
    | cons d y =>
      have hcd : ¬ (c = a ∧ d = a) := by
        rintro ⟨rfl, rfl⟩
        simp at h
      cases hs : splitOp a (d :: y) with
      | nil => exact absurd hs (splitOp_ne_nil a _)
      | cons z zs => simp [splitOp, glue, hcd, hs]
  | c :: d :: x, y, h => by
    by_cases hcd : c = a ∧ d = a
    · have hx : x.getLast? ≠ some a ∨ y.head? ≠ some a := by
        rcases h with h | h
        · cases x with
          | nil => simp [hcd.2] at h
          | cons e x => left; simpa using h
        · exact Or.inr h
      have ih := splitOp_append a x y hx
      have hne := splitOp_ne_nil a x
      cases hs : splitOp a x with
      | nil => exact absurd hs hne
      | cons z zs =>
        simp [splitOp, hcd, hs, ih, glue]
    · have hx : (d :: x).getLast? ≠ some a ∨ y.head? ≠ some a := by
        rcases h with h | h
        · left; simpa using h
        · exact Or.inr h
      have ih := splitOp_append a (d :: x) y hx
      rw [cons_append] at ih
      cases hs : splitOp a (d :: x) with
      | nil => exact absurd hs (splitOp_ne_nil a _)
      | cons z zs =>
        rw [hs] at ih
        simp only [cons_append, splitOp, hcd, ↓reduceIte, hs, ih]
        cases zs with
        | nil =>
          cases hy : splitOp a y with
          | nil => exact absurd hy (splitOp_ne_nil a _)
          | cons w ws => simp [glue]
        | cons z' zs => simp [glue]
termination_by x => x.length

lemma splitOp_op {x y : Text} (hx : x.getLast? ≠ some a) :
    splitOp a (x ++ [a, a] ++ y) = splitOp a x ++ splitOp a y := by
  have hop : splitOp a ([a, a] ++ y) = [] :: splitOp a y := by simp [splitOp]
  have hglue : ∀ (xs ys : List Text), xs ≠ [] → glue xs ([] :: ys) = xs ++ ys := by
    intro xs
    induction xs with
    | nil => intro ys h; exact absurd rfl h
    | cons z zs ih =>
      intro ys _
      cases zs with
      | nil => simp [glue]
      | cons z' zs => simp only [glue, cons_append]; rw [ih ys (by simp)]; rfl
  rw [append_assoc, splitOp_append a x _ (Or.inl hx), hop, hglue _ _ (splitOp_ne_nil a x)]

lemma splitOp_of_not_mem {a : Char} : ∀ {s : Text}, a ∉ s → splitOp a s = [s]
  | [], _ => rfl
  | [c], _ => rfl
  | c :: d :: s, h => by
    have hc : ¬ (c = a ∧ d = a) := by rintro ⟨rfl, -⟩; simp at h
    have ih := splitOp_of_not_mem (s := d :: s) (fun hd => h (mem_cons_of_mem _ hd))
    simp [splitOp, hc, ih]

def Piece (s : Text) : Prop :=
  ∃ x y, s.head? = some x ∧ s.getLast? = some y ∧ isWordChar x ∧ isWordChar y

lemma Piece.ne_nil (h : Piece s) : s ≠ [] := by
  obtain ⟨x, y, hx, -⟩ := h
  rintro rfl
  simp at hx

lemma Piece.append {t : Text} (hs : Piece s) (ht : Piece t) (u : Text) : Piece (s ++ u ++ t) := by
  obtain ⟨x, y, hx, -, hwx, -⟩ := hs
  obtain ⟨x', y', -, hy', -, hwy'⟩ := ht
  refine ⟨x, y', ?_, ?_, hwx, hwy'⟩
  · simp [hx]
  · simp [hy']

lemma Piece.getLast_ne (h : Piece s) {a : Char} (ha : isWordChar a = false) :
    s.getLast? ≠ some a := by
  obtain ⟨x, y, -, hy, -, hwy⟩ := h
  rw [hy]
  rintro ⟨⟩
  simp [ha] at hwy

lemma stripCond_append (s t : Text) : stripCond (s ++ t) = stripCond s ++ stripCond t :=
  filter_append ..

lemma stripCond_word {w : Text} (hw : ∀ c ∈ w, isWordChar c) : stripCond w = w := by
  apply filter_eq_self.mpr
  intro c hc
  have h := hw c hc
  have hne : c ≠ '(' ∧ c ≠ ')' ∧ c ≠ '!' := by
    refine ⟨?_, ?_, ?_⟩ <;> rintro rfl <;> revert h <;> decide
  simp [hne.1, hne.2.1, hne.2.2]

lemma glue_and {ys : List Text} (hxs : xs ≠ []) (hys : ys ≠ []) (hpx : ∀ g ∈ xs, Piece g)
    (hpy : ∀ g ∈ ys, Piece g) : (glue xs (glue ["&&".toList] ys)).map (splitOp '&') =
      glue (xs.map (splitOp '&')) (ys.map (splitOp '&')) ∧
    ∀ g ∈ glue xs (glue ["&&".toList] ys), Piece g := by
  obtain ⟨y, ys, rfl⟩ := exists_cons_of_ne_nil hys
  induction xs with
  | nil => exact absurd rfl hxs
  | cons x xs ih =>
    cases xs with
    | nil =>
      have hx : Piece x := hpx x (by simp)
      have hy : Piece y := hpy y (by simp)
      have hsplit := splitOp_op '&' (x := x) (y := y) (hx.getLast_ne (by decide))
      constructor
      · simp only [glue, map_cons, map_nil]
        rw [← append_assoc]
        exact congrArg (· :: _) hsplit
      intro g hg
      simp only [glue, mem_cons] at hg
      rcases hg with rfl | hg
      · rw [← append_assoc]
        exact hx.append hy _
      · exact hpy g (by simp [hg])
    | cons x' xs =>
      obtain ⟨h1, h2⟩ := ih (by simp) (fun g hg => hpx g (by simp [hg]))
      constructor
      · simp only [glue, map_cons] at h1 ⊢
        rw [h1]
      intro g hg
      simp only [glue, mem_cons] at hg h2
      rcases hg with rfl | hg
      · exact hpx g (by simp)
      · exact h2 g hg

lemma Cond.split_text (h : c.Wf) :
    Piece (stripCond c.text) ∧ (∀ g ∈ splitOp '|' (stripCond c.text), Piece g) ∧
    (splitOp '|' (stripCond c.text)).map (splitOp '&') = c.flat := by
  induction c with
  | sym w =>
    obtain ⟨hne, hw, -⟩ := h
    have hpiece : Piece w := by
      refine ⟨w.head hne, w.getLast hne, head?_eq_some_head hne,
        getLast?_eq_some_getLast hne, hw _ (head_mem hne), hw _ (getLast_mem hne)⟩
    have hnot : ∀ a, isWordChar a = false → a ∉ w := by
      intro a ha hmem
      have := hw a hmem
      simp [ha] at this
    rw [text, stripCond_word hw, splitOp_of_not_mem (hnot '|' (by decide))]
    refine ⟨hpiece, by simpa using hpiece, ?_⟩
    simp [flat, splitOp_of_not_mem (hnot '&' (by decide))]
  | not c ih =>
    have hstrip : stripCond (not c).text = stripCond c.text := by simp [text, stripCond]
    exact ih h.1
  | paren c ih =>
    have hstrip : stripCond (paren c).text = stripCond c.text := by simp [text, stripCond]
    rw [hstrip]
    exact ih h
  | and a b iha ihb =>
    obtain ⟨ha, hga, hfa⟩ := iha h.1
    obtain ⟨hb, hgb, hfb⟩ := ihb h.2.1
    have hstrip : stripCond (and a b).text = stripCond a.text ++
      ("&&".toList ++ stripCond b.text) := by
      rw [text, stripCond_append, stripCond_append, append_assoc]
      rfl
    have hsplit : splitOp '|' (stripCond (and a b).text) = glue (splitOp '|' (stripCond a.text))
          (glue ["&&".toList] (splitOp '|' (stripCond b.text))) := by
      rw [hstrip, splitOp_append '|' _ _ (Or.inl (ha.getLast_ne (by decide))),
        splitOp_append '|' "&&".toList _ (Or.inl (by decide))]
      rfl
    obtain ⟨hmap, hpiece⟩ := glue_and (splitOp_ne_nil _ _) (splitOp_ne_nil _ _) hga hgb
    refine ⟨?_, ?_, ?_⟩
    · rw [hstrip, ← append_assoc]
      exact ha.append hb _
    · rw [hsplit]
      exact hpiece
    · rw [hsplit, hmap, hfa, hfb]
      rfl
  | or a b iha ihb =>
    obtain ⟨ha, hga, hfa⟩ := iha h.1
    obtain ⟨hb, hgb, hfb⟩ := ihb h.2.1
    have hstrip : stripCond (or a b).text = stripCond a.text ++ ['|', '|'] ++ stripCond b.text := by
      rw [text, stripCond_append, stripCond_append]
      rfl
    have hsplit := splitOp_op '|' (x := stripCond a.text) (y := stripCond b.text)
      (ha.getLast_ne (by decide))
    rw [hstrip, hsplit]
    refine ⟨ha.append hb _, ?_, ?_⟩
    · intro g hg
      rcases mem_append.mp hg with hg | hg
      · exact hga g hg
      · exact hgb g hg
    · rw [map_append, hfa, hfb]
      rfl

lemma Cond.glue_forall {α : Type} {P : List α → Prop} (happ : ∀ x y, P x → P y → P (x ++ y)) :
    ∀ {xs ys : List (List α)}, (∀ x ∈ xs, P x) → (∀ y ∈ ys, P y) → ∀ z ∈ glue xs ys, P z
  | [], ys, _, hy, z, hz => hy z hz
  | [x], [], hx, _, z, hz => hx z hz
  | [x], y :: ys, hx, hy, z, hz => by
    rcases mem_cons.mp hz with rfl | hz
    · exact happ x y (hx x (by simp)) (hy y (by simp))
    · exact hy z (by simp [hz])
  | x :: x' :: xs, ys, hx, hy, z, hz => by
    rcases mem_cons.mp hz with rfl | hz
    · exact hx z (by simp)
    · exact glue_forall happ (fun w hw => hx w (by simp [hw])) hy z hz

lemma Cond.flat_ne_nil (h : c.Wf) : ∀ g ∈ c.flat, g ≠ [] ∧ ∀ w ∈ g, w ≠ [] := by
  induction c with
  | sym w => simpa [flat] using h.1
  | not c ih => exact ih h.1
  | paren c ih => exact ih h
  | and a b iha ihb =>
    refine glue_forall ?_ (iha h.1) (ihb h.2.1)
    rintro x y ⟨hx, hxs⟩ ⟨-, hys⟩
    refine ⟨by simp [hx], ?_⟩
    intro w hw
    rcases mem_append.mp hw with hw | hw
    · exact hxs w hw
    · exact hys w hw
  | or a b iha ihb =>
    intro g hg
    rcases mem_append.mp hg with hg | hg
    · exact iha h.1 g hg
    · exact ihb h.2.1 g hg

lemma dropTrailingEmpty_eq_self (h : ∀ x ∈ xs, x ≠ []) : dropTrailingEmpty xs = xs := by
  rw [dropTrailingEmpty]
  cases hr : xs.reverse with
  | nil => simpa using hr.symm
  | cons y ys =>
    have hy : y ≠ [] := h y (by rw [← mem_reverse, hr]; simp)
    rw [dropWhile_cons]
    simp only [hy, decide_false, false_eq_true, ↓reduceIte]
    rw [← hr, reverse_reverse]

lemma Cond.genCondition_text (h : c.Wf) :
    genCondition c.text = c.flat.flatMap MakeConj.render := by
  obtain ⟨-, hpiece, hflat⟩ := split_text h
  have hor : split2 '|' (stripCond c.text) = splitOp '|' (stripCond c.text) :=
    dropTrailingEmpty_eq_self (fun g hg => (hpiece g hg).ne_nil)
  have hand : ∀ g ∈ splitOp '|' (stripCond c.text), andCondition g =
    MakeConj.render (splitOp '&' g) := by
    intro g hg
    have hmem : splitOp '&' g ∈ c.flat := by
      rw [← hflat]
      exact mem_map.mpr ⟨g, hg, rfl⟩
    have hsplit : split2 '&' g = splitOp '&' g := dropTrailingEmpty_eq_self (flat_ne_nil h _ hmem).2
    show MakeConj.render (split2 '&' g) = _
    rw [hsplit]
  rw [genCondition, hor, ← hflat, flatMap_map]
  exact flatMap_congr hand

def Cond.bang : Cond → Bool
  | .sym _ => false
  | .not _ => true
  | .paren _ => false
  | .and a _ => a.bang
  | .or a _ => a.bang

lemma Cond.text_of_bang (h : c.Wf) (hb : c.bang) : ∃ y ys, c.text = '!' :: y :: ys := by
  induction c with
  | sym w => simp [bang] at hb
  | not c _ =>
    obtain ⟨y, ys, hy, -⟩ := head_text h.1
    exact ⟨y, ys, by rw [text, hy]⟩
  | paren c _ => simp [bang] at hb
  | and a b iha _ =>
    obtain ⟨y, ys, hy⟩ := iha h.1 hb
    exact ⟨y, _, by rw [text, hy]; rfl⟩
  | or a b iha _ =>
    obtain ⟨y, ys, hy⟩ := iha h.1 hb
    exact ⟨y, _, by rw [text, hy]; rfl⟩

lemma Cond.head_of_not_bang (h : c.Wf) (hb : c.bang = false) : c.text.head? ≠ some '!' := by
  have happ : ∀ (a : Cond) (t : Text), a.Wf → a.text.head? ≠ some '!' →
    (a.text ++ t).head? ≠ some '!' := by
    intro a t ha hhead
    obtain ⟨y, ys, hy, -⟩ := head_text ha
    rw [hy] at hhead ⊢
    exact hhead
  induction c with
  | sym w =>
    cases w with
    | nil => exact absurd rfl h.1
    | cons y ys =>
      intro hh
      obtain rfl : y = '!' := by simpa [text] using hh
      exact absurd (h.2.1 '!' (by simp)) (by decide)
  | not c _ => simp [bang] at hb
  | paren c _ => simp [text]
  | and a b iha _ =>
    rw [text, append_assoc]
    exact happ a _ h.1 (iha h.1 hb)
  | or a b iha _ =>
    rw [text, append_assoc]
    exact happ a _ h.1 (iha h.1 hb)

lemma makeIf_negated (h : c.Wf) : (makeIf c).negated = c.bang := by
  cases hb : c.bang with
  | true =>
    obtain ⟨y, ys, hy⟩ := text_of_bang h hb
    simp [makeIf, hy]
  | false => simp [makeIf, head_of_not_bang h hb]

/-- **The generated text**: the guard of the condition around the dependency. -/
theorem Cond.getConditionalDep_text (h : c.Wf) (depstr : Text) :
    getConditionalDep c.text depstr = (makeIf c).render depstr := by
  have hgen := genCondition_text h
  unfold getConditionalDep
  rw [if_pos (perlTrue_text h)]
  unfold MakeIf.render
  rw [makeIf_negated h]
  cases hb : c.bang with
  | true =>
    -- the leading `!` is one of the characters that are removed anyway
    obtain ⟨y, ys, hy⟩ := text_of_bang h hb
    have hafter : afterBang c.text = some (y :: ys) := by simp [hy, afterBang]
    have hstrip : genCondition (y :: ys) = genCondition c.text := by
      rw [genCondition, genCondition, hy]
      simp [stripCond]
    simp only [hafter, hstrip, hgen, makeIf, ↓reduceIte]
  | false =>
    have hhead := head_of_not_bang h hb
    have hafter : afterBang c.text = none := by
      cases hc : c.text with
      | nil => rfl
      | cons y ys => simp_all [afterBang]
    simp only [hafter, hgen, makeIf, false_eq_true, ↓reduceIte]

/-! ## Where the two readings agree -/

def Cond.flatVal (ρ : Text → Bool) (c : Cond) : Bool := c.flat.any (fun g => g.all ρ)

lemma makeIf_active (h : c.Wf) : (makeIf c).active ρ = (c.flatVal ρ ^^ c.bang) := by
  have hany : c.flat.any (MakeConj.expands ρ) = c.flatVal ρ := by
    rw [flatVal, Bool.eq_iff_iff, any_eq_true, any_eq_true]
    apply exists_congr
    intro g
    apply and_congr_right
    intro hg
    simp [MakeConj.expands, (flat_ne_nil h g hg).1]
  rw [MakeIf.active, makeIf_negated h, ← hany]
  rfl

lemma Cond.flat_conj (h : c.conj) : ∃ g, c.flat = [g] ∧ g.all ρ = c.val ρ := by
  induction c with
  | sym w => exact ⟨[w], rfl, by simp [val]⟩
  | not c _ => simp [conj] at h
  | paren c ih => exact ih h
  | and a b iha ihb =>
    simp only [conj, and_eq_true] at h
    obtain ⟨ga, ha, hva⟩ := iha h.1
    obtain ⟨gb, hb, hvb⟩ := ihb h.2
    refine ⟨ga ++ gb, ?_, ?_⟩
    · simp [flat, ha, hb, glue]
    · rw [all_append, hva, hvb]
      rfl
  | or a b _ _ => simp [conj] at h

lemma Cond.flatVal_dnf (h : c.dnf) : c.flatVal ρ = c.val ρ := by
  induction c with
  | sym w => simp [flatVal, flat, val]
  | not c _ => simp [dnf] at h
  | paren c ih => exact ih h
  | and a b _ _ =>
    obtain ⟨g, hg, hv⟩ := flat_conj (ρ := ρ) (c := .and a b) h
    rw [flatVal, hg, ← hv]
    simp
  | or a b iha ihb =>
    simp only [dnf, and_eq_true] at h
    rw [val, ← iha h.1, ← ihb h.2]
    simp [flatVal, flat]

lemma Cond.dnf_of_conj (h : c.conj) : c.dnf := by
  induction c with
  | sym w => rfl
  | not c _ => exact h
  | paren c ih => exact ih h
  | and a b _ _ => exact h
  | or a b _ _ => simp [conj] at h

lemma Cond.bang_of_dnf (h : c.dnf) : c.bang = false := by
  induction c with
  | sym w => rfl
  | not c _ => simp [dnf] at h
  | paren c _ => rfl
  | and a b iha _ =>
    simp only [dnf, and_eq_true] at h
    exact iha (dnf_of_conj h.1)
  | or a b iha _ =>
    simp only [dnf, and_eq_true] at h
    exact iha h.1

/-- The condition has no `!` but perhaps one in front of it all, and no `||` under an `&&`. -/
def Cond.Agreeing : Cond → Prop
  | .not c => c.dnf
  | c => c.dnf

/-- **Agreement**: on such a condition make takes the guarded text iff the condition holds. -/
theorem makeIf_active_of_agreeing (h : c.Wf) (hc : c.Agreeing) : (makeIf c).active ρ = c.val ρ := by
  rw [makeIf_active h]
  by_cases hd : c.dnf
  · rw [bang_of_dnf hd, flatVal_dnf hd, Bool.xor_false]
  cases c with
  | not c =>
    have hflat : (not c).flatVal ρ = c.val ρ := flatVal_dnf (c := c) hc
    rw [hflat]
    simp [bang, val]
  | sym w => exact absurd hc hd
  | paren c => exact absurd hc hd
  | and a b => exact absurd hc hd
  | or a b => exact absurd hc hd

/-! ## The two generators on one dependency -/

def condDep (plus : Bool) (c : Cond) (name : Text) : Text :=
  (if plus then ['+'] else []) ++ (c.text ++ ':' :: name)

section CondDep

variable {c : Cond} {name : Text} (h : c.Wf) (hname : name ≠ []) (hcolon : ':' ∉ name)
include h hname hcolon

lemma matchColon_condDep : matchColon (c.text ++ ':' :: name) = some (c.text, name) := by
  obtain ⟨y, ys, hy, -⟩ := head_text h
  exact matchColon_append (by simp [hy]) hname hcolon

lemma mconfDepend_condDep (md : Metadata) {pkgname : Text} (hpkg : c.text ≠ packageSym pkgname)
    (plus : Bool) : mconfDepend md pkgname false [] ⟨[], [], []⟩ (condDep plus c name) =
      handleDepend md pkgname false (if plus then ['+'] else []) c.text name
        ⟨[], [seenKey [] (c.text ++ ':' :: name)], []⟩ := by
  obtain ⟨y, ys, hy, hhead⟩ := head_text h
  have hflag : isFlag y = false := by
    rcases hhead with hw | rfl | rfl
    · have hat : y ≠ '@' := by rintro rfl; revert hw; decide
      have hplus : y ≠ '+' := by rintro rfl; revert hw; decide
      simp [isFlag, hat, hplus]
    · rfl
    · rfl
  have hbody : depBody (condDep plus c name) = c.text ++ ':' :: name := by
    have hdrop : (c.text ++ ':' :: name).dropWhile isFlag = c.text ++ ':' :: name := by
      rw [hy, cons_append, dropWhile_cons, if_neg (by simp [hflag])]
    cases plus <;> exact hdrop
  have hflags : depFlags (condDep plus c name) = if plus then ['+'] else [] := by
    have htake : (c.text ++ ':' :: name).takeWhile isFlag = [] := by
      rw [hy, cons_append, takeWhile_cons, if_neg (by simp [hflag])]
    cases plus
    · exact htake
    · show '+' :: (c.text ++ ':' :: name).takeWhile isFlag = ['+']
      rw [htake]
  have hcol := matchColon_condDep h hname hcolon
  have hdrop : dropSelectedCond [] (c.text ++ ':' :: name) = c.text ++ ':' :: name := by
    simp [dropSelectedCond, hcol, DepHash.get]
  have hsplit : splitCond pkgname [] (c.text ++ ':' :: name) = (c.text, name) := by
    simp [splitCond, hcol, hpkg, andCond, perlTrue]
  simp [mconfDepend, hbody, hflags, hdrop, hsplit]

lemma genPackageMkDep_condDep (hat : '@' ∉ name) (hplus : '+' ∉ name) (md : Metadata)
    (srcname : Text) (plus : Bool) {vpkgDep : List Pkg} (hv : vpackage md name = some vpkgDep) :
    genPackageMkDep md srcname (condDep plus c name) =
      (vpkgDep.filter (fun v => srcname ≠ v.src.name)).map (fun v => (makeIf c).render
        (providerDep (1 < (vpkgDep.filter (fun v => srcname ≠ v.src.name)).length) v)) := by
  have htat : '@' ∉ c.text := not_mem_text h (by decide) (by decide)
  have htplus : '+' ∉ c.text := not_mem_text h (by decide) (by decide)
  have hmem : '@' ∉ condDep plus c name := by
    cases plus <;> simp [condDep, htat, hat]
  have hfilter : (condDep plus c name).filter (· ≠ '+') = c.text ++ ':' :: name := by
    have hrest : (c.text ++ ':' :: name).filter (· ≠ '+') = c.text ++ ':' :: name := by
      apply filter_eq_self.mpr
      intro a ha
      have : a ≠ '+' := by rintro rfl; simp [htplus, hplus] at ha
      simpa using this
    rw [condDep, filter_append, hrest]
    cases plus <;> rfl
  unfold genPackageMkDep
  rw [if_neg hmem]
  simp only [hfilter, matchColon_condDep h hname hcolon, Option.getD_some, hv]
  apply map_congr_left
  intro v _
  exact getConditionalDep_text h _

end CondDep

def twoPkgs (dep : Text) : Metadata :=
  [⟨"q".toList, ⟨"q".toList, "q".toList⟩, [], [], [], false, false⟩,
    ⟨"p".toList, ⟨"p".toList, "p".toList⟩, [], [dep], [], false, false⟩]

def notConj : Cond :=
  .not (.paren (.or (.and (.sym ['A']) (.sym ['B'])) (.sym ['C'])))

end SourceMaster.Kconfig
