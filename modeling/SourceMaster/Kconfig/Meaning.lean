import SourceMaster.Kconfig.Condition
import SourceMaster.Kconfig.Termination

/-!
# What the generated `depends on` lines mean

A selected symbol is enabled whatever its own dependencies are, so `mconf_depends` copies the
dependencies of everything a package selects into the package, under the conditions met on the way.
Its lines therefore mean: whatever is selected by a chain of dependencies whose conditions are true
has its own dependencies satisfied (`Satisfied`).

The proof goes along the recursion with three facts about each level:

* the lines say no more than that (`EntryOk`);
* the condition a list is reached under is true only if its package is on such a chain (`TaskOk`);
* a key in `seen` is a promise: what it stands for has a line, or its package's list has been
  handled under a true condition (`Promise`). `Search.Sweep` closes the argument.
-/

namespace SourceMaster.Kconfig

open List Option DepHash Cond

/-! ## The meaning -/

def depCond (b : Text) : Option Text := (matchColon b).map Prod.fst

def CondHolds (ρ : Text → Bool) (b : Text) : Prop := ∀ c, depCond b = some c → holds ρ c

section

variable (md : Metadata)

def needs (d : Text) : Text := providerSyms md (depFlags d) (depName (depBody d))

/-- `q` is selected from `p` by a chain of dependencies whose conditions are all true. -/
inductive Active (md : Metadata) (ρ : Text → Bool) (p : Pkg) : Pkg → Prop
  | root : Active md ρ p p
  | select {q t : Pkg} {d : Text} : Active md ρ p q → Selects md q d t →
      CondHolds ρ (depBody d) → Active md ρ p t

/-- Every unselected dependency of every active package is satisfied if its condition is true. -/
def Satisfied (ρ : Text → Bool) (p : Pkg) : Prop :=
  ∀ q, Active md ρ p q → ∀ d ∈ q.depends, '+' ∉ depFlags d → CondHolds ρ (depBody d) →
    holds ρ (needs md d)

def DepHash.LinesHold (ρ : Text → Bool) (dep : DepHash) : Prop :=
  ∀ e ∈ dep, e.2 = .dependsOn → holds ρ e.1

/-- `q` has the dependency `d`, and `p` selects `q` under whatever conditions. -/
def DepOf (p : Pkg) (d : Text) : Prop := ∃ q, Reaches md p q ∧ d ∈ q.depends

/-! ## Metadata the generator is made for -/

def IsName (w : Text) : Prop := w ≠ [] ∧ ∀ c ∈ w, isWordChar c

/-- A dependency is a package name or, after `@`, an expression; a condition is an expression whose
outermost operator is not `||`. Every name has at most one provider. -/
structure DepOk (md : Metadata) (d : Text) : Prop where
  cond : ∀ c, depCond (depBody d) = some c → ∃ t : Cond, t.Wf ∧ t.level ≠ .or ∧ c = t.text
  sym : '@' ∈ depFlags d → vpackage md (depName (depBody d)) = none ∧
    ∃ t : Cond, t.Wf ∧ depName (depBody d) = t.text
  name : '@' ∉ depFlags d → IsName (depName (depBody d))
  provider : ∀ vs, vpackage md (depName (depBody d)) = some vs →
    ∃ v, vs = [v] ∧ IsName v.name ∧ ('+' ∈ depFlags d → v.buildonly = false)

/-- The dependencies that come up for `p` are well formed, a name has the same flags everywhere, and
no package name is the whole condition of a selected dependency. -/
structure Plain (md : Metadata) (p : Pkg) : Prop where
  ok : ∀ d, DepOf md p d → DepOk md d
  flags : ∀ d d', DepOf md p d → DepOf md p d' → depName (depBody d) = depName (depBody d') →
    ('+' ∈ depFlags d ↔ '+' ∈ depFlags d') ∧ ('@' ∈ depFlags d ↔ '@' ∈ depFlags d')
  clash : ∀ d d', DepOf md p d → DepOf md p d' → '@' ∉ depFlags d → '+' ∈ depFlags d' →
    depCond (depBody d') ≠ some (depName (depBody d))

def Acyclic : Prop := ∀ q ∈ md, ¬ Relation.TransGen (SelectEdge md) q q

end

/-- The assignments that matter for `p`: it is enabled, and so is what its `select` lines enable. -/
structure Respects (md : Metadata) (ρ : Text → Bool) (p : Pkg) : Prop where
  self : holds ρ (packageSym p.name)
  selects : ∀ d ∈ p.depends, '+' ∈ depFlags d → CondHolds ρ (depBody d) → holds ρ (needs md d)

/-! ## The two forms of a dependency -/

def Form (d b : Text) : Prop := b = depBody d ∨ b = depName (depBody d)

lemma depCond_depName (b : Text) : depCond (depName b) = none := by
  cases h : matchColon b with
  | none => simp [depName, h, depCond]
  | some cd => simp [depName, h, depCond, matchColon_snd h]

variable {ρ : Text → Bool} {s d : Text} {t : Cond} {b : Text}

lemma Form.name_eq (h : Form d b) : depName b = depName (depBody d) := by
  rcases h with rfl | rfl
  · rfl
  · exact depName_depName _

lemma Form.condHolds (h : Form d b) (hc : CondHolds ρ (depBody d)) : CondHolds ρ b := by
  rcases h with rfl | rfl
  · exact hc
  · intro c hc'
    rw [depCond_depName] at hc'
    cases hc'

lemma form_dropSelectedCond (dep : DepHash) (d : Text) :
    Form d (dropSelectedCond dep (depBody d)) := by
  unfold dropSelectedCond
  cases h : matchColon (depBody d) with
  | none => exact .inl rfl
  | some cd =>
    obtain ⟨c, n⟩ := cd
    by_cases hs : dep.get c = some .select
    · right
      simp [hs, depName, h]
    · left
      simp [hs]

lemma Form.eq_name (h : Form d b) (hb : ':' ∉ b) : b = depName (depBody d) := by
  rcases h with rfl | rfl
  · cases hm : matchColon (depBody d) with
    | none => simp [depName, hm]
    | some cd =>
      obtain ⟨heq, -⟩ := matchColon_some hm
      rw [heq] at hb
      simp at hb
  · rfl

/-! ## Condition texts -/

def afterWord (s : Text) : Text := s.dropWhile (· ≠ ' ')

lemma afterWord_append {t : Text} (h : ' ' ∉ s) : afterWord (s ++ t) = afterWord t := by
  unfold afterWord
  rw [dropWhile_append_of_pos]
  intro c hc
  have : c ≠ ' ' := by rintro rfl; exact h hc
  simpa using this

lemma afterWord_eq_nil (h : ' ' ∉ s) : afterWord s = [] := by
  have := afterWord_append (t := []) h
  simpa [afterWord] using this

/-- What `mconf_depends` collects as a condition: empty, or conditions joined by `&&`. -/
structure CondText (ρ : Text → Bool) (c : Text) : Prop where
  ne : c ≠ [] → perlTrue c
  colon : ':' ∉ c
  reads : c ≠ [] → ∃ v, Reads ρ .and (lex c) v
  after : ' ' ∉ c ∨ ∃ r, afterWord c = " && ".toList ++ r

def CondTrue (ρ : Text → Bool) (c : Text) : Prop := c ≠ [] → holds ρ c

lemma condText_nil : CondText ρ [] :=
  ⟨fun h => absurd rfl h, by simp, fun h => absurd rfl h, .inl (by simp)⟩

lemma Cond.reads_and (h : t.Wf) (hl : t.level ≠ .or) : Reads ρ .and (lex t.text) (t.val ρ) := by
  have hr := reads (ρ := ρ) h
  cases hlev : t.level with
  | unary => rw [hlev] at hr; exact hr.ofUnary
  | and => rw [hlev] at hr; exact hr
  | or => exact absurd hlev hl

lemma Cond.reads_or (h : t.Wf) : Reads ρ .or (lex t.text) (t.val ρ) := by
  by_cases hl : t.level = .or
  · have hr := reads (ρ := ρ) h
    rwa [hl] at hr
  · exact (reads_and h hl).ofAnd

lemma Cond.blank_not_mem (h : t.Wf) : ' ' ∉ t.text := not_mem_text h (by decide) (by decide)

lemma Cond.text_ne_nil (h : t.Wf) : t.text ≠ [] := by
  obtain ⟨x, xs, hx, -⟩ := head_text h
  simp [hx]

lemma CondText.andCond {ρ : Text → Bool} {c : Text} (hc : CondText ρ c) {t : Cond} (ht : t.Wf)
    (hl : t.level ≠ .or) : CondText ρ (andCond c t.text) ∧
      (CondTrue ρ (andCond c t.text) ↔ CondTrue ρ c ∧ holds ρ t.text) := by
  have hcolon : ':' ∉ t.text := not_mem_text ht (by decide) (by decide)
  have hread := reads_and (ρ := ρ) ht hl
  by_cases hnil : c = []
  · subst hnil
    have hand : Kconfig.andCond [] t.text = t.text := rfl
    rw [hand]
    refine ⟨⟨fun _ => perlTrue_text ht, hcolon, fun _ => ⟨_, hread⟩, .inl (blank_not_mem ht)⟩, ?_⟩
    simp [CondTrue, text_ne_nil ht]
  · have hand : Kconfig.andCond c t.text = c ++ " && ".toList ++ t.text := by
      simp [Kconfig.andCond, hc.ne hnil]
    obtain ⟨v, hv⟩ := hc.reads hnil
    have hboth := reads_andText hv hread
    rw [hand]
    refine ⟨⟨fun _ => ?_, by simp [hc.colon, hcolon], fun _ => ⟨_, hboth⟩, .inr ?_⟩, ?_⟩
    · cases c with
      | nil => exact absurd rfl hnil
      | cons x xs => simp [perlTrue]
    · rcases hc.after with hb | ⟨r, hr⟩
      · refine ⟨t.text, ?_⟩
        rw [append_assoc, afterWord_append hb]
        rfl
      refine ⟨r ++ " && ".toList ++ t.text, ?_⟩
      rw [append_assoc, afterWord, dropWhile_append]
      rw [afterWord] at hr
      rw [hr]
      simp
    · simp only [CondTrue, hnil, ne_eq, not_false_eq_true, forall_const, append_eq_nil_iff,
        false_and]
      rw [holds_iff hboth.ofAnd, holds_iff hv.ofAnd, holds_iff hread.ofAnd, Bool.and_eq_true]

/-! ## Well-formed dependencies -/

lemma vdeps_singleton {v : Pkg} (hv : v.buildonly = false) : vdeps [v] = [v.name] := by
  unfold vdeps
  cases hd : v.variantDefault <;> simp [hv, hd]

lemma isName_packageSym {w : Text} (hw : IsName w) : IsName (packageSym w) := by
  refine ⟨cons_ne_nil _ _, ?_⟩
  intro c hc
  rcases mem_append.mp hc with hc | hc
  · have hword : "PACKAGE_".toList.all isWordChar := by decide
    exact List.all_eq_true.1 hword c hc
  · exact hw.2 c hc

section DepOk

variable {md : Metadata} {ρ : Text → Bool} {d b : Text} (h : DepOk md d) (hb : Form d b)
include h

lemma DepOk.needs_eq : (∃ t : Cond, t.Wf ∧ '@' ∈ depFlags d ∧ needs md d = t.text ∧
      needs md d = depName (depBody d)) ∨ ∃ w, IsName w ∧ '@' ∉ depFlags d ∧
      needs md d = packageSym w := by
  unfold needs providerSyms
  by_cases hat : '@' ∈ depFlags d
  · obtain ⟨hv, t, ht, htext⟩ := h.sym hat
    left
    rw [hv]
    exact ⟨t, ht, hat, by simp [depSym, hat, htext], by simp [depSym, hat]⟩
  · right
    cases hv : vpackage md (depName (depBody d)) with
    | none => exact ⟨_, h.name hat, hat, by simp [depSym, hat]⟩
    | some vs =>
      obtain ⟨v, rfl, hname, -⟩ := h.provider vs hv
      exact ⟨v.name, hname, hat, rfl⟩

lemma DepOk.needs_reads : ∃ v, Reads ρ .or (lex (needs md d)) v := by
  rcases h.needs_eq with ⟨t, ht, -, heq, -⟩ | ⟨w, hw, -, heq⟩
  · exact ⟨_, heq ▸ reads_or ht⟩
  · obtain ⟨hne, hword⟩ := isName_packageSym hw
    exact ⟨_, heq ▸ (reads_word hne hword).ofUnary.ofAnd⟩

lemma DepOk.needs_blank : ' ' ∉ needs md d := by
  rcases h.needs_eq with ⟨t, ht, -, heq, -⟩ | ⟨w, hw, -, heq⟩
  · rw [heq]
    exact blank_not_mem ht
  · rw [heq]
    intro hmem
    exact absurd ((isName_packageSym hw).2 ' ' hmem) (by decide)

include hb

lemma DepOk.splitCond_fst {pkgname pc : Text} (hself : holds ρ (packageSym pkgname))
    (hpc : CondText ρ pc) : CondText ρ (splitCond pkgname pc b).1 ∧
      (CondTrue ρ (splitCond pkgname pc b).1 ↔ CondTrue ρ pc ∧ CondHolds ρ b) := by
  cases hm : matchColon b with
  | none => simp [splitCond, hm, hpc, CondHolds, depCond]
  | some cn =>
    obtain ⟨c, n⟩ := cn
    have hcond : depCond b = some c := by simp [depCond, hm]
    -- a form with a condition is the dependency as it is written
    have hbody : b = depBody d := by
      rcases hb with hb | hb
      · exact hb
      · rw [hb, depCond_depName] at hcond
        cases hcond
    obtain ⟨t, ht, hl, rfl⟩ := h.cond c (hbody ▸ hcond)
    have hholds : CondHolds ρ b ↔ holds ρ t.text := by simp [CondHolds, hcond]
    rw [hholds]
    by_cases hp : t.text = packageSym pkgname
    · rw [← hp] at hself
      simp [splitCond, hm, ← hp, hpc, hself]
    · simpa [splitCond, hm, hp] using hpc.andCond ht hl

lemma DepOk.condAfter_eq (hplus : '+' ∈ depFlags d) (pkgname pc : Text) :
    condAfter md pkgname pc b = (splitCond pkgname pc b).1 := by
  rw [condAfter, splitCond_snd, hb.name_eq, pickProvider]
  cases hv : vpackage md (depName (depBody d)) with
  | none => rfl
  | some vs =>
    obtain ⟨v, rfl, -, hbuild⟩ := h.provider vs hv
    simp [vdeps_singleton (hbuild hplus)]

lemma DepOk.selectSym_eq (hplus : '+' ∈ depFlags d) :
    depSym (depFlags d) (providerName md (depName b)) = needs md d := by
  rw [hb.name_eq, needs, providerSyms, providerName]
  cases hv : vpackage md (depName (depBody d)) with
  | none => rfl
  | some vs =>
    obtain ⟨v, rfl, -, hbuild⟩ := h.provider vs hv
    have hat : '@' ∉ depFlags d := by
      intro hat
      rw [(h.sym hat).1] at hv
      cases hv
    simp [vdeps_singleton (hbuild hplus), depSym, hat, joinText]

end DepOk

variable {dep : DepHash} {md : Metadata} {k c : Text} {m : Mode} {e : Text × Mode}

lemma vpackage_ne_none {q : Pkg} (hq : q ∈ md) : vpackage md q.name ≠ none := by
  -- once there is a list under a name, every later stanza leaves one there
  have hinner : ∀ (x : Pkg) (name : Text) (vs : List Text) (acc : Option (List Pkg)), acc ≠ none →
      vs.foldl (fun acc v => if v = x.name then acc
        else if v = name then some (acc.getD [] ++ [x]) else acc) acc ≠ none := by
    intro x name vs
    induction vs with
    | nil => intro acc h; exact h
    | cons v vs ih =>
      intro acc h
      apply ih
      show (if v = x.name then acc else if v = name then some (acc.getD [] ++ [x]) else acc) ≠ none
      split_ifs <;> simp [h]
  have hkeep : ∀ (x : Pkg) (name : Text) (acc : Option (List Pkg)), acc ≠ none →
      vpackageStep name acc x ≠ none := by
    intro x name acc h
    apply hinner
    split_ifs <;> simp [h]
  have hkeeps : ∀ (name : Text) (l : List Pkg) (acc : Option (List Pkg)), acc ≠ none →
      l.foldl (vpackageStep name) acc ≠ none := by
    intro name l
    induction l with
    | nil => intro acc h; exact h
    | cons x l ih => intro acc h; exact ih _ (hkeep x name acc h)
  obtain ⟨l₁, l₂, rfl⟩ := append_of_mem hq
  rw [vpackage, foldl_append, foldl_cons]
  apply hkeeps
  apply hinner
  simp

lemma DepOk.selected_none {d : Text} (h : DepOk md d) (hat : '@' ∈ depFlags d) :
    selected md (depBody d) = none := by
  obtain ⟨hv, -⟩ := h.sym hat
  rw [selected, providerName, hv]
  cases hp : package md (depName (depBody d)) with
  | none => rfl
  | some q =>
    rw [← package_name hp] at hv
    exact absurd hv (vpackage_ne_none (package_mem hp))

/-! ## The lines -/

/-- A line `SYM if COND`. The other lines have no `if` after their first word. -/
def IfLine (k : Text) : Prop := ∃ c, afterWord k = " if ".toList ++ c

lemma afterWord_if {sym : Text} (h : ' ' ∉ sym) :
    afterWord (sym ++ " if ".toList ++ c) = " if ".toList ++ c := by
  rw [append_assoc, afterWord_append h]
  rfl

lemma not_ifLine_of_blank (h : ' ' ∉ k) : ¬ IfLine k := by
  rintro ⟨c, hc⟩
  rw [afterWord_eq_nil h] at hc
  simp at hc

lemma CondText.not_ifLine (h : CondText ρ c) : ¬ IfLine c := by
  rcases h.after with hb | ⟨r, hr⟩
  · exact not_ifLine_of_blank hb
  · rintro ⟨c', hc'⟩
    rw [hr] at hc'
    simp at hc'

lemma CondText.not_ifLine_notOr (h : CondText ρ c) (sym : Text) :
    ¬ IfLine ("!(".toList ++ c ++ ") || ".toList ++ sym) := by
  have hopen : ' ' ∉ "!(".toList := by decide
  rintro ⟨c', hc'⟩
  rw [append_assoc, append_assoc, afterWord_append hopen] at hc'
  rcases h.after with hb | ⟨r, hr⟩
  · rw [afterWord_append hb] at hc'
    have hafter : afterWord (") || ".toList ++ sym) = " || ".toList ++ sym := rfl
    rw [hafter] at hc'
    simp at hc'
  · rw [afterWord] at hr
    rw [afterWord, dropWhile_append, hr] at hc'
    simp at hc'

/-- A `select` line is respected: its symbol is enabled if its condition is true. -/
def SelectOk (ρ : Text → Bool) (k : Text) : Prop :=
  (' ' ∉ k ∧ holds ρ k) ∨
    ∃ sym c, ' ' ∉ sym ∧ k = sym ++ " if ".toList ++ c ∧ (holds ρ c → holds ρ sym)

lemma SelectOk.holds_of_not_ifLine (h : SelectOk ρ k) (hk : ¬ IfLine k) : holds ρ k := by
  rcases h with h | ⟨sym, c, hsym, rfl, -⟩
  · exact h.2
  · exact absurd ⟨c, afterWord_if hsym⟩ hk

/-- Every `select` line is respected, and every other line holds if the dependencies are
satisfied. -/
structure DepInv (md : Metadata) (ρ : Text → Bool) (p : Pkg) (dep : DepHash) : Prop where
  select : ∀ k, (k, .select) ∈ dep → SelectOk ρ k
  line : ∀ k, (k, .dependsOn) ∈ dep → ¬ IfLine k ∧ (Satisfied md ρ p → holds ρ k)

lemma DepHash.mem_of_get (h : dep.get k = some m) : (k, m) ∈ dep := by
  unfold get at h
  induction dep with
  | nil => simp at h
  | cons e dep ih =>
    obtain ⟨k', m'⟩ := e
    rw [lookup_cons] at h
    by_cases hk : k = k'
    · subst hk
      simp only [beq_self_eq_true, some.injEq] at h
      simp [h]
    · rw [beq_false_of_ne hk] at h
      exact mem_cons_of_mem _ (ih h)

lemma DepHash.mem_put (h : e ∈ dep.put k m) : e ∈ dep ∨ e = (k, m) := by
  unfold put at h
  split_ifs at h with hs
  · exact .inl h
  · rcases mem_cons.mp h with h | h
    · exact .inr h
    · exact .inl (mem_of_mem_filter h)

lemma DepHash.mem_put_of_mem (h : e ∈ dep) : e ∈ dep.put k m ∨ e.1 = k := by
  unfold put
  split_ifs with hs
  · exact .inl h
  · by_cases hk : e.1 = k
    · exact .inr hk
    · exact .inl (mem_cons_of_mem _ (mem_filter.mpr ⟨h, by simpa using hk⟩))

lemma DepHash.self_mem_put (dep : DepHash) (k : Text) (m : Mode) :
    (k, m) ∈ dep.put k m ∨ (k, .select) ∈ dep := by
  unfold put
  split_ifs with hs
  · exact .inr (mem_of_get hs)
  · exact .inl mem_cons_self

section Lines

variable {md : Metadata} {ρ : Text → Bool} {p : Pkg} {dep : DepHash} (h : DepInv md ρ p dep)
include h

lemma DepInv.put_select {k : Text} (hk : SelectOk ρ k) : DepInv md ρ p (dep.put k .select) ∧
    ((dep.put k .select).LinesHold ρ → dep.LinesHold ρ) := by
  refine ⟨⟨?_, ?_⟩, ?_⟩
  · intro k' hk'
    rcases mem_put hk' with hk' | hk'
    · exact h.select k' hk'
    · obtain ⟨rfl, -⟩ := Prod.mk.inj hk'
      exact hk
  · intro k' hk'
    rcases mem_put hk' with hk' | hk'
    · exact h.line k' hk'
    · cases hk'
  · -- a line that gives way to the `select` line is one that holds because of it
    rintro hlines ⟨k', m⟩ he hm
    subst hm
    rcases mem_put_of_mem (k := k) (m := .select) he with he' | rfl
    · exact hlines _ he' rfl
    · exact hk.holds_of_not_ifLine (h.line _ he).1

lemma DepInv.put_line {k : Text} (hif : ¬ IfLine k) (hk : Satisfied md ρ p → holds ρ k) :
    DepInv md ρ p (dep.put k .dependsOn) ∧
      ((dep.put k .dependsOn).LinesHold ρ → dep.LinesHold ρ ∧ holds ρ k) := by
  refine ⟨⟨?_, ?_⟩, ?_⟩
  · intro k' hk'
    rcases mem_put hk' with hk' | hk'
    · exact h.select k' hk'
    · cases hk'
  · intro k' hk'
    rcases mem_put hk' with hk' | hk'
    · exact h.line k' hk'
    · obtain ⟨rfl, -⟩ := Prod.mk.inj hk'
      exact ⟨hif, hk⟩
  · intro hlines
    have hholds : holds ρ k := by
      rcases self_mem_put dep k .dependsOn with hin | hin
      · exact hlines _ hin rfl
      · exact (h.select k hin).holds_of_not_ifLine hif
    refine ⟨?_, hholds⟩
    rintro ⟨k', m⟩ he hm
    rcases mem_put_of_mem (k := k) (m := .dependsOn) he with he' | rfl
    · exact hlines _ he' hm
    · exact hholds

lemma DepInv.emitSelect {c sym : Text} (hc : CondText ρ c) (hsym : ' ' ∉ sym)
    (himp : CondTrue ρ c → holds ρ sym) : DepInv md ρ p (emitSelect dep c sym) ∧
      ((emitSelect dep c sym).LinesHold ρ → dep.LinesHold ρ) := by
  unfold Kconfig.emitSelect
  by_cases hnil : c = []
  · subst hnil
    exact h.put_select (.inl ⟨hsym, himp (fun hne => absurd rfl hne)⟩)
  rw [if_pos (hc.ne hnil)]
  split_ifs with heq
  · exact ⟨h, fun hl => hl⟩
  · apply h.put_select
    exact .inr ⟨sym, c, hsym, rfl, fun hholds => himp (fun _ => hholds)⟩

lemma DepInv.emitDependsOn {c sym : Text} (hc : CondText ρ c) (hsym : ' ' ∉ sym)
    (hread : ∃ v, Reads ρ .or (lex sym) v) (hsat : Satisfied md ρ p → CondTrue ρ c → holds ρ sym) :
    DepInv md ρ p (emitDependsOn dep c sym) ∧ ((emitDependsOn dep c sym).LinesHold ρ →
      dep.LinesHold ρ ∧ (CondTrue ρ c → holds ρ sym)) := by
  have hplain : CondTrue ρ c → DepInv md ρ p (dep.put sym .dependsOn) ∧
      ((dep.put sym .dependsOn).LinesHold ρ → dep.LinesHold ρ ∧ (CondTrue ρ c → holds ρ sym)) := by
    intro htrue
    obtain ⟨hinv, hlines⟩ := h.put_line (not_ifLine_of_blank hsym) (fun hs => hsat hs htrue)
    exact ⟨hinv, fun hl => ⟨(hlines hl).1, fun _ => (hlines hl).2⟩⟩
  unfold Kconfig.emitDependsOn
  by_cases hnil : c = []
  · subst hnil
    exact hplain (fun hne => absurd rfl hne)
  rw [if_pos (hc.ne hnil)]
  split_ifs with hif hsel
  · -- the same symbol is selected under the same condition
    obtain ⟨m, hm⟩ := isSome_iff_exists.mp hif
    have hline : IfLine (sym ++ " if ".toList ++ c) := ⟨c, afterWord_if hsym⟩
    refine ⟨h, fun hl => ⟨hl, fun htrue => ?_⟩⟩
    cases m with
    | dependsOn => exact absurd hline (h.line _ (mem_of_get hm)).1
    | select =>
      rcases h.select _ (mem_of_get hm) with ⟨hb, -⟩ | ⟨sym', c', hsym', heq, himp⟩
      · simp at hb
      have hafter := congrArg afterWord heq
      rw [afterWord_if hsym, afterWord_if hsym', append_cancel_left_eq] at hafter
      subst hafter
      rw [append_assoc, append_assoc, append_cancel_right_eq] at heq
      subst heq
      exact himp (htrue hnil)
  · exact hplain (fun _ => (h.select c (mem_of_get hsel)).holds_of_not_ifLine hc.not_ifLine)
  · obtain ⟨v, hv⟩ := hc.reads hnil
    obtain ⟨w, hw⟩ := hread
    have hiff : holds ρ ("!(".toList ++ c ++ ") || ".toList ++ sym) ↔
      (CondTrue ρ c → holds ρ sym) := by
      rw [holds_iff (reads_notOrText hv.ofAnd hw), holds_iff hw, CondTrue, holds_iff hv.ofAnd]
      cases v <;> cases w <;> simp [hnil]
    obtain ⟨hinv, hlines⟩ := h.put_line (hc.not_ifLine_notOr sym) (fun hs => hiff.mpr (hsat hs))
    exact ⟨hinv, fun hl => ⟨(hlines hl).1, hiff.mp (hlines hl).2⟩⟩

lemma DepInv.condHolds_of_drop {d : Text} (hd : DepOk md d)
    (hc : CondHolds ρ (dropSelectedCond dep (depBody d))) : CondHolds ρ (depBody d) := by
  intro c hcond
  obtain ⟨t, ht, -, rfl⟩ := hd.cond c hcond
  obtain ⟨⟨c', n⟩, hm, hfst⟩ := map_eq_some_iff.mp hcond
  subst hfst
  by_cases hs : dep.get t.text = some .select
  · have hok := h.select _ (mem_of_get hs)
    exact hok.holds_of_not_ifLine (not_ifLine_of_blank (blank_not_mem ht))
  · apply hc
    simp [dropSelectedCond, hm, hs, depCond]

end Lines

/-! ## One round of the loop -/

/-- A condition to descend under: a single condition is that of a selected dependency. -/
structure PcOk (md : Metadata) (ρ : Text → Bool) (p : Pkg) (pc : Text) : Prop where
  text : CondText ρ pc
  origin : ' ' ∉ pc → pc = [] ∨
    ∃ d, DepOf md p d ∧ '+' ∈ depFlags d ∧ depCond (depBody d) = some pc

/-- A list to handle: it belongs to a package that is active if the condition is true. -/
structure TaskOk (md : Metadata) (ρ : Text → Bool) (p : Pkg) (t : List Text × Bool × Text) :
    Prop where
  pkg : ∃ q, Reaches md p q ∧ t.1 = q.depends ∧ (CondTrue ρ t.2.2 → Active md ρ p q) ∧
    (t.2.1 = false → q = p)
  pc : PcOk md ρ p t.2.2

/-- The dependency is the condition itself, or it has a key in `seen`. -/
def Covered (pc : Text) (seen : List Text) (d : Text) : Prop :=
  ∃ b, Form d b ∧ (pc = b ∨ seenKey pc b ∈ seen ∨ seenKey [] b ∈ seen)

def Handled (t : List Text × Bool × Text) (s : DepHash × List Text) : Prop :=
  ∀ d ∈ t.1, Covered t.2.2 s.2 d

/-- A key stands for lines that ask for what the dependency needs, or for a selected package whose
list was handled under a true condition. -/
def Promise (md : Metadata) (ρ : Text → Bool) (p : Pkg) (k : Text) (s : DepHash × List Text) :
    Prop :=
  ∃ pc b d, k = seenKey pc b ∧ ':' ∉ pc ∧ DepOf md p d ∧ Form d b ∧
    (CondTrue ρ pc → CondHolds ρ b →
      ('+' ∈ depFlags d → ∀ t, selected md b = some t →
        ∃ pc', PcOk md ρ p pc' ∧ CondTrue ρ pc' ∧ Handled (t.depends, true, pc') s) ∧
      ('+' ∉ depFlags d → s.1.LinesHold ρ → holds ρ (needs md d)))

def Grows (ρ : Text → Bool) (s s' : DepHash × List Text) : Prop :=
  (∀ k ∈ s.2, k ∈ s'.2) ∧ (s'.1.LinesHold ρ → s.1.LinesHold ρ)

lemma Grows.trans {ρ : Text → Bool} {s s' s'' : DepHash × List Text} (h : Grows ρ s s')
    (h' : Grows ρ s' s'') : Grows ρ s s'' :=
  ⟨fun k hk => h'.1 k (h.1 k hk), fun hl => h.2 (h'.2 hl)⟩

lemma Covered.mono {pc d : Text} {seen seen' : List Text} (hseen : ∀ k ∈ seen, k ∈ seen')
    (h : Covered pc seen d) : Covered pc seen' d := by
  obtain ⟨b, hb, hk⟩ := h
  exact ⟨b, hb, hk.imp_right (Or.imp (hseen _) (hseen _))⟩

structure Round (md : Metadata) (ρ : Text → Bool) (p : Pkg) (st st' : MconfState) : Prop where
  inv : DepInv md ρ p st'.dep
  grows : Grows ρ (st.dep, st.seen) (st'.dep, st'.seen)
  keep : ∀ u ∈ st.tDepends, u ∈ st'.tDepends
  tasks : ∀ u ∈ st'.tDepends, u ∈ st.tDepends ∨ TaskOk md ρ p (u.1, true, u.2)
  marked : ∀ k ∈ st'.seen, k ∈ st.seen ∨ ∀ s', Grows ρ (st'.dep, st'.seen) s' →
    (∀ u ∈ st'.tDepends, Handled (u.1, true, u.2) s') → Promise md ρ p k s'

section Round

variable {md : Metadata} {ρ : Text → Bool} {p : Pkg}

variable {ts : TDepends} {st : MconfState} {u : List Text × Text}

lemma Round.refl (h : DepInv md ρ p st.dep) : Round md ρ p st st :=
  ⟨h, ⟨fun _ hk => hk, fun hl => hl⟩, fun _ hu => hu, fun _ hu => .inl hu, fun _ hk => .inl hk⟩

lemma Round.trans {st' st'' : MconfState} (h : Round md ρ p st st') (h' : Round md ρ p st' st'') :
    Round md ρ p st st'' := by
  refine ⟨h'.inv, h.grows.trans h'.grows, fun u hu => h'.keep u (h.keep u hu), ?_, ?_⟩
  · intro u hu
    rcases h'.tasks u hu with hu | hu
    · exact h.tasks u hu
    · exact .inr hu
  · intro k hk
    rcases h'.marked k hk with hk | hk
    · refine (h.marked k hk).imp_right ?_
      intro hdue s' hs' hall
      exact hdue s' (h'.grows.trans hs') (fun u hu => hall u (h'.keep u hu))
    · exact .inr hk

lemma PcOk.splitCond {pc d b : Text} (hpc : PcOk md ρ p pc) (hd : DepOf md p d)
    (hok : DepOk md d) (hb : Form d b) (hplus : '+' ∈ depFlags d)
    (hself : holds ρ (packageSym p.name)) : PcOk md ρ p (splitCond p.name pc b).1 := by
  refine ⟨(hok.splitCond_fst hb hself hpc.text).1, ?_⟩
  cases hm : matchColon b with
  | none => simpa [Kconfig.splitCond, hm] using hpc.origin
  | some cn =>
    obtain ⟨c, n⟩ := cn
    by_cases hc : c = packageSym p.name
    · simpa [Kconfig.splitCond, hm, hc] using hpc.origin
    have hsplit : (Kconfig.splitCond p.name pc b).1 = andCond pc c := by
      simp [Kconfig.splitCond, hm, hc]
    rw [hsplit]
    intro hblank
    by_cases hnil : pc = []
    · subst hnil
      have hcond : depCond b = some c := by simp [depCond, hm]
      rcases hb with rfl | rfl
      · exact .inr ⟨d, hd, hplus, hcond⟩
      · rw [depCond_depName] at hcond
        cases hcond
    · simp [andCond, hpc.text.ne hnil] at hblank

lemma mem_pushDepends {c name : Text} (h : u ∈ pushDepends md ts c name) :
    u ∈ ts ∨ ∃ t, package md name = some t ∧ u = (t.depends, c) := by
  unfold pushDepends at h
  cases hp : package md name with
  | none => rw [hp] at h; exact .inl h
  | some t =>
    rw [hp] at h
    rcases mem_append.mp h with h | h
    · exact .inl h
    · exact .inr ⟨t, rfl, mem_singleton.mp h⟩

lemma mem_pushDepends_of_mem {c name : Text} (h : u ∈ ts) : u ∈ pushDepends md ts c name := by
  unfold pushDepends
  cases package md name with
  | none => exact h
  | some t => exact mem_append_left _ h

lemma pushDepends_of_some {c name : Text} {t : Pkg} (h : package md name = some t) :
    (t.depends, c) ∈ pushDepends md ts c name := by
  unfold pushDepends
  rw [h]
  exact mem_append_right _ (mem_singleton.mpr rfl)

variable (hpl : Plain md p) (hρ : Respects md ρ p)
include hpl hρ

variable {t : List Text × Bool × Text}

lemma round_mconfDepend (ht : TaskOk md ρ p t) {st : MconfState}
    (hinv : DepInv md ρ p st.dep) {d : Text} (hd : d ∈ t.1) :
    Round md ρ p st (mconfDepend md p.name t.2.1 t.2.2 st d) ∧
      Covered t.2.2 (mconfDepend md p.name t.2.1 t.2.2 st d).seen d := by
  obtain ⟨⟨q, hreach, hlist, hactive, htop⟩, hpc⟩ := ht
  obtain ⟨depends, onlyDep, pc⟩ := t
  subst hlist
  have hdep : DepOf md p d := ⟨q, hreach, hd⟩
  have hok := hpl.ok d hdep
  have hform := form_dropSelectedCond st.dep d
  rcases mconfDepend_cases md p.name onlyDep pc st d with ⟨hskip, hst⟩ | ⟨b, hb, -, -, -, hst⟩
  · rw [hst]
    exact ⟨Round.refl hinv, _, hform, hskip⟩
  rw [← hb] at hform
  obtain ⟨hctext, hctrue⟩ := hok.splitCond_fst hform hρ.self hpc.text
  have hbody : CondHolds ρ b → CondHolds ρ (depBody d) := by
    intro h
    rw [hb] at h
    exact hinv.condHolds_of_drop hok h
  rcases hst with ⟨hplus, hst⟩ | ⟨hplus, hst⟩
  · -- a selected dependency leaves the list of its package behind
    rw [hok.condAfter_eq hform hplus, hok.selectSym_eq hform hplus] at hst
    have himp : q = p → CondTrue ρ (splitCond p.name pc b).1 → holds ρ (needs md d) := by
      rintro rfl h
      exact hρ.selects d hd hplus (hbody (hctrue.mp h).2)
    have hlines : DepInv md ρ p (mconfDepend md p.name onlyDep pc st d).dep ∧
        ((mconfDepend md p.name onlyDep pc st d).dep.LinesHold ρ → st.dep.LinesHold ρ) := by
      rw [hst]
      cases onlyDep with
      | true => exact ⟨hinv, fun h => h⟩
      | false => exact hinv.emitSelect hctext hok.needs_blank (himp (htop rfl))
    refine ⟨⟨hlines.1, ⟨?_, hlines.2⟩, ?_, ?_, ?_⟩, b, hform, .inr (.inl ?_)⟩
    · intro k hk
      rw [hst]
      exact mem_cons_of_mem _ hk
    · intro u hu
      rw [hst]
      exact mem_pushDepends_of_mem hu
    · intro u hu
      rw [hst] at hu
      rcases mem_pushDepends hu with hu | ⟨t, hsel, rfl⟩
      · exact .inl hu
      have hselects : Selects md q d t := by
        refine ⟨hd, hplus, ?_⟩
        rw [selected, ← hform.name_eq]
        exact hsel
      refine .inr ⟨⟨t, hreach.tail ⟨d, hselects⟩, rfl, ?_, by simp⟩,
        hpc.splitCond hdep hok hform hplus hρ.self⟩
      intro h
      obtain ⟨hpct, hbt⟩ := hctrue.mp h
      exact (hactive hpct).select hselects (hbody hbt)
    · intro k hk
      rw [hst] at hk
      rcases mem_cons.mp hk with rfl | hk
      · right
        intro s' hs' hall
        refine ⟨pc, b, d, rfl, hpc.text.colon, hdep, hform, fun hpct hbt => ⟨?_, ?_⟩⟩
        · intro _ t hsel
          refine ⟨_, hpc.splitCond hdep hok hform hplus hρ.self, hctrue.mpr ⟨hpct, hbt⟩, ?_⟩
          apply hall (t.depends, _)
          rw [hst]
          exact pushDepends_of_some hsel
        · exact fun hno => absurd hplus hno
      · exact .inl hk
    · rw [hst]
      exact mem_cons_self
  · -- any other dependency leaves a line behind
    have hsym : providerSyms md (depFlags d) (depName b) = needs md d := by
      rw [needs, hform.name_eq]
    rw [hsym] at hst
    obtain ⟨hinv', hlines⟩ := hinv.emitDependsOn hctext hok.needs_blank hok.needs_reads
      (fun hsat h => hsat q (hactive (hctrue.mp h).1) d hd hplus (hbody (hctrue.mp h).2))
    rw [hst]
    refine ⟨⟨hinv', ⟨?_, fun h => (hlines h).1⟩, fun u hu => hu, fun u hu => .inl hu, ?_⟩,
      b, hform, .inr (.inl mem_cons_self)⟩
    · intro k hk
      exact mem_cons_of_mem _ hk
    intro k hk
    rcases mem_cons.mp hk with rfl | hk
    · right
      intro s' hs' _
      refine ⟨pc, b, d, rfl, hpc.text.colon, hdep, hform, fun hpct hbt => ⟨?_, ?_⟩⟩
      · exact fun hyes => absurd hyes hplus
      · intro _ hl
        exact (hlines (hs'.2 hl)).2 (hctrue.mpr ⟨hpct, hbt⟩)
    · exact .inl hk

lemma round_foldl (ht : TaskOk md ρ p t) (ds : List Text) (st : MconfState)
    (hds : ∀ d ∈ ds, d ∈ t.1) (hinv : DepInv md ρ p st.dep) :
    Round md ρ p st (ds.foldl (mconfDepend md p.name t.2.1 t.2.2) st) ∧ ∀ d ∈ ds,
      Covered t.2.2 (ds.foldl (mconfDepend md p.name t.2.1 t.2.2) st).seen d := by
  induction ds generalizing st with
  | nil => exact ⟨Round.refl hinv, by simp⟩
  | cons d ds ih =>
    obtain ⟨hround, hcov⟩ := round_mconfDepend hpl hρ ht hinv (hds d (by simp))
    obtain ⟨hrest, hcovs⟩ := ih _ (fun e he => hds e (by simp [he])) hround.inv
    refine ⟨hround.trans hrest, ?_⟩
    intro e he
    rcases mem_cons.mp he with rfl | he
    · exact hcov.mono hrest.grows.1
    · exact hcovs e he

lemma sweep_mconfLevel : Search.Sweep (mconfLevel md p.name) (fun s => DepInv md ρ p s.1)
    (TaskOk md ρ p) (Grows ρ) (fun s k => k ∈ s.2) Handled (Promise md ρ p) := by
  have hlevel : ∀ {t : List Text × Bool × Text} {s : DepHash × List Text}, TaskOk md ρ p t →
      DepInv md ρ p s.1 → _ := fun {t s} ht hs =>
    round_foldl hpl hρ ht t.1 ⟨s.1, s.2, []⟩ (fun d hd => hd) hs
  refine ⟨fun s => ⟨fun _ hk => hk, fun hl => hl⟩, Grows.trans, ?_, ?_, ?_, ?_, ?_, ?_, ?_⟩
  · intro t s s' hs hdone d hd
    exact (hdone d hd).mono hs.1
  · rintro k s s' hs ⟨pc, b, d, hk, hcolon, hdep, hform, hdue⟩
    refine ⟨pc, b, d, hk, hcolon, hdep, hform, fun hpc hb => ⟨?_, ?_⟩⟩
    · intro hplus t ht
      obtain ⟨pc', hpc', htrue, hdone⟩ := (hdue hpc hb).1 hplus t ht
      exact ⟨pc', hpc', htrue, fun e he => (hdone e he).mono hs.1⟩
    · exact fun hplus hl => (hdue hpc hb).2 hplus (hs.2 hl)
  · exact fun ht hs => (hlevel ht hs).1.inv
  · intro t s ht hs u hu
    obtain ⟨v, hv, rfl⟩ := List.mem_map.mp hu
    rcases (hlevel ht hs).1.tasks v hv with hv | hv
    · simp at hv
    · exact hv
  · exact fun ht hs => (hlevel ht hs).1.grows
  · exact fun ht hs => (hlevel ht hs).2
  · intro t s ht hs k hk
    refine ((hlevel ht hs).1.marked k hk).imp_right ?_
    intro hdue s' hs' hall
    exact hdue s' hs' (fun u hu => hall _ (List.mem_map.mpr ⟨u, hu, rfl⟩))

end Round

/-! ## The meaning of the lines -/

lemma seenKey_inj {pc pc' b b' : Text} (hpc : ':' ∉ pc) (hpc' : ':' ∉ pc')
    (h : seenKey pc b = seenKey pc' b') : pc = pc' ∧ b = b' := by
  induction pc generalizing pc' with
  | nil =>
    cases pc' with
    | nil => exact ⟨rfl, cons.inj h |>.2⟩
    | cons x xs =>
      obtain ⟨rfl, -⟩ := cons.inj h
      exact absurd mem_cons_self hpc'
  | cons y ys ih =>
    cases pc' with
    | nil =>
      obtain ⟨rfl, -⟩ := cons.inj h
      exact absurd mem_cons_self hpc
    | cons x xs =>
      obtain ⟨rfl, htail⟩ := cons.inj h
      obtain ⟨rfl, hb⟩ := ih (fun hm => hpc (mem_cons_of_mem _ hm))
        (fun hm => hpc' (mem_cons_of_mem _ hm)) htail
      exact ⟨rfl, hb⟩

section Final

variable {md : Metadata} {ρ : Text → Bool} {p : Pkg} {s : DepHash × List Text}
  (hpl : Plain md p) (hkeys : ∀ k ∈ s.2, Promise md ρ p k s)
include hpl hkeys

lemma Covered.due {pc d : Text} (hpc : PcOk md ρ p pc) (htrue : CondTrue ρ pc)
    (hd : DepOf md p d) (hcond : CondHolds ρ (depBody d)) (hcov : Covered pc s.2 d) :
    ('+' ∈ depFlags d → ∀ t, selected md (depBody d) = some t →
      ∃ pc', PcOk md ρ p pc' ∧ CondTrue ρ pc' ∧ Handled (t.depends, true, pc') s) ∧
    ('+' ∉ depFlags d → s.1.LinesHold ρ → holds ρ (needs md d)) := by
  obtain ⟨b, hform, hcov⟩ := hcov
  have hok := hpl.ok d hd
  have hkey : ∀ pc₀, ':' ∉ pc₀ → CondTrue ρ pc₀ → seenKey pc₀ b ∈ s.2 →
      ('+' ∈ depFlags d → ∀ t, selected md (depBody d) = some t →
        ∃ pc', PcOk md ρ p pc' ∧ CondTrue ρ pc' ∧ Handled (t.depends, true, pc') s) ∧
      ('+' ∉ depFlags d → s.1.LinesHold ρ → holds ρ (needs md d)) := by
    intro pc₀ hcolon htrue₀ hmem
    obtain ⟨pc₁, b₁, d₁, heq, hcolon₁, hd₁, hform₁, hdue⟩ := hkeys _ hmem
    obtain ⟨rfl, rfl⟩ := seenKey_inj hcolon hcolon₁ heq
    -- the key was set by a dependency on the same name, so it has the same flags
    have hname : depName (depBody d) = depName (depBody d₁) := by
      rw [← hform.name_eq, hform₁.name_eq]
    obtain ⟨hplus, hat⟩ := hpl.flags d d₁ hd hd₁ hname
    have hneeds : needs md d = needs md d₁ := by
      rw [needs, needs, hname, providerSyms, providerSyms, depSym, depSym]
      simp only [hat]
    have hsel : selected md b = selected md (depBody d) := by
      rw [selected, selected, hform.name_eq]
    rw [hplus, hneeds, ← hsel]
    exact hdue htrue₀ (hform.condHolds hcond)
  rcases hcov with rfl | hmem | hmem
  · -- the dependency is the condition itself
    have hb := hform.eq_name hpc.text.colon
    by_cases hat : '@' ∈ depFlags d
    · refine ⟨?_, ?_⟩
      · intro _ t ht
        rw [hok.selected_none hat] at ht
        cases ht
      intro _ _
      obtain ⟨t, ht, -, htext, hneeds⟩ | ⟨w, -, hno, -⟩ := hok.needs_eq
      · rw [hneeds, ← hb]
        apply htrue
        rw [hb, ← hneeds, htext]
        exact text_ne_nil ht
      · exact absurd hat hno
    · obtain ⟨hne, hword⟩ := hok.name hat
      rw [← hb] at hne hword
      have hblank : ' ' ∉ pc := fun hmem => absurd (hword _ hmem) (by decide)
      rcases hpc.origin hblank with hnil | ⟨d', hd', hplus', hcond'⟩
      · exact absurd hnil hne
      · rw [hb] at hcond'
        exact absurd hcond' (hpl.clash d d' hd hd' hat hplus')
  · exact hkey pc hpc.text.colon htrue hmem
  · exact hkey [] (by simp) (fun hne => absurd rfl hne) hmem

lemma Active.handled (hroot : Handled (p.depends, false, []) s) {q : Pkg}
    (hq : Active md ρ p q) : Reaches md p q ∧
      ∃ pc, PcOk md ρ p pc ∧ CondTrue ρ pc ∧ Handled (q.depends, true, pc) s := by
  induction hq with
  | root =>
    exact ⟨.refl, [], ⟨condText_nil, fun _ => .inl rfl⟩, fun hne => absurd rfl hne, hroot⟩
  | @select q t d _ hsel hcond ih =>
    obtain ⟨hreach, pc, hpc, htrue, hdone⟩ := ih
    refine ⟨hreach.tail ⟨d, hsel⟩, ?_⟩
    exact (Covered.due hpl hkeys hpc htrue ⟨q, hreach, hsel.1⟩ hcond (hdone d hsel.1)).1 hsel.2.1 t
      hsel.2.2

lemma satisfied_of_linesHold (hroot : Handled (p.depends, false, []) s)
    (hl : s.1.LinesHold ρ) : Satisfied md ρ p := by
  intro q hq d hd hplus hcond
  obtain ⟨hreach, pc, hpc, htrue, hdone⟩ := Active.handled hpl hkeys hroot hq
  exact (Covered.due hpl hkeys hpc htrue ⟨q, hreach, hd⟩ hcond (hdone d hd)).2 hplus hl

end Final

lemma Acyclic.noGrowingCycle {md : Metadata} (h : Acyclic md) : NoGrowingCycle md := by
  intro _ _ q hq d t hsel _ hreach
  exact h q hq (Relation.TransGen.head' ⟨d, hsel⟩ hreach)

/-- **The meaning of the generated lines.** Without cycles of selected dependencies, and for an
assignment that respects the `select` lines, `mconf_depends` ends, and its `depends on` lines hold
iff the dependencies of everything selected through true conditions are satisfied. -/
theorem mconfDepends_meaning {md : Metadata} {ρ : Text → Bool} {p : Pkg} (hp : p ∈ md)
    (hacyclic : Acyclic md) (hpl : Plain md p) (hρ : Respects md ρ p) :
    MconfTerminates md p.name p.depends ∧
    ∀ fuel dep, mconfDependsTop md fuel p.name p.depends = some dep →
        (dep.LinesHold ρ ↔ Satisfied md ρ p) := by
  refine ⟨mconfTerminates_of_noGrowingCycle hacyclic.noGrowingCycle hp p.depends, ?_⟩
  intro fuel dep hrun
  obtain ⟨s, hs, rfl⟩ := map_eq_some_iff.mp hrun
  rw [mconfDepends_eq_search] at hs
  have htask : TaskOk md ρ p (p.depends, false, []) :=
    ⟨⟨p, .refl, rfl, fun _ => .root, fun _ => rfl⟩, condText_nil, fun _ => .inl rfl⟩
  have hempty : DepInv md ρ p [] := ⟨by simp, by simp⟩
  obtain ⟨hinv, -, hdone, hmarks⟩ :=
    (sweep_mconfLevel hpl hρ).search fuel _ ([], []) s htask hempty hs
  have hkeys : ∀ k ∈ s.2, Promise md ρ p k s := by
    intro k hk
    rcases hmarks k hk with hk | hk
    · simp at hk
    · exact hk
  constructor
  · exact satisfied_of_linesHold hpl hkeys hdone
  · rintro hsat ⟨k, m⟩ he hm
    subst hm
    exact (hinv.line k he).2 hsat

/-! ## Two packages -/

def pairQ (dq : List Text) : Pkg :=
  { name := "Q".toList, src := ⟨"q".toList, "q".toList⟩, depends := dq }

def pairP (dp : List Text) : Pkg :=
  { name := "P".toList, src := ⟨"p".toList, "p".toList⟩, depends := dp }

def pairMd (dp dq : List Text) : Metadata := [pairQ dq, pairP dp]

def DepsHold (md : Metadata) (ρ : Text → Bool) (ds : List Text) : Prop :=
  ∀ d ∈ ds, '+' ∉ depFlags d → CondHolds ρ (depBody d) → holds ρ (needs md d)

instance (ρ : Text → Bool) (b : Text) : Decidable (CondHolds ρ b) :=
  inferInstanceAs (Decidable (∀ c ∈ depCond b, holds ρ c))

instance (md : Metadata) (ρ : Text → Bool) (ds : List Text) : Decidable (DepsHold md ρ ds) :=
  inferInstanceAs (Decidable (∀ d ∈ ds, _))

instance (ρ : Text → Bool) (dep : DepHash) : Decidable (dep.LinesHold ρ) :=
  inferInstanceAs (Decidable (∀ e ∈ dep, _))

section Pair

variable {dp dq : List Text} (hq : ∀ d ∈ dq, '+' ∉ depFlags d)
  (hp : ∀ d ∈ dp, '+' ∈ depFlags d → selected (pairMd dp dq) (depBody d) = some (pairQ dq))
include hq hp

lemma pair_selects {q t : Pkg} {d : Text} (hmem : q = pairP dp ∨ q = pairQ dq)
    (h : Selects (pairMd dp dq) q d t) : q = pairP dp ∧ d ∈ dp ∧ t = pairQ dq := by
  obtain ⟨hd, hplus, hsel⟩ := h
  rcases hmem with rfl | rfl
  · rw [hp d hd hplus, some.injEq] at hsel
    exact ⟨rfl, hd, hsel.symm⟩
  · exact absurd hplus (hq d hd)

lemma pair_reaches {q : Pkg} (h : Reaches (pairMd dp dq) (pairP dp) q) : q = pairP dp ∨
    q = pairQ dq := by
  induction h with
  | refl => exact .inl rfl
  | tail _ hstep ih =>
    obtain ⟨d, hsel⟩ := hstep
    exact .inr (pair_selects hq hp ih hsel).2.2

variable {ρ : Text → Bool}

lemma pair_active {q : Pkg} (h : Active (pairMd dp dq) ρ (pairP dp) q) :
    q = pairP dp ∨ q = pairQ dq ∧ ∃ d ∈ dp, '+' ∈ depFlags d ∧ CondHolds ρ (depBody d) := by
  induction h with
  | root => exact .inl rfl
  | @select q t d _ hsel hcond ih =>
    have := pair_selects hq hp (ih.imp_right And.left) hsel
    exact .inr ⟨this.2.2, d, this.2.1, hsel.2.1, hcond⟩

lemma pair_satisfied_iff : Satisfied (pairMd dp dq) ρ (pairP dp) ↔
    DepsHold (pairMd dp dq) ρ dp ∧
      ((∃ d ∈ dp, '+' ∈ depFlags d ∧ CondHolds ρ (depBody d)) → DepsHold (pairMd dp dq) ρ dq) := by
  constructor
  · intro h
    refine ⟨h _ .root, ?_⟩
    rintro ⟨d, hd, hplus, hcond⟩
    exact h _ (Active.root.select ⟨hd, hplus, hp d hd hplus⟩ hcond)
  · rintro ⟨hroot, hselected⟩ q hact
    rcases pair_active hq hp hact with rfl | ⟨rfl, hsel⟩
    · exact hroot
    · exact hselected hsel

lemma pair_acyclic (hne : pairP dp ≠ pairQ dq) : Acyclic (pairMd dp dq) := by
  intro q hmem hcycle
  have hmem' : q = pairP dp ∨ q = pairQ dq := by
    simp only [pairMd, mem_cons, not_mem_nil, or_false] at hmem
    exact hmem.symm
  -- a step leads to `Q`, and there is none from there
  have hstep : ∀ t, Relation.TransGen (SelectEdge (pairMd dp dq)) q t → q = pairP dp ∧
    t = pairQ dq := by
    intro t ht
    induction ht with
    | single h =>
      obtain ⟨d, hsel⟩ := h
      obtain ⟨h1, -, h2⟩ := pair_selects hq hp hmem' hsel
      exact ⟨h1, h2⟩
    | tail _ h ih =>
      obtain ⟨d, hsel⟩ := h
      obtain ⟨h1, -, h2⟩ := pair_selects hq hp (.inr ih.2) hsel
      exact ⟨ih.1, h2⟩
  obtain ⟨h1, h2⟩ := hstep q hcycle
  exact hne (h1.symm.trans h2)

end Pair

def pairDp : List Text := ["+C:Q".toList, "@E".toList]

def pairDq : List Text := ["@X&&!Y:D||F".toList]

def pairAssignment : Text → Bool := fun w =>
  w ∈ ["PACKAGE_P".toList, "PACKAGE_Q".toList, "C".toList, "X".toList, "F".toList]

lemma depOk_package (t : Option Cond) (ht : ∀ c ∈ t, c.Wf ∧ c.level ≠ .or)
    (hc : depCond (depBody d) = t.map text) (hat : '@' ∉ depFlags d)
    (hname : IsName (depName (depBody d))) {v : Pkg}
    (hv : vpackage md (depName (depBody d)) = some [v])
    (hvname : IsName v.name) (hbuild : v.buildonly = false) : DepOk md d := by
  refine ⟨?_, fun h => absurd h hat, fun _ => hname, ?_⟩
  · intro c h
    rw [hc] at h
    obtain ⟨t', ht', rfl⟩ := map_eq_some_iff.mp h
    exact ⟨t', (ht t' ht').1, (ht t' ht').2, rfl⟩
  · intro vs h
    rw [hv, some.injEq] at h
    exact ⟨v, h.symm, hvname, fun _ => hbuild⟩

lemma depOk_symbol (t : Option Cond) (ht : ∀ c ∈ t, c.Wf ∧ c.level ≠ .or)
    (hc : depCond (depBody d) = t.map text) (hat : '@' ∈ depFlags d) {n : Cond} (hn : n.Wf)
    (hname : depName (depBody d) = n.text) (hv : vpackage md (depName (depBody d)) = none) :
    DepOk md d := by
  refine ⟨?_, fun _ => ⟨hv, n, hn, hname⟩, fun h => absurd hat h, ?_⟩
  · intro c h
    rw [hc] at h
    obtain ⟨t', ht', rfl⟩ := map_eq_some_iff.mp h
    exact ⟨t', (ht t' ht').1, (ht t' ht').2, rfl⟩
  · intro vs h
    rw [hv] at h
    cases h

lemma pairMd_selects : (∀ d ∈ pairDq, '+' ∉ depFlags d) ∧ ∀ d ∈ pairDp, '+' ∈ depFlags d →
    selected (pairMd pairDp pairDq) (depBody d) = some (pairQ pairDq) := by
  decide

lemma pairMd_plain : Plain (pairMd pairDp pairDq) (pairP pairDp) := by
  have hdep : ∀ d, DepOf (pairMd pairDp pairDq) (pairP pairDp) d → d ∈ pairDp ++ pairDq := by
    rintro d ⟨q, hreach, hd⟩
    rcases pair_reaches pairMd_selects.1 pairMd_selects.2 hreach with rfl | rfl
    · exact mem_append_left _ hd
    · exact mem_append_right _ hd
  have hflags : ∀ d ∈ pairDp ++ pairDq, ∀ d' ∈ pairDp ++ pairDq,
      depName (depBody d) = depName (depBody d') → d = d' := by decide
  have hclash : ∀ d ∈ pairDp ++ pairDq, ∀ d' ∈ pairDp ++ pairDq, '@' ∉ depFlags d →
      '+' ∈ depFlags d' → depCond (depBody d') ≠ some (depName (depBody d)) := by decide
  refine ⟨?_, ?_, fun d d' hd hd' => hclash d (hdep d hd) d' (hdep d' hd')⟩
  · intro d hd
    have hd := hdep d hd
    simp only [pairDp, pairDq, cons_append, nil_append, mem_cons, not_mem_nil, or_false] at hd
    rcases hd with rfl | rfl | rfl
    · apply depOk_package (some (.sym ['C'])) (v := pairQ pairDq)
      · simp [Cond.Wf, isWordChar, level]
      · decide
      · decide
      · exact ⟨by decide, List.all_eq_true.1 (by decide)⟩
      · decide
      · exact ⟨by decide, List.all_eq_true.1 (by decide)⟩
      · rfl
    · apply depOk_symbol none (n := .sym ['E'])
      · simp
      · decide
      · decide
      · simp [Cond.Wf, isWordChar]
      · decide
      · decide
    · apply depOk_symbol (some (.and (.sym ['X']) (.not (.sym ['Y']))))
        (n := .or (.sym ['D']) (.sym ['F']))
      · simp [Cond.Wf, isWordChar, level]
      · decide
      · decide
      · simp [Cond.Wf, isWordChar, level]
      · decide
      · decide
  · intro d d' hd hd' hname
    rw [hflags d (hdep d hd) d' (hdep d' hd') hname]
    exact ⟨Iff.rfl, Iff.rfl⟩

theorem mconfDepends_meaning_pairMd : MconfTerminates (pairMd pairDp pairDq) "P".toList pairDp ∧
      ∀ fuel dep, mconfDependsTop (pairMd pairDp pairDq) fuel "P".toList pairDp = some dep →
        (dep.LinesHold pairAssignment ↔
        Satisfied (pairMd pairDp pairDq) pairAssignment (pairP pairDp)) := by
  have hρ : Respects (pairMd pairDp pairDq) pairAssignment (pairP pairDp) := by
    refine ⟨by decide, ?_⟩
    have hneeds : ∀ d ∈ pairDp, '+' ∈ depFlags d →
        holds pairAssignment (needs (pairMd pairDp pairDq) d) := by decide
    exact fun d hd hplus _ => hneeds d hd hplus
  exact mconfDepends_meaning (p := pairP pairDp) (by simp [pairMd])
    (pair_acyclic pairMd_selects.1 pairMd_selects.2 (by decide)) pairMd_plain hρ

def LinesDiffer (dp dq : List Text) (ρ : Text → Bool) : Prop :=
  Acyclic (pairMd dp dq) ∧ ∃ fuel dep, mconfDependsTop (pairMd dp dq) fuel "P".toList dp =
    some dep ∧
    ¬ (dep.LinesHold ρ ↔ Satisfied (pairMd dp dq) ρ (pairP dp))

lemma linesDiffer_of {dp dq : List Text} {ρ : Text → Bool} (fuel : Nat) (dep : DepHash)
    (hq : ∀ d ∈ dq, '+' ∉ depFlags d)
    (hp : ∀ d ∈ dp, '+' ∈ depFlags d → selected (pairMd dp dq) (depBody d) = some (pairQ dq))
    (hne : pairP dp ≠ pairQ dq)
    (hrun : mconfDependsTop (pairMd dp dq) fuel "P".toList dp = some dep)
    (hdiff : ¬ (dep.LinesHold ρ ↔ DepsHold (pairMd dp dq) ρ dp ∧
      ((∃ d ∈ dp, '+' ∈ depFlags d ∧ CondHolds ρ (depBody d)) → DepsHold (pairMd dp dq) ρ dq))) :
    LinesDiffer dp dq ρ := by
  refine ⟨pair_acyclic hq hp hne, fuel, dep, hrun, ?_⟩
  rwa [pair_satisfied_iff hq hp]

/-- The three ways in which the lines can say something else. -/
theorem lines_differ_from_meaning :
    LinesDiffer ["+Q".toList, "@PACKAGE_Q:X".toList] [] (fun w => w = "PACKAGE_P".toList) ∧
    LinesDiffer ["+C:Q".toList] ["@A||B:D".toList] (fun w => w = "PACKAGE_P".toList ∨
    w = "B".toList) ∧
    LinesDiffer ["Q".toList, "+Q".toList] ["@D".toList]
      (fun w => w = "PACKAGE_P".toList ∨ w = "PACKAGE_Q".toList) := by
  refine ⟨?_, ?_, ?_⟩
  -- without respect for the `select` lines: `P` selects `Q`, so the condition `PACKAGE_Q` is left
  -- out of the line
  -- for `X`, and the line fails when neither of them is enabled
  · exact linesDiffer_of 3 [("X".toList, .dependsOn), ("PACKAGE_Q".toList, .select)] (by decide)
      (by decide) (by decide) (by decide) (by decide)
  -- a `||` in a condition: the line fails when `B` alone is enabled, although `Q` is not selected
  · exact linesDiffer_of 3 [("!(C && A||B) || D".toList, .dependsOn),
      ("PACKAGE_Q if C".toList, .select)]
      (by decide) (by decide) (by decide) (by decide) (by decide)
  -- a name with and without `+`: the key of `Q` stops `+Q`, so `Q`'s dependency gets no line
  · exact linesDiffer_of 3 [("PACKAGE_Q".toList, .dependsOn)] (by decide) (by decide) (by decide)
      (by decide) (by decide)

end SourceMaster.Kconfig
