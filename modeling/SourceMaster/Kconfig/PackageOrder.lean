import Mathlib.Logic.Relation
import Mathlib.Tactic.Common
import SourceMaster.Kconfig.Metadata

/-!
# The order of the packages in a menu

`find_package_dep` looks for a dependency of a package, directly or through other packages. It finds
every dependency if the packages that it can come to and that share a name lead to packages of the
same names (`package_dep_found`). The packages of a menu are sorted by their dependencies, and by
their names if there are none. That is an order unless the name of a third package lies between
those of two packages that depend on each other (`menu_order_iff`).
-/

namespace SourceMaster.Kconfig

open List

variable (md : Metadata)

def providers (pkg : Pkg) : List Pkg := pkg.depends.flatMap fun vpkg => (vpackage md vpkg).getD []

/-- `__find_package_dep`, with `%dep_check`; no result if the recursion is too deep. -/
def findPackageDepIn (name : Text) : Nat → Pkg → List Text → Option (Bool × List Text)
  | 0, _, _ => none
  | depth + 1, pkg, depCheck =>
    (providers md pkg).foldlM (fun r dep =>
      if r.1 ∨ dep.name ∈ r.2 then some r
      else if dep.name = name then some (true, dep.name :: r.2)
      else findPackageDepIn name depth dep (dep.name :: r.2)) (false, depCheck)

def findPackageDep (depth : Nat) (pkg : Pkg) (name : Text) : Option Bool :=
  (findPackageDepIn md name depth pkg []).map Prod.fst

/-- The second package provides a dependency of the first, or of such a provider, and so on. -/
def DependsOn : Pkg → Pkg → Prop := Relation.TransGen fun p q => q ∈ providers md p

variable {md}

lemma mem_of_mem_vpackage {name : Text} {q : Pkg} (h : q ∈ (vpackage md name).getD []) :
    q ∈ md := by
  have hinner : ∀ (p : Pkg) (vs : List Text) (acc : Option (List Pkg)), p ∈ md →
    (∀ q ∈ acc.getD [], q ∈ md) →
      ∀ q ∈ (vs.foldl (fun acc v => if v = p.name then acc
        else if v = name then some (acc.getD [] ++ [p]) else acc) acc).getD [], q ∈ md := by
    intro p vs
    induction vs with
    | nil => exact fun acc _ h => h
    | cons v vs ih =>
      intro acc hp h
      exact ih _ hp (by dsimp only; split_ifs <;> simp_all [or_imp])
  have houter : ∀ (l : List Pkg) (acc : Option (List Pkg)), (∀ p ∈ l, p ∈ md) →
    (∀ q ∈ acc.getD [], q ∈ md) → ∀ q ∈ (l.foldl (vpackageStep name) acc).getD [], q ∈ md := by
    intro l
    induction l with
    | nil => exact fun acc _ h => h
    | cons p l ih =>
      intro acc hl h
      refine ih _ (fun x hx => hl x (by simp [hx])) (hinner p _ _ (hl p (by simp)) ?_)
      have := hl p (by simp)
      split_ifs <;> simp_all
  exact houter md none (fun _ hp => hp) (by simp) q h

lemma mem_of_mem_providers {p q : Pkg} (h : q ∈ providers md p) : q ∈ md := by
  obtain ⟨d, -, hq⟩ := mem_flatMap.1 h
  exact mem_of_mem_vpackage hq

def unmarked (md : Metadata) (depCheck : List Text) : Nat :=
    (md.filter fun p => p.name ∉ depCheck).length

lemma unmarked_le {before after : List Text} (h : before ⊆ after) :
    unmarked md after ≤ unmarked md before := by
  refine (monotone_filter_right md fun p hp => ?_).length_le
  simp only [decide_eq_true_eq] at hp ⊢
  exact fun hmem => hp (h hmem)

lemma unmarked_lt {depCheck : List Text} {p : Pkg} (hp : p ∈ md) (h : p.name ∉ depCheck) :
    unmarked md (p.name :: depCheck) < unmarked md depCheck := by
  have hfilter : md.filter (fun q => q.name ∉ p.name :: depCheck) =
      (md.filter fun q => q.name ∉ depCheck).filter fun q => q.name ≠ p.name := by
    rw [filter_filter]
    exact filter_congr (by simp)
  rw [unmarked, hfilter]
  exact length_filter_lt_length_iff_exists.2 ⟨p, by simp [hp, h], by simp⟩

/-- Packages below `pkg` that share a name, other than the one that is looked for, lead to packages
of the same names. In particular this is so if no two packages below `pkg` have the same name. -/
def Alike (md : Metadata) (pkg : Pkg) (name : Text) : Prop :=
  ∀ p q, DependsOn md pkg p → DependsOn md pkg q → p.name = q.name → p.name ≠ name →
    ∀ x ∈ providers md p, ∃ y ∈ providers md q, y.name = x.name

/-- A search below `root` that has found nothing has followed its new marks. -/
structure Searched (md : Metadata) (root : Pkg) (name : Text) (before after : List Text) : Prop
    where
  mono : before ⊆ after
  absent : name ∈ after → name ∈ before
  closed : ∀ p, DependsOn md root p → p.name ∈ after → p.name ∉ before →
    ∀ q ∈ providers md p, q.name ∈ after

variable {root : Pkg} {name : Text} {a b c : List Text} {r : Bool × List Text}

lemma Searched.refl : Searched md root name a a := ⟨List.Subset.refl _, id, by grind⟩

lemma Searched.trans (h : Searched md root name a b) (h' : Searched md root name b c) :
    Searched md root name a c where
  mono := List.Subset.trans h.mono h'.mono
  absent hc := h.absent (h'.absent hc)
  closed p hp hc ha q hq := by
    by_cases hb : p.name ∈ b
    · exact h'.mono (h.closed p hp hb ha q hq)
    · exact h'.closed p hp hc hb q hq

/-- What the result of a search through the packages `l` says. -/
def Found (md : Metadata) (root : Pkg) (name : Text) (l : List Pkg) (depCheck : List Text) :
    Bool × List Text → Prop
  | (true, _) => ∃ p ∈ l, p.name = name ∨ ∃ q, DependsOn md p q ∧ q.name = name
  | (false, marks) => Searched md root name depCheck marks ∧ ∀ p ∈ l, p.name ∈ marks

lemma Found.cons {p : Pkg} {l : List Pkg} (hs : Searched md root name a b) (hp : p.name ∈ b)
    (h : Found md root name l b r) : Found md root name (p :: l) a r := by
  obtain ⟨_ | _, marks⟩ := r
  · exact ⟨hs.trans h.1, by simpa [h.1.mono hp] using h.2⟩
  · exact h.imp fun q hq => ⟨by simp [hq.1], hq.2⟩

lemma foldlM_of_found {f : Bool × List Text → Pkg → Option (Bool × List Text)}
    (hf : ∀ r dep, r.1 = true → f r dep = some r) (l : List Pkg) (hr : r.1 = true) :
    l.foldlM f r = some r := by
  induction l with
  | nil => rfl
  | cons p l ih =>
    rw [foldlM_cons, hf r p hr]
    exact ih

lemma DependsOn.mem {p q : Pkg} (h : DependsOn md p q) : q ∈ md := by
  cases h with
  | single h => exact mem_of_mem_providers h
  | tail _ h => exact mem_of_mem_providers h

lemma findPackageDepIn_spec (halike : Alike md root name) (depth : Nat) :
    ∀ pkg depCheck, (∀ p ∈ providers md pkg, DependsOn md root p) → unmarked md depCheck < depth →
      ∃ r, findPackageDepIn md name depth pkg depCheck = some r ∧
        Found md root name (providers md pkg) depCheck r := by
  induction depth with
  | zero => exact fun _ _ _ h => absurd h (Nat.not_lt_zero _)
  | succ depth ih =>
    intro pkg depCheck hmem hdepth
    unfold findPackageDepIn
    generalize providers md pkg = l at hmem
    -- the loop, over the packages that are left
    induction l generalizing depCheck with
    | nil => exact ⟨_, rfl, ⟨List.Subset.refl _, id, by grind⟩, by simp⟩
    | cons p l ihl =>
      have hp := hmem p (by simp)
      have hl : ∀ q ∈ l, DependsOn md root q := fun q hq => hmem q (by simp [hq])
      rw [foldlM_cons]
      by_cases hmark : p.name ∈ depCheck
      · obtain ⟨r, hr, hfound⟩ := ihl depCheck hdepth hl
        exact ⟨r, by simpa [hmark] using hr, hfound.cons .refl hmark⟩
      have hlt := unmarked_lt hp.mem hmark
      simp only [hmark, Bool.false_eq_true, or_false, if_false]
      by_cases hname : p.name = name
      · rw [if_pos hname]
        exact ⟨_, foldlM_of_found (by simp +contextual) l rfl, p, by simp, .inl hname⟩
      obtain ⟨⟨found, marks⟩, hr, hfound⟩ :=
        ih p (p.name :: depCheck) (fun q hq => hp.tail hq) (by omega)
      rw [if_neg hname, hr]
      cases found with
      | true =>
        refine ⟨_, foldlM_of_found (by simp +contextual) l rfl, p, by simp, .inr ?_⟩
        obtain ⟨q, hq, heq | ⟨q', hq', heq⟩⟩ := hfound
        · exact ⟨q, .single hq, heq⟩
        · exact ⟨q', .head hq hq', heq⟩
      | false =>
        obtain ⟨hsearched, hprov⟩ := hfound
        have hp' : Searched md root name depCheck marks := by
          refine ⟨fun x hx => hsearched.mono (by simp [hx]), fun h => ?_, fun q hq hin hout x hx =>
            ?_⟩
          · exact (mem_cons.1 (hsearched.absent h)).resolve_left fun heq => hname heq.symm
          · by_cases heq : q.name = p.name
            · obtain ⟨y, hy, hyname⟩ := halike q p hq hp heq (heq ▸ hname) x hx
              exact hyname ▸ hprov y hy
            · exact hsearched.closed q hq hin (by simp [heq, hout]) x hx
        obtain ⟨r, hrest, hfound⟩ :=
          ihl marks (Nat.lt_of_le_of_lt (unmarked_le hp'.mono) hdepth) hl
        exact ⟨r, hrest, hfound.cons hp' (hsearched.mono mem_cons_self)⟩

lemma Searched.marked {q : Pkg} (hs : Searched md root name [] marks)
    (hp : ∀ r ∈ providers md root, r.name ∈ marks) (h : DependsOn md root q) : q.name ∈ marks := by
  induction h with
  | single hq => exact hp _ hq
  | tail hpath hstep ih => exact hs.closed _ hpath ih (by simp) _ hstep

lemma findPackageDep_spec {pkg : Pkg} (halike : Alike md pkg name) {depth : Nat}
    (hdepth : md.length < depth) : ∃ r, findPackageDep md depth pkg name = some r ∧
      (r = true ↔ ∃ q, DependsOn md pkg q ∧ q.name = name) := by
  obtain ⟨⟨b, marks⟩, hr, hfound⟩ := findPackageDepIn_spec halike depth pkg []
    (fun p hp => .single hp) (Nat.lt_of_le_of_lt (length_filter_le _ _) hdepth)
  refine ⟨b, by simp [findPackageDep, hr], ?_⟩
  cases b with
  | true =>
    obtain ⟨p, hp, heq | ⟨q, hq, heq⟩⟩ := hfound
    · exact iff_of_true rfl ⟨p, .single hp, heq⟩
    · exact iff_of_true rfl ⟨q, .head hp hq, heq⟩
  | false =>
    obtain ⟨hsearched, hprov⟩ := hfound
    refine iff_of_false Bool.false_ne_true ?_
    rintro ⟨q, hq, hname⟩
    exact absurd (hsearched.absent (hname ▸ hsearched.marked hprov hq)) (by simp)

/-- **A dependency is found** iff there is one, however the packages depend on each other, if
packages of one name below `pkg` are alike. -/
theorem package_dep_found {pkg : Pkg} {name : Text} (halike : Alike md pkg name) :
    ∃ r, (∀ depth, md.length < depth → findPackageDep md depth pkg name = some r) ∧
      (r = true ↔ ∃ q, DependsOn md pkg q ∧ q.name = name) := by
  obtain ⟨r, -, hiff⟩ := findPackageDep_spec halike (Nat.lt_succ_self _)
  refine ⟨r, fun depth hdepth => ?_, hiff⟩
  obtain ⟨r', hr', hiff'⟩ := findPackageDep_spec halike hdepth
  rw [hr', Bool.eq_iff_iff.2 (hiff'.trans hiff.symm)]

lemma alike_of_distinct (hmd : ∀ p ∈ md, ∀ q ∈ md, p.name = q.name → p = q) (pkg : Pkg)
    (name : Text) : Alike md pkg name := by
  intro p q hp hq heq _ x hx
  exact ⟨x, hmd p hp.mem q hq.mem heq ▸ hx, rfl⟩

def plain (name : Char) (depends : List Char) : Pkg :=
  ⟨[name], ⟨[], []⟩, [], depends.map fun c => [c], [], false, false⟩

/-- Two packages `a` and `b` that depend on each other, and two of the name `x`, of which one leads
to `c`. -/
def circle : Metadata := [plain 'a' ['b'], plain 'b' ['a'], plain 'x' ['c'], plain 'x' [],
    plain 'c' []]

lemma circle_below {q : Pkg} (h : DependsOn circle (plain 'a' ['b']) q) :
    q ∈ [plain 'a' ['b'], plain 'b' ['a']] := by
  have hclosed : ∀ p ∈ [plain 'a' ['b'], plain 'b' ['a']], ∀ q ∈ providers circle p,
      q ∈ [plain 'a' ['b'], plain 'b' ['a']] := by decide
  induction h with
  | single hq => exact hclosed _ (by decide) _ hq
  | tail _ hq ih => exact hclosed _ ih _ hq

/-- A search in a circle comes to an end; it does not meet the packages that share a name. -/
theorem package_dep_found_circle : ∃ r, (∀ depth, 5 < depth →
    findPackageDep circle depth (plain 'a' ['b']) ['c'] = some r) ∧
      (r = true ↔ ∃ q, DependsOn circle (plain 'a' ['b']) q ∧ q.name = ['c']) := by
  have hdistinct : ∀ p ∈ [plain 'a' ['b'], plain 'b' ['a']],
    ∀ q ∈ [plain 'a' ['b'], plain 'b' ['a']], p.name = q.name → p = q := by decide
  refine @package_dep_found circle (plain 'a' ['b']) ['c'] fun p q hp hq heq _ x hx => ⟨x, ?_, rfl⟩
  exact hdistinct p (circle_below hp) q (circle_below hq) heq ▸ hx

/-- The dependencies of a package are left out if one of its name is declared later. -/
theorem first_declaration_skipped :
    findPackageDep [plain 'x' ['n'], plain 'x' [], plain 'n' []] 4 (plain 'p' ['x']) ['n'] =
    some false ∧
      ∃ q, DependsOn [plain 'x' ['n'], plain 'x' [], plain 'n' []] (plain 'p' ['x']) q ∧
      q.name = ['n'] :=
  ⟨by decide, plain 'n' [], .tail (b := plain 'x' ['n']) (.single (by decide)) (by decide), rfl⟩

/-! ## Sorting -/

section

variable (md) (submenu : Pkg → Text) (a b : Pkg)

def packageDepends : Int :=
  if submenu a ≠ submenu b then 0
  else if findPackageDep md (md.length + 1) a b.name = some true then 1
  else if findPackageDep md (md.length + 1) b a.name = some true then -1
  else 0

/-- The comparison in `print_package_config_category`. -/
def Before : Prop :=
  packageDepends md submenu a b < 0 ∨ packageDepends md submenu a b = 0 ∧ a.name < b.name

end

def StrictWeakOn (menu : List Pkg) (r : Pkg → Pkg → Prop) : Prop :=
  (∀ a ∈ menu, ¬ r a a) ∧ (∀ a ∈ menu, ∀ b ∈ menu, ∀ c ∈ menu, r a b → r b c → r a c) ∧
    ∀ a ∈ menu, ∀ b ∈ menu, ∀ c ∈ menu, ¬ r a b → ¬ r b a → ¬ r b c → ¬ r c b → ¬ r a c ∧ ¬ r c a

/-- The name is between those of a package and a dependency of it, and it neither depends on them
nor they on it. -/
def Between (md : Metadata) (menu : List Pkg) : Prop :=
  ∃ a ∈ menu, ∃ b ∈ menu, ∃ c ∈ menu, DependsOn md a c ∧ a.name < b.name ∧ b.name < c.name ∧
    ¬ DependsOn md a b ∧ ¬ DependsOn md b a ∧ ¬ DependsOn md b c ∧ ¬ DependsOn md c b

section

variable {submenu : Pkg → Text} {menu : List Pkg} (hmd : ∀ p ∈ md, ∀ q ∈ md, p.name = q.name →
  p = q)
include hmd

lemma findPackageDep_iff (p : Pkg) {q : Pkg} (hq : q ∈ md) :
    findPackageDep md (md.length + 1) p q.name = some true ↔ DependsOn md p q := by
  obtain ⟨r, hr, hiff⟩ :=
    findPackageDep_spec (alike_of_distinct hmd p q.name) (Nat.lt_succ_self md.length)
  rw [hr, Option.some.injEq, hiff]
  constructor
  · rintro ⟨q', hdep, hname⟩
    exact hmd q' hdep.mem q hq hname ▸ hdep
  · exact fun hdep => ⟨q, hdep, rfl⟩

lemma not_dependsOn_self (h : ∀ p ∈ md, findPackageDep md (md.length + 1) p p.name ≠ some true)
    (p : Pkg) (hp : p ∈ md) : p ∈ md ∧ ¬ DependsOn md p p :=
  ⟨hp, fun hdep => h p hp ((findPackageDep_iff hmd p hp).2 hdep)⟩

lemma before_iff {a b : Pkg} (ha : a ∈ md) (hb : b ∈ md) (hmenu : submenu a = submenu b) :
    Before md submenu a b ↔ ¬ DependsOn md a b ∧ (DependsOn md b a ∨ a.name < b.name) := by
  unfold Before packageDepends
  rw [if_neg (not_not.2 hmenu), ← findPackageDep_iff hmd a hb, ← findPackageDep_iff hmd b ha]
  split_ifs <;> simp_all

/-- **The comparison is a strict weak order** on a menu iff there is no name between. Then a sorted
menu has every package behind those it depends on. -/
theorem menu_order_iff (hmenu : ∀ p ∈ menu, p ∈ md ∧ ¬ DependsOn md p p)
    (hsame : ∀ p ∈ menu, ∀ q ∈ menu, submenu p = submenu q) :
    (StrictWeakOn menu (Before md submenu) ∧ ∀ l : List Pkg, l.Perm menu →
      l.Pairwise (fun a b => ¬ Before md submenu b a) → l.Pairwise fun a b => ¬ DependsOn md a b) ↔
    ¬ Between md menu := by
  have hiff : ∀ a ∈ menu, ∀ b ∈ menu,
      (Before md submenu a b ↔ ¬ DependsOn md a b ∧ (DependsOn md b a ∨ a.name < b.name)) :=
    fun a ha b hb => before_iff hmd (hmenu a ha).1 (hmenu b hb).1 (hsame a ha b hb)
  have htrans : ∀ {a b c}, DependsOn md a b → DependsOn md b c → DependsOn md a c :=
    fun h h' => h.trans h'
  have hself : ∀ a ∈ menu, ¬ DependsOn md a a := fun a ha => (hmenu a ha).2
  have hname : ∀ a ∈ menu, ∀ b ∈ menu, ¬ a.name < b.name → ¬ b.name < a.name → a = b :=
    fun a ha b hb h h' => hmd a (hmenu a ha).1 b (hmenu b hb).1
      (List.le_antisymm (List.not_lt.1 h') (List.not_lt.1 h))
  have hirrefl : ∀ a ∈ menu, ¬ Before md submenu a a := fun a ha h =>
    ((hiff a ha a ha).1 h).2.elim (hself a ha) (List.lt_irrefl _)
  constructor
  · rintro ⟨⟨-, horder, -⟩, -⟩ ⟨a, ha, b, hb, c, hc, hac, hab, hbc, hnab, -, hnbc, -⟩
    have := horder a ha b hb c hc ((hiff a ha b hb).2 ⟨hnab, .inr hab⟩)
      ((hiff b hb c hc).2 ⟨hnbc, .inr hbc⟩)
    exact ((hiff a ha c hc).1 this).1 hac
  · intro hbetween
    have hnone : ∀ a ∈ menu, ∀ b ∈ menu, ∀ c ∈ menu, DependsOn md a c → a.name < b.name →
      b.name < c.name →
        ¬ DependsOn md a b → ¬ DependsOn md b a → ¬ DependsOn md b c → DependsOn md c b :=
      fun a ha b hb c hc h₁ h₂ h₃ h₄ h₅ h₆ =>
        by_contra fun h₇ => hbetween ⟨a, ha, b, hb, c, hc, h₁, h₂, h₃, h₄, h₅, h₆, h₇⟩
    have htotal : ∀ a ∈ menu, ∀ b ∈ menu, ¬ Before md submenu a b → ¬ Before md submenu b a →
      a = b := by
      intro a ha b hb h h'
      rw [hiff a ha b hb] at h
      rw [hiff b hb a ha] at h'
      have := hname a ha b hb
      grind
    refine ⟨⟨hirrefl, fun a ha b hb c hc hab hbc => ?_, fun a ha b hb c hc h₁ h₂ h₃ h₄ => ?_⟩,
      fun l hl hsorted => hsorted.imp_of_mem fun {a b} ha hb hnot hdep => hnot ?_⟩
    · rw [hiff a ha c hc]
      rw [hiff a ha b hb] at hab
      rw [hiff b hb c hc] at hbc
      -- a name between is excluded for each of the three that may be the one in the middle
      have h₁ := hnone a ha b hb c hc
      have h₂ := hnone b hb c hc a ha
      have h₃ := hnone c hc a ha b hb
      have h₄ := hname a ha c hc
      have h₅ := @List.lt_trans _ _ _ a.name b.name c.name
      grind
    · rw [htotal a ha b hb h₁ h₂, htotal b hb c hc h₃ h₄]
      exact ⟨hirrefl c hc, hirrefl c hc⟩
    · have ha := hl.mem_iff.1 ha
      exact (hiff b (hl.mem_iff.1 hb) a ha).2 ⟨fun h => hself a ha (htrans hdep h), .inl hdep⟩

end

/-- A menu of two packages is in order. -/
theorem menu_order_iff_two : let md := [plain 'a' ['b'], plain 'b' []]
    StrictWeakOn md (Before md fun _ => []) ∧ ∀ l : List Pkg, l.Perm md →
      l.Pairwise (fun a b => ¬ Before md (fun _ => []) b a) →
        l.Pairwise fun a b => ¬ DependsOn md a b := by
  refine (menu_order_iff (by decide) (not_dependsOn_self (by decide) (by decide)) (by simp)).2 ?_
  rintro ⟨a, ha, b, hb, c, hc, -, hab, hbc, -⟩
  revert a b c
  decide

/-- By name `a` is before `b`, and `b` before `c`, which is before `a` as `a` depends on it. -/
theorem names_in_a_circle : let md := [plain 'a' ['c'], plain 'b' [], plain 'c' []]
    (∀ p ∈ md, p ∈ md ∧ ¬ DependsOn md p p) ∧ ¬ StrictWeakOn md (Before md fun _ => []) := by
  refine ⟨not_dependsOn_self (by decide) (by decide), fun h => ?_⟩
  have := h.2.1 (plain 'a' ['c']) (by decide) (plain 'b' []) (by decide) (plain 'c' []) (by decide)
  revert this
  simp only [Before]
  decide

end SourceMaster.Kconfig
