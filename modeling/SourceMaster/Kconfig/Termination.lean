import SourceMaster.Kconfig.MconfDepends
import SourceMaster.Lib.Search
import Mathlib.Data.Finset.Prod
import Mathlib.Data.Finset.Card
import Mathlib.Logic.Relation

/-!
# When `mconf_depends` comes to an end

The recursion is stopped by `seen` alone, whose keys contain the condition collected so far. A cycle
of selected dependencies on which the condition grows meets a new key on every round: for `loopMd`
the generator descends for ever.

Call a selected dependency *growing* if following it adds to the condition. If none lies on a cycle,
a descent follows each of them at most once (`Descent`), so only finitely many conditions
(`condsUpTo`) and keys can come up, and every level that descends further has put a new key into
`seen`.
-/

namespace SourceMaster.Kconfig

open List Search

/-! ## A metadata set on which the generator does not stop -/

def loopA : Pkg :=
  { name := "A".toList, src := ⟨"a".toList, "a".toList⟩, depends := ["+X:A".toList] }

def loopP : Pkg :=
  { name := "P".toList, src := ⟨"p".toList, "p".toList⟩, depends := ["+Z:A".toList] }

def loopMd : Metadata := [loopA, loopP]

def loopDep : DepHash := [("PACKAGE_A if Z".toList, .select)]

lemma loop_level {seen : List Text} {c : Text} (hc : perlTrue c) (hlen : c.length ≠ 3)
    (hk : seenKey c "X:A".toList ∉ seen) (h0 : seenKey [] "X:A".toList ∉ seen) :
    mconfDepend loopMd "P".toList true c ⟨loopDep, seen, []⟩ "+X:A".toList =
      ⟨loopDep, seenKey c "X:A".toList :: seen, [(loopA.depends, c ++ " && X".toList)]⟩ := by
  have hbody : dropSelectedCond loopDep (depBody "+X:A".toList) = "X:A".toList := by decide
  have hne : c ≠ "X:A".toList := by
    intro h
    exact hlen (by rw [h]; rfl)
  have hsplit : splitCond "P".toList c "X:A".toList = (c ++ " && X".toList, "A".toList) := by
    have hm : matchColon "X:A".toList = some ("X".toList, "A".toList) := by decide
    have hx : "X".toList ≠ packageSym "P".toList := by decide
    rw [splitCond, hm]
    simp only [hx, ne_eq, not_false_eq_true, ↓reduceIte, andCond, hc, append_assoc]
    rfl
  have hpick : ∀ c : Text, pickProvider loopMd "P".toList c "A".toList = (c, "A".toList) := by
    intro c
    have hv : vpackage loopMd "A".toList = some [loopA] := by decide
    have hd : vdeps [loopA] = ["A".toList] := by decide
    rw [pickProvider, hv]
    simp only [hd]
  have hpush : ∀ c : Text, pushDepends loopMd [] c "A".toList = [(loopA.depends, c)] := by
    intro c
    have hp : package loopMd "A".toList = some loopA := by decide
    rfl
  have hplus : '+' ∈ depFlags "+X:A".toList := by decide
  simp only [mconfDepend, hbody, hne, hk, h0, or_self, ↓reduceIte, hsplit, handleDepend, hplus,
    hpick, hpush]

lemma loop_descent (fuel : Nat) : ∀ (seen : List Text) (c : Text), perlTrue c → c.length ≠ 3 →
    (∀ k ∈ seen, k.length < (seenKey c "X:A".toList).length) → seenKey [] "X:A".toList ∉ seen →
    mconfDepends loopMd "P".toList fuel loopA.depends true loopDep seen c = none := by
  induction fuel with
  | zero => intros; rfl
  | succ fuel ih =>
    intro seen c hc hlen hlt h0
    have hk : seenKey c "X:A".toList ∉ seen := fun h => Nat.lt_irrefl _ (hlt _ h)
    have hcne : c ≠ [] := by rintro rfl; simp [perlTrue] at hc
    have hlen' : (c ++ " && X".toList).length = c.length + 5 := by simp
    have htrue : perlTrue (c ++ " && X".toList) := by
      have h1 : c ++ " && X".toList ≠ ['0'] := by
        intro h
        have := congrArg length h
        simp at this
      simpa [perlTrue] using h1
    have hrec := ih (seenKey c "X:A".toList :: seen) (c ++ " && X".toList) htrue
      (by rw [hlen']; omega) (by
        intro k hk'
        rcases mem_cons.mp hk' with rfl | hk'
        · simp [seenKey]
        · have := hlt k hk'
          simp [seenKey] at this ⊢
          omega) (by
        intro h
        rcases mem_cons.mp h with h | h
        · have := congrArg length h
          simp [seenKey] at this
          exact hcne this
        · exact h0 h)
    have hfold : loopA.depends.foldl (mconfDepend loopMd "P".toList true c) ⟨loopDep, seen, []⟩ =
        ⟨loopDep, seenKey c "X:A".toList :: seen, [(loopA.depends, c ++ " && X".toList)]⟩ :=
      loop_level hc hlen hk h0
    rw [mconfDepends_succ hfold]
    simp only [foldlM_cons, foldlM_nil, hrec]
    rfl

/-- `mconf_depends` for `P` of `loopMd` never returns. -/
theorem loopMd_diverges : ¬ GenPackageConfigTerminates loopMd := by
  intro h
  obtain ⟨⟨fuel, hf⟩, -⟩ := h loopP (by simp [loopMd])
  cases fuel with
  | zero => simp [mconfDependsTop, mconfDepends] at hf
  | succ fuel =>
    have hroot : loopP.depends.foldl (mconfDepend loopMd loopP.name false []) ⟨[], [], []⟩ =
        ⟨loopDep, [":Z:A".toList], [(loopA.depends, "Z".toList)]⟩ := by decide
    have hdesc := loop_descent fuel [":Z:A".toList] "Z".toList (by decide) (by decide)
      (by decide) (by decide)
    have hname : loopP.name = "P".toList := rfl
    rw [mconfDependsTop, mconfDepends_succ hroot, hname] at hf
    simp only [foldlM_cons, foldlM_nil, hdesc] at hf
    simp at hf

/-! ## The selected package and the condition it is reached under -/

def depName (b : Text) : Text :=
  match matchColon b with
  | some (_, d) => d
  | none => b

def providerName (md : Metadata) (name : Text) : Text :=
  match vpackage md name with
  | none => name
  | some vdep => (vdeps vdep).headD []

def selected (md : Metadata) (b : Text) : Option Pkg := package md (providerName md (depName b))

def condAfter (md : Metadata) (pkgname pc b : Text) : Text :=
  (pickProvider md pkgname (splitCond pkgname pc b).1 (splitCond pkgname pc b).2).1

variable (md : Metadata) (dep : DepHash) (pkgname b : Text)

lemma splitCond_snd (pc b : Text) : (splitCond pkgname pc b).2 = depName b := by
  unfold splitCond depName
  cases matchColon b <;> rfl

lemma pickProvider_snd (c name : Text) :
    (pickProvider md pkgname c name).2 = providerName md name := by
  unfold pickProvider providerName
  cases vpackage md name with
  | none => rfl
  | some vdep =>
    cases h : vdeps vdep with
    | nil => simp [h]
    | cons v vs => cases vs <;> simp [h]

/-- **What one round of the loop can do.** The dependency is a repetition; or its key is put into
`seen`, and a selected one leaves a list to descend into while any other one leaves a line. -/
theorem mconfDepend_cases (onlyDep : Bool) (pc : Text) (st : MconfState) (d : Text) :
    ((pc = dropSelectedCond st.dep (depBody d) ∨
        seenKey pc (dropSelectedCond st.dep (depBody d)) ∈ st.seen ∨
        seenKey [] (dropSelectedCond st.dep (depBody d)) ∈ st.seen) ∧
      mconfDepend md pkgname onlyDep pc st d = st) ∨
    (∃ b, b = dropSelectedCond st.dep (depBody d) ∧ pc ≠ b ∧ seenKey pc b ∉ st.seen ∧
      seenKey [] b ∉ st.seen ∧
      (('+' ∈ depFlags d ∧ mconfDepend md pkgname onlyDep pc st d =
          { dep := if onlyDep then st.dep else
              emitSelect st.dep (condAfter md pkgname pc b)
                (depSym (depFlags d) (providerName md (depName b))),
            seen := seenKey pc b :: st.seen,
            tDepends := pushDepends md st.tDepends (condAfter md pkgname pc b)
              (providerName md (depName b)) }) ∨
       ('+' ∉ depFlags d ∧ mconfDepend md pkgname onlyDep pc st d =
          { dep := emitDependsOn st.dep (splitCond pkgname pc b).1
              (providerSyms md (depFlags d) (depName b)),
            seen := seenKey pc b :: st.seen,
            tDepends := st.tDepends }))) := by
  by_cases hskip : pc = dropSelectedCond st.dep (depBody d) ∨
      seenKey pc (dropSelectedCond st.dep (depBody d)) ∈ st.seen ∨
      seenKey [] (dropSelectedCond st.dep (depBody d)) ∈ st.seen
  · left
    refine ⟨hskip, ?_⟩
    simp only [mconfDepend, if_pos hskip]
  right
  have hskip' := hskip
  simp only [not_or] at hskip'
  refine ⟨_, rfl, hskip'.1, hskip'.2.1, hskip'.2.2, ?_⟩
  have hstep : mconfDepend md pkgname onlyDep pc st d =
      handleDepend md pkgname onlyDep (depFlags d)
        (splitCond pkgname pc (dropSelectedCond st.dep (depBody d))).1
        (splitCond pkgname pc (dropSelectedCond st.dep (depBody d))).2
        { st with seen := seenKey pc (dropSelectedCond st.dep (depBody d)) :: st.seen } := by
    simp only [mconfDepend, if_neg hskip]
  by_cases hplus : '+' ∈ depFlags d
  · left
    refine ⟨hplus, ?_⟩
    rw [hstep, handleDepend, if_pos hplus]
    simp only [splitCond_snd, pickProvider_snd, condAfter]
    cases onlyDep <;> rfl
  · right
    refine ⟨hplus, ?_⟩
    rw [hstep, handleDepend, if_neg hplus, splitCond_snd]

/-! ## Growing dependencies -/

section

variable (md : Metadata)

/-- Following the dependency adds to the condition: it has a condition other than the package
itself, or more than one provider. -/
def Growing (pkgname b : Text) : Prop :=
  (∃ c d, matchColon b = some (c, d) ∧ c ≠ packageSym pkgname) ∨
    ∃ vdep, vpackage md (depName b) = some vdep ∧ 2 ≤ (vdeps vdep).length

def Selects (q : Pkg) (d : Text) (t : Pkg) : Prop :=
  d ∈ q.depends ∧ '+' ∈ depFlags d ∧ selected md (depBody d) = some t

def SelectEdge (q t : Pkg) : Prop := ∃ d, Selects md q d t

def Reaches : Pkg → Pkg → Prop := Relation.ReflTransGen (SelectEdge md)

def NoGrowingCycle : Prop :=
  ∀ p ∈ md, ∀ q ∈ md, ∀ d t, Selects md q d t → Growing md p.name (depBody d) → ¬ Reaches md t q

end

variable {md : Metadata} {pkgname : Text}

lemma condAfter_of_not_growing {b : Text} (h : ¬ Growing md pkgname b)
    (pc : Text) : condAfter md pkgname pc b = pc := by
  simp only [Growing, not_or, not_exists, not_and] at h
  obtain ⟨hcond, hprov⟩ := h
  have hsplit : (splitCond pkgname pc b).1 = pc := by
    unfold splitCond
    cases hm : matchColon b with
    | none => rfl
    | some cd =>
      have := hcond cd.1 cd.2 hm
      simp [this]
  rw [condAfter, hsplit, splitCond_snd]
  unfold pickProvider
  cases hv : vpackage md (depName b) with
  | none => rfl
  | some vdep =>
    have hlen := hprov vdep hv
    cases hd : vdeps vdep with
    | nil => simp [hd]
    | cons v vs =>
      cases vs with
      | nil => simp [hd]
      | cons w ws => rw [hd] at hlen; simp at hlen

lemma dropSelectedCond_cases :
    dropSelectedCond dep b = b ∨ dropSelectedCond dep b = depName b := by
  unfold dropSelectedCond depName
  cases matchColon b with
  | none => exact Or.inl rfl
  | some cd =>
    by_cases hs : dep.get cd.1 = some .select
    · right; simp [hs]
    · left; simp [hs]

lemma depName_depName : depName (depName b) = depName b := by
  cases hm : matchColon b with
  | none =>
    have h : depName b = b := by simp [depName, hm]
    rw [h, h]
  | some cd =>
    have h : depName b = cd.2 := by simp [depName, hm]
    have hn : matchColon cd.2 = none := matchColon_snd hm
    rw [h]
    simp [depName, hn]

lemma growing_of_depName {b : Text}
    (h : Growing md pkgname (depName b)) : Growing md pkgname b := by
  rcases h with ⟨c, d, hm, hc⟩ | hv
  · left
    cases hb : matchColon b with
    | none =>
      have hbn : depName b = b := by simp [depName, hb]
      rw [hbn, hb] at hm
      simp at hm
    | some cd =>
      have hbn : depName b = cd.2 := by simp [depName, hb]
      have hn : matchColon cd.2 = none := matchColon_snd hb
      rw [hbn, hn] at hm
      simp at hm
  · right
    rw [depName_depName] at hv
    exact hv

lemma selected_dropSelectedCond : selected md (dropSelectedCond dep b) = selected md b := by
  rcases dropSelectedCond_cases dep b with h | h
  · rw [h]
  · rw [h, selected, selected, depName_depName]

lemma growing_of_dropSelectedCond {dep : DepHash} {b : Text}
    (h : Growing md pkgname (dropSelectedCond dep b)) : Growing md pkgname b := by
  rcases dropSelectedCond_cases dep b with hb | hb
  · rwa [hb] at h
  · rw [hb] at h
    exact growing_of_depName h

/-! ## Finitely many keys -/

section Finite

variable (md : Metadata) (pkgname : Text) (root : List Text)

def bodies : Finset Text :=
  ((root ++ md.flatMap Pkg.depends).map depBody).toFinset ∪
    ((root ++ md.flatMap Pkg.depends).map (fun d => depName (depBody d))).toFinset

/-- The conditions that can be there after at most `k` growing dependencies. -/
def condsUpTo : Nat → Finset Text
  | 0 => {[]}
  | k + 1 => condsUpTo k ∪
      (condsUpTo k ×ˢ bodies md root).image (fun x => condAfter md pkgname x.1 x.2)

/-- The keys `seen` can hold when there are at most `k` growing dependencies on any descent. -/
def keysUpTo (k : Nat) : Finset Text :=
  (condsUpTo md pkgname root k ×ˢ bodies md root).image (fun x => seenKey x.1 x.2)

variable {md pkgname root} {k : Nat}

lemma condsUpTo_mono {l : Nat} (h : k ≤ l) :
    condsUpTo md pkgname root k ⊆ condsUpTo md pkgname root l := by
  induction h with
  | refl => exact Finset.Subset.refl _
  | step _ ih => exact ih.trans Finset.subset_union_left

lemma condAfter_mem {c b : Text} (hc : c ∈ condsUpTo md pkgname root k)
    (hb : b ∈ bodies md root) : condAfter md pkgname c b ∈ condsUpTo md pkgname root (k + 1) := by
  refine Finset.mem_union_right _ (Finset.mem_image.mpr ⟨(c, b), ?_, rfl⟩)
  exact Finset.mem_product.mpr ⟨hc, hb⟩

lemma mem_keysUpTo {c b : Text} (hc : c ∈ condsUpTo md pkgname root k)
    (hb : b ∈ bodies md root) : seenKey c b ∈ keysUpTo md pkgname root k :=
  Finset.mem_image.mpr ⟨(c, b), Finset.mem_product.mpr ⟨hc, hb⟩, rfl⟩

lemma dropSelectedCond_mem {d : Text} (dep : DepHash) (hd : d ∈ root ∨ ∃ q ∈ md, d ∈ q.depends) :
    dropSelectedCond dep (depBody d) ∈ bodies md root := by
  have hmem : d ∈ root ++ md.flatMap Pkg.depends := by
    rw [mem_append, mem_flatMap]
    exact hd
  rcases dropSelectedCond_cases dep (depBody d) with h | h
  · refine Finset.mem_union_left _ (mem_toFinset.mpr ?_)
    exact mem_map.mpr ⟨d, hmem, h.symm⟩
  · refine Finset.mem_union_right _ (mem_toFinset.mpr ?_)
    exact mem_map.mpr ⟨d, hmem, h.symm⟩

end Finite

/-! ## One level of the recursion -/

structure LeftBehind (md : Metadata) (pkgname pc : Text) (depends : List Text)
    (t : List Text × Text) : Prop where
  intro ::
  witness : ∃ d ∈ depends, ∃ b dep, b = dropSelectedCond dep (depBody d) ∧ '+' ∈ depFlags d ∧
    ∃ p, selected md b = some p ∧ t = (p.depends, condAfter md pkgname pc b)

/-- The loop only adds to `seen`, and when it leaves lists behind it has added a new key. -/
theorem foldl_mconfDepend (md : Metadata) (pkgname : Text) (onlyDep : Bool) (pc : Text)
    (depends : List Text) : ∀ (ds : List Text) (st : MconfState), (∀ d ∈ ds, d ∈ depends) →
    let st' := ds.foldl (mconfDepend md pkgname onlyDep pc) st
    (∀ k ∈ st.seen, k ∈ st'.seen) ∧
    (∀ t ∈ st'.tDepends, t ∈ st.tDepends ∨ LeftBehind md pkgname pc depends t) ∧
    (st'.tDepends ≠ st.tDepends → ∃ d ∈ depends, ∃ dep,
      seenKey pc (dropSelectedCond dep (depBody d)) ∉ st.seen ∧
      seenKey pc (dropSelectedCond dep (depBody d)) ∈ st'.seen) := by
  intro ds
  induction ds with
  | nil => intro st _; exact ⟨fun k h => h, fun t h => Or.inl h, fun h => absurd rfl h⟩
  | cons d ds ih =>
    intro st hds
    have hd : d ∈ depends := hds d (by simp)
    obtain ⟨hseen, hleft, hnew⟩ := ih (mconfDepend md pkgname onlyDep pc st d)
      (fun e he => hds e (by simp [he]))
    rw [foldl_cons]
    rcases mconfDepend_cases md pkgname onlyDep pc st d with ⟨-, hst⟩ | ⟨b, hb, -, hfresh, -, hst⟩
    · rw [hst] at hseen hleft hnew ⊢
      exact ⟨hseen, hleft, hnew⟩
    have hst_seen : (mconfDepend md pkgname onlyDep pc st d).seen = seenKey pc b :: st.seen := by
      rcases hst with ⟨-, h⟩ | ⟨-, h⟩ <;> rw [h]
    have hst_left : ∀ t ∈ (mconfDepend md pkgname onlyDep pc st d).tDepends,
        t ∈ st.tDepends ∨ LeftBehind md pkgname pc depends t := by
      intro t ht
      rcases hst with ⟨hplus, h⟩ | ⟨-, h⟩
      · rw [h] at ht
        simp only [pushDepends] at ht
        split at ht
        · next p hp =>
          rcases mem_append.mp ht with ht | ht
          · exact Or.inl ht
          · right
            exact ⟨d, hd, b, st.dep, hb, hplus, p, hp, mem_singleton.mp ht⟩
        · exact Or.inl ht
      · rw [h] at ht
        exact Or.inl ht
    refine ⟨?_, ?_, ?_⟩
    · intro k hk
      exact hseen k (by rw [hst_seen]; exact mem_cons_of_mem _ hk)
    · intro t ht
      rcases hleft t ht with ht | ht
      · exact hst_left t ht
      · exact Or.inr ht
    · intro _
      refine ⟨d, hd, st.dep, hb ▸ hfresh, hseen _ ?_⟩
      rw [hst_seen, ← hb]
      exact mem_cons_self

def mconfLevel (md : Metadata) (pkgname : Text) (t : List Text × Bool × Text)
    (s : DepHash × List Text) : (DepHash × List Text) × List (List Text × Bool × Text) :=
  let st := t.1.foldl (mconfDepend md pkgname t.2.1 t.2.2) ⟨s.1, s.2, []⟩
  ((st.dep, st.seen), st.tDepends.map (fun u => (u.1, true, u.2)))

lemma mconfDepends_eq_search (fuel : Nat) (depends : List Text) (onlyDep : Bool) (dep : DepHash)
    (seen : List Text) (pc : Text) :
    mconfDepends md pkgname fuel depends onlyDep dep seen pc =
      search (mconfLevel md pkgname) fuel (depends, onlyDep, pc) (dep, seen) := by
  induction fuel generalizing depends onlyDep dep seen pc with
  | zero => rfl
  | succ fuel ih =>
    rw [mconfDepends_succ rfl, search]
    simp only [mconfLevel, foldlM_map, ih]

/-! ## Termination -/

/-- A descent is at the package's own list, or at the list of a package that does not reach one
whose growing dependency was followed (`g`). -/
def Descent (md : Metadata) (pkgname : Text) (root : List Text)
    (t : List Text × Bool × Text) : Prop :=
  (t.1 = root ∧ t.2.2 = []) ∨
    ∃ q ∈ md, ∃ g ⊆ md.toFinset, t.1 = q.depends ∧ (∀ x ∈ g, ¬ Reaches md q x) ∧
      t.2.2 ∈ condsUpTo md pkgname root (g.card + 1)

section Descend

variable {md : Metadata} {p : Pkg} {root : List Text} {t : List Text × Bool × Text}

lemma Descent.cond_mem (h : Descent md p.name root t) :
    t.2.2 ∈ condsUpTo md p.name root (md.toFinset.card + 1) := by
  rcases h with ⟨-, hc⟩ | ⟨q, -, g, hg, -, -, hc⟩
  · rw [hc]
    exact condsUpTo_mono (Nat.zero_le _) (by simp [condsUpTo])
  · exact condsUpTo_mono (Nat.succ_le_succ (Finset.card_le_card hg)) hc

lemma Descent.depends_mem (h : Descent md p.name root t) {d : Text} (hd : d ∈ t.1) :
    d ∈ root ∨ ∃ q ∈ md, d ∈ q.depends := by
  rcases h with ⟨hr, -⟩ | ⟨q, hq, -, -, hr, -⟩
  · exact Or.inl (hr ▸ hd)
  · exact Or.inr ⟨q, hq, hr ▸ hd⟩

/-- Following a selected dependency is a descent again: a growing one puts its package out of
reach. -/
theorem Descent.step (hmd : NoGrowingCycle md) (hp : p ∈ md) (h : Descent md p.name root t)
    {u : List Text × Text} (hu : LeftBehind md p.name t.2.2 t.1 u) :
    Descent md p.name root (u.1, true, u.2) := by
  obtain ⟨d, hd, b, dep, hb, hplus, r, hr, rfl⟩ := hu.witness
  have hbody : b ∈ bodies md root := hb ▸ dropSelectedCond_mem dep (h.depends_mem hd)
  have hrmem : r ∈ md := package_mem hr
  right
  rcases h with ⟨hroot, hc⟩ | ⟨q, hq, g, hg, hqd, hreach, hc⟩
  · refine ⟨r, hrmem, ∅, Finset.empty_subset _, rfl, by simp, ?_⟩
    have h0 : t.2.2 ∈ condsUpTo md p.name root 0 := by rw [hc]; simp [condsUpTo]
    exact condAfter_mem h0 hbody
  have hsel : Selects md q d r := by
    refine ⟨hqd ▸ hd, hplus, ?_⟩
    rw [hb, selected_dropSelectedCond] at hr
    exact hr
  have hkeep : ∀ x ∈ g, ¬ Reaches md r x := fun x hx hrx =>
    hreach x hx (Relation.ReflTransGen.head ⟨d, hsel⟩ hrx)
  by_cases hgrow : Growing md p.name b
  · have hgrow' : Growing md p.name (depBody d) := growing_of_dropSelectedCond (hb ▸ hgrow)
    have hqg : q ∉ g := fun hqg => hreach q hqg Relation.ReflTransGen.refl
    refine ⟨r, hrmem, insert q g, ?_, rfl, ?_, ?_⟩
    · exact Finset.insert_subset (mem_toFinset.mpr hq) hg
    · intro x hx
      rcases Finset.mem_insert.mp hx with rfl | hx
      · exact hmd p hp x hq d r hsel hgrow'
      · exact hkeep x hx
    · rw [Finset.card_insert_of_notMem hqg]
      exact condAfter_mem hc hbody
  · refine ⟨r, hrmem, g, hg, rfl, hkeep, ?_⟩
    rw [condAfter_of_not_growing hgrow]
    exact hc

end Descend

def missing (keys : Finset Text) (s : DepHash × List Text) : Nat :=
  (keys.filter (fun k => k ∉ s.2)).card

variable {keys : Finset Text}

lemma missing_le {s s' : DepHash × List Text}
    (h : ∀ k ∈ s.2, k ∈ s'.2) : missing keys s' ≤ missing keys s := by
  apply Finset.card_le_card
  intro k hk
  rw [Finset.mem_filter] at hk ⊢
  exact ⟨hk.1, fun hks => hk.2 (h k hks)⟩

lemma missing_lt {s s' : DepHash × List Text}
    (h : ∀ k ∈ s.2, k ∈ s'.2) {k : Text} (hk : k ∈ keys) (hks : k ∉ s.2) (hks' : k ∈ s'.2) :
    missing keys s' < missing keys s := by
  apply Finset.card_lt_card
  rw [Finset.ssubset_iff_of_subset]
  · refine ⟨k, Finset.mem_filter.mpr ⟨hk, hks⟩, ?_⟩
    intro hk'
    exact (Finset.mem_filter.mp hk').2 hks'
  · intro l hl
    rw [Finset.mem_filter] at hl ⊢
    exact ⟨hl.1, fun hls => hl.2 (h l hls)⟩

lemma mconfTerminates_of_noGrowingCycle {md : Metadata} (hmd : NoGrowingCycle md) {p : Pkg}
    (hp : p ∈ md) (root : List Text) : MconfTerminates md p.name root := by
  let keys := keysUpTo md p.name root (md.toFinset.card + 1)
  have hlevel : ∀ (t : List Text × Bool × Text) (s : DepHash × List Text), _ :=
    fun t s => foldl_mconfDepend md p.name t.2.1 t.2.2 t.1 t.1 ⟨s.1, s.2, []⟩ (fun d hd => hd)
  obtain ⟨s', hs', -⟩ : ∃ s', search (mconfLevel md p.name) (missing keys ([], []) + 1)
      (root, false, []) ([], []) = some s' ∧ True ∧ missing keys s' ≤ missing keys ([], []) :=
    search_isSome (P := fun _ => True) (Q := Descent md p.name root) (μ := missing keys)
    (fun _ _ _ _ => trivial) (by
      intro t s hq _ u hu
      obtain ⟨v, hv, rfl⟩ := mem_map.mp hu
      rcases (hlevel t s).2.1 v hv with hv | hv
      · simp at hv
      · exact hq.step hmd hp hv) (fun t s _ _ => missing_le (hlevel t s).1) (by
      intro t s hq _ hne
      have hne' : (t.1.foldl (mconfDepend md p.name t.2.1 t.2.2) ⟨s.1, s.2, []⟩).tDepends ≠ [] := by
        intro h
        exact hne (by simp only [mconfLevel, h, map_nil])
      obtain ⟨d, hd, dep, hfresh, hin⟩ := (hlevel t s).2.2 hne'
      exact missing_lt (hlevel t s).1
        (mem_keysUpTo hq.cond_mem (dropSelectedCond_mem dep (hq.depends_mem hd))) hfresh hin)
    (missing keys ([], []) + 1) (root, false, []) ([], []) (Or.inl ⟨rfl, rfl⟩) trivial
    (Nat.lt_succ_self _)
  refine ⟨missing keys ([], []) + 1, ?_⟩
  rw [mconfDependsTop, mconfDepends_eq_search, hs']
  rfl

/-- **Termination of the generator**, for every package, if no growing dependency lies on a cycle of
selected dependencies. -/
theorem genPackageConfig_terminates {md : Metadata} (hmd : NoGrowingCycle md) :
    GenPackageConfigTerminates md := fun p hp =>
  ⟨mconfTerminates_of_noGrowingCycle hmd hp p.depends,
    mconfTerminates_of_noGrowingCycle hmd hp p.mdepends⟩

def knotMd : Metadata :=
  [{ name := "A".toList, src := ⟨"a".toList, "a".toList⟩, depends := ["+A".toList] },
    { name := "P".toList, src := ⟨"p".toList, "p".toList⟩, depends := ["+X:A".toList] }]

lemma knotMd_noGrowingCycle : NoGrowingCycle knotMd := by
  have hedge : ∀ q ∈ knotMd, ∀ d t, Selects knotMd q d t →
      some t = knotMd.head? ∧ (d = "+A".toList ∨ q.name = "P".toList) := by
    intro q hq d t hsel
    obtain ⟨hd, -, ht⟩ := hsel
    simp only [knotMd, mem_cons, not_mem_nil, or_false] at hq
    rcases hq with rfl | rfl
    · obtain rfl : d = "+A".toList := by simpa using hd
      exact ⟨ht.symm.trans (by decide), .inl rfl⟩
    · obtain rfl : d = "+X:A".toList := by simpa using hd
      exact ⟨ht.symm.trans (by decide), .inr rfl⟩
  intro p _ q hq d t hsel hgrow hreach
  obtain ⟨ht, hd⟩ := hedge q hq d t hsel
  -- whatever is reached from `A` is `A`
  have hq' : some q = knotMd.head? := by
    clear hsel hd hq
    induction hreach with
    | refl => exact ht
    | tail _ hstep ih =>
      obtain ⟨d', hd'⟩ := hstep
      refine (hedge _ ?_ d' _ hd').1
      exact mem_of_mem_head? ih.symm
  obtain rfl : d = "+A".toList := by
    rcases hd with hd | hd
    · exact hd
    · rw [knotMd, head?_cons, Option.some.injEq] at hq'
      rw [hq'] at hd
      cases hd
  rcases hgrow with ⟨c, e, hm, -⟩ | ⟨vdep, hv, hlen⟩
  · have hnone : matchColon (depBody "+A".toList) = none := by decide
    rw [hnone] at hm
    cases hm
  have : vpackage knotMd (depName (depBody "+A".toList)) = knotMd.head?.map (fun a => [a]) := by
    decide
  rw [this] at hv
  simp only [knotMd, head?_cons, Option.map_some, Option.some.injEq] at hv
  subst hv
  exact absurd hlen (by decide)

theorem genPackageConfig_terminates_knotMd : GenPackageConfigTerminates knotMd :=
  genPackageConfig_terminates knotMd_noGrowingCycle

end SourceMaster.Kconfig
