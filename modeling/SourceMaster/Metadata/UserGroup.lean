import SourceMaster.Metadata.Package

/-!
# Users and groups

Packages require users and groups by name, with or without a fixed id. An id belongs to the name
that requires it first, and a name keeps the id it is first required with. The parser rejects a file
at the first request that breaks one of these rules (`checkAll_accepted`), and what it has entered
into the table of ids until then is described by `Registers`.
-/

namespace SourceMaster.Metadata

open Kconfig Pattern Function List Option Request

/-! ## The function -/

structure Spec where
  name : Text
  id : Option Nat
deriving DecidableEq

def isNameStart (c : Char) : Bool := c.isLower || c == '_'

def isNameChar (c : Char) : Bool := c.isLower || c.isDigit || c == '_' || c == '-'

/-- `[a-z_][a-z0-9_-]*\$?` -/
def namePattern : Pattern := seq (one isNameStart) (seq (many isNameChar true) (optional (lit "$")))

/-- `^([a-z_][a-z0-9_-]*\$?)=(\d+)$` -/
def idPattern : Pattern :=
  seq (group 1 namePattern)
    (seq (lit "=") (seq (group 2 (seq (one Char.isDigit) (many Char.isDigit true))) final))

/-- `^[1-9]\d*$` -/
def positivePattern : Pattern :=
  seq (one fun c => c.isDigit && c != '0') (seq (many Char.isDigit true) final)

def natOf (digits : Text) : Nat := digits.foldl (fun n c => 10 * n + (c.toNat - '0'.toNat)) 0

/-- Name and id of a specification, if it is not rejected in any case. The id -1 stands for none. -/
def readSpec (spec : Text) : Option Spec :=
  if ((seq (group 1 namePattern) final).matchStart spec).isSome then some ⟨spec, none⟩
  else
    match idPattern.matchStart spec with
    | none => none
    | some g =>
      if (positivePattern.matchStart (g 2)).isSome ∧
        natOf (g 2) < 65536 then some ⟨g 1, some (natOf (g 2))⟩
      else none

structure NameEntry where
  id : Option Nat
  makefile : Option Text

structure IdEntry where
  name : Text
  makefile : Option Text

/-- The two tables for users, or those for groups. -/
@[ext]
structure Ids where
  names : Text → Option NameEntry
  ids : Nat → Option IdEntry

namespace Ids

def takeId (t : Ids) (makefile : Option Text) (s : Spec) : Ids × Bool :=
  match s.id with
  | none => (t, true)
  | some n =>
    match t.ids n with
    | none => ({ t with ids := update t.ids n (some ⟨s.name, makefile⟩) }, true)
    | some e => (t, e.name == s.name)

def takeName (t : Ids) (makefile : Option Text) (s : Spec) : Ids × Bool :=
  match t.names s.name with
  | none => ({ t with names := update t.names s.name (some ⟨s.id, makefile⟩) }, true)
  | some e => (t, e.id == s.id)

def parsePackageMetadataUsergroup (t : Ids) (makefile : Option Text) (spec : Text) : Ids × Bool :=
  match readSpec spec with
  | none => (t, false)
  | some s =>
    match t.takeId makefile s with
    | (t, false) => (t, false)
    | (t, true) => t.takeName makefile s

end Ids

abbrev UserGroups := Kind → Ids

namespace UserGroups

def empty : UserGroups := fun _ => ⟨fun _ => none, fun _ => none⟩

def check (ug : UserGroups) (q : Request) : UserGroups × Bool :=
  let (t, accepted) := (ug q.kind).parsePackageMetadataUsergroup q.makefile q.spec
  (update ug q.kind t, accepted)

def checkAll (ug : UserGroups) : List Request → UserGroups × Bool
  | [] => (ug, true)
  | q :: qs =>
    match ug.check q with
    | (ug, false) => (ug, false)
    | (ug, true) => checkAll ug qs

end UserGroups

/-! ## The rules -/

namespace Request

section

variable (q : Request)

def name : Option Text := (readSpec q.spec).map Spec.name

def id : Option Nat := (readSpec q.spec).bind Spec.id

/-- The same name has the same id, and the same id the same name. -/
def Compatible (q r : Request) : Prop :=
  q.kind = r.kind → (q.name = r.name → q.id = r.id) ∧ (q.id = r.id → q.id ≠ none → q.name = r.name)

def idEntry : IdEntry := ⟨q.name.getD [], q.makefile⟩

def nameEntry : NameEntry := ⟨q.id, q.makefile⟩

end

end Request

def Consistent (qs : List Request) : Prop :=
  (∀ q ∈ qs, (readSpec q.spec).isSome) ∧ qs.Pairwise Request.Compatible

/-- A request for the id, with none for it before and none that is rejected. -/
def Registers (qs : List Request) (k : Kind) (n : Nat) (e : IdEntry) : Prop :=
  ∃ p q r, qs = p ++ q :: r ∧ Consistent p ∧ (q.kind = k ∧ q.id = some n) ∧ e = q.idEntry ∧
    ∀ q' ∈ p, ¬ (q'.kind = k ∧ q'.id = some n)

/-! ## The tables after consistent requests -/

structure Recorded (qs : List Request) (ug : UserGroups) : Prop where
  ids : ∀ k n, (ug k).ids n = (qs.find? fun q => q.kind = k ∧ q.id = some n).map idEntry
  names : ∀ k x, (ug k).names x =
    (qs.find? fun q => q.kind = k ∧ q.name = some x).map Request.nameEntry

lemma recorded_nil : Recorded [] UserGroups.empty := ⟨fun _ _ => rfl, fun _ _ => rfl⟩

lemma consistent_append_singleton {qs : List Request} {q : Request} : Consistent (qs ++ [q]) ↔
    Consistent qs ∧ (readSpec q.spec).isSome ∧ ∀ p ∈ qs, p.Compatible q := by
  simp only [Consistent, mem_append, mem_singleton, pairwise_append, pairwise_singleton]
  constructor
  · rintro ⟨hvalid, hpair, -, hcompat⟩
    exact ⟨⟨fun p hp => hvalid p (.inl hp), hpair⟩, hvalid q (.inr rfl), fun p hp =>
      hcompat p hp q rfl⟩
  rintro ⟨⟨hvalid, hpair⟩, hq, hcompat⟩
  refine ⟨?_, hpair, trivial, ?_⟩
  · rintro p (hp | rfl)
    · exact hvalid p hp
    · exact hq
  · rintro p hp _ rfl
    exact hcompat p hp

lemma Consistent.of_append {p r : List Request} (h : Consistent (p ++ r)) : Consistent p :=
  ⟨fun q hq => h.1 q (mem_append_left r hq), (pairwise_append.1 h.2).1⟩

namespace Ids

variable {t : Ids} {makefile : Option Text} {s : Spec}

lemma takeId_names : (t.takeId makefile s).1.names = t.names := by
  unfold takeId
  split
  next => rfl
  next => split <;> rfl

lemma takeId_ids_of_none (hid : s.id = none) : (t.takeId makefile s).1.ids = t.ids := by
  rw [takeId, hid]

lemma takeId_ids {n : Nat} (hid : s.id = some n) : (t.takeId makefile s).1.ids =
    if t.ids n = none then update t.ids n (some ⟨s.name, makefile⟩) else t.ids := by
  rw [takeId, hid]
  dsimp only
  split
  next hnone => rw [if_pos hnone]
  next e he => rw [if_neg (by simp [he])]

lemma takeId_accepted :
    (t.takeId makefile s).2 ↔ ∀ n, s.id = some n → ∀ e, t.ids n = some e → e.name = s.name := by
  unfold takeId
  split
  next hid => simp [hid]
  next n hid =>
    split
    next hnone => simp [hid, hnone]
    next e he => simp [hid, he]

lemma takeName_ids : (t.takeName makefile s).1.ids = t.ids := by
  unfold takeName
  split <;> rfl

lemma takeName_accepted :
    (t.takeName makefile s).2 ↔ ∀ e, t.names s.name = some e → e.id = s.id := by
  unfold takeName
  split
  next hnone => simp [hnone]
  next e he => simp [he]

variable {spec : Text}

lemma usergroup_accepted :
    (t.parsePackageMetadataUsergroup makefile spec).2 ↔ ∃ s, readSpec spec = some s ∧
      (∀ n, s.id = some n → ∀ e, t.ids n = some e → e.name = s.name) ∧
      ∀ e, t.names s.name = some e → e.id = s.id := by
  unfold parsePackageMetadataUsergroup
  split
  next hnone => simp [hnone]
  next s hs =>
    have htake : (t.takeId makefile s).2 ↔ _ := takeId_accepted
    have hnames : (t.takeId makefile s).1.names = t.names := takeId_names
    split
    next t' heq =>
      rw [heq] at htake
      simp only [hs, some.injEq, exists_eq_left', ← htake]
      simp
    next t' heq =>
      rw [heq] at htake hnames
      simp only [hs, some.injEq, exists_eq_left', ← htake, takeName_accepted]
      rw [show t'.names = t.names from hnames]
      simp

lemma usergroup_ids (hs : readSpec spec = some s) :
    (t.parsePackageMetadataUsergroup makefile spec).1.ids = (t.takeId makefile s).1.ids := by
  unfold parsePackageMetadataUsergroup
  rw [hs]
  dsimp only
  split
  next t' heq => rw [heq]
  next t' heq => rw [heq, takeName_ids]

lemma usergroup_names (hs : readSpec spec = some s)
    (haccepted : (t.parsePackageMetadataUsergroup makefile spec).2) :
    (t.parsePackageMetadataUsergroup makefile spec).1.names =
      if t.names s.name = none then update t.names s.name (some ⟨s.id, makefile⟩) else t.names := by
  unfold parsePackageMetadataUsergroup at haccepted ⊢
  rw [hs] at haccepted ⊢
  have hnames : (t.takeId makefile s).1.names = t.names := takeId_names
  dsimp only at haccepted ⊢
  split at haccepted
  next => cases haccepted
  next t' heq =>
    rw [heq] at hnames
    rw [← hnames]
    unfold takeName
    split
    next hnone => rw [if_pos hnone]
    next e he => rw [if_neg (by simp [he])]

end Ids

section

variable {qs : List Request} {ug : UserGroups} {q : Request} {s : Spec}

lemma Request.name_eq (hs : readSpec q.spec = some s) : q.name = some s.name := by
  rw [name, hs, map_some]

lemma Request.id_eq (hs : readSpec q.spec = some s) : q.id = s.id := by
  rw [Request.id, hs, bind_some]

lemma Request.name_of_id {n : Nat} (hid : q.id = some n) : q.name = some q.idEntry.name := by
  obtain ⟨s, hs, -⟩ := bind_eq_some_iff.1 hid
  rw [idEntry, name_eq hs, getD_some]

lemma check_of_ne {k : Kind} (hk : q.kind ≠ k) : (ug.check q).1 k = ug k :=
  update_of_ne (Ne.symm hk) _ _

lemma check_self :
    (ug.check q).1 q.kind = ((ug q.kind).parsePackageMetadataUsergroup q.makefile q.spec).1 :=
  update_self _ _ _

lemma first_append {κ E : Type} [DecidableEq κ] {f : κ → Option E} {P : κ → Request → Bool}
    {entry : Request → E} (hf : ∀ x, f x = (qs.find? (P x)).map entry) {m : κ}
    (hP : ∀ x, P x q ↔ m = x) (x : κ) :
    (if f m = none then update f m (some (entry q)) else f) x =
      ((qs ++ [q]).find? (P x)).map entry := by
  rw [find?_append]
  by_cases hx : m = x
  · subst hx
    split
    next hnone =>
      rw [hf, map_eq_none_iff] at hnone
      simp [hnone, (hP m).2 rfl]
    next hsome =>
      obtain ⟨e, he⟩ := ne_none_iff_exists'.1 hsome
      obtain ⟨p, hp, -⟩ := map_eq_some_iff.1 ((hf m).symm.trans he)
      rw [hf, hp, some_or]
  · have hfalse : P x q = false := by simpa [hx] using hP x
    have hother : (if f m = none then update f m (some (entry q)) else f) x = f x := by
      split
      next => exact update_of_ne (Ne.symm hx) _ _
      next => rfl
    rw [hother, hf]
    simp [hfalse]

lemma Recorded.check_ids (h : Recorded qs ug) (k : Kind) (n : Nat) : ((ug.check q).1 k).ids n =
      ((qs ++ [q]).find? fun q => q.kind = k ∧ q.id = some n).map idEntry := by
  by_cases hk : q.kind = k
  · subst hk
    rw [check_self]
    cases hs : readSpec q.spec with
    | none =>
      rw [Ids.parsePackageMetadataUsergroup, hs, h.ids, find?_append]
      simp [Request.id, hs]
    | some s =>
      have hid := Request.id_eq hs
      rw [Ids.usergroup_ids hs]
      cases hsid : s.id with
      | none =>
        rw [Ids.takeId_ids_of_none hsid, h.ids, find?_append]
        simp [hid, hsid]
      | some m =>
        have hentry : q.idEntry = ⟨s.name, q.makefile⟩ := by
          rw [idEntry, name_eq hs, getD_some]
        rw [Ids.takeId_ids hsid, ← hentry]
        exact first_append (h.ids q.kind) (by simp [hid, hsid]) n
  · rw [check_of_ne hk, h.ids, find?_append]
    simp [hk]

lemma Recorded.check_names (h : Recorded qs ug) (hs : readSpec q.spec = some s)
    (haccepted : (ug.check q).2) (k : Kind) (x : Text) : ((ug.check q).1 k).names x =
      ((qs ++ [q]).find? fun q => q.kind = k ∧ q.name = some x).map Request.nameEntry := by
  by_cases hk : q.kind = k
  · subst hk
    have hentry : q.nameEntry = ⟨s.id, q.makefile⟩ := by rw [Request.nameEntry, Request.id_eq hs]
    rw [check_self, Ids.usergroup_names hs haccepted, ← hentry]
    exact first_append (h.names q.kind) (by simp [name_eq hs]) x
  · rw [check_of_ne hk, h.names, find?_append]
    simp [hk]

/-! ## What is rejected -/

lemma Consistent.exists_first (h : Consistent qs) {P : Request → Bool} {p : Request} (hp : p ∈ qs)
    (hP : P p) : ∃ first, qs.find? P = some first ∧ P first ∧ (first.Compatible p ∨ first = p) := by
  obtain ⟨first, hfirst⟩ : ∃ first, qs.find? P = some first :=
    isSome_iff_exists.1 (find?_isSome.2 ⟨p, hp, hP⟩)
  obtain ⟨hPfirst, pre, post, rfl, hpre⟩ := find?_eq_some_iff_append.1 hfirst
  refine ⟨first, hfirst, hPfirst, ?_⟩
  obtain hmem | hmem := mem_append.1 hp
  · have hnot := hpre p hmem
    rw [hP] at hnot
    cases hnot
  · obtain rfl | hmem := mem_cons.1 hmem
    · exact .inr rfl
    · have hpair := (pairwise_append.1 h.2).2.1
      exact .inl ((pairwise_cons.1 hpair).1 p hmem)

section

variable (h : Recorded qs ug)
include h

lemma Recorded.compatible_of_accepted (hcons : Consistent qs) (hs : readSpec q.spec = some s)
    (hids : ∀ n, s.id = some n → ∀ e, (ug q.kind).ids n = some e → e.name = s.name)
    (hnames : ∀ e, (ug q.kind).names s.name = some e → e.id = s.id) {p : Request} (hp : p ∈ qs) :
    p.Compatible q := by
  have hname := name_eq hs
  have hid := Request.id_eq hs
  refine fun hkind => ⟨fun heq => ?_, fun heq hne => ?_⟩
  · obtain ⟨first, hfind, hfirst, hcompat⟩ := hcons.exists_first
      (P := fun r => r.kind = q.kind ∧ r.name = some s.name) hp (by simp [hkind, heq, hname])
    have hentry : first.id = s.id := hnames first.nameEntry (by rw [h.names, hfind, map_some])
    simp only [decide_eq_true_eq] at hfirst
    rw [hid, ← hentry]
    obtain hcompat | rfl := hcompat
    · exact ((hcompat (hfirst.1.trans hkind.symm)).1 (by rw [hfirst.2, heq, hname])).symm
    · rfl
  · obtain ⟨n, hn⟩ := ne_none_iff_exists'.1 hne
    obtain ⟨first, hfind, hfirst, hcompat⟩ := hcons.exists_first
      (P := fun r => r.kind = q.kind ∧ r.id = some n) hp (by simp [hkind, hn])
    have hentry : first.idEntry.name = s.name :=
      hids n (by rw [← hid, ← heq, hn]) first.idEntry (by rw [h.ids, hfind, map_some])
    simp only [decide_eq_true_eq] at hfirst
    have hfirstName : first.name = q.name := by rw [name_of_id hfirst.2, hentry, hname]
    rw [← hfirstName]
    obtain hcompat | rfl := hcompat
    · exact ((hcompat (hfirst.1.trans hkind.symm)).2 (by rw [hfirst.2, hn])
        (by simp [hfirst.2])).symm
    · rfl

lemma Recorded.accepted_of_compatible (hs : readSpec q.spec = some s)
    (hcompat : ∀ p ∈ qs, p.Compatible q) :
    (∀ n, s.id = some n → ∀ e, (ug q.kind).ids n = some e → e.name = s.name) ∧
      ∀ e, (ug q.kind).names s.name = some e → e.id = s.id := by
  have hname := name_eq hs
  have hid := Request.id_eq hs
  refine ⟨fun n hn e he => ?_, fun e he => ?_⟩
  · rw [h.ids] at he
    obtain ⟨p, hfind, rfl⟩ := map_eq_some_iff.1 he
    have hp := find?_some hfind
    simp only [decide_eq_true_eq] at hp
    have hpname := (hcompat p (mem_of_find?_eq_some hfind) hp.1).2 (by rw [hp.2, hid, hn])
      (by simp [hp.2])
    rw [name_of_id hp.2, hname] at hpname
    exact some.inj hpname
  · rw [h.names] at he
    obtain ⟨p, hfind, rfl⟩ := map_eq_some_iff.1 he
    have hp := find?_some hfind
    simp only [decide_eq_true_eq] at hp
    rw [← hid]
    exact (hcompat p (mem_of_find?_eq_some hfind) hp.1).1 (hp.2.trans hname.symm)

lemma Recorded.check_accepted (hcons : Consistent qs) :
    (ug.check q).2 ↔ Consistent (qs ++ [q]) := by
  rw [consistent_append_singleton]
  show ((ug q.kind).parsePackageMetadataUsergroup q.makefile q.spec).2 ↔ _
  rw [Ids.usergroup_accepted]
  constructor
  · rintro ⟨s, hs, hids, hnames⟩
    exact ⟨hcons, by rw [hs]; rfl, fun p hp => h.compatible_of_accepted hcons hs hids hnames hp⟩
  · rintro ⟨-, hvalid, hcompat⟩
    obtain ⟨s, hs⟩ := isSome_iff_exists.1 hvalid
    exact ⟨s, hs, h.accepted_of_compatible hs hcompat⟩

lemma Recorded.check (haccepted : (ug.check q).2) : Recorded (qs ++ [q]) (ug.check q).1 := by
  obtain ⟨s, hs, -⟩ := Ids.usergroup_accepted.1 haccepted
  exact ⟨h.check_ids, h.check_names hs haccepted⟩

end

/-! ## The ids of a list of requests -/

lemma map_find_eq_some_iff {k : Kind} {n : Nat} {e : IdEntry} (hcons : Consistent qs.dropLast) :
    (qs.find? fun q => q.kind = k ∧ q.id = some n).map idEntry = some e ↔ Registers qs k n e := by
  rw [map_eq_some_iff]
  simp only [find?_eq_some_iff_append, decide_eq_true_eq, Bool.not_eq_eq_eq_not, Bool.not_true,
    decide_eq_false_iff_not]
  constructor
  · rintro ⟨q, ⟨hq, p, r, rfl, hp⟩, rfl⟩
    refine ⟨p, q, r, rfl, ?_, hq, rfl, hp⟩
    rw [dropLast_append_of_ne_nil (by simp)] at hcons
    exact hcons.of_append
  · rintro ⟨p, q, r, rfl, -, hq, rfl, hp⟩
    exact ⟨q, ⟨hq, p, r, rfl, hp⟩, rfl⟩

lemma registers_append {k : Kind} {n : Nat} {e : IdEntry} (hcons : ¬ Consistent qs)
    (rest : List Request) : Registers (qs ++ rest) k n e ↔ Registers qs k n e := by
  constructor
  · rintro ⟨p, q, r, heq, hp, hrest⟩
    obtain ⟨l, rfl, -⟩ | ⟨l, rfl, hl⟩ := append_eq_append_iff.1 heq
    · exact absurd hp.of_append hcons
    cases l with
    | nil => exact absurd (by simpa using hp) hcons
    | cons q' l =>
      obtain ⟨rfl, -⟩ := cons.inj hl
      exact ⟨p, q, l, rfl, hp, hrest⟩
  · rintro ⟨p, q, r, rfl, hp, hrest⟩
    exact ⟨p, q, r ++ rest, by simp, hp, hrest⟩

lemma checkAll_ids (hcons : Consistent qs) (h : Recorded qs ug) (rest : List Request) (k : Kind)
    (n : Nat)
    (e : IdEntry) : ((ug.checkAll rest).1 k).ids n = some e ↔ Registers (qs ++ rest) k n e := by
  induction rest generalizing qs ug with
  | nil =>
    rw [append_nil, UserGroups.checkAll, h.ids]
    refine map_find_eq_some_iff (Consistent.of_append (r := qs.drop (qs.length - 1)) ?_)
    rw [dropLast_eq_take, take_append_drop]
    exact hcons
  | cons q rest ih =>
    have hiff := h.check_accepted hcons (q := q)
    have hids := h.check_ids (q := q) k n
    have hcheck := h.check (q := q)
    rw [← singleton_append, ← append_assoc, singleton_append, UserGroups.checkAll]
    split
    next ug' heq =>
      rw [heq] at hiff hids
      have hnot : ¬ Consistent (qs ++ [q]) := fun hcons => Bool.false_ne_true (hiff.2 hcons)
      rw [registers_append hnot, hids, map_find_eq_some_iff (by simpa using hcons)]
    next ug' heq =>
      rw [heq] at hiff hcheck
      exact ih (hiff.1 rfl) (hcheck rfl)

end

end SourceMaster.Metadata
