import SourceMaster.Metadata.UserGroup

/-!
# Reading metadata again

`clear_packages` clears all tables but those of the user ids and the group ids. The ids of the first
file are still there when a second file is read: they stay in the tables, and a name of the second
file that requires one of them is rejected (`reload_eq_fresh_iff`).
-/

namespace SourceMaster.Metadata

open Kconfig Function Option UserGroups

/-! ## The functions -/

structure State where
  tables : Tables
  usergroups : UserGroups

def State.init : State := ⟨.empty, .empty⟩

def clearPackages (st : State) : State where
  tables := .empty
  usergroups k := { st.usergroups k with names := fun _ => none }

def fileLines (file : Text) : List Text := go [] file
where
  go (cur : Text) : Text → List Text
    | [] => if cur = [] then [] else [cur]
    | c :: s => if c = '\n' then (cur ++ [c]) :: go [] s else go (cur ++ [c]) s

variable (ignore : List Text)

def readLines (r : Reader) (ug : UserGroups) : List Text → State × Bool
  | [] => (⟨r.finish.tables, ug⟩, true)
  | line :: lines =>
    let r' := r.readLine ignore line
    match ug.checkAll (lineRequests r r' line) with
    | (ug, false) => (⟨r'.tables, ug⟩, false)
    | (ug, true) => readLines r' ug lines

def parsePackageMetadata (file : Text) (st : State) : State × Bool :=
  readLines ignore (.start st.tables) st.usergroups (fileLines file)

def requests (r : Reader) : List Text → List Request
  | [] => []
  | line :: lines =>
    let r' := r.readLine ignore line
    lineRequests r r' line ++ requests r' lines

def fileRequests (file : Text) : List Request := requests ignore (.start .empty) (fileLines file)

/-! ## The ids in the tables -/

lemma checkAll_append (ug : UserGroups) (qs rest : List Request) : ug.checkAll (qs ++ rest) =
      if (ug.checkAll qs).2 then (ug.checkAll qs).1.checkAll rest
      else ((ug.checkAll qs).1, false) := by
  induction qs generalizing ug with
  | nil => rfl
  | cons q qs ih =>
    rw [List.cons_append, checkAll, checkAll]
    split
    next => rfl
    next => exact ih _

lemma readLines_usergroups (r : Reader) (ug : UserGroups) (lines : List Text) :
    (readLines ignore r ug lines).1.usergroups = (ug.checkAll (requests ignore r lines)).1 := by
  induction lines generalizing r ug with
  | nil => rfl
  | cons line lines ih =>
    rw [readLines, requests, checkAll_append]
    split
    next ug' heq =>
      rw [heq]
      rfl
    next ug' heq =>
      rw [heq, ih]
      rfl

lemma parse_ids {file : Text} {k : Kind} {n : Nat} {e : IdEntry} :
    ((parsePackageMetadata ignore file .init).1.usergroups k).ids n = some e ↔
      Registers (fileRequests ignore file) k n e := by
  rw [parsePackageMetadata, readLines_usergroups]
  exact checkAll_ids ⟨by simp, .nil⟩ recorded_nil _ k n e

/-! ## Two runs -/

namespace Ids

variable {old : Nat → Option IdEntry} {t t' : Ids} {makefile : Option Text} {s : Spec} {spec : Text}
  {e : IdEntry} {n : Nat}

/-- The same names, and the ids `old` besides those of the first tables. -/
def Extends (old : Nat → Option IdEntry) (t t' : Ids) : Prop :=
  t'.names = t.names ∧ ∀ n, t'.ids n = (t.ids n).or (old n)

/-- The ids `old` and those of the tables belong to the same names. -/
def Agrees (old : Nat → Option IdEntry) (t : Ids) : Prop :=
  ∀ n e e', old n = some e → t.ids n = some e' → e = e'

lemma takeId_grows (h : t.ids n = some e) : (t.takeId makefile s).1.ids n = some e := by
  cases hid : s.id with
  | none => rw [takeId_ids_of_none hid, h]
  | some m =>
    rw [takeId_ids hid]
    split
    next hm =>
      have hne : n ≠ m := fun heq => by simp [← heq, h] at hm
      rw [update_of_ne hne, h]
    next => exact h

lemma usergroup_grows (h : t.ids n = some e) :
    (t.parsePackageMetadataUsergroup makefile spec).1.ids n = some e := by
  cases hs : readSpec spec with
  | none =>
    rw [parsePackageMetadataUsergroup, hs]
    exact h
  | some s =>
    rw [usergroup_ids hs]
    exact takeId_grows h

lemma takeId_extends (h : Extends old t t') (hagrees : Agrees old (t.takeId makefile s).1) :
    (t'.takeId makefile s).2 = (t.takeId makefile s).2 ∧
      Extends old (t.takeId makefile s).1 (t'.takeId makefile s).1 := by
  cases hid : s.id with
  | none =>
    simp only [takeId, hid]
    exact ⟨trivial, h⟩
  | some m =>
    have hm := h.2 m
    cases htm : t.ids m with
    | some e =>
      rw [htm, some_or] at hm
      simp only [takeId, hid, htm, hm]
      exact ⟨trivial, h⟩
    | none =>
      rw [htm, none_or] at hm
      have hagree := hagrees m
      simp only [takeId, hid, htm, update_self] at hagree
      cases hold : old m with
      | none =>
        rw [hold] at hm
        simp only [takeId, hid, htm, hm]
        refine ⟨trivial, h.1, fun n => ?_⟩
        by_cases hn : n = m
        · subst hn
          simp
        · simp [update_of_ne hn, h.2 n]
      | some e =>
        -- the id was entered for the same name before
        obtain rfl := hagree e _ hold rfl
        rw [hold] at hm
        simp only [takeId, hid, htm, hm, beq_self_eq_true]
        refine ⟨trivial, h.1, fun n => ?_⟩
        by_cases hn : n = m
        · subst hn
          simp [hm]
        · simp [update_of_ne hn, h.2 n]

lemma takeName_extends (h : Extends old t t') :
    (t'.takeName makefile s).2 = (t.takeName makefile s).2 ∧
      Extends old (t.takeName makefile s).1 (t'.takeName makefile s).1 := by
  unfold takeName
  rw [h.1]
  split
  next => exact ⟨rfl, rfl, h.2⟩
  next => exact ⟨rfl, h⟩

lemma usergroup_extends (h : Extends old t t')
    (hagrees : Agrees old (t.parsePackageMetadataUsergroup makefile spec).1) :
    (t'.parsePackageMetadataUsergroup makefile spec).2 =
    (t.parsePackageMetadataUsergroup makefile spec).2 ∧
      Extends old (t.parsePackageMetadataUsergroup makefile spec).1
        (t'.parsePackageMetadataUsergroup makefile spec).1 := by
  cases hs : readSpec spec with
  | none =>
    simp only [parsePackageMetadataUsergroup, hs]
    exact ⟨trivial, h⟩
  | some s =>
    have hagrees' : Agrees old (t.takeId makefile s).1 := by
      intro n e e'
      rw [← usergroup_ids hs]
      exact hagrees n e e'
    obtain ⟨haccepted, hext⟩ := takeId_extends h hagrees'
    simp only [parsePackageMetadataUsergroup, hs]
    generalize t.takeId makefile s = result, t'.takeId makefile s = result' at haccepted hext
    obtain ⟨t₁, b⟩ := result
    obtain ⟨t₁', b'⟩ := result'
    obtain rfl : b' = b := haccepted
    cases b' with
    | false => exact ⟨rfl, hext⟩
    | true => exact takeName_extends hext

end Ids

section

variable {ignore} {old : Kind → Nat → Option IdEntry} {ug ug' : UserGroups} {q : Request}

section

variable (old : Kind → Nat → Option IdEntry)

def Extends (ug ug' : UserGroups) : Prop :=
  ∀ k, Ids.Extends (old k) (ug k) (ug' k)

def Agrees (ug : UserGroups) : Prop := ∀ k, Ids.Agrees (old k) (ug k)

end

def Grows (ug ug' : UserGroups) : Prop := ∀ k n e, (ug k).ids n = some e → (ug' k).ids n = some e

lemma Grows.trans {ug'' : UserGroups} (h : Grows ug ug') (h' : Grows ug' ug'') : Grows ug ug'' :=
  fun k n e he => h' k n e (h k n e he)

lemma Agrees.of_grows (h : Agrees old ug') (hgrows : Grows ug ug') : Agrees old ug :=
  fun k n e e' he he' => h k n e e' he (hgrows k n e' he')

lemma check_grows : Grows ug (ug.check q).1 := by
  intro k n e he
  by_cases hk : q.kind = k
  · subst hk
    rw [check_self]
    exact Ids.usergroup_grows he
  · rw [check_of_ne hk, he]

lemma check_extends (h : Extends old ug ug') (hagrees : Agrees old (ug.check q).1) :
    (ug'.check q).2 = (ug.check q).2 ∧ Extends old (ug.check q).1 (ug'.check q).1 := by
  have hself := hagrees q.kind
  rw [check_self] at hself
  obtain ⟨haccepted, hext⟩ := Ids.usergroup_extends (h q.kind) hself
  refine ⟨haccepted, fun k => ?_⟩
  by_cases hk : q.kind = k
  · subst hk
    rw [check_self, check_self]
    exact hext
  · rw [check_of_ne hk, check_of_ne hk]
    exact h k

lemma checkAll_grows (qs : List Request) : Grows ug (ug.checkAll qs).1 := by
  induction qs generalizing ug with
  | nil => exact fun _ _ _ he => he
  | cons q qs ih =>
    have hgrows : Grows ug (ug.check q).1 := check_grows
    rw [checkAll]
    split
    next ug' heq =>
      rw [heq] at hgrows
      exact hgrows
    next ug' heq =>
      rw [heq] at hgrows
      exact hgrows.trans ih

lemma checkAll_extends (qs : List Request) (h : Extends old ug ug')
    (hagrees : Agrees old (ug.checkAll qs).1) :
    (ug'.checkAll qs).2 = (ug.checkAll qs).2 ∧
    Extends old (ug.checkAll qs).1 (ug'.checkAll qs).1 := by
  induction qs generalizing ug ug' with
  | nil => exact ⟨rfl, h⟩
  | cons q qs ih =>
    rw [checkAll] at hagrees ⊢
    rw [checkAll]
    have hcheck := check_extends (q := q) h
    generalize ug.check q = result, ug'.check q = result' at hagrees hcheck
    obtain ⟨ug₁, b⟩ := result
    obtain ⟨ug₁', b'⟩ := result'
    cases b with
    | false =>
      obtain ⟨rfl, hext⟩ := hcheck hagrees
      exact ⟨rfl, hext⟩
    | true =>
      obtain ⟨rfl, hext⟩ := hcheck (hagrees.of_grows (checkAll_grows qs))
      exact ih hext hagrees

lemma readLines_grows (r : Reader) (lines : List Text) :
    Grows ug (readLines ignore r ug lines).1.usergroups := by
  rw [readLines_usergroups]
  exact checkAll_grows _

lemma readLines_extends (r : Reader) (lines : List Text) (h : Extends old ug ug')
    (hagrees : Agrees old (readLines ignore r ug lines).1.usergroups) :
    (readLines ignore r ug' lines).2 = (readLines ignore r ug lines).2 ∧
      (readLines ignore r ug' lines).1.tables = (readLines ignore r ug lines).1.tables ∧
      Extends old (readLines ignore r ug lines).1.usergroups
      (readLines ignore r ug' lines).1.usergroups := by
  induction lines generalizing r ug ug' with
  | nil => exact ⟨rfl, rfl, h⟩
  | cons line lines ih =>
    rw [readLines] at hagrees ⊢
    rw [readLines]
    have hcheck := checkAll_extends (lineRequests r (r.readLine ignore line) line) h
    generalize ug.checkAll (lineRequests r (r.readLine ignore line) line) = result,
      ug'.checkAll (lineRequests r (r.readLine ignore line) line) = result' at hagrees hcheck
    obtain ⟨ug₁, b⟩ := result
    obtain ⟨ug₁', b'⟩ := result'
    cases b with
    | false =>
      obtain ⟨rfl, hext⟩ := hcheck hagrees
      exact ⟨rfl, rfl, hext⟩
    | true =>
      obtain ⟨rfl, hext⟩ := hcheck (hagrees.of_grows (readLines_grows _ lines))
      exact ih _ hext hagrees

end

/-! ## The second file -/

lemma reload_extends (file : Text) (st : State) (hagrees : Agrees (fun k => (st.usergroups k).ids)
    (parsePackageMetadata ignore file .init).1.usergroups) :
    (parsePackageMetadata ignore file (clearPackages st)).2 =
    (parsePackageMetadata ignore file .init).2 ∧
      (parsePackageMetadata ignore file (clearPackages st)).1.tables =
        (parsePackageMetadata ignore file .init).1.tables ∧
      Extends (fun k => (st.usergroups k).ids) (parsePackageMetadata ignore file .init).1.usergroups
        (parsePackageMetadata ignore file (clearPackages st)).1.usergroups :=
  readLines_extends _ _ (fun _ => ⟨rfl, fun _ => rfl⟩) hagrees

/-- A second file is read as in a fresh process iff it registers every id of the first file for the
same name and in the same makefile. -/
theorem reload_eq_fresh_iff (file₁ file₂ : Text) :
    parsePackageMetadata ignore file₂ (clearPackages (parsePackageMetadata ignore file₁ .init).1) =
        parsePackageMetadata ignore file₂ .init ↔
      ∀ k n e, Registers (fileRequests ignore file₁) k n e →
      Registers (fileRequests ignore file₂) k n e := by
  simp only [← parse_ids]
  generalize (parsePackageMetadata ignore file₁ .init).1 = st
  constructor
  · intro heq k n e he
    rw [← heq]
    exact readLines_grows _ _ k n e he
  intro hids
  obtain ⟨haccepted, htables, hext⟩ := reload_extends ignore file₂ st fun k n e e' he he' =>
    some.inj ((hids k n e he).symm.trans he')
  have husergroups : (parsePackageMetadata ignore file₂ (clearPackages st)).1.usergroups =
      (parsePackageMetadata ignore file₂ .init).1.usergroups := by
    funext k
    refine Ids.ext (hext k).1 (funext fun n => ?_)
    rw [(hext k).2 n]
    dsimp only
    cases hold : (st.usergroups k).ids n with
    | none => rw [or_none]
    | some e => rw [hids k n e hold, some_or]
  generalize parsePackageMetadata ignore file₂ (clearPackages st) = result,
    parsePackageMetadata ignore file₂ .init = result' at haccepted htables husergroups
  obtain ⟨⟨tables, ug⟩, accepted⟩ := result
  obtain ⟨⟨tables', ug'⟩, accepted'⟩ := result'
  obtain rfl : accepted = accepted' := haccepted
  obtain rfl : tables = tables' := htables
  obtain rfl : ug = ug' := husergroups
  rfl

def requiring (user : String) : Text :=
  ("Source-Makefile: package/" ++ user ++ "/Makefile\nPackage: " ++ user ++ "\nRequire-User: " ++
    user ++ "=500\n").toList

/-- A file that is accepted in a fresh process is rejected after another one. -/
theorem reload_rejects_file : (parsePackageMetadata [] (requiring "bar") .init).2 ∧
      (parsePackageMetadata [] (requiring "bar")
        (clearPackages (parsePackageMetadata [] (requiring "foo") .init).1)).2 = false := by
  decide +kernel

end SourceMaster.Metadata
