import Mathlib.Data.List.Nodup
import SourceMaster.Lib.Loops
import SourceMaster.Hostapd.Reload

/-!
# The addresses of new interfaces

Step 6 of `iface_reload_config` hands out addresses. A new BSS with a generated address gets the
next one that is not in the list. A new BSS with a static address keeps it, and if the list says
that another BSS has this address, that one is *displaced* and gets a new one. All other addresses
stay (`assignBssids_spec`), so that it is known before the step whether the addresses are distinct
after it (`Assigned.nodup_iff`).
-/

namespace SourceMaster.Hostapd

open Function List Option Nat

/-! ## Addresses of a list of BSS -/

def addr (bss : List Bss) (i : Nat) : Option String := bss[i]?.map Bss.bssid

def isDefault (bss : List Bss) (i : Nat) : Option Bool := bss[i]?.map Bss.defaultMacaddr

section

variable {bss : List Bss} {i j : Nat} {a : String}

@[simp]
lemma length_setBssid : (setBssid bss i a).length = bss.length := length_modify ..

lemma addr_setBssid_self (hi : i < bss.length) : addr (setBssid bss i a) i = some a := by
  simp [addr, setBssid, getElem?_eq_getElem hi]

lemma addr_setBssid_ne (h : j ≠ i) : addr (setBssid bss i a) j = addr bss j := by
  simp [addr, setBssid, h.symm]

@[simp]
lemma isDefault_setBssid : isDefault (setBssid bss i a) j = isDefault bss j := by
  unfold isDefault setBssid
  rw [getElem?_modify]
  cases bss[j]? with
  | none => rfl
  | some b => by_cases h : i = j <;> simp [h]

lemma addr_isSome : (addr bss i).isSome ↔ i < bss.length := by
  simp [addr]

lemma isDefault_lt {d : Bool} (h : isDefault bss i = some d) : i < bss.length := by
  by_contra hi
  simp [isDefault, getElem?_eq_none (Nat.le_of_not_lt hi)] at h

lemma isDefault_of_addr (h : addr bss i = some a) :
    isDefault bss i = some false ∨ isDefault bss i = some true := by
  obtain ⟨b, hb, -⟩ := map_eq_some_iff.1 h
  cases hd : b.defaultMacaddr <;> simp [isDefault, hb, hd]

lemma nodup_bssids_iff : (bss.map Bss.bssid).Nodup ↔
    ∀ i j a, addr bss i = some a → addr bss j = some a → i = j := by
  have haddr : ∀ i, (bss.map Bss.bssid)[i]? = addr bss i := fun i => getElem?_map
  rw [nodup_iff_getElem?_ne_getElem?]
  simp only [haddr]
  constructor
  · intro h i j a hi hj
    by_contra hne
    have hlt : ∀ {i}, addr bss i = some a → i < (bss.map Bss.bssid).length := fun {i} hi => by
      rw [length_map]
      exact addr_isSome.1 (by simp [hi])
    rcases Nat.lt_or_gt_of_ne hne with hij | hij
    · exact h i j hij (hlt hj) (hi.trans hj.symm)
    · exact h j i hij (hlt hi) (hj.trans hi.symm)
  · intro h i j hij hj heq
    obtain ⟨a, ha⟩ := isSome_iff_exists.1 (addr_isSome.2 (by simpa using hj))
    exact absurd (h i j a (heq.trans ha) ha) (Nat.ne_of_lt hij)

end

/-! ## The next address -/

section

variable {generate : Nat → Option String} {list list' : MacaddrList} {val : Int} {a : String}

lemma macaddrNextFrom_spec (ids : List Nat)
    (h : macaddrNextFrom generate list val ids = some (a, list')) :
    list a = none ∧ (∃ id ∈ ids, generate id = some a) ∧ list' = update list a (some val) := by
  induction ids with
  | nil => cases h
  | cons id ids ih =>
    unfold macaddrNextFrom at h
    split at h
    · cases h
    next mac hmac =>
      split at h
      · obtain ⟨hnone, ⟨id', hid', hgen⟩, hlist⟩ := ih h
        exact ⟨hnone, ⟨id', mem_cons_of_mem id hid', hgen⟩, hlist⟩
      next hfree =>
        obtain ⟨rfl, rfl⟩ : mac = a ∧ update list mac (some val) = list' := by
          simpa using h
        exact ⟨by simpa using hfree, ⟨id, mem_cons_self, hmac⟩, rfl⟩

lemma macaddrNext_spec (h : macaddrNext generate list val = some (a, list')) :
    list a = none ∧ (∃ id < 32, generate id = some a) ∧ list' = update list a (some val) := by
  obtain ⟨hnone, ⟨id, hid, hgen⟩, hlist⟩ := macaddrNextFrom_spec _ h
  exact ⟨hnone, ⟨id, mem_range.1 hid, hgen⟩, hlist⟩

end

/-! ## What step 6 starts from -/

section

variable (bss : List Bss) (kept : Nat → Option Kept) (list : MacaddrList)

def NewDefault (i : Nat) : Prop := kept i = none ∧ isDefault bss i = some true

def NewStatic (i : Nat) : Prop := kept i = none ∧ isDefault bss i = some false

def Displaced (n t : Nat) : Prop :=
  ∃ k < n, NewStatic bss kept k ∧ k ≠ t ∧ ∃ a, addr bss k = some a ∧ list a = some (t : Int)

def Fresh (n t : Nat) : Prop := (t < n ∧ NewDefault bss kept t) ∨ Displaced bss kept list n t

/-- The list is right about the addresses of new BSS, up to BSS that can be displaced. -/
structure Listed : Prop where
  newStatic : ∀ i a, NewStatic bss kept i → addr bss i = some a →
    ∃ t < bss.length, list a = some (t : Int) ∧
      (t = i ∨ ((kept t).isSome ∧ isDefault bss t = some true))
  values : ∀ a v, list a = some v → v < 0 ∨ ∃ t : Nat, v = t ∧ ¬ NewDefault bss kept t

end

variable {generate : Nat → Option String} {kept : Nat → Option Kept} {bss : List Bss}
  {list : MacaddrList} {list' : MacaddrList} {bss' : List Bss} {n : Nat} {t : Nat}

structure Assigning (generate : Nat → Option String) (kept : Nat → Option Kept) (bss : List Bss)
    (list : MacaddrList) (n : Nat) (bss' : List Bss) (list' : MacaddrList) : Prop where
  length : bss'.length = bss.length
  flags : ∀ t, isDefault bss' t = isDefault bss t
  stays : ∀ t, ¬ Fresh bss kept list n t → addr bss' t = addr bss t
  fresh : ∀ t, Fresh bss kept list n t → ∃ a, addr bss' t = some a ∧ list a = none ∧
    (list' a).isSome ∧ ∃ id < 32, generate id = some a
  inj : ∀ t t' a, Fresh bss kept list n t → Fresh bss kept list n t' → addr bss' t = some a →
    addr bss' t' = some a → t = t'
  keeps : ∀ a v, list a = some v → 0 ≤ v → list' a = some v
  grows : ∀ a, (list a).isSome → (list' a).isSome
  values : ∀ a v, list' a = some v → list a = some v ∨ ∃ t : Nat, v = t ∧ t < n

lemma Listed.not_displaced_static (h : Listed bss kept list)
    (ht : isDefault bss t = some false) : ¬ Displaced bss kept list n t := by
  rintro ⟨k, -, hk, hne, a, ha, hlist⟩
  obtain ⟨t', -, hlist', ht'⟩ := h.newStatic k a hk ha
  rw [hlist] at hlist'
  obtain rfl : t = t' := Int.ofNat.inj (some.inj hlist')
  rcases ht' with rfl | ⟨-, hdefault⟩
  · exact hne rfl
  · rw [ht] at hdefault
    cases hdefault

lemma not_fresh_static (h : Listed bss kept list) (ht : isDefault bss t = some false) :
    ¬ Fresh bss kept list n t := by
  rintro (⟨-, -, hdefault⟩ | hdisplaced)
  · rw [ht] at hdefault
    cases hdefault
  · exact h.not_displaced_static ht hdisplaced

lemma Assigning.assign {a : String}
    {list₁ : MacaddrList} (h : Assigning generate kept bss list n bss' list') (ht : t < bss.length)
    (hfresh : ∀ t', Fresh bss kept list (n + 1) t' ↔ Fresh bss kept list n t' ∨ t' = t)
    (hkeeps : ∀ a v, list a = some v → 0 ≤ v → list₁ a = some v)
    (hgrows : ∀ a, (list' a).isSome → (list₁ a).isSome)
    (hvalues : ∀ a v, list₁ a = some v → list a = some v ∨ ∃ t : Nat, v = t ∧ t < n + 1)
    (ha : list₁ a = none) (hgen : ∃ id < 32, generate id = some a) :
    Assigning generate kept bss list (n + 1)
      (setBssid bss' t a) (update list₁ a (some (n : Int))) := by
  have ht' : t < bss'.length := by rw [h.length]; exact ht
  have hst : list' a = none := by
    by_contra hst
    have := hgrows a (isSome_iff_ne_none.2 hst)
    simp [ha] at this
  have hlist : list a = none := by
    by_contra hlist
    have := h.grows a (isSome_iff_ne_none.2 hlist)
    simp [hst] at this
  -- the addresses handed out before are in the list
  have hother : ∀ t', Fresh bss kept list n t' → addr bss' t' ≠ some a := by
    intro t' hf hsame
    obtain ⟨a', ha', -, hin, -⟩ := h.fresh t' hf
    rw [hsame] at ha'
    obtain rfl := some.inj ha'
    simp [hst] at hin
  constructor
  case length => simp [h.length]
  case flags => simpa using h.flags
  case stays =>
    intro t' hnot
    rw [hfresh, not_or] at hnot
    rw [addr_setBssid_ne hnot.2]
    exact h.stays t' hnot.1
  case fresh =>
    intro t' hf
    by_cases hne : t' = t
    · subst hne
      exact ⟨a, addr_setBssid_self ht', hlist, by simp, hgen⟩
    obtain ⟨a', ha', hnone, hin, hgen'⟩ := h.fresh t' (((hfresh t').1 hf).resolve_right hne)
    refine ⟨a', by rw [addr_setBssid_ne hne, ha'], hnone, ?_, hgen'⟩
    by_cases haa : a' = a
    · simp [haa]
    · rw [update_of_ne haa]
      exact hgrows a' hin
  case inj =>
    intro t₁ t₂ b h₁ h₂ hb₁ hb₂
    by_cases ht₁ : t₁ = t <;> by_cases ht₂ : t₂ = t
    · rw [ht₁, ht₂]
    · rw [ht₁, addr_setBssid_self ht'] at hb₁
      rw [addr_setBssid_ne ht₂, ← hb₁] at hb₂
      exact absurd hb₂ (hother t₂ (((hfresh t₂).1 h₂).resolve_right ht₂))
    · rw [ht₂, addr_setBssid_self ht'] at hb₂
      rw [addr_setBssid_ne ht₁, ← hb₂] at hb₁
      exact absurd hb₁ (hother t₁ (((hfresh t₁).1 h₁).resolve_right ht₁))
    · rw [addr_setBssid_ne ht₁] at hb₁
      rw [addr_setBssid_ne ht₂] at hb₂
      exact h.inj t₁ t₂ b (((hfresh t₁).1 h₁).resolve_right ht₁)
        (((hfresh t₂).1 h₂).resolve_right ht₂) hb₁ hb₂
  case keeps =>
    intro b v hb hv
    have hne : b ≠ a := by rintro rfl; simp [hlist] at hb
    rw [update_of_ne hne]
    exact hkeeps b v hb hv
  case grows =>
    intro b hb
    have hne : b ≠ a := by rintro rfl; simp [hlist] at hb
    rw [update_of_ne hne]
    exact hgrows b (h.grows b hb)
  case values =>
    intro b v hb
    by_cases hne : b = a
    · rw [hne, update_self] at hb
      exact .inr ⟨n, (some.inj hb).symm, lt_succ_self n⟩
    · rw [update_of_ne hne] at hb
      exact hvalues b v hb

lemma Assigning.skip
    (h : Assigning generate kept bss list n bss' list')
    (hfresh : ∀ t', Fresh bss kept list (n + 1) t' → Fresh bss kept list n t') :
    Assigning generate kept bss list (n + 1) bss' list' := by
  have hiff : ∀ t', Fresh bss kept list (n + 1) t' ↔ Fresh bss kept list n t' := by
    refine fun t' => ⟨hfresh t', ?_⟩
    rintro (⟨hlt, hnew⟩ | ⟨k, hk, hrest⟩)
    · exact .inl ⟨lt_succ_of_lt hlt, hnew⟩
    · exact .inr ⟨k, lt_succ_of_lt hk, hrest⟩
  constructor
  case length => exact h.length
  case flags => exact h.flags
  case stays => exact fun t ht => h.stays t fun hf => ht ((hiff t).2 hf)
  case fresh => exact fun t ht => h.fresh t ((hiff t).1 ht)
  case inj => exact fun t t' a ht ht' => h.inj t t' a ((hiff t).1 ht) ((hiff t').1 ht')
  case keeps => exact h.keeps
  case grows => exact h.grows
  case values =>
    intro a v ha
    rcases h.values a v ha with hl | ⟨t, hv, ht⟩
    · exact .inl hl
    · exact .inr ⟨t, hv, lt_succ_of_lt ht⟩

/-! ## One iteration -/

/-- The list in an iteration of step 6: an address of an interface is now that of BSS `i`. -/
def claimed (list : MacaddrList) (i : Nat) (a : String) : MacaddrList :=
  if (list a).any (· < 0) then update list a (some (i : Int)) else list

/-- What an iteration does with a new BSS that has the address `b`. -/
inductive Assigns (generate : Nat → Option String) (i : Nat) (s : List Bss × MacaddrList)
    (b : Bss) :
    List Bss × MacaddrList → Prop
  | own : s.2 b.bssid = some (i : Int) → Assigns generate i s b (s.1, claimed s.2 i b.bssid)
  | next {t : Nat} {a : String} : s.2 b.bssid ≠ some (i : Int) →
    (if b.defaultMacaddr then t = i else ∃ v, s.2 b.bssid = some v ∧ t = arrayIndex s.1.length v) →
    t < s.1.length → claimed s.2 i b.bssid a = none → (∃ id < 32, generate id = some a) →
    Assigns generate i s b (setBssid s.1 t a, update (claimed s.2 i b.bssid) a (some (i : Int)))

lemma assignBssid_cases {s s' : List Bss × MacaddrList} {i : Nat}
    (h : assignBssid generate kept s i = some s') :
    ((kept i).isSome ∧ s' = s) ∨
    (kept i = none ∧ ∃ b, s.1[i]? = some b ∧ Assigns generate i s b s') := by
  unfold assignBssid at h
  split at h
  next hkept => exact .inl ⟨hkept, (some.inj h).symm⟩
  next hkept =>
    refine .inr ⟨by simpa using hkept, ?_⟩
    obtain ⟨b, hb, h⟩ := bind_eq_some_iff.1 h
    have hnever : ¬ (if notListed s.2 b.bssid then (1 : Int) else 0) < 0 := by split <;> decide
    refine ⟨b, hb, ?_⟩
    dsimp only at h
    rw [if_neg hnever, ← claimed] at h
    split at h
    next hown =>
      rw [← some.inj h]
      exact .own hown
    next hother =>
      have hrest : ∀ {t}, (if b.defaultMacaddr then t = i
          else ∃ v, s.2 b.bssid = some v ∧ t = arrayIndex s.1.length v) →
          ((macaddrNext generate (claimed s.2 i b.bssid) i).bind fun r =>
            if t < s.1.length then some (setBssid s.1 t r.1, r.2) else none) = some s' →
              Assigns generate i s b s' := by
        intro t ht h
        obtain ⟨⟨a, list⟩, hnext, h⟩ := bind_eq_some_iff.1 h
        obtain ⟨hnone, hgen, rfl⟩ := macaddrNext_spec hnext
        dsimp only at h
        split at h
        next hlt =>
          rw [← some.inj h]
          exact .next hother ht hlt hnone hgen
        next => cases h
      split at h
      next hd => exact hrest (by rw [if_pos hd]) h
      next hd =>
        obtain ⟨t, ht, h⟩ := bind_eq_some_iff.1 h
        obtain ⟨v, hv, rfl⟩ := map_eq_some_iff.1 ht
        exact hrest (by rw [if_neg hd]; exact ⟨v, hv, rfl⟩) h

lemma claimed_cases (list : MacaddrList) (i : Nat) (a x : String) :
    claimed list i a x = list x ∨
    (∃ v < 0, list x = some v) ∧ claimed list i a x = some (i : Int) := by
  unfold claimed
  split
  next hneg =>
    by_cases hx : x = a
    · obtain ⟨v, hv, hlt⟩ := (any_eq_true _ _).1 hneg
      exact .inr ⟨⟨v, by simpa using hlt, hx ▸ hv⟩, by rw [hx, update_self]⟩
    · exact .inl (update_of_ne hx ..)
  next => exact .inl rfl

lemma fresh_succ : Fresh bss kept list (n + 1) t ↔ Fresh bss kept list n t ∨
    (t = n ∧ NewDefault bss kept t) ∨ (NewStatic bss kept n ∧ n ≠ t ∧
      ∃ a, addr bss n = some a ∧ list a = some (t : Int)) := by
  constructor
  · rintro (⟨hlt, hnew⟩ | ⟨k, hk, hrest⟩)
    · rcases Nat.lt_succ_iff_lt_or_eq.1 hlt with hlt | rfl
      · exact .inl (.inl ⟨hlt, hnew⟩)
      · exact .inr (.inl ⟨rfl, hnew⟩)
    · rcases Nat.lt_succ_iff_lt_or_eq.1 hk with hk | rfl
      · exact .inl (.inr ⟨k, hk, hrest⟩)
      · exact .inr (.inr hrest)
  · rintro ((⟨hlt, hnew⟩ | ⟨k, hk, hrest⟩) | ⟨rfl, hnew⟩ | hrest)
    · exact .inl ⟨lt_succ_of_lt hlt, hnew⟩
    · exact .inr ⟨k, lt_succ_of_lt hk, hrest⟩
    · exact .inl ⟨lt_succ_self t, hnew⟩
    · exact .inr ⟨n, lt_succ_self n, hrest⟩

variable {n : Nat} {bss' : List Bss} {list' : MacaddrList} {st : List Bss × MacaddrList}

section

variable (hl : Listed bss kept list)
include hl

section

variable (h : Assigning generate kept bss list n bss' list')
include h

lemma Assigning.step_default
    (hnew : NewDefault bss kept n) {b : Bss} (hd : b.defaultMacaddr)
    (hst : Assigns generate n (bss', list') b st) :
    Assigning generate kept bss list (n + 1) st.1 st.2 := by
  have hfresh : ∀ t, Fresh bss kept list (n + 1) t ↔ Fresh bss kept list n t ∨ t = n := by
    intro t
    rw [fresh_succ]
    constructor
    · rintro (hf | ⟨rfl, -⟩ | ⟨⟨-, hstatic⟩, -⟩)
      · exact .inl hf
      · exact .inr rfl
      · rw [hnew.2] at hstatic
        cases hstatic
    · rintro (hf | rfl)
      · exact .inl hf
      · exact .inr (.inl ⟨rfl, hnew⟩)
  cases hst with
  | own hown =>
    -- the list does not give the address to the BSS itself, as it is neither kept nor static
    rcases h.values _ _ hown with hlist | ⟨t, hv, ht⟩
    · rcases hl.values _ _ hlist with hneg | ⟨t, hv, ht⟩
      · omega
      · obtain rfl : n = t := Int.ofNat.inj hv
        exact absurd hnew ht
    · omega
  | next _ ht _ hnone hgen =>
    rw [if_pos hd] at ht
    rw [ht]
    refine h.assign (isDefault_lt hnew.2) hfresh ?_ ?_ ?_ hnone hgen
    · intro x v hx hv
      have hx' := h.keeps x v hx hv
      rcases claimed_cases list' n b.bssid x with heq | ⟨⟨v', hneg, hv'⟩, -⟩
      · exact heq.trans hx'
      · have := some.inj (hx'.symm.trans hv')
        omega
    · intro x hx
      rcases claimed_cases list' n b.bssid x with heq | ⟨-, heq⟩
      · rw [heq, hx]
      · rw [heq, isSome_some]
    · intro x v hx
      rcases claimed_cases list' n b.bssid x with heq | ⟨-, heq⟩
      · rw [heq] at hx
        exact (h.values x v hx).imp_right fun ⟨t', hv, ht'⟩ => ⟨t', hv, lt_succ_of_lt ht'⟩
      · rw [heq] at hx
        exact .inr ⟨n, (some.inj hx).symm, lt_succ_self n⟩

lemma Assigning.step_static
    (hnew : NewStatic bss kept n) {b : Bss} (hb : bss'[n]? = some b) (hd : b.defaultMacaddr = false)
    (hst : Assigns generate n (bss', list') b st) :
    Assigning generate kept bss list (n + 1) st.1 st.2 := by
  have haddr : addr bss n = some b.bssid := by
    rw [← h.stays n (not_fresh_static hl hnew.2), addr, hb]
    rfl
  obtain ⟨t, ht, hlist, hcase⟩ := hl.newStatic n b.bssid hnew haddr
  have hlist' : list' b.bssid = some (t : Int) := h.keeps _ _ hlist (Int.natCast_nonneg t)
  have hneg : ¬ (t : Int) < 0 := by omega
  have hclaimed : claimed list' n b.bssid = list' := by simp [claimed, hlist', hneg]
  -- who becomes fresh in this iteration
  have hfresh : ∀ t', Fresh bss kept list (n + 1) t' ↔ Fresh bss kept list n t' ∨
    (n ≠ t ∧ t' = t) := by
    intro t'
    rw [fresh_succ]
    constructor
    · rintro (hf | ⟨rfl, -, hdef⟩ | ⟨-, hne, a, ha, hla⟩)
      · exact .inl hf
      · rw [hnew.2] at hdef
        cases hdef
      rw [haddr] at ha
      obtain rfl := some.inj ha
      rw [hlist] at hla
      obtain rfl : t = t' := Int.ofNat.inj (some.inj hla)
      exact .inr ⟨hne, rfl⟩
    · rintro (hf | ⟨hne, rfl⟩)
      · exact .inl hf
      · exact .inr (.inr ⟨hnew, hne, b.bssid, haddr, hlist⟩)
  cases hst with
  | own hown =>
    obtain rfl : t = n := Int.ofNat.inj (some.inj (hlist'.symm.trans hown))
    rw [hclaimed]
    exact h.skip fun t' hf => ((hfresh t').1 hf).resolve_right fun hne => hne.1 rfl
  | @next t₁ a hother ht₁ _ hnone hgen =>
    rw [hclaimed] at hnone ⊢
    have hself : n ≠ t := fun hn => hother (by rw [hn]; exact hlist')
    obtain rfl : t₁ = t := by
      rw [hd, if_neg (by decide)] at ht₁
      obtain ⟨v, hv, rfl⟩ := ht₁
      obtain rfl := some.inj (hlist'.symm.trans hv)
      simp [arrayIndex, hneg]
    refine h.assign ht ?_ h.keeps (fun _ hx => hx) ?_ hnone hgen
    · intro t'
      rw [hfresh]
      exact or_congr_right ⟨fun e => e.2, fun e => ⟨hself, e⟩⟩
    · exact fun x v hx => (h.values x v hx).imp_right fun ⟨t', hv, ht'⟩ =>
        ⟨t', hv, lt_succ_of_lt ht'⟩

lemma Assigning.step
    (hst : assignBssid generate kept (bss', list') n = some st) :
    Assigning generate kept bss list (n + 1) st.1 st.2 := by
  obtain ⟨hkept, rfl⟩ | ⟨hkept, b, hb, hst⟩ := assignBssid_cases hst
  · have hnew : kept n ≠ none := isSome_iff_ne_none.1 hkept
    refine h.skip fun t hf => ?_
    rcases fresh_succ.1 hf with hf | ⟨rfl, hnone, -⟩ | ⟨⟨hnone, -⟩, -⟩
    · exact hf
    · exact absurd hnone hnew
    · exact absurd hnone hnew
  · have hflag : isDefault bss n = some b.defaultMacaddr := by
      rw [← h.flags, isDefault, hb, map_some]
    cases hd : b.defaultMacaddr with
    | true => exact h.step_default hl ⟨hkept, hd ▸ hflag⟩ hd hst
    | false => exact h.step_static hl ⟨hkept, hd ▸ hflag⟩ hb hd hst

end

end

/-! ## The whole step -/

lemma assigning_zero : Assigning generate kept bss list 0 bss list := by
  have hfresh : ∀ t, ¬ Fresh bss kept list 0 t := by
    rintro t (⟨hlt, -⟩ | ⟨k, hk, -⟩)
    · exact absurd hlt (not_lt_zero t)
    · exact absurd hk (not_lt_zero k)
  constructor
  case length => rfl
  case flags => exact fun _ => rfl
  case stays => exact fun _ _ => rfl
  case fresh => exact fun t ht => absurd ht (hfresh t)
  case inj => exact fun t _ _ ht => absurd ht (hfresh t)
  case keeps => exact fun _ _ h _ => h
  case grows => exact fun _ h => h
  case values => exact fun _ _ h => .inl h

lemma assignBssid_run (hl : Listed bss kept list) (n : Nat)
    (h : (range n).foldlM (assignBssid generate kept) (bss, list) = some st) :
    Assigning generate kept bss list n st.1 st.2 :=
  Loops.range_inv (fun n st => Assigning generate kept bss list n st.1 st.2) assigning_zero
    (fun _ _ _ _ hassign hst => hassign.step hl hst) h

/-- **After step 6** the addresses are distinct iff those are that it does not change, if these are
listed or not generated. -/
theorem Assigning.nodup_iff (h : Assigning generate kept bss list bss.length bss' list')
    (hlisted : ∀ t a, ¬ Fresh bss kept list bss.length t → addr bss t = some a →
      (list a).isSome ∨ ∀ id < 32, generate id ≠ some a) :
    (bss'.map Bss.bssid).Nodup ↔ ∀ t t' a, ¬ Fresh bss kept list bss.length t →
      ¬ Fresh bss kept list bss.length t' → addr bss t = some a → addr bss t' = some a →
      t = t' := by
  -- a fresh address differs from all that stay
  have hnew : ∀ {t t' a}, Fresh bss kept list bss.length t → ¬ Fresh bss kept list bss.length t' →
      addr bss' t = some a → addr bss' t' ≠ some a := by
    intro t t' a hf hnot ha ha'
    obtain ⟨a', ha'', hnone, -, id, hid, hgen⟩ := h.fresh t hf
    rw [ha] at ha''
    obtain rfl := some.inj ha''
    rw [h.stays t' hnot] at ha'
    rcases hlisted t' a hnot ha' with hsome | hgen'
    · simp [hnone] at hsome
    · exact hgen' id hid hgen
  rw [nodup_bssids_iff]
  constructor
  · intro hnodup t t' a ht ht' ha ha'
    exact hnodup t t' a (by rw [h.stays t ht, ha]) (by rw [h.stays t' ht', ha'])
  intro hstay t t' a ha ha'
  by_cases ht : Fresh bss kept list bss.length t <;> by_cases ht' :
    Fresh bss kept list bss.length t'
  · exact h.inj t t' a ht ht' ha ha'
  · exact absurd ha' (hnew ht ht' ha)
  · exact absurd ha (hnew ht' ht ha')
  · rw [h.stays t ht] at ha
    rw [h.stays t' ht'] at ha'
    exact hstay t t' a ht ht' ha ha'

end SourceMaster.Hostapd
