import SourceMaster.Hostapd.Bssid

/-!
# Matching and renaming interfaces

Steps 1 and 2 of `iface_reload_config` match old BSS with new ones, step 3 removes the old BSS that
are left over, and steps 4 and 5 give those that are kept their new names. A name may still be in
use by a BSS that gets another name later, so the renaming has two phases, with temporary names in
between. `reload_renames` says that this works for every matching: in a world where a call fails
only because a name is in use, none fails.
-/

namespace SourceMaster.Hostapd

open Function List Option Nat Bss Prod

/-! ## The interfaces of a phy -/

/-- The BSS that hostapd knows, the network devices of the phy, and the interfaces of other phys. -/
structure Names where
  live : List (Handle × String)
  netdevs : List String
  foreign : List (Handle × String)

namespace Names

def bss (w : Names) (name : String) : Option Handle :=
  ((w.live ++ w.foreign).find? fun x => x.2 = name).map fst

def delete (h : Handle) (w : Names) : Names :=
  if w.live.length = 1 then w else { w with live := w.live.filter fun x => x.1 ≠ h }

def wdevRemove (name : String) (w : Names) : Names :=
  { w with netdevs := w.netdevs.filter (· ≠ name) }

def inUse (w : Names) (name : String) : Prop := name ∈ w.netdevs ∨ name ∈ w.foreign.map snd

instance (w : Names) (name : String) : Decidable (w.inUse name) :=
  inferInstanceAs (Decidable (_ ∨ _))

/-- `bss.rename`; the kernel refuses a name that is in use. -/
def rename (h : Handle) (name : String) (w : Names) : Option Names :=
  match w.live.find? fun x => x.1 = h with
  | none => none
  | some (_, old) =>
    if w.inUse name then none
    else some
      { w with
        live := w.live.map fun x => if x.1 = h then (h, name) else x
        netdevs := w.netdevs.map fun m => if m = old then name else m }

end Names

def onNames (c : Calls Names) : Calls Names :=
  { c with
    bss := Names.bss
    delete := Names.delete
    wdevRemove := Names.wdevRemove
    rename := Names.rename }

section

variable {α β : Type} {S : Nat → Prop} {f : Nat → α} {l : List α}
  (h : ∀ x, x ∈ l ↔ ∃ i, S i ∧ x = f i)
include h

lemma mem_map_indexed {f' : Nat → β} {g : α → β} (hg : ∀ i, S i → g (f i) = f' i) (y : β) :
    y ∈ l.map g ↔ ∃ i, S i ∧ y = f' i := by
  rw [List.mem_map]
  constructor
  · rintro ⟨x, hx, rfl⟩
    obtain ⟨i, hi, rfl⟩ := (h x).1 hx
    exact ⟨i, hi, hg i hi⟩
  · rintro ⟨i, hi, rfl⟩
    exact ⟨f i, (h _).2 ⟨i, hi, rfl⟩, hg i hi⟩

lemma mem_filter_indexed {T : Nat → Prop} {p : α → Bool} (hp : ∀ i, S i → (p (f i) ↔ T i)) (x : α) :
    x ∈ l.filter p ↔ ∃ i, (S i ∧ T i) ∧ x = f i := by
  rw [mem_filter, h]
  constructor
  · rintro ⟨⟨i, hi, rfl⟩, hx⟩
    exact ⟨i, ⟨hi, (hp i hi).1 hx⟩, rfl⟩
  · rintro ⟨i, ⟨hi, ht⟩, rfl⟩
    exact ⟨⟨i, hi, rfl⟩, (hp i hi).2 ht⟩

lemma mem_reindexed {T : Nat → Prop} {e : Nat → Nat} (he : ∀ i, T i → S (e i))
    (hsurj : ∀ p, S p → ∃ i, T i ∧ e i = p) (x : α) : x ∈ l ↔ ∃ i, T i ∧ x = f (e i) := by
  rw [h]
  constructor
  · rintro ⟨p, hp, rfl⟩
    obtain ⟨i, hi, rfl⟩ := hsurj p hp
    exact ⟨i, hi, rfl⟩
  · rintro ⟨i, hi, rfl⟩
    exact ⟨e i, he i hi, rfl⟩

end

/-- The BSS with indices in `S`, with their handles and names, are those that are there. -/
structure Named (S : Nat → Prop) (handle : Nat → Handle) (name : Nat → String)
    (w : Names) : Prop where
  live : ∀ x, x ∈ w.live ↔ ∃ i, S i ∧ x = (handle i, name i)
  netdevs : ∀ m, m ∈ w.netdevs ↔ ∃ i, S i ∧ m = name i
  handles : ∀ i j, S i → S j → handle i = handle j → i = j
  names : ∀ i j, S i → S j → name i = name j → i = j

namespace Named

variable {S : Nat → Prop} {handle : Nat → Handle} {name : Nat → String} {w : Names} {i : Nat}
  {m : String}

section

variable (h : Named S handle name w)
include h

lemma bss_eq (hi : S i) : w.bss (name i) = some (handle i) := by
  have hmem : (handle i, name i) ∈ w.live := (h.live _).2 ⟨i, hi, rfl⟩
  have hsome : (w.live.find? fun x => x.2 = name i).isSome := by
    rw [find?_isSome]
    exact ⟨_, hmem, by simp⟩
  obtain ⟨x, hx⟩ := isSome_iff_exists.1 hsome
  obtain ⟨j, hj, rfl⟩ := (h.live x).1 (mem_of_find?_eq_some hx)
  have hname : name j = name i := by simpa using find?_some hx
  rw [Names.bss, find?_append, hx, some_or, map_some, h.names j i hj hi hname]

lemma bss_isSome_iff (hm : m ∉ w.foreign.map snd) :
    (w.bss m).isSome ↔ ∃ i, S i ∧ m = name i := by
  constructor
  · intro hsome
    rw [Names.bss, isSome_map, find?_isSome] at hsome
    obtain ⟨x, hx, hxm⟩ := hsome
    have hxm : x.2 = m := by simpa using hxm
    rcases mem_append.1 hx with hx | hx
    · obtain ⟨i, hi, rfl⟩ := (h.live x).1 hx
      exact ⟨i, hi, hxm.symm⟩
    · exact absurd (hxm ▸ List.mem_map_of_mem hx) hm
  · rintro ⟨i, hi, rfl⟩
    rw [h.bss_eq hi]
    rfl

lemma rename (hi : S i) (hm : ∀ j, S j → name j ≠ m) (hforeign : m ∉ w.foreign.map snd) :
    ∃ w', w.rename (handle i) m = some w' ∧ Named S handle (update name i m) w' ∧
      w'.foreign = w.foreign := by
  have hsome : (w.live.find? fun x => x.1 = handle i).isSome := by
    rw [find?_isSome]
    exact ⟨(handle i, name i), (h.live _).2 ⟨i, hi, rfl⟩, by simp⟩
  obtain ⟨x, hx⟩ := isSome_iff_exists.1 hsome
  obtain ⟨j, hj, rfl⟩ := (h.live x).1 (mem_of_find?_eq_some hx)
  have hji : handle j = handle i := by simpa using find?_some hx
  obtain rfl := h.handles j i hj hi hji
  have hfree : ¬ w.inUse m := by
    rintro (hnet | hf)
    · obtain ⟨t, ht, rfl⟩ := (h.netdevs m).1 hnet
      exact hm t ht rfl
    · exact hforeign hf
  unfold Names.rename
  rw [hx]
  dsimp only
  rw [if_neg hfree]
  refine ⟨_, rfl, ?_, rfl⟩
  constructor
  case live =>
    refine mem_map_indexed h.live fun t ht => ?_
    by_cases htj : t = j
    · simp [htj]
    · have hne : ¬ handle t = handle j := fun e => htj (h.handles t j ht hj e)
      simp [hne, update_of_ne htj]
  case netdevs =>
    refine mem_map_indexed h.netdevs fun t ht => ?_
    by_cases htj : t = j
    · simp [htj]
    · have hne : ¬ name t = name j := fun e => htj (h.names t j ht hj e)
      simp [hne, update_of_ne htj]
  case handles => exact h.handles
  case names =>
    intro t t' ht ht' heq
    by_cases htj : t = j <;> by_cases htj' : t' = j
    · rw [htj, htj']
    · rw [htj, update_self, update_of_ne htj'] at heq
      exact absurd heq.symm (hm t' ht')
    · rw [htj', update_self, update_of_ne htj] at heq
      exact absurd heq (hm t ht)
    · rw [update_of_ne htj, update_of_ne htj'] at heq
      exact h.names t t' ht ht' heq

lemma delete (hi : S i) {j : Nat} (hj : S j) (hne : j ≠ i) :
    Named (fun t => S t ∧ t ≠ i) handle name ((w.delete (handle i)).wdevRemove (name i)) := by
  have hlast : ¬ w.live.length = 1 := by
    intro hlen
    obtain ⟨x, hx⟩ := length_eq_one_iff.1 hlen
    have hmem : ∀ {t}, S t → (handle t, name t) = x := fun {t} ht => by
      have := (h.live _).2 ⟨t, ht, rfl⟩
      rwa [hx, mem_singleton] at this
    have heq := (hmem hj).trans (hmem hi).symm
    exact hne (h.handles j i hj hi (congrArg fst heq))
  unfold Names.delete Names.wdevRemove
  rw [if_neg hlast]
  constructor
  case live =>
    refine mem_filter_indexed h.live fun t ht => ?_
    have hiff : handle t = handle i ↔ t = i := ⟨h.handles t i ht hi, fun e => e ▸ rfl⟩
    simp [hiff]
  case netdevs =>
    refine mem_filter_indexed h.netdevs fun t ht => ?_
    have hiff : name t = name i ↔ t = i := ⟨h.names t i ht hi, fun e => e ▸ rfl⟩
    simp [hiff]
  case handles => exact fun t t' ht ht' => h.handles t t' ht.1 ht'.1
  case names => exact fun t t' ht ht' => h.names t t' ht.1 ht'.1

lemma congr {S' : Nat → Prop} (hS : ∀ i, S i ↔ S' i) : Named S' handle name w := by
  have : S = S' := funext fun i => propext (hS i)
  rwa [← this]

lemma reindex {T : Nat → Prop} {f : Nat → Nat} (hf : ∀ i, T i → S (f i))
    (hsurj : ∀ p, S p → ∃ i, T i ∧ f i = p) (hinj : ∀ i j, T i → T j → f i = f j → i = j) :
    Named T (handle ∘ f) (name ∘ f) w where
  live := mem_reindexed h.live hf hsurj
  netdevs := mem_reindexed h.netdevs hf hsurj
  handles i j hi hj heq := hinj i j hi hj (h.handles (f i) (f j) (hf i hi) (hf j hj) heq)
  names i j hi hj heq := hinj i j hi hj (h.names (f i) (f j) (hf i hi) (hf j hj) heq)

end

end Named

/-! ## Matching -/

section

variable {σ : Type} {c : Calls σ} {new old : List Bss} {w : σ} {n : Nat} {st st' : Reload}

lemma findPrev_cases {i : Nat} {cur : Bss} {hashes hashes' : List (Option String)}
    {prev : Option Nat} (h : findPrev c i cur hashes = (prev, hashes')) :
    (prev = none ∧ hashes' = hashes) ∨ ∃ p, prev = some p ∧ hashes' = hashes.set p none ∧
      (hashes[p]? ≠ some none ∨ i = 0) := by
  unfold findPrev at h
  split at h
  next hfull =>
    obtain ⟨rfl, rfl⟩ := mk.inj h
    exact .inr ⟨0, rfl, rfl, .inr hfull.1⟩
  next =>
    unfold bssFindExisting at h
    split at h
    next p hp =>
      obtain ⟨rfl, rfl⟩ := mk.inj h
      obtain ⟨hlt, hx, -⟩ := findIdx?_eq_some_iff_getElem.1 hp
      refine .inr ⟨p, rfl, rfl, .inl ?_⟩
      have hx : hashes[p] = some (bssConfigHash c cur.data) := by simpa using hx
      rw [getElem?_eq_getElem hlt, hx]
      simp
    next =>
      obtain ⟨rfl, rfl⟩ := mk.inj h
      exact .inl ⟨rfl, rfl⟩

lemma map_ifname_setBssid (bss : List Bss) (i : Nat) (a : String) :
    (setBssid bss i a).map ifname = bss.map ifname := by
  apply ext_getElem?
  intro t
  rw [getElem?_map, getElem?_map, setBssid, getElem?_modify]
  cases bss[t]? with
  | none => rfl
  | some b => by_cases hit : i = t <;> simp [hit]

/-- The old BSS kept for new BSS with an index below `n`; the hashes of the others are still
there. -/
structure Matching (c : Calls σ) (new old : List Bss) (w : σ) (n : Nat) (st : Reload) : Prop where
  names : st.bss.map ifname = new.map ifname
  bound : ∀ i k, st.kept i = some k → i < n
  found : ∀ i k, st.kept i = some k → ∃ b, old[k.prev]? = some b ∧ c.bss w b.ifname = some k.handle
  inj : ∀ i j k k', st.kept i = some k → st.kept j = some k' → k.prev = k'.prev → i = j
  length : st.prevBssHash.length = old.length
  used : ∀ p, st.prevBssHash[p]? = some none ↔ ∃ i k, st.kept i = some k ∧ k.prev = p

namespace Matching

lemma keep (h : Matching c new old w n st) {m i p : Nat} {b : Bss} {handle : Handle}
    (bss : List Bss) (list : MacaddrList) (hbss : bss.map ifname = st.bss.map ifname)
    (hnm : n ≤ m) (him : i < m) (hi : st.kept i = none) (hp : st.prevBssHash[p]? ≠ some none)
    (hb : old[p]? = some b) (hhandle : c.bss w b.ifname = some handle) :
    Matching c new old w m
      { bss := bss, kept := update st.kept i (some ⟨handle, p⟩), macaddrList := list
        prevBssHash := st.prevBssHash.set p none } := by
  have hplt : p < st.prevBssHash.length := by
    rw [h.length]
    exact (List.getElem?_eq_some_iff.1 hb).1
  -- what is kept is the new one or was kept before, and then from another old BSS
  have hcases : ∀ {j k}, update st.kept i (some ⟨handle, p⟩) j = some k →
      (j = i ∧ k = ⟨handle, p⟩) ∨ (j ≠ i ∧ st.kept j = some k ∧ k.prev ≠ p) := by
    intro j k hk
    by_cases hj : j = i
    · rw [hj, update_self] at hk
      exact .inl ⟨hj, (some.inj hk).symm⟩
    · rw [update_of_ne hj] at hk
      exact .inr ⟨hj, hk, fun e => hp ((h.used p).2 ⟨j, k, hk, e⟩)⟩
  constructor
  case names => exact hbss.trans h.names
  case bound =>
    intro j k hk
    rcases hcases hk with ⟨rfl, -⟩ | ⟨-, hk, -⟩
    · exact him
    · exact Nat.lt_of_lt_of_le (h.bound j k hk) hnm
  case found =>
    intro j k hk
    rcases hcases hk with ⟨-, rfl⟩ | ⟨-, hk, -⟩
    · exact ⟨b, hb, hhandle⟩
    · exact h.found j k hk
  case inj =>
    intro j j' k k' hk hk' heq
    rcases hcases hk with ⟨rfl, rfl⟩ | ⟨-, hk, hne⟩ <;>
      rcases hcases hk' with ⟨rfl, rfl⟩ | ⟨-, hk', hne'⟩
    · rfl
    · exact absurd heq.symm hne'
    · exact absurd heq hne
    · exact h.inj j j' k k' hk hk' heq
  case length => exact (length_set ..).trans h.length
  case used =>
    intro q
    by_cases hq : p = q
    · rw [← hq, getElem?_set_self hplt]
      exact iff_of_true rfl ⟨i, _, update_self .., rfl⟩
    rw [getElem?_set_ne hq, h.used]
    constructor
    · rintro ⟨j, k, hk, rfl⟩
      have hj : j ≠ i := by
        rintro rfl
        rw [hi] at hk
        cases hk
      exact ⟨j, k, (update_of_ne hj ..).trans hk, rfl⟩
    · rintro ⟨j, k, hk, rfl⟩
      rcases hcases hk with ⟨-, rfl⟩ | ⟨-, hk, -⟩
      · exact absurd rfl hq
      · exact ⟨j, k, hk, rfl⟩

lemma zero (c : Calls σ) (new old : List Bss) (w : σ) (list : MacaddrList) :
    Matching c new old w 0
      { bss := new, kept := fun _ => none, macaddrList := list
        prevBssHash := old.map fun b => some (bssConfigHash c b.data) } where
  names := rfl
  bound := by simp
  found := by simp
  inj := by simp
  length := length_map ..
  used := by simp

lemma kept_eq_none (h : Matching c new old w n st) {i : Nat} (hi : n ≤ i) : st.kept i = none := by
  by_contra hne
  obtain ⟨k, hk⟩ := ne_none_iff_exists'.1 hne
  exact absurd (h.bound i k hk) (Nat.not_lt.2 hi)

lemma step (h : Matching c new old w n st) (hst : findExisting c old w st n = some st') :
    Matching c new old w (n + 1) st' := by
  obtain ⟨cur, -, hst⟩ := bind_eq_some_iff.1 hst
  obtain ⟨prev, hashes, hfind⟩ : ∃ prev hashes,
      findPrev c n cur st.prevBssHash = (prev, hashes) := ⟨_, _, rfl⟩
  rw [hfind] at hst
  rcases findPrev_cases hfind with ⟨rfl, rfl⟩ | ⟨p, rfl, rfl, hp⟩
  · obtain rfl := some.inj hst
    exact { h with bound := fun i k hk => lt_succ_of_lt (h.bound i k hk) }
  obtain ⟨b, hb, hst⟩ := bind_eq_some_iff.1 hst
  obtain ⟨handle, hhandle, hst⟩ := bind_eq_some_iff.1 hst
  have hfree : st.prevBssHash[p]? ≠ some none := by
    rcases hp with hp | rfl
    · exact hp
    · -- nothing is kept before the first iteration
      rw [Ne, h.used]
      rintro ⟨i, k, hk, -⟩
      exact absurd (h.bound i k hk) (not_lt_zero i)
  have hkeep := fun bss list hbss => h.keep bss list hbss (le_succ n) (lt_succ_self n)
    (h.kept_eq_none (Nat.le_refl n)) hfree hb hhandle
  obtain rfl := some.inj hst
  split
  · exact hkeep _ _ (map_ifname_setBssid ..)
  · exact hkeep _ _ rfl

lemma preserveFirst (h : Matching c new old w new.length st)
    (hst : preserveFirst c old w st = some st') :
    Matching c new old w new.length st' ∧ ∃ i k, st'.kept i = some k := by
  unfold Hostapd.preserveFirst at hst
  split at hst
  next hany =>
    obtain rfl := some.inj hst
    obtain ⟨i, -, hi⟩ := List.any_eq_true.1 hany
    exact ⟨h, i, isSome_iff_exists.1 hi⟩
  next hany =>
    have hlen : st.bss.length = new.length := by simpa using congrArg List.length h.names
    have hnone : ∀ i, st.kept i = none := by
      intro i
      by_cases hi : i < st.bss.length
      · by_contra hne
        exact hany (List.any_eq_true.2 ⟨i, mem_range.2 hi, isSome_iff_ne_none.2 hne⟩)
      · exact h.kept_eq_none (by omega)
    obtain ⟨first, hfirst, hst⟩ := bind_eq_some_iff.1 hst
    obtain ⟨b, hb, hst⟩ := bind_eq_some_iff.1 hst
    have hpos : 0 < new.length := by
      rw [← hlen]
      exact (List.getElem?_eq_some_iff.1 hfirst).1
    have hfree : st.prevBssHash[0]? ≠ some none := by
      rw [Ne, h.used]
      rintro ⟨i, k, hk, -⟩
      rw [hnone] at hk
      cases hk
    have hkeep := fun bss hbss handle (hhandle : c.bss w b.ifname = some handle) =>
      h.keep bss (update st.macaddrList b.bssid (some 0)) hbss (Nat.le_refl _) hpos (hnone 0)
        hfree hb hhandle
    split at hst
    · split at hst
      · cases hst
      obtain ⟨bss, hbss, hst⟩ := bind_eq_some_iff.1 hst
      obtain rfl := some.inj hbss
      obtain ⟨handle, hhandle, hst⟩ := bind_eq_some_iff.1 hst
      obtain rfl := some.inj hst
      exact ⟨hkeep _ (map_ifname_setBssid ..) handle hhandle, 0, ⟨handle, 0⟩, by simp⟩
    · obtain ⟨bss, hbss, hst⟩ := bind_eq_some_iff.1 hst
      obtain rfl := some.inj hbss
      obtain ⟨handle, hhandle, hst⟩ := bind_eq_some_iff.1 hst
      obtain rfl := some.inj hst
      exact ⟨hkeep _ rfl handle hhandle, 0, ⟨handle, 0⟩, by simp⟩

end Matching

lemma reuseBss_matching {config : Config} (h : reuseBss c config old w = some st) :
    Matching c config.bss old w config.bss.length st ∧ ∃ i k, st.kept i = some k := by
  obtain ⟨st₁, hst₁, h⟩ := bind_eq_some_iff.1 h
  have hmatch := Loops.range_inv (Matching c config.bss old w) (Matching.zero ..)
    (fun _ _ _ _ hm hst => hm.step hst) hst₁
  split at h
  · cases h
  · exact hmatch.preserveFirst h

end

/-! ## The old configuration -/

def nameAt (bss : List Bss) (i : Nat) : String := (bss[i]?.map ifname).getD ""

/-- Exactly the BSS of the old configuration are there, with their network devices. -/
structure Running (old : List Bss) (w : Names) : Prop where
  live : (w.live.map snd).Perm (old.map ifname)
  handles : (w.live.map fst).Nodup
  netdevs : w.netdevs.Perm (old.map ifname)

section

variable {old : List Bss} {w : Names}

variable {bss : List Bss}

lemma nameAt_eq {i : Nat} {b : Bss} (h : bss[i]? = some b) :
    nameAt bss i = b.ifname := by
  rw [nameAt, h]
  rfl

lemma mem_names_iff {m : String} :
    m ∈ bss.map ifname ↔ ∃ i, i < bss.length ∧ m = nameAt bss i := by
  rw [List.mem_map]
  constructor
  · rintro ⟨b, hb, rfl⟩
    obtain ⟨i, hi, rfl⟩ := getElem_of_mem hb
    exact ⟨i, hi, (nameAt_eq (getElem?_eq_getElem hi)).symm⟩
  · rintro ⟨i, hi, rfl⟩
    exact ⟨bss[i], getElem_mem hi, (nameAt_eq (getElem?_eq_getElem hi)).symm⟩

lemma nameAt_inj (h : (bss.map ifname).Nodup) {i j : Nat} (hi : i < bss.length)
    (hj : j < bss.length) (heq : nameAt bss i = nameAt bss j) : i = j := by
  rw [nameAt_eq (getElem?_eq_getElem hi), nameAt_eq (getElem?_eq_getElem hj)] at heq
  refine (getElem?_inj (by simpa using hi) h).1 ?_
  rw [getElem?_map, getElem?_map, getElem?_eq_getElem hi, getElem?_eq_getElem hj]
  exact congrArg some heq

def handleAt (old : List Bss) (w : Names) (p : Nat) : Handle := (w.bss (nameAt old p)).getD 0

namespace Running

lemma bss_eq (h : Running old w) (hold : (old.map ifname).Nodup) {x : Handle × String}
    (hx : x ∈ w.live) : w.bss x.2 = some x.1 := by
  have hsome : (w.live.find? fun y => y.2 = x.2).isSome := by
    rw [find?_isSome]
    exact ⟨x, hx, by simp⟩
  obtain ⟨y, hy⟩ := isSome_iff_exists.1 hsome
  have hname : y.2 = x.2 := by simpa using find?_some hy
  have heq := inj_on_of_nodup_map (h.live.nodup_iff.2 hold) (mem_of_find?_eq_some hy) hx hname
  rw [Names.bss, find?_append, hy, heq]
  rfl

lemma named (h : Running old w) (hold : (old.map ifname).Nodup) :
    Named (· < old.length) (handleAt old w) (nameAt old) w := by
  have hlive : ∀ {p}, p < old.length → (handleAt old w p, nameAt old p) ∈ w.live := by
    intro p hp
    have hmem := h.live.mem_iff.2 (mem_names_iff.2 ⟨p, hp, rfl⟩)
    obtain ⟨x, hx, hname⟩ := List.mem_map.1 hmem
    have hx' : (handleAt old w p, nameAt old p) = x := by
      rw [handleAt, ← hname, h.bss_eq hold hx]
      rfl
    rwa [hx']
  constructor
  case live =>
    intro x
    constructor
    · intro hx
      obtain ⟨p, hp, hname⟩ := mem_names_iff.1 (h.live.mem_iff.1 (List.mem_map_of_mem hx))
      refine ⟨p, hp, ?_⟩
      rw [handleAt, ← hname, h.bss_eq hold hx]
      rfl
    · rintro ⟨p, hp, rfl⟩
      exact hlive hp
  case netdevs => exact fun m => h.netdevs.mem_iff.trans mem_names_iff
  case handles =>
    intro p q hp hq heq
    have := inj_on_of_nodup_map h.handles (hlive hp) (hlive hq) heq
    exact nameAt_inj hold hp hq (congrArg snd this)
  case names => exact fun p q hp hq => nameAt_inj hold hp hq

end Running

/-! ## Step 3 -/

lemma foreign_wdevRemove_delete (w : Names) (h : Handle) (m : String) :
    ((w.delete h).wdevRemove m).foreign = w.foreign := by
  unfold Names.wdevRemove Names.delete
  split <;> rfl

lemma deleteUnused_named {c : Calls Names} {handle : Nat → Handle} {all : List (Option String)}
    (hlen : all.length = old.length) {j : Nat} (hj : all[j]? = some none)
    (rest : List (Option String))
    (q : Nat) (w : Names) (hrest : all.drop q = rest)
    (h : Named (fun p => p < old.length ∧ (p < q → all[p]? = some none)) handle (nameAt old) w) :
    ∃ w', deleteUnused (onNames c) old q rest w = some w' ∧
      Named (fun p => all[p]? = some none) handle (nameAt old) w' ∧ w'.foreign = w.foreign := by
  have hlt : ∀ {p x}, all[p]? = some x → p < old.length := fun hp => by
    rw [← hlen]
    exact (List.getElem?_eq_some_iff.1 hp).1
  induction rest generalizing q w with
  | nil =>
    refine ⟨w, rfl, h.congr fun p => ⟨fun hp => hp.2 ?_, fun hp => ⟨hlt hp, fun _ => hp⟩⟩, rfl⟩
    rw [drop_eq_nil_iff] at hrest
    omega
  | cons x rest ih =>
    have hq : all[q]? = some x := by
      have := congrArg (fun l => l[0]?) hrest
      simpa using this
    have hrest' : all.drop (q + 1) = rest := by
      rw [← tail_drop, hrest, tail_cons]
    cases x with
    | none =>
      refine ih (q + 1) w hrest' (h.congr fun p => and_congr_right fun _ =>
        ⟨fun hp hpq => ?_, fun hp hpq => ?_⟩)
      · rcases Nat.lt_succ_iff_lt_or_eq.1 hpq with hpq | rfl
        · exact hp hpq
        · exact hq
      · exact hp (lt_succ_of_lt hpq)
    | some x =>
      obtain ⟨b, hb⟩ : ∃ b, old[q]? = some b := ⟨_, getElem?_eq_getElem (hlt hq)⟩
      have hname : nameAt old q = b.ifname := nameAt_eq hb
      have hjq : j ≠ q := by
        rintro rfl
        rw [hj] at hq
        cases hq
      have hdel := h.delete ⟨hlt hq, fun hqq => absurd hqq (Nat.lt_irrefl q)⟩
        ⟨hlt hj, fun _ => hj⟩ hjq
      have hleft : ∀ p, ((p < old.length ∧ (p < q → all[p]? = some none)) ∧ p ≠ q) ↔
          p < old.length ∧ (p < q + 1 → all[p]? = some none) := by
        intro p
        constructor
        · rintro ⟨⟨hp, hpq⟩, hne⟩
          exact ⟨hp, fun hlt => hpq (Nat.lt_of_le_of_ne (Nat.le_of_lt_succ hlt) hne)⟩
        rintro ⟨hp, hpq⟩
        refine ⟨⟨hp, fun hlt => hpq (lt_succ_of_lt hlt)⟩, ?_⟩
        rintro rfl
        have := hpq (lt_succ_self p)
        rw [hq] at this
        cases this
      obtain ⟨w', hrun, hnamed, hforeign⟩ := ih (q + 1) _ hrest' (hdel.congr hleft)
      refine ⟨w', ?_, hnamed, hforeign.trans (foreign_wdevRemove_delete ..)⟩
      have hbss := h.bss_eq (i := q) ⟨hlt hq, fun hqq => absurd hqq (Nat.lt_irrefl q)⟩
      rw [hname] at hbss hrun
      exact bind_eq_some_iff.2 ⟨b, hb, bind_eq_some_iff.2 ⟨handle q, hbss, hrun⟩⟩

end

/-! ## Steps 4 and 5 -/

/-- The names of each configuration are distinct, the temporary ones from all others, and no other
phy has a new name. -/
structure NamesDistinct (c : Calls Names) (new old : List Bss) (w : Names) : Prop where
  oldNames : (old.map ifname).Nodup
  newNames : (new.map ifname).Nodup
  foreign : ∀ m ∈ new.map ifname, m ∉ w.foreign.map snd
  tmp : ∀ m ∈ new.map ifname, ∀ m' ∈ new.map ifname, tmpName c m = tmpName c m' → m = m'
  tmpOld : ∀ m ∈ new.map ifname, tmpName c m ∉ old.map ifname
  tmpNew : ∀ m ∈ new.map ifname, tmpName c m ∉ new.map ifname
  tmpForeign : ∀ m ∈ new.map ifname, tmpName c m ∉ w.foreign.map snd

def prevOf (st : Reload) (i : Nat) : Nat := (st.kept i).elim 0 Kept.prev

def IsKept (st : Reload) (i : Nat) : Prop := (st.kept i).isSome

lemma prevOf_eq {st : Reload} {i : Nat} {k : Kept} (hk : st.kept i = some k) :
    prevOf st i = k.prev := by
  rw [prevOf, hk]
  rfl

lemma isKept_of_some {st : Reload} {i : Nat} {k : Kept} (hk : st.kept i = some k) :
    IsKept st i := by
  rw [IsKept, hk]
  rfl

section

variable {c : Calls Names} {new old : List Bss} {w : Names} {st : Reload} {handle : Nat → Handle}
  {name : Nat → String} {r : Renaming Names} {i : Nat}

structure Renamable (c : Calls Names) (new old : List Bss) (w : Names) (st : Reload)
    (handle : Nat → Handle) : Prop where
  distinct : NamesDistinct c new old w
  matching : Matching (onNames c) new old w new.length st
  handles : ∀ i k, st.kept i = some k → k.handle = handle i

/-- After `i` iterations of step 4, the BSS below `i` have their new or temporary names, the others
their old ones. -/
structure Phase (c : Calls Names) (new old : List Bss) (w : Names) (st : Reload)
    (handle : Nat → Handle) (i : Nat) (name : Nat → String) (r : Renaming Names) : Prop where
  named : Named (IsKept st) handle name r.world
  foreign : r.world.foreign = w.foreign
  todo : ∀ j, i ≤ j → name j = nameAt old (prevOf st j)
  done : ∀ j, j < i → IsKept st j →
    name j = if j ∈ r.renameList then tmpName c (nameAt new j) else nameAt new j
  config : ∀ j, i ≤ j → IsKept st j →
    r.old[prevOf st j]?.map ifname = some (nameAt old (prevOf st j))
  listed : ∀ j ∈ r.renameList, j < i ∧ IsKept st j
  nodup : r.renameList.Nodup

namespace Renamable

variable {k : Kept}

section

variable (h : Renamable c new old w st handle)
include h

section

variable (hi : IsKept st i)
include hi

lemma lt_length : i < new.length := by
  obtain ⟨k, hk⟩ := isSome_iff_exists.1 hi
  exact h.matching.bound i k hk

lemma mem_new : nameAt new i ∈ new.map ifname :=
  mem_names_iff.2 ⟨i, h.lt_length hi, rfl⟩

lemma mem_old : nameAt old (prevOf st i) ∈ old.map ifname := by
  obtain ⟨k, hk⟩ := isSome_iff_exists.1 hi
  obtain ⟨b, hb, -⟩ := h.matching.found i k hk
  rw [prevOf_eq hk]
  exact mem_names_iff.2 ⟨k.prev, (List.getElem?_eq_some_iff.1 hb).1, rfl⟩

lemma bss_eq : ∃ b, st.bss[i]? = some b ∧ b.ifname = nameAt new i := by
  have hlt := h.lt_length hi
  have hnames := congrArg (fun l => l[i]?) h.matching.names
  rw [getElem?_map, getElem?_map, getElem?_eq_getElem hlt] at hnames
  obtain ⟨b, hb, hbname⟩ := map_eq_some_iff.1 hnames
  exact ⟨b, hb, hbname.trans (nameAt_eq (getElem?_eq_getElem hlt)).symm⟩

end

variable {j : Nat}

lemma new_inj (hi : IsKept st i) (hj : IsKept st j) (heq : nameAt new i = nameAt new j) : i = j :=
  nameAt_inj h.distinct.newNames (h.lt_length hi) (h.lt_length hj) heq

lemma tmp_inj (hi : IsKept st i) (hj : IsKept st j)
    (heq : tmpName c (nameAt new i) = tmpName c (nameAt new j)) : i = j :=
  h.new_inj hi hj (h.distinct.tmp _ (h.mem_new hi) _ (h.mem_new hj) heq)

lemma tmp_ne_new (hi : IsKept st i) (hj : IsKept st j) :
    tmpName c (nameAt new i) ≠ nameAt new j := by
  intro heq
  exact h.distinct.tmpNew _ (h.mem_new hi) (heq ▸ h.mem_new hj)

lemma tmp_free (hp : Phase c new old w st handle i name r) (hi : IsKept st i) :
    ∀ j, IsKept st j → name j ≠ tmpName c (nameAt new i) := by
  intro j hj heq
  by_cases hji : j < i
  · rw [hp.done j hji hj] at heq
    split at heq
    · have := h.tmp_inj hj hi heq
      omega
    · exact h.tmp_ne_new hi hj heq.symm
  · rw [hp.todo j (Nat.le_of_not_lt hji)] at heq
    exact h.distinct.tmpOld _ (h.mem_new hi) (heq ▸ h.mem_old hj)

lemma prev_ne (hk : st.kept i = some k) (hj : IsKept st j) (hne : j ≠ i) :
    prevOf st j ≠ k.prev := by
  obtain ⟨k', hk'⟩ := isSome_iff_exists.1 hj
  intro heq
  rw [prevOf, hk'] at heq
  exact hne (h.matching.inj j i k' k hk' hk heq)

end

end Renamable

namespace Phase

section

variable (h : Phase c new old w st handle i name r)
include h

lemma pass
    (hname : IsKept st i → name i = nameAt new i) : Phase c new old w st handle (i + 1) name r where
  named := h.named
  foreign := h.foreign
  todo j hj := h.todo j (le_of_succ_le hj)
  done j hj hkept := by
    rcases Nat.lt_succ_iff_lt_or_eq.1 hj with hj | rfl
    · exact h.done j hj hkept
    · rw [if_neg fun hmem => Nat.lt_irrefl j (h.listed j hmem).1]
      exact hname hkept
  config j hj := h.config j (le_of_succ_le hj)
  listed j hj := ⟨lt_succ_of_lt (h.listed j hj).1, (h.listed j hj).2⟩
  nodup := h.nodup

lemma rename (hr : Renamable c new old w st handle)
    {k : Kept} (hk : st.kept i = some k) {tmp : Bool} {m : String} {w' : Names}
    (hm : m = if tmp then tmpName c (nameAt new i) else nameAt new i)
    (hnamed : Named (IsKept st) handle (update name i m) w')
    (hforeign : w'.foreign = r.world.foreign) :
    Phase c new old w st handle (i + 1) (update name i m)
      { old := setIfname r.old k.prev m
        renameList := if tmp then r.renameList ++ [i] else r.renameList
        world := w' } := by
  have hmem : ∀ j, j ∈ (if tmp then r.renameList ++ [i] else r.renameList) ↔
      j ∈ r.renameList ∨ (tmp ∧ j = i) := by
    intro j
    cases tmp <;> simp
  have hnot : i ∉ r.renameList := fun hi => Nat.lt_irrefl i (h.listed i hi).1
  have hkept : IsKept st i := isKept_of_some hk
  constructor
  case named => exact hnamed
  case foreign => exact hforeign.trans h.foreign
  case todo =>
    intro j hj
    rw [update_of_ne (Nat.ne_of_gt hj)]
    exact h.todo j (le_of_succ_le hj)
  case done =>
    intro j hj hjk
    rcases Nat.lt_succ_iff_lt_or_eq.1 hj with hj | rfl
    · have hne : j ≠ i := Nat.ne_of_lt hj
      rw [update_of_ne hne, h.done j hj hjk]
      exact if_congr (by rw [hmem]; simp [hne]) rfl rfl
    · rw [update_self, hm]
      exact if_congr (by rw [hmem]; simp [hnot]) rfl rfl
  case config =>
    intro j hj hjk
    have hne := hr.prev_ne hk hjk (Nat.ne_of_gt hj)
    rw [setIfname, getElem?_modify, ← h.config j (le_of_succ_le hj) hjk]
    simp [hne.symm]
  case listed =>
    intro j hj
    rcases (hmem j).1 hj with hj | ⟨-, rfl⟩
    · exact ⟨lt_succ_of_lt (h.listed j hj).1, (h.listed j hj).2⟩
    · exact ⟨lt_succ_self j, hkept⟩
  case nodup =>
    cases tmp with
    | false => exact h.nodup
    | true =>
      refine List.Nodup.append h.nodup (nodup_singleton i) ?_
      simpa using hnot

lemma step (hr : Renamable c new old w st handle) :
    ∃ r', renamePreserved (onNames c) st r i = some r' ∧
      ∃ name', Phase c new old w st handle (i + 1) name' r' := by
  unfold renamePreserved
  cases hk : st.kept i with
  | none =>
    refine ⟨r, rfl, name, h.pass fun hkept => ?_⟩
    rw [IsKept, hk] at hkept
    cases hkept
  | some k =>
    have hkept : IsKept st i := isKept_of_some hk
    obtain ⟨cfg, hcfg, hname⟩ := map_eq_some_iff.1 (h.config i (Nat.le_refl i) hkept)
    rw [← h.todo i (Nat.le_refl i)] at hname
    rw [prevOf_eq hk] at hcfg
    obtain ⟨b, hb, hbname⟩ := hr.bss_eq hkept
    simp only [hcfg, hb, bind_eq_bind, bind_some, hname, hbname]
    split
    next heq => exact ⟨r, rfl, name, h.pass fun _ => heq⟩
    next =>
      have hnotForeign : nameAt new i ∉ r.world.foreign.map snd := by
        rw [h.foreign]
        exact hr.distinct.foreign _ (hr.mem_new hkept)
      have htmpForeign : tmpName c (nameAt new i) ∉ r.world.foreign.map snd := by
        rw [h.foreign]
        exact hr.distinct.tmpForeign _ (hr.mem_new hkept)
      -- the name is free, or a temporary one is taken, which is free
      have hfree : ∃ w', r.world.rename (handle i)
          (if (r.world.bss (nameAt new i)).isSome then tmpName c (nameAt new i) else nameAt new i) =
            some w' ∧ Named (IsKept st) handle (update name i
          (if (r.world.bss (nameAt new i)).isSome then tmpName c (nameAt new i) else nameAt new i))
            w' ∧
            w'.foreign = r.world.foreign := by
        split
        · exact h.named.rename hkept (hr.tmp_free h hkept) htmpForeign
        next huse =>
          refine h.named.rename hkept (fun j hj heq => huse ?_) hnotForeign
          exact (h.named.bss_isSome_iff hnotForeign).2 ⟨j, hj, heq.symm⟩
      obtain ⟨w', hrename, hnamed, hforeign⟩ := hfree
      rw [← hr.handles i k hk] at hrename
      exact ⟨_, bind_eq_some_iff.2 ⟨w', hrename, rfl⟩, _, h.rename hr hk rfl hnamed hforeign⟩

end

end Phase

/-- In step 5, the BSS in the rest of `rename_list` have temporary names, all others their new
ones. -/
structure Finishing (c : Calls Names) (new : List Bss) (w : Names) (st : Reload)
    (handle : Nat → Handle) (rest : List Nat) (name : Nat → String)
    (r : Renaming Names) : Prop where
  named : Named (IsKept st) handle name r.world
  foreign : r.world.foreign = w.foreign
  names : ∀ j, IsKept st j → name j = if j ∈ rest then tmpName c (nameAt new j) else nameAt new j
  kept : ∀ j ∈ rest, IsKept st j
  nodup : rest.Nodup

lemma Phase.finishing (h : Phase c new old w st handle new.length name r)
    (hr : Renamable c new old w st handle) : Finishing c new w st handle r.renameList name r where
  named := h.named
  foreign := h.foreign
  names j hj := h.done j (hr.lt_length hj) hj
  kept j hj := (h.listed j hj).2
  nodup := h.nodup

lemma Finishing.step {rest : List Nat} (h : Finishing c new w st handle (i :: rest) name r)
    (hr : Renamable c new old w st handle) :
    ∃ r', renameTemporary (onNames c) st r i = some r' ∧
      ∃ name', Finishing c new w st handle rest name' r' := by
  have hi := h.kept i mem_cons_self
  obtain ⟨k, hk⟩ := isSome_iff_exists.1 hi
  obtain ⟨b, hb, hbname⟩ := hr.bss_eq hi
  obtain ⟨hnot, hnodup⟩ := nodup_cons.1 h.nodup
  have hfree : ∀ j, IsKept st j → name j ≠ nameAt new i := by
    intro j hj heq
    rw [h.names j hj] at heq
    split at heq
    · exact hr.tmp_ne_new hj hi heq
    next hmem =>
      obtain rfl := hr.new_inj hj hi heq
      exact hmem mem_cons_self
  have hforeign : nameAt new i ∉ r.world.foreign.map snd := by
    rw [h.foreign]
    exact hr.distinct.foreign _ (hr.mem_new hi)
  obtain ⟨w', hrename, hnamed, hw'⟩ := h.named.rename hi hfree hforeign
  rw [← hr.handles i k hk, ← hbname] at hrename
  refine ⟨_, bind_eq_some_iff.2 ⟨k, hk, bind_eq_some_iff.2 ⟨b, hb,
    bind_eq_some_iff.2 ⟨w', hrename, rfl⟩⟩⟩, _, hnamed, hw'.trans h.foreign, ?_, ?_, hnodup⟩
  · intro j hj
    by_cases hji : j = i
    · rw [hji, update_self, if_neg hnot]
    · rw [update_of_ne hji, h.names j hj]
      exact if_congr (by simp [hji]) rfl rfl
  · exact fun j hj => h.kept j (mem_cons_of_mem i hj)

lemma Phase.finish {r₀ : Renaming Names} (h : Phase c new old w st handle 0 name r₀)
    (hr : Renamable c new old w st handle) :
    ∃ r₁ r, (range new.length).foldlM (renamePreserved (onNames c) st) r₀ = some r₁ ∧
      r₁.renameList.foldlM (renameTemporary (onNames c) st) r₁ = some r ∧
      ∃ name', Finishing c new w st handle [] name' r := by
  obtain ⟨r₁, hrun₁, name₁, hphase⟩ := Loops.range_total
    (fun i r => ∃ name, Phase c new old w st handle i name r) ⟨name, h⟩
    fun i r _ ⟨_, hphase⟩ => hphase.step hr
  obtain ⟨r, hrun, hfin⟩ := Loops.list_total
    (fun rest r => ∃ name, Finishing c new w st handle rest name r)
    (fun i rest r ⟨_, hfin⟩ => hfin.step hr) r₁.renameList r₁ ⟨name₁, hphase.finishing hr⟩
  exact ⟨r₁, r, hrun₁, hrun, hfin⟩

end

/-! ## The whole renaming -/

section

variable {c : Calls Names} {config : Config} {old : List Bss} {w : Names} {st : Reload}
  {new : List Bss}

lemma Matching.renamable (h : Matching (onNames c) new old w new.length st)
    (hnames : NamesDistinct c new old w) :
    Renamable c new old w st (handleAt old w ∘ prevOf st) where
  distinct := hnames
  matching := h
  handles i k hk := by
    obtain ⟨b, hb, hhandle⟩ := h.found i k hk
    have hhandle : w.bss b.ifname = some k.handle := hhandle
    rw [comp_apply, handleAt, prevOf_eq hk, nameAt_eq hb, hhandle]
    rfl

lemma Matching.reindex (h : Matching (onNames c) new old w new.length st)
    {handle : Nat → Handle} {name : Nat → String} {w' : Names}
    (hnamed : Named (fun p => st.prevBssHash[p]? = some none) handle name w') :
    Named (IsKept st) (handle ∘ prevOf st) (name ∘ prevOf st) w' := by
  refine hnamed.reindex (fun i hi => ?_) (fun p hp => ?_) fun i j hi hj heq => ?_
  · obtain ⟨k, hk⟩ := isSome_iff_exists.1 hi
    exact (h.used _).2 ⟨i, k, hk, (prevOf_eq hk).symm⟩
  · obtain ⟨i, k, hk, rfl⟩ := (h.used p).1 hp
    exact ⟨i, isKept_of_some hk, prevOf_eq hk⟩
  · obtain ⟨k, hk⟩ := isSome_iff_exists.1 hi
    obtain ⟨k', hk'⟩ := isSome_iff_exists.1 hj
    rw [prevOf_eq hk, prevOf_eq hk'] at heq
    exact h.inj i j k k' hk hk' heq

lemma renameBss_named (hnames : NamesDistinct c config.bss old w) (hrun : Running old w)
    (h : reuseBss (onNames c) config old w = some st) :
    ∃ r name, renameBss (onNames c) st old w = some r ∧
      Finishing c config.bss w st (handleAt old w ∘ prevOf st) [] name r := by
  obtain ⟨hmatch, i, k, hk⟩ := reuseBss_matching h
  have hall : Named (fun p => p < old.length ∧ (p < 0 → st.prevBssHash[p]? = some none))
      (handleAt old w) (nameAt old) w := by
    refine (hrun.named hnames.oldNames).congr fun p => ?_
    simp
  obtain ⟨w', hdel, hnamed, hforeign⟩ := deleteUnused_named (c := c) hmatch.length
    ((hmatch.used k.prev).2 ⟨i, k, hk, rfl⟩) st.prevBssHash 0 w drop_zero hall
  have hphase : Phase c config.bss old w st (handleAt old w ∘ prevOf st) 0
      (nameAt old ∘ prevOf st) { old := old, world := w' } := by
    refine ⟨hmatch.reindex hnamed, hforeign, fun _ _ => rfl, fun j hj => absurd hj (not_lt_zero j),
      fun j _ hj => ?_, by simp, nodup_nil⟩
    obtain ⟨k, hk⟩ := isSome_iff_exists.1 hj
    obtain ⟨b, hb, -⟩ := hmatch.found j k hk
    rw [prevOf_eq hk, nameAt_eq hb]
    rw [hb]
    rfl
  have hlen : st.bss.length = config.bss.length := by simpa using congrArg List.length hmatch.names
  obtain ⟨r₁, r, hrun₁, hrun₂, name, hfin⟩ := hphase.finish (hmatch.renamable hnames)
  refine ⟨r, name, ?_, hfin⟩
  unfold renameBss
  rw [hlen]
  exact bind_eq_some_iff.2 ⟨w', hdel, bind_eq_some_iff.2 ⟨r₁, hrun₁, hrun₂⟩⟩

end

/-- **Matching and renaming.** Every BSS that runs is kept for at most one new BSS, and steps 3 to 5
get to their end. Then exactly the kept BSS are there, each with its new name and its network
device. -/
theorem reload_renames (c : Calls Names) (config : Config) (old : List Bss) (w : Names)
    (st : Reload)
    (hnames : NamesDistinct c config.bss old w) (hrun : Running old w)
    (h : reuseBss (onNames c) config old w = some st) :
    (∀ i j k k', st.kept i = some k → st.kept j = some k' → k.prev = k'.prev → i = j) ∧
    ∃ r, renameBss (onNames c) st old w = some r ∧
      (∀ i k, st.kept i = some k → ∃ b b', old[k.prev]? = some b ∧ config.bss[i]? = some b' ∧
        (k.handle, b.ifname) ∈ w.live ∧ (k.handle, b'.ifname) ∈ r.world.live) ∧
      (∀ x ∈ r.world.live, ∃ i k b, st.kept i = some k ∧ config.bss[i]? = some b ∧
        x = (k.handle, b.ifname)) ∧
      (∀ m, m ∈ r.world.netdevs ↔ m ∈ r.world.live.map snd) ∧
      ∀ p b handle, old[p]? = some b → (∀ i k, st.kept i = some k → k.prev ≠ p) →
        (handle, b.ifname) ∈ w.live → handle ∉ r.world.live.map fst := by
  obtain ⟨hmatch, -⟩ := reuseBss_matching h
  have hr := hmatch.renamable hnames
  have hold := hrun.named hnames.oldNames
  obtain ⟨r, name, hrename, hfin⟩ := renameBss_named hnames hrun h
  have hname : ∀ {i}, IsKept st i → name i = nameAt config.bss i := by
    intro i hi
    rw [hfin.names i hi, if_neg not_mem_nil]
  refine ⟨hmatch.inj, r, hrename, ?_, ?_, ?_, ?_⟩
  · intro i k hk
    have hi : IsKept st i := isKept_of_some hk
    obtain ⟨b, hb, hhandle⟩ := hmatch.found i k hk
    obtain ⟨b', hb'⟩ : ∃ b', config.bss[i]? = some b' :=
      ⟨_, getElem?_eq_getElem (hr.lt_length hi)⟩
    refine ⟨b, b', hb, hb', ?_, ?_⟩
    · have hhandle : w.bss b.ifname = some k.handle := hhandle
      refine (hold.live _).2 ⟨k.prev, (List.getElem?_eq_some_iff.1 hb).1, ?_⟩
      rw [handleAt, nameAt_eq hb, hhandle]
      rfl
    · refine (hfin.named.live _).2 ⟨i, hi, ?_⟩
      rw [hname hi, nameAt_eq hb', hr.handles i k hk]
  · intro x hx
    obtain ⟨i, hi, rfl⟩ := (hfin.named.live x).1 hx
    obtain ⟨k, hk⟩ := isSome_iff_exists.1 hi
    obtain ⟨b, hb⟩ : ∃ b, config.bss[i]? = some b := ⟨_, getElem?_eq_getElem (hr.lt_length hi)⟩
    exact ⟨i, k, b, hk, hb, by rw [hname hi, nameAt_eq hb, hr.handles i k hk]⟩
  · intro m
    rw [hfin.named.netdevs, List.mem_map]
    constructor
    · rintro ⟨i, hi, rfl⟩
      exact ⟨_, (hfin.named.live _).2 ⟨i, hi, rfl⟩, rfl⟩
    · rintro ⟨x, hx, rfl⟩
      obtain ⟨i, hi, rfl⟩ := (hfin.named.live x).1 hx
      exact ⟨i, hi, rfl⟩
  · intro p b handle hb hnot hlive hmem
    obtain ⟨x, hx, rfl⟩ := List.mem_map.1 hmem
    obtain ⟨i, hi, rfl⟩ := (hfin.named.live x).1 hx
    obtain ⟨q, hq, heq⟩ := (hold.live _).1 hlive
    obtain ⟨hhandle, hbname⟩ := mk.inj heq
    have hpq : p = q := by
      refine nameAt_inj hnames.oldNames (List.getElem?_eq_some_iff.1 hb).1 hq ?_
      rw [nameAt_eq hb, hbname]
    obtain ⟨k, hk⟩ := isSome_iff_exists.1 hi
    obtain ⟨b', hb', -⟩ := hmatch.found i k hk
    rw [comp_apply, prevOf_eq hk] at hhandle
    have := hold.handles k.prev q (List.getElem?_eq_some_iff.1 hb').1 hq hhandle
    exact hnot i k hk (this.trans hpq.symm)

def namesCalls : Calls Names where
  sha1 s := s
  sha1Lines lines := String.join lines
  phyIsFullmac := false
  wdevMacaddr := []
  macaddrGenerate _ _ _ := none
  interface _ := true
  bss := Names.bss
  delete := Names.delete
  wdevRemove := Names.wdevRemove
  rename := Names.rename
  addBss _ _ _ := none
  setBssOrder _ w := some w
  setConfig _ _ _ _ w := some w
  reloadWpaPsk _ w := w

def threeBss : List Bss :=
  [{ ifname := "wlan0", bssid := "02:00:00:00:00:01", data := ["ssid=a"] },
    { ifname := "wlan1", bssid := "02:00:00:00:00:02", data := ["ssid=b"] },
    { ifname := "wlan2", bssid := "02:00:00:00:00:03", data := ["ssid=c"] }]

def exchanged : Config where
  bss := [{ ifname := "wlan0", bssid := "02:00:00:00:00:02", data := ["ssid=b"] },
    { ifname := "wlan1", bssid := "02:00:00:00:00:01", data := ["ssid=a"] }]

def threeRunning : Names where
  live := [(1, "wlan0"), (2, "wlan1"), (3, "wlan2")]
  netdevs := ["wlan0", "wlan1", "wlan2"]
  foreign := [(4, "wlan3")]

lemma exchanged_distinct : NamesDistinct namesCalls exchanged.bss threeBss threeRunning := by
  constructor <;> decide +kernel

lemma threeBss_running : Running threeBss threeRunning := by
  constructor <;> decide +kernel

theorem reload_renames_exchanged : ∃ st r,
    reuseBss (onNames namesCalls) exchanged threeBss threeRunning = some st ∧
    renameBss (onNames namesCalls) st threeBss threeRunning = some r ∧
    ∀ x ∈ r.world.live, ∃ i k b, st.kept i = some k ∧ exchanged.bss[i]? = some b ∧
      x = (k.handle, b.ifname) := by
  have hsome : (reuseBss (onNames namesCalls) exchanged threeBss threeRunning).isSome := by
    decide +kernel
  obtain ⟨st, hst⟩ := isSome_iff_exists.1 hsome
  obtain ⟨-, r, hr, -, hlive, -⟩ := reload_renames namesCalls exchanged threeBss threeRunning st
    exchanged_distinct threeBss_running hst
  exact ⟨st, r, hst, hr, hlive⟩

example : (reuseBss namesCalls exchanged threeBss threeRunning).bind (fun st =>
    (renameBss namesCalls st threeBss threeRunning).map fun r => (r.renameList, r.world.live)) =
      some ([0], [(1, "wlan1"), (2, "wlan0")]) := by
  decide +kernel

end SourceMaster.Hostapd
