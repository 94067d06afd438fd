import SourceMaster.Hostapd.Bssid

/-!
# The address of the first BSS

The address of the first BSS cannot be changed while hostapd runs. Step 6 of `iface_reload_config`
tests for it with `!mac_idx < 0`, which is never true, and gives the first BSS another address
(`first_bss_moved`).
-/

namespace SourceMaster.Hostapd

open Function Option

variable {σ : Type} {c : Calls σ} {old : List Bss} {w : σ} {st : Reload} {n i : Nat} {a : String}

/-- A new BSS has a static address that the first BSS has as well. -/
def Reload.Conflict (st : Reload) : Prop := ∃ i, NewStatic st.bss st.kept i ∧
    addr st.bss i = addr st.bss 0

lemma reuseBss_list {config : Config} (h : reuseBss c config old w = some st) {v : Int}
    (hv : st.macaddrList a = some v) : 0 ≤ v ∧ (v = 0 → addr st.bss 0 = some a) := by
  obtain ⟨st₁, hfind, h⟩ := reuseBss_cases h
  have hfirst : ∀ {a v}, st₁.macaddrList a = some v → 0 ≤ v ∧ (v = 0 → addr st₁.bss 0 = some a ∧
      (isDefault st₁.bss 0 = some false ∨ (st₁.kept 0).isSome)) := by
    intro a v hv
    obtain ⟨t, rfl, htook⟩ := hfind.values a v hv
    refine ⟨Int.natCast_nonneg t, fun h0 => ?_⟩
    obtain rfl : t = 0 := Int.ofNat.inj h0
    rw [hfind.flags, hfind.kept_isSome]
    rcases htook with hs | ⟨hlt, htakes⟩
    · obtain ⟨hd, ha⟩ := staticAddr_iff.1 hs
      exact ⟨(hfind.addr_static hd).trans ha, .inl hd⟩
    · exact ⟨hfind.took 0 a hlt htakes, .inr htakes.kept⟩
  rcases preserveFirst_cases h with ⟨-, rfl⟩ | ⟨hnone, b, hf⟩
  · exact (hfirst hv).imp_right fun hzero h0 => (hzero h0).1
  rw [hf.list] at hv
  rw [hf.addrFirst]
  by_cases ha : a = b
  · rw [ha, update_self] at hv
    rw [ha, ← some.inj hv]
    exact ⟨Int.le_refl 0, fun _ => rfl⟩
  · rw [update_of_ne ha] at hv
    refine (hfirst hv).imp_right fun hzero h0 => ?_
    obtain ⟨haddr, hd | hk⟩ := hzero h0
    · rw [← hf.static hd, haddr]
    · rw [hnone 0 (addr_isSome.1 (by simp [haddr]))] at hk
      cases hk

/-- Step 6 has not moved the first BSS, and the addresses that could are where they were. -/
structure Unmoved (bss : List Bss) (list : MacaddrList) (bss' : List Bss)
    (list' : MacaddrList) : Prop where
  first : addr bss' 0 = addr bss 0
  flags : ∀ t, isDefault bss' t = isDefault bss t
  moves : ∀ t a v, addr bss' t = some a → list' a = some v → v = 0 ∨ v < -1 → addr bss t = some a ∧
    list a = some v

namespace Unmoved

variable {bss bss' : List Bss} {list list' : MacaddrList} {kept : Nat → Option Kept}
  {generate : Nat → Option String} {s : List Bss × MacaddrList}

section

variable (h : Unmoved bss list bss' list')
include h

lemma update (hi : i ≠ 0) (a : String) :
    Unmoved bss list bss' (Function.update list' a (some (i : Int))) := by
  refine { h with moves := fun t x v hx hv hmoves => ?_ }
  by_cases ha : x = a
  · rw [ha, update_self] at hv
    have := some.inj hv
    omega
  · rw [update_of_ne ha] at hv
    exact h.moves t x v hx hv hmoves

lemma assign (ht : n ≠ 0) (hlt : n < bss'.length) (hi : i ≠ 0) (a : String) :
    Unmoved bss list (setBssid bss' n a) (Function.update list' a (some (i : Int))) := by
  refine ⟨(addr_setBssid_ne ht.symm).trans h.first, fun t => isDefault_setBssid.trans (h.flags t),
    ?_⟩
  intro t x v hx hv hmoves
  by_cases hn : t = n
  · rw [hn, addr_setBssid_self hlt] at hx
    rw [← some.inj hx, update_self] at hv
    have := some.inj hv
    omega
  · rw [addr_setBssid_ne hn] at hx
    exact (h.update hi a).moves t x v hx hv hmoves

lemma step (hkept : (kept 0).isSome)
    (hno : ∀ i a v, NewStatic bss kept i → addr bss i = some a → list a = some v →
    ¬ (v = 0 ∨ v < -1))
    (hs : assignBssid generate kept (bss', list') i = some s) : Unmoved bss list s.1 s.2 := by
  obtain ⟨-, rfl⟩ | ⟨hnew, b, hb, hs⟩ := assignBssid_cases hs
  · exact h
  have hi : i ≠ 0 := by
    rintro rfl
    rw [hnew] at hkept
    cases hkept
  have hlist : Unmoved bss list bss' (claimed list' i b.bssid) := by
    unfold claimed
    split
    · exact h.update hi _
    · exact h
  cases hs with
  | own => exact hlist
  | @next t a _ ht hlt =>
    refine hlist.assign (fun hzero => ?_) hlt hi a
    split at ht
    · exact hi (ht.symm.trans hzero)
    next hd =>
      obtain ⟨v, hv, rfl⟩ := ht
      have hlen : i < bss'.length := (List.getElem?_eq_some_iff.1 hb).1
      have hmoves : v = 0 ∨ v < -1 := by
        dsimp only [arrayIndex] at hzero
        split at hzero <;> omega
      obtain ⟨haddr, hl⟩ := h.moves i b.bssid v (by rw [addr, hb]; rfl) hv hmoves
      refine hno i _ v ⟨hnew, ?_⟩ haddr hl hmoves
      rw [← h.flags, isDefault, hb, map_some, Bool.eq_false_iff.2 hd]

end

end Unmoved

/-- **The first BSS**, if kept and the function returns true, is not moved by step 6 and had no
conflict iff there is none in the state before the step. -/
theorem first_bss_stays_iff {config o : Config} {r : Reloaded σ}
    (h : ifaceReloadConfig c config (some o) w = some r)
    (hne : bssIsEqual o.bss config.bss = false) (hst : reuseBss c config o.bss w = some st)
    (hkept : (st.kept 0).isSome) :
    (addr r.config.bss 0 = addr st.bss 0 ∧ ¬ st.Conflict) ↔ ¬ st.Conflict := by
  refine and_iff_right_of_imp fun hno => ?_
  obtain ⟨heq, -⟩ | ⟨-, st₁, hst₁, hbss⟩ := ifaceReloadConfig_cases h
  · rw [hne] at heq
    cases heq
  obtain rfl : st₁ = st := some.inj (hst₁.symm.trans hst)
  obtain ⟨res, hrun, hbss⟩ := bind_eq_some_iff.1 hbss
  rw [← some.inj hbss]
  have hmoves : ∀ i a v, NewStatic st₁.bss st₁.kept i → addr st₁.bss i = some a →
      macaddrInit c st₁.macaddrList a = some v → ¬ (v = 0 ∨ v < -1) := by
    intro i a v hi ha hv hmoves
    unfold macaddrInit at hv
    split at hv
    next idx hidx =>
      obtain ⟨hpos, hzero⟩ := reuseBss_list hst (hidx.trans hv)
      exact hno ⟨i, hi, ha.trans (hzero (by omega)).symm⟩
    next =>
      split at hv
      · have := some.inj hv
        omega
      · cases hv
  exact (Loops.range_inv (fun _ s => Unmoved st₁.bss (macaddrInit c st₁.macaddrList) s.1 s.2)
    ⟨rfl, fun _ => rfl, fun _ _ _ ha hv _ => ⟨ha, hv⟩⟩
      (fun _ _ _ _ hinv hs => hinv.step hkept hmoves hs) hrun).first

/-- No BSS is found, so the first one is preserved, with the static address of the second one. -/
def secondTakesFirst : Config where
  bss := [{ ifname := "wlan0", bssid := "02:00:00:00:00:03", defaultMacaddr := true, data :=
    ["ssid=c"] }, { ifname := "wlan1", bssid := "02:00:00:00:00:01", data := ["ssid=d"] }]

def generatingCalls : Calls Unit :=
    { quietCalls with macaddrGenerate := fun _ _ _ => some "02:00:00:00:00:04" }

/-- The second BSS takes the address of the first one, which then gets a new one. -/
theorem first_bss_moved :
    (reuseBss generatingCalls secondTakesFirst twoBss.bss ()).map
    (fun st => ((st.kept 0).isSome, addr st.bss 0)) =
      some (true, some "02:00:00:00:00:01") ∧
    (ifaceReloadConfig generatingCalls secondTakesFirst (some twoBss) ()).map (fun r => addr
    r.config.bss 0) = some (some "02:00:00:00:00:04") := by
  decide +kernel

theorem first_bss_stays_iff_kept :
    ∃ r st, ifaceReloadConfig quietCalls firstTakesSecond (some twoBss) () = some r ∧
    reuseBss quietCalls firstTakesSecond twoBss.bss () = some st ∧
    ((addr r.config.bss 0 = addr st.bss 0 ∧ ¬ st.Conflict) ↔ ¬ st.Conflict) := by
  have hsome : (ifaceReloadConfig quietCalls firstTakesSecond (some twoBss) ()).isSome := by
    decide +kernel
  have hkept : (reuseBss quietCalls firstTakesSecond twoBss.bss ()).any fun st =>
    (st.kept 0).isSome := by
    decide +kernel
  obtain ⟨r, hr⟩ := isSome_iff_exists.1 hsome
  obtain ⟨st, hst, hkept⟩ := (any_eq_true _ _).1 hkept
  exact ⟨r, st, hr, hst, first_bss_stays_iff hr (by decide +kernel) hst hkept⟩

end SourceMaster.Hostapd
