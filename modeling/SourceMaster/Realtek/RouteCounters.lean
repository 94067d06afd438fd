import SourceMaster.Realtek.Routes

/-!
# Packet counters of routes and flows

Every rule of the packet inspection engine gets a packet counter from `rtl83xx_packet_cntr_alloc`.
The counters are taken in pairs from the octet counters, and a one in `packet_cntr_use_bm` is the
second counter of a pair, or one that was given back. Only `rtl83xx_fib4_del` gives counters back,
whether the route has got one or not: a route that was never resolved has the counter 0 in its rule,
and one that got none has -1.

`Ledger` relates the two maps to the rules that hold counters (`counters_exclusive_iff`).
-/

namespace SourceMaster.Realtek

open Runs Switch Function Option Offload Int

/-! ## The maps -/

/-- Each counter has at most one holder; a held counter is not free, and its octet counter is in
use, as is that of a free one. -/
structure Ledger {H : Type*} (c : Counters) (holds : H → Nat → Prop) : Prop where
  exclusive : ∀ h h' n, holds h n → holds h' n → h = h'
  held : ∀ h n, holds h n → c.packetCntrUseBm n = false ∧ c.octetCntrUseBm (n / 2)
  free : ∀ n, c.packetCntrUseBm n → c.octetCntrUseBm (n / 2)

section

variable {H : Type*} {c : Counters} {holds holds' : H → Nat → Prop} {h₀ : H} {n₀ : Nat}

lemma Ledger.mono (hc : Ledger c holds) (hsub : ∀ h n, holds' h n → holds h n) :
    Ledger c holds' where
  exclusive h h' n hn hn' := hc.exclusive h h' n (hsub h n hn) (hsub h' n hn')
  held h n hn := hc.held h n (hsub h n hn)
  free := hc.free

lemma exclusive_of_new (hc : ∀ h h' n, holds h n → holds h' n → h = h')
    (hnew : ∀ h, ¬ holds h n₀) (hsub : ∀ h n, holds' h n → holds h n ∨ h = h₀ ∧ n = n₀) (h h' : H)
    (n : Nat) (hn : holds' h n) (hn' : holds' h' n) : h = h' := by
  obtain hn | ⟨rfl, rfl⟩ := hsub h n hn
  · obtain hn' | ⟨-, rfl⟩ := hsub h' n hn'
    · exact hc h h' n hn hn'
    · exact absurd hn (hnew h)
  · obtain hn' | ⟨rfl, -⟩ := hsub h' n hn'
    · exact absurd hn' (hnew h')
    · rfl

lemma findFirstBit_eq_true {bm : Nat → Bool} {n : Nat} (h : findFirstBit bm n < n) :
    bm (findFirstBit bm n) := by
  have := findFirstZeroBit_eq_false h
  simpa [findFirstBit] using this

lemma Ledger.alloc (hc : Ledger c holds)
    (hsub : ∀ h n, holds' h n → holds h n ∨ h = h₀ ∧ (n : Int) = (packetCntrAlloc c).1) :
    Ledger (packetCntrAlloc c).2 holds' := by
  unfold packetCntrAlloc at hsub ⊢
  dsimp only at hsub ⊢
  generalize hidx : findFirstBit c.packetCntrUseBm (MAX_COUNTERS * 2) = idx at hsub ⊢
  generalize hj : findFirstZeroBit c.octetCntrUseBm MAX_COUNTERS = j at hsub ⊢
  split_ifs at hsub ⊢ with hfull hnone
  · -- no counter is left
    apply hc.mono
    intro h n hn
    obtain hn | ⟨-, hn⟩ := hsub h n hn
    · exact hn
    · omega
  · -- a new pair, of which the second one is free
    have hfree : c.octetCntrUseBm j = false := by
      rw [← hj]
      apply findFirstZeroBit_eq_false
      rw [hj]
      exact (Nat.lt_of_not_le hnone).trans (by decide)
    have hsub' : ∀ h n, holds' h n → holds h n ∨ h = h₀ ∧ n = j * 2 := by
      intro h n hn
      obtain hn | ⟨hh, hn⟩ := hsub h n hn
      · exact .inl hn
      · exact .inr ⟨hh, by omega⟩
    have hpair : ∀ n, c.octetCntrUseBm (n / 2) → n / 2 ≠ j := by
      rintro n hn rfl
      rw [hn] at hfree
      cases hfree
    have hnew : ∀ h, ¬ holds h (j * 2) := fun h hn =>
      hpair _ (hc.held h _ hn).2 (Nat.mul_div_cancel j (by decide))
    refine ⟨exclusive_of_new hc.exclusive hnew hsub', fun h n hn => ?_, fun n hn => ?_⟩
    · dsimp only
      obtain hn | ⟨-, rfl⟩ := hsub' h n hn
      · obtain ⟨hfalse, htrue⟩ := hc.held h n hn
        have hne := hpair n htrue
        rw [update_of_ne (by omega), update_of_ne hne]
        exact ⟨hfalse, htrue⟩
      · rw [update_of_ne (by omega), show j * 2 / 2 = j by omega, update_self]
        refine ⟨?_, rfl⟩
        rw [Bool.eq_false_iff]
        intro htrue
        exact hpair _ (hc.free _ htrue) (by omega)
    · dsimp only at hn ⊢
      by_cases hne : n = j * 2 + 1
      · rw [hne, show (j * 2 + 1) / 2 = j by omega, update_self]
      · rw [update_of_ne hne] at hn
        rw [update_of_ne (hpair n (hc.free n hn))]
        exact hc.free n hn
  · -- one that is free
    have hfree : c.packetCntrUseBm idx := by
      rw [← hidx]
      apply findFirstBit_eq_true
      rw [hidx]
      exact (Nat.lt_of_not_le hfull).trans (by decide)
    have hsub' : ∀ h n, holds' h n → holds h n ∨ h = h₀ ∧ n = idx := by
      intro h n hn
      obtain hn | ⟨hh, hn⟩ := hsub h n hn
      · exact .inl hn
      · exact .inr ⟨hh, by omega⟩
    have hnew : ∀ h, ¬ holds h idx := by
      intro h hn
      rw [(hc.held h idx hn).1] at hfree
      cases hfree
    refine ⟨exclusive_of_new hc.exclusive hnew hsub', fun h n hn => ?_, fun n hn => ?_⟩
    · dsimp only
      obtain hn | ⟨-, rfl⟩ := hsub' h n hn
      · have hne : n ≠ idx := by
          rintro rfl
          exact hnew h hn
        rw [update_of_ne hne]
        exact hc.held h n hn
      · rw [update_self]
        exact ⟨rfl, hc.free _ hfree⟩
    · dsimp only at hn ⊢
      apply hc.free
      by_cases hne : n = idx
      · rw [hne, update_self] at hn
        cases hn
      · rwa [update_of_ne hne] at hn

lemma Ledger.release (hc : Ledger c holds) (hn₀ : holds h₀ n₀ ∨ c.packetCntrUseBm n₀)
    (hsub : ∀ h n, holds' h n → holds h n ∧ h ≠ h₀) : Ledger (c.release n₀) holds' := by
  have hother : ∀ h n, holds' h n → n ≠ n₀ := by
    rintro h n hn rfl
    obtain ⟨hn, hh⟩ := hsub h n hn
    obtain hn₀ | hn₀ := hn₀
    · exact hh (hc.exclusive h h₀ n hn hn₀)
    · rw [(hc.held h n hn).1] at hn₀
      cases hn₀
  have hnonneg : ¬ (n₀ : Int) < 0 := by omega
  unfold Counters.release
  rw [if_neg hnonneg, toNat_natCast]
  refine ⟨fun h h' n hn hn' => ?_, fun h n hn => ?_, fun n hn => ?_⟩
  · exact hc.exclusive h h' n (hsub h n hn).1 (hsub h' n hn').1
  · dsimp only
    rw [update_of_ne (hother h n hn)]
    exact hc.held h n (hsub h n hn).1
  · dsimp only at hn ⊢
    by_cases hne : n = n₀
    · subst hne
      obtain hn₀ | hn₀ := hn₀
      · exact (hc.held _ n hn₀).2
      · exact hc.free n hn₀
    · rw [update_of_ne hne] at hn
      exact hc.free n hn

end

/-! ## Rules that hold counters -/

/-- The rule has obtained the counter `n`: `log_sel` is only set together with a counter. -/
def PieRule.HasCntr (pr : PieRule) (n : Nat) : Prop := pr.act.logSel ∧ pr.packetCntr = n

inductive Holder
  | route (addr : Nat)
  | flow (cookie : Nat)
deriving DecidableEq

def Holds (tcHt : Nat → Option PieRule) (routes : List Route) : Holder → Nat → Prop
  | .route addr, n => ∃ r ∈ routes, r.addr = addr ∧ r.pr.HasCntr n
  | .flow cookie, n => ∃ rule, tcHt cookie = some rule ∧ rule.HasCntr n

def Offload.Holds (s : Offload) : Holder → Nat → Prop := Realtek.Holds s.flower.tcHt s.routes.list

def Offload.Ledger (s : Offload) : Prop := Realtek.Ledger s.flower.cntrs s.Holds

lemma PieRule.hasCntr_withCntr {pr : PieRule} {cntr : Int} {n : Nat}
    (h : (pr.withCntr cntr).HasCntr n) : (n : Int) = cntr := by
  obtain ⟨-, hn⟩ := h
  rw [← hn, PieRule.withCntr]
  split <;> rfl

lemma pieRuleAdd_hasCntr {b : PieBlocks} {pie : PieState} {pr : PieRule} {n : Nat} :
    (pieRuleAdd b pie pr).2.2.HasCntr n ↔ pr.HasCntr n := by
  unfold pieRuleAdd
  split <;> exact Iff.rfl

section

variable {b : PieBlocks} {mac : Nat} {cpuPort : Nat}

lemma Holds.replace {tcHt : Nat → Option PieRule} {l₁ l₂ : List Route} {r r' : Route} {cntr : Int}
    (haddr : r'.addr = r.addr) (hcntr : ∀ n, r'.pr.HasCntr n → r.pr.HasCntr n ∨ (n : Int) = cntr)
    (h : Holder) (n : Nat) (hn : Holds tcHt (l₁ ++ r' :: l₂) h n) :
    Holds tcHt (l₁ ++ r :: l₂) h n ∨ h = .route r.addr ∧ (n : Int) = cntr := by
  cases h with
  | flow cookie => exact .inl hn
  | route addr =>
    obtain ⟨r₀, hr₀, rfl, hhas⟩ := hn
    by_cases hsame : r₀ ∈ l₁ ++ r :: l₂
    · exact .inl ⟨r₀, hsame, rfl, hhas⟩
    have hr' : r₀ = r' := by
      simp only [List.mem_append, List.mem_cons] at hr₀ hsame
      tauto
    subst hr'
    obtain hhas | hnew := hcntr n hhas
    · exact .inl ⟨r, by simp, haddr.symm, hhas⟩
    · exact .inr ⟨by rw [haddr], hnew⟩

lemma updateRoute_cntrs (eng : Engine) (r : Route) : let updated := updateRoute b mac eng r
    updated.1.flower.tcHt = eng.flower.tcHt ∧
      (updated.1.flower.cntrs = (packetCntrAlloc eng.flower.cntrs).2 ∧
          (∀ n, updated.2.pr.HasCntr n → (n : Int) = (packetCntrAlloc eng.flower.cntrs).1) ∨
        updated.1.flower.cntrs = eng.flower.cntrs ∧
          ∀ n, updated.2.pr.HasCntr n → r.pr.HasCntr n) := by
  unfold updateRoute
  -- the allocation is not to be evaluated
  generalize packetCntrAlloc eng.flower.cntrs = alloc
  dsimp only
  split
  next =>
    refine ⟨rfl, .inl ⟨rfl, fun n hn => ?_⟩⟩
    exact PieRule.hasCntr_withCntr (pieRuleAdd_hasCntr.1 hn)
  next => exact ⟨rfl, .inr ⟨rfl, fun n hn => hn⟩⟩

lemma Ledger.updateRoute {eng : Engine} {l₁ l₂ : List Route} {r : Route}
    (h : Ledger eng.flower.cntrs (Holds eng.flower.tcHt (l₁ ++ r :: l₂))) :
    let updated := updateRoute b mac eng r
    Ledger updated.1.flower.cntrs (Holds updated.1.flower.tcHt (l₁ ++ updated.2 :: l₂)) := by
  have haddr := updateRoute_addr b mac eng r
  obtain ⟨htc, hcases⟩ := @updateRoute_cntrs b mac eng r
  dsimp only
  rw [htc]
  obtain ⟨hcntrs, hnew⟩ | ⟨hcntrs, hkept⟩ := hcases
  · rw [hcntrs]
    apply h.alloc
    exact Holds.replace haddr fun n hn => .inr (hnew n hn)
  rw [hcntrs]
  apply h.mono
  intro holder n hn
  -- there is no counter -1 that the route could have got
  obtain hn | ⟨-, hn⟩ := @Holds.replace _ _ _ _ _ (-1) haddr (fun n hn => .inl (hkept n hn)) holder
    n hn
  · exact hn
  · omega

/-- No counter has two holders afterwards, and a deletion frees a counter of the route that it
removes, if any. -/
structure Offload.CountsRight (b : PieBlocks) (cpuPort : Nat) (s : Offload) (call : OffloadCall) :
    Prop where
  exclusive : ∀ h h' n, (s.step b cpuPort call).Holds h n → (s.step b cpuPort call).Holds h' n →
    h = h'
  releases : ∀ info, call = .fib4Del info → ∀ r ∈ s.victim info, 0 ≤ r.pr.packetCntr ∧
    ∀ n, (s.step b cpuPort call).flower.cntrs.packetCntrUseBm n ≠ s.flower.cntrs.packetCntrUseBm n →
      r.pr.HasCntr n

/-- The route that a deletion removes has got a counter, or the one in its rule is free. -/
def Offload.Releasable (s : Offload) : OffloadCall → Prop
  | .fib4Del info => ∀ r ∈ s.victim info, 0 ≤ r.pr.packetCntr ∧
    (r.pr.act.logSel ∨ s.flower.cntrs.packetCntrUseBm r.pr.packetCntr.toNat)
  | _ => True

instance (s : Offload) : (call : OffloadCall) → Decidable (s.Releasable call)
  | .fib4Del info => inferInstanceAs (Decidable (∀ r ∈ s.victim info, _ ∧ _))
  | .fib4Add .. => isTrue trivial
  | .nexthopUpdate .. => isTrue trivial
  | .configureFlower .. => isTrue trivial
  | .deleteFlower _ => isTrue trivial

lemma Offload.Ledger.fib4Del {s : Offload} {info : FibEntry} (h : s.Ledger)
    (hmeets : s.Releasable (.fib4Del info)) : (fib4Del s info).2.Ledger := by
  unfold Realtek.fib4Del
  cases hv : s.victim info with
  | none => exact h
  | some v =>
    obtain ⟨hnonneg, hreleased⟩ := hmeets v hv
    obtain ⟨n, hn⟩ := eq_ofNat_of_zero_le hnonneg
    have hn₀ : s.Holds (.route v.addr) n ∨ s.flower.cntrs.packetCntrUseBm n := by
      obtain hlog | hfree := hreleased
      · exact .inl ⟨v, victim_mem hv, rfl, hlog, hn⟩
      · exact .inr (by simpa [hn] using hfree)
    show Realtek.Ledger (s.flower.cntrs.release v.pr.packetCntr)
      (Realtek.Holds s.flower.tcHt (s.routes.remove v.addr).list)
    rw [hn]
    apply Realtek.Ledger.release h hn₀
    intro holder m hm
    cases holder with
    | flow cookie => exact ⟨hm, nofun⟩
    | route addr =>
      obtain ⟨r, hr, rfl, hhas⟩ := hm
      obtain ⟨hmem, hne⟩ := mem_remove.1 hr
      exact ⟨⟨r, hmem, rfl, hhas⟩, fun heq => hne (Holder.route.inj heq)⟩

lemma flowRule_hasCntr {f : FlowClsOffload} {cntr : Int} {n : Nat}
    (h : (flowRule cpuPort f cntr).HasCntr n) : (n : Int) = cntr := by
  obtain ⟨-, hn⟩ := h
  rw [← hn, flowRule]
  split <;> rfl

variable {s : Offload}

lemma Offload.Ledger.configureFlower (h : s.Ledger) (f : FlowClsOffload) (allocated : Bool)
    (insertErr : Int) : (s.step b cpuPort (.configureFlower f allocated insertErr)).Ledger := by
  by_cases hnew : s.flower.tcHt f.cookie = none ∧ allocated ∧ insertErr = 0
  · obtain ⟨hcookie, rfl, rfl⟩ := hnew
    show Realtek.Ledger (Realtek.configureFlower b cpuPort s.flower f true 0).2.cntrs
      (Realtek.Holds (Realtek.configureFlower b cpuPort s.flower f true 0).2.tcHt s.routes.list)
    rw [configureFlower_new hcookie]
    dsimp only
    refine @Realtek.Ledger.alloc _ _ _ _ (.flow f.cookie) h ?_
    intro holder n hn
    cases holder with
    | route addr => exact .inl hn
    | flow cookie =>
      obtain ⟨rule, hrule, hhas⟩ := hn
      by_cases hc : cookie = f.cookie
      · subst hc
        simp only [update_self, some.injEq] at hrule
        rw [← hrule, pieRuleAdd_hasCntr] at hhas
        exact .inr ⟨rfl, flowRule_hasCntr hhas⟩
      · rw [update_of_ne hc] at hrule
        exact .inl ⟨rule, hrule, hhas⟩
  · show Realtek.Ledger (Realtek.configureFlower b cpuPort s.flower f allocated insertErr).2.cntrs
      (Realtek.Holds (Realtek.configureFlower b cpuPort s.flower f allocated insertErr).2.tcHt
        s.routes.list)
    rw [configureFlower_refused hnew]
    exact h

lemma Offload.Ledger.deleteFlower (h : s.Ledger) (cookie : Nat) :
    (s.step b cpuPort (.deleteFlower cookie)).Ledger := by
  cases hrule : s.flower.tcHt cookie with
  | none =>
    show Realtek.Ledger (Realtek.deleteFlower s.flower cookie).2.cntrs
      (Realtek.Holds (Realtek.deleteFlower s.flower cookie).2.tcHt s.routes.list)
    rw [deleteFlower_none hrule]
    exact h
  | some rule =>
    show Realtek.Ledger (Realtek.deleteFlower s.flower cookie).2.cntrs
      (Realtek.Holds (Realtek.deleteFlower s.flower cookie).2.tcHt s.routes.list)
    rw [Realtek.deleteFlower, hrule]
    apply Realtek.Ledger.mono h
    intro holder n hn
    cases holder with
    | route addr => exact hn
    | flow cookie' =>
      obtain ⟨rule', hrule', hhas⟩ := hn
      by_cases hc : cookie' = cookie
      · rw [hc] at hrule'
        simp at hrule'
      · dsimp only at hrule'
        rw [update_of_ne hc] at hrule'
        exact ⟨rule', hrule', hhas⟩

lemma Offload.Ledger.step {s : Offload} (h : s.Ledger) (call : OffloadCall)
    (hmeets : s.Releasable call) : (s.step b cpuPort call).Ledger := by
  let P : Engine → List Route → Prop := fun eng routes =>
    Realtek.Ledger eng.flower.cntrs (Realtek.Holds eng.flower.tcHt routes)
  have hpass (mac : Nat) (eng : Engine) (l₁ : List Route) (r : Route) (l₂ : List Route)
      (hP : P eng (l₁ ++ r :: l₂)) :
      P (updateRoute b mac eng r).1 (l₁ ++ (updateRoute b mac eng r).2 :: l₂) := hP.updateRoute
  cases call with
  | fib4Add info allocated insertErr neigh =>
    refine @fib4Add_keeps b P neigh (fun ha _ => hpass ha.toU64) s info allocated insertErr
      (fun idx => ?_) h
    -- a new route has no counter
    apply Realtek.Ledger.mono h
    intro holder n hn
    cases holder with
    | flow cookie => exact hn
    | route addr =>
      obtain ⟨r, hr, haddr, hhas⟩ := hn
      obtain rfl | hr := List.mem_cons.1 hr
      · cases hhas.1
      · exact ⟨r, hr, haddr, hhas⟩
  | nexthopUpdate ip mac => exact @l3NexthopUpdate_keeps b ip mac.toU64 P (hpass mac.toU64) s h
  | fib4Del info => exact h.fib4Del hmeets
  | configureFlower f allocated insertErr => exact h.configureFlower f allocated insertErr
  | deleteFlower cookie => exact h.deleteFlower cookie

lemma fib4Del_cntrs {info : FibEntry} {v : Route} (hv : s.victim info = some v) :
    (fib4Del s info).2.flower.cntrs = s.flower.cntrs.release v.pr.packetCntr := by
  rw [fib4Del, hv]

lemma Counters.release_ofNat (c : Counters) (n : Nat) : (c.release n).packetCntrUseBm =
    update c.packetCntrUseBm n true := by
  have hnonneg : ¬ (n : Int) < 0 := by omega
  rw [Counters.release, if_neg hnonneg, toNat_natCast]

lemma Offload.Ledger.countsRight_iff (h : s.Ledger) (call : OffloadCall) :
    s.CountsRight b cpuPort call ↔ s.Releasable call := by
  constructor
  · intro hright
    cases call with
    | fib4Del info =>
      intro v hv
      obtain ⟨hnonneg, hchanged⟩ := hright.releases info rfl v hv
      obtain ⟨n, hn⟩ := eq_ofNat_of_zero_le hnonneg
      refine ⟨hnonneg, ?_⟩
      rw [hn, toNat_natCast]
      by_contra hnot
      obtain ⟨hlog, hfree⟩ := not_or.1 hnot
      refine hlog (hchanged n ?_).1
      show (Realtek.fib4Del s info).2.flower.cntrs.packetCntrUseBm n ≠ _
      rw [fib4Del_cntrs hv, hn, Counters.release_ofNat, update_self]
      exact fun htrue => hfree htrue.symm
    | _ => trivial
  · intro hmeets
    refine ⟨(h.step call hmeets).exclusive, ?_⟩
    rintro info rfl v hv
    obtain ⟨hnonneg, hreleased⟩ := hmeets v hv
    obtain ⟨n, hn⟩ := eq_ofNat_of_zero_le hnonneg
    rw [hn, toNat_natCast] at hreleased
    refine ⟨hnonneg, fun m hm => ?_⟩
    change (Realtek.fib4Del s info).2.flower.cntrs.packetCntrUseBm m ≠ _ at hm
    rw [fib4Del_cntrs hv, hn, Counters.release_ofNat] at hm
    by_cases hmn : m = n
    · subst hmn
      rw [update_self] at hm
      exact ⟨hreleased.resolve_right fun hfree => hm hfree.symm, hn⟩
    · exact absurd (update_of_ne hmn ..) hm

/-- No two rules get one counter, and only counters of the route itself are released, exactly in the
runs in which every removed route has got a counter or names a free one. -/
theorem counters_exclusive_iff (s : Offload) (hroutes : s.routes.list = [])
    (hflows : ∀ cookie, s.flower.tcHt cookie = none)
    (hfree : ∀ n, s.flower.cntrs.packetCntrUseBm n = false) (calls : List OffloadCall) :
    Each (step b cpuPort) (Offload.CountsRight b cpuPort) s calls ↔
      Each (step b cpuPort) Offload.Releasable s calls := by
  have hnobody : ∀ holder n, ¬ s.Holds holder n := by
    rintro (addr | cookie) n hn
    · obtain ⟨r, hr, -⟩ := hn
      rw [hroutes] at hr
      cases hr
    · obtain ⟨rule, hrule, -⟩ := hn
      rw [hflows] at hrule
      cases hrule
  have hinit : s.Ledger := by
    refine ⟨fun h _ n hn => absurd hn (hnobody h n), fun h n hn => absurd hn (hnobody h n), ?_⟩
    intro n hn
    rw [hfree] at hn
    cases hn
  exact each_iff_each (fun s call h hmeets => h.step call hmeets)
    (fun s call h => h.countsRight_iff call) calls hinit

end

theorem counters_exclusive_resolved_route :
    Each (step pieInitBlocks 28) (Offload.CountsRight pieInitBlocks 28) blankOffload
      [.configureFlower dropDnsOfHost true 0, .fib4Add firstNet true 0 (some gatewayMac),
        .fib4Del firstNet, .configureFlower { dropDnsOfHost with cookie := 3 } true 0] :=
  (counters_exclusive_iff blankOffload rfl (fun _ => rfl) (fun _ => rfl) _).2 (by decide +kernel)

/-- The deletion of an unresolved route frees the counter 0, which a flow holds and the next one
gets as well.
-/
theorem unresolved_route_frees_counter :
    let s := [.configureFlower dropDnsOfHost true 0, .fib4Add firstNet true 0 none,
      .fib4Del firstNet, .configureFlower { dropDnsOfHost with cookie := 3 } true 0].foldl
        (step pieInitBlocks 28) blankOffload
    s.Holds (.flow 1) 0 ∧ s.Holds (.flow 3) 0 := by
  intro s
  have hfirst : (s.flower.tcHt 1).map (fun rule => (rule.act.logSel, rule.packetCntr)) =
      some (true, 0) := by decide +kernel
  have hnext : (s.flower.tcHt 3).map (fun rule => (rule.act.logSel, rule.packetCntr)) =
      some (true, 0) := by decide +kernel
  obtain ⟨rule, hrule, hhas⟩ := map_eq_some_iff.1 hfirst
  obtain ⟨rule', hrule', hhas'⟩ := map_eq_some_iff.1 hnext
  rw [Prod.mk.injEq] at hhas hhas'
  exact ⟨⟨rule, hrule, hhas⟩, ⟨rule', hrule', hhas'⟩⟩

end SourceMaster.Realtek
