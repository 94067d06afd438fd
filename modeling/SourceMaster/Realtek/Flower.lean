import SourceMaster.Realtek.Pie

/-!
# Flower rules

`rtl83xx_configure_flower` makes a flow of a flower match and its actions, puts it into a hash table
and adds its rule to the packet inspection engine; `rtl83xx_delete_flower` removes both. Every flow
takes a packet counter, which is never given back.

`flower_books_iff` says in which runs the rules in use are those of the flows. The error of
`rtl83xx_add_flow` is ignored, and a flow for which the engine has no room stays in the table with
the rule id 0 of another flow.
-/

namespace SourceMaster.Realtek

open Runs Switch Function Option

def EEXIST : Int := 17
def ENOMEM : Int := 12

/-! ## Packet counters -/

def MAX_COUNTERS : Nat := 2048

/-- `n_counters` of the RTL838x. -/
def nCounters : Nat := 128

/-- A one in `packet_cntr_use_bm` stands for a packet counter that is free. -/
structure Counters where
  octetCntrUseBm : Nat → Bool
  packetCntrUseBm : Nat → Bool

def findFirstBit (bm : Nat → Bool) (size : Nat) : Nat := findFirstZeroBit (fun i => !bm i) size

/-- `rtl83xx_packet_cntr_alloc`. The packet counters of an octet counter are freed with it. -/
def packetCntrAlloc (c : Counters) : Int × Counters :=
  let idx := findFirstBit c.packetCntrUseBm (MAX_COUNTERS * 2)
  if nCounters * 2 ≤ idx then
    let j := findFirstZeroBit c.octetCntrUseBm MAX_COUNTERS
    if nCounters ≤ j then (-1, c)
    else
      (j * 2, { c with
        octetCntrUseBm := update c.octetCntrUseBm j true
        packetCntrUseBm := update c.packetCntrUseBm (j * 2 + 1) true })
  else
    (idx, { c with packetCntrUseBm := update c.packetCntrUseBm idx false })

/-! ## Matches and actions -/

structure EthAddrs where
  dst : EtherAddr
  src : EtherAddr

structure Ipv4Addrs where
  dst : BitVec 32
  src : BitVec 32

structure Ipv6Addrs where
  dst : In6Addr
  src : In6Addr

structure Ports where
  dst : BitVec 16
  src : BitVec 16

/-- The keys of a flower match that the driver looks at; of the basic key it uses `n_proto` and
`ip_proto`, without masks. -/
structure FlowMatch where
  control : Bool := false
  basic : Option (BitVec 16 × BitVec 8) := none
  ethAddrs : Option (EthAddrs × EthAddrs) := none
  vlan : Option (BitVec 12 × BitVec 12) := none
  ipv4Addrs : Option (Ipv4Addrs × Ipv4Addrs) := none
  ipv6Addrs : Option (Ipv6Addrs × Ipv6Addrs) := none
  ports : Option (Ports × Ports) := none

inductive FlowAction
  | drop | trap | mangle | add
  | vlanPush (vid : BitVec 16)
  | vlanPop | csum
  | redirect (port : Int)
  | mirred (port : Int)
  | other (id : Nat)

def ETH_P_IP : BitVec 16 := 0x0800
def ETH_P_ARP : BitVec 16 := 0x0806
def ETH_P_IPV6 : BitVec 16 := 0x86dd
def IPPROTO_ICMP : BitVec 8 := 1
def IPPROTO_TCP : BitVec 8 := 6
def IPPROTO_UDP : BitVec 8 := 17
def IPPROTO_ICMPV6 : BitVec 8 := 58

/-- What `rtl83xx_parse_flow_rule` makes of the basic key: frame types and their masks. -/
def parseBasic (nProto : BitVec 16) (ipProto : BitVec 8) (fixed fixedM : PieFixed) :
    PieFixed × PieFixed :=
  let fixed := if nProto = ETH_P_ARP then { fixed with frameType := 0 } else fixed
  let fixed := if nProto = ETH_P_IP then { fixed with frameType := 2 } else fixed
  let fixed := if nProto = ETH_P_IPV6 then { fixed with frameType := 3 } else fixed
  let fixedM :=
    if nProto = ETH_P_ARP ∨ fixed.frameType ≠ 0 then { fixedM with frameType := 3 } else fixedM
  if 2 ≤ fixed.frameType then
    let fixed := if ipProto = IPPROTO_UDP then { fixed with frameTypeL4 := 0 } else fixed
    let fixed := if ipProto = IPPROTO_TCP then { fixed with frameTypeL4 := 1 } else fixed
    let fixed :=
      if ipProto = IPPROTO_ICMP ∨ ipProto = IPPROTO_ICMPV6 then { fixed with frameTypeL4 := 2 }
      else fixed
    -- the protocol is TCP once more, where IGMP would be expected
    let fixed := if ipProto = IPPROTO_TCP then { fixed with frameTypeL4 := 3 } else fixed
    let fixedM :=
      if ipProto = IPPROTO_UDP ∨ fixed.frameTypeL4 ≠ 0 then { fixedM with frameTypeL4 := 7 }
      else fixedM
    (fixed, fixedM)
  else (fixed, fixedM)

def parseEthAddrs : Option (EthAddrs × EthAddrs) → PieRule → PieRule
  | some (key, mask), rule =>
    { rule with
      key.dmac := key.dst
      key.smac := key.src
      mask.dmac := mask.dst
      mask.smac := mask.src }
  | none, rule => rule

def parseVlan : Option (BitVec 12 × BitVec 12) → PieRule → PieRule
  | some (key, mask), rule =>
    { rule with key.itag := key.setWidth 16, mask.itag := mask.setWidth 16 }
  | none, rule => rule

def parseAddrs : Option (Ipv4Addrs × Ipv4Addrs) → Option (Ipv6Addrs × Ipv6Addrs) → PieRule → PieRule
  | some (key, mask), _, rule =>
    { rule with
      isIpv6 := false
      key.dip := key.dst
      key.sip := key.src
      mask.dip := mask.dst
      mask.sip := mask.src }
  | none, some (key, mask), rule =>
    { rule with
      isIpv6 := true
      key.dip6 := key.dst
      key.sip6 := key.src
      mask.dip6 := mask.dst
      mask.sip6 := mask.src }
  | none, none, rule => rule

def parsePorts : Option (Ports × Ports) → PieRule → PieRule
  | some (key, mask), rule =>
    { rule with
      key.dport := key.dst
      key.sport := key.src
      mask.dport := mask.dst
      mask.sport := mask.src }
  | none, rule => rule

def parseFlowRule (m : FlowMatch) (rule : PieRule) : Int × PieRule :=
  match m.control, m.basic with
  | true, some (nProto, ipProto) =>
    let (fixed, fixedM) := parseBasic nProto ipProto rule.fixed rule.fixedM
    let rule := { rule with fixed, fixedM }
    let rule := parseEthAddrs m.ethAddrs rule
    let rule := parseVlan m.vlan rule
    let rule := parseAddrs m.ipv4Addrs m.ipv6Addrs rule
    (0, parsePorts m.ports rule)
  | _, _ => (-EOPNOTSUPP, rule)

def PIE_ACT_COPY_TO_PORT : BitVec 8 := 2
def PIE_ACT_REDIRECT_TO_PORT : BitVec 8 := 4
def PIE_ACT_VID_ASSIGN : BitVec 8 := 0

def PieAction.bypassAllOf (a : PieAction) : PieAction :=
  { a with bypassSel := true, bypassAll := true, bypassIgrStp := true, bypassIbcSc := true }

def parseFwd (port : Int) (a : PieAction) : Int × PieAction :=
  if port < 0 then (-EINVAL, a)
  else (0, { a with fwdSel := true, fwdData := .ofInt 16 port }.bypassAllOf)

def vidAssign (vid : BitVec 16) (a : PieAction) : PieAction :=
  { a with
    ividAct := PIE_ACT_VID_ASSIGN
    ividSel := true
    ividData := vid
    ovidAct := PIE_ACT_VID_ASSIGN
    ovidSel := true
    ovidData := vid
    fwdModToCpu := true }

def addActions (cpuPort : Nat) : List FlowAction → PieAction → Int × PieAction
  | [], a => (0, a)
  | act :: acts, a =>
    match act with
    | .drop => (0, { a with drop := true }.bypassAllOf)
    | .trap =>
      addActions cpuPort acts
        { a with fwdData := .ofNat 16 cpuPort, fwdAct := PIE_ACT_REDIRECT_TO_PORT }.bypassAllOf
    | .vlanPush vid => addActions cpuPort acts (vidAssign vid a)
    | .vlanPop => addActions cpuPort acts (vidAssign 0 a)
    | .redirect port =>
      let (err, a) := parseFwd port a
      if err ≠ 0 then (err, a)
      else addActions cpuPort acts { a with fwdAct := PIE_ACT_REDIRECT_TO_PORT }
    | .mirred port =>
      let (err, a) := parseFwd port a
      if err ≠ 0 then (err, a)
      else addActions cpuPort acts { a with fwdAct := PIE_ACT_COPY_TO_PORT }
    | .mangle | .add | .csum | .other _ => (-EOPNOTSUPP, a)

/-- `struct flow_cls_offload`: the cookie, the match and the actions. -/
structure FlowClsOffload where
  cookie : Nat
  flowMatch : FlowMatch
  actions : List FlowAction

/-- `rtl83xx_add_flow`; the error of `rtl83xx_parse_flow_rule` is not looked at. -/
def addFlow (cpuPort : Nat) (f : FlowClsOffload) (rule : PieRule) : Int × PieRule :=
  let rule := (parseFlowRule f.flowMatch rule).2
  let (err, act) := addActions cpuPort f.actions rule.act
  (err, { rule with act })

/-! ## Flows -/

/-- The flows are those in `tc_ht`, with their rules. -/
structure FlowerState where
  pie : PieState
  cntrs : Counters
  tcHt : Nat → Option PieRule

def flowRule (cpuPort : Nat) (f : FlowClsOffload) (cntr : Int) : PieRule :=
  let rule := (addFlow cpuPort f {}).2
  let rule := { rule with packetCntr := cntr }
  if 0 ≤ rule.packetCntr then
    { rule with act.logSel := true, act.logData := .ofInt 16 cntr }
  else rule

/-- `rtl83xx_configure_flower`, with the results of `kzalloc` and `rhashtable_insert_fast`. -/
def configureFlower (b : PieBlocks) (cpuPort : Nat) (st : FlowerState) (f : FlowClsOffload)
    (allocated : Bool) (insertErr : Int) : Int × FlowerState :=
  if (st.tcHt f.cookie).isSome then (-EEXIST, st)
  else if !allocated then (-ENOMEM, st)
  else if insertErr ≠ 0 then (insertErr, st)
  else
    let (cntr, cntrs) := packetCntrAlloc st.cntrs
    let (err, pie, rule) := pieRuleAdd b st.pie (flowRule cpuPort f cntr)
    (err, ⟨pie, cntrs, update st.tcHt f.cookie (some rule)⟩)

def deleteFlower (st : FlowerState) (cookie : Nat) : Int × FlowerState :=
  match st.tcHt cookie with
  | none => (-EINVAL, st)
  | some rule => (0, ⟨pieRuleRm st.pie rule, st.cntrs, update st.tcHt cookie none⟩)

/-! ## Runs -/

inductive FlowerCall
  | configure (f : FlowClsOffload) (allocated : Bool) (insertErr : Int)
  | delete (cookie : Nat)

section

variable (b : PieBlocks) (cpuPort : Nat)

section

variable (st : FlowerState)

def FlowerState.step : FlowerCall → FlowerState
  | .configure f allocated insertErr => (configureFlower b cpuPort st f allocated insertErr).2
  | .delete cookie => (deleteFlower st cookie).2

def FlowerState.Books : Prop :=
  ∀ idx : Nat, st.pie.pieUseBm idx ↔ ∃ cookie rule, st.tcHt cookie = some rule ∧ rule.id = idx

structure FlowerState.Same (st st' : FlowerState) : Prop where
  tcHt : st'.tcHt = st.tcHt
  pieUseBm : st'.pie.pieUseBm = st.pie.pieUseBm
  iacl : st'.pie.iacl = st.pie.iacl

def Supported (f : FlowClsOffload) : Prop :=
  (parseFlowRule f.flowMatch {}).1 = 0 ∧ (addFlow cpuPort f {}).1 = 0

/-- What a call has to do. A failure leaves nothing behind; a deletion removes the flow and its
rule, and no others. -/
def FlowerState.Correct (call : FlowerCall) : Prop :=
  (st.step b cpuPort call).Books ∧
    match call with
    | .configure f allocated insertErr =>
      (configureFlower b cpuPort st f allocated insertErr).1 ≠ 0 ∨ ¬ Supported cpuPort f →
        st.Same (st.step b cpuPort call)
    | .delete cookie =>
      (st.tcHt cookie = none → st.Same (st.step b cpuPort call)) ∧
      ∀ rule, st.tcHt cookie = some rule → ∃ idx : Nat, rule.id = idx ∧
        (st.step b cpuPort call).tcHt = update st.tcHt cookie none ∧
        (st.step b cpuPort call).pie.pieUseBm = update st.pie.pieUseBm idx false ∧
        ∀ cookie' rule', cookie' ≠ cookie → st.tcHt cookie' = some rule' → rule'.id ≠ rule.id ∧
          (st.step b cpuPort call).pie.iacl rule'.id.toNat = st.pie.iacl rule'.id.toNat

/-- The condition on a call: a new flow is supported and fits into some block. -/
def FlowerState.Meets : FlowerCall → Prop
  | .configure f allocated insertErr =>
    st.tcHt f.cookie = none → allocated → insertErr = 0 →
      Supported cpuPort f ∧ ∃ block < nPieBlocks, ∃ j < 3,
        (pieVerifyTemplate st.pie (flowRule cpuPort f (packetCntrAlloc st.cntrs).1)
          (b.template block j) block).isSome
  | .delete _ => True

end

end

/-- Every flow has a rule of its own that is in use, and no other rule is. -/
structure FlowerState.Inv (st : FlowerState) : Prop where
  books : st.Books
  nonneg : ∀ cookie rule, st.tcHt cookie = some rule → 0 ≤ rule.id
  unique : ∀ cookie cookie' rule rule', st.tcHt cookie = some rule → st.tcHt cookie' = some rule' →
    rule.id = rule'.id → cookie = cookie'

section

variable {b : PieBlocks} {cpuPort : Nat} {st : FlowerState} {f : FlowClsOffload}

lemma pieFind_isSome {pie : PieState} {pr : PieRule} : (pieFind b pie pr).isSome ↔
    ∃ block < nPieBlocks, ∃ j < 3,
    (pieVerifyTemplate pie pr (b.template block j) block).isSome := by
  simp only [pieFind, List.findSome?_isSome_iff, List.mem_range, isSome_map]

variable {allocated : Bool} {cookie : Nat} {insertErr : Int} {idx : Nat} {rule : PieRule}

lemma configureFlower_refused (h : ¬ (st.tcHt f.cookie = none ∧ allocated ∧ insertErr = 0)) :
    (configureFlower b cpuPort st f allocated insertErr).2 = st := by
  unfold configureFlower
  split
  next => rfl
  next hnew =>
    split
    next => rfl
    next halloc =>
      split
      next => rfl
      next hins => exact absurd ⟨by simpa using hnew, by simpa using halloc, by simpa using hins⟩ h

lemma configureFlower_new (hnew : st.tcHt f.cookie = none) :
    configureFlower b cpuPort st f true 0 =
      let added := pieRuleAdd b st.pie (flowRule cpuPort f (packetCntrAlloc st.cntrs).1)
      (added.1, ⟨added.2.1, (packetCntrAlloc st.cntrs).2,
        update st.tcHt f.cookie (some added.2.2)⟩) := by
  unfold configureFlower
  rw [hnew, if_neg (by decide), if_neg (by decide), if_neg (by decide)]

lemma FlowerState.Inv.configure (h : st.Inv) (hnew : st.tcHt f.cookie = none) {j : Nat}
    (hfind : pieFind b st.pie (flowRule cpuPort f (packetCntrAlloc st.cntrs).1) = some (j, idx)) :
    (configureFlower b cpuPort st f true 0).1 = 0 ∧
    (configureFlower b cpuPort st f true 0).2.Inv := by
  have hfree := pieFind_some hfind
  obtain ⟨pie, hadd, huse⟩ := pieRuleAdd_some hfind
  rw [configureFlower_new hnew, hadd]
  -- the index belongs to no flow so far
  have hother : ∀ cookie rule, st.tcHt cookie = some rule → rule.id ≠ idx := by
    intro cookie rule hrule hid
    rw [(h.books idx).2 ⟨cookie, rule, hrule, hid⟩] at hfree
    cases hfree
  have hcases : ∀ cookie rule, update st.tcHt f.cookie
        (some ((flowRule cpuPort f (packetCntrAlloc st.cntrs).1).placed j idx)) cookie = some rule →
      cookie = f.cookie ∧ rule.id = idx ∨ cookie ≠ f.cookie ∧ st.tcHt cookie = some rule := by
    intro cookie rule hrule
    by_cases hc : cookie = f.cookie
    · rw [hc, update_self] at hrule
      obtain rfl := some.inj hrule
      exact .inl ⟨hc, rfl⟩
    · rw [update_of_ne hc] at hrule
      exact .inr ⟨hc, hrule⟩
  refine ⟨rfl, ?_, ?_, ?_⟩
  · intro i
    rw [huse]
    by_cases hi : i = idx
    · subst hi
      rw [update_self]
      exact ⟨fun _ => ⟨f.cookie, _, update_self .., rfl⟩, fun _ => rfl⟩
    rw [update_of_ne hi, h.books i]
    constructor
    · rintro ⟨cookie, rule, hrule, hid⟩
      have hc : cookie ≠ f.cookie := by
        rintro rfl
        rw [hnew] at hrule
        cases hrule
      exact ⟨cookie, rule, (update_of_ne hc ..).trans hrule, hid⟩
    · rintro ⟨cookie, rule, hrule, hid⟩
      obtain ⟨-, hid'⟩ | ⟨-, hrule⟩ := hcases cookie rule hrule
      · omega
      · exact ⟨cookie, rule, hrule, hid⟩
  · intro cookie rule hrule
    obtain ⟨-, hid⟩ | ⟨-, hrule⟩ := hcases cookie rule hrule
    · omega
    · exact h.nonneg cookie rule hrule
  · intro cookie cookie' rule rule' hrule hrule' hids
    obtain ⟨hc, hid⟩ | ⟨-, hrule⟩ := hcases cookie rule hrule
    · obtain ⟨hc', -⟩ | ⟨-, hrule'⟩ := hcases cookie' rule' hrule'
      · rw [hc, hc']
      · exact absurd (hids.symm.trans hid) (hother cookie' rule' hrule')
    · obtain ⟨-, hid'⟩ | ⟨-, hrule'⟩ := hcases cookie' rule' hrule'
      · exact absurd (hids.trans hid') (hother cookie rule hrule)
      · exact h.unique cookie cookie' rule rule' hrule hrule' hids

lemma deleteFlower_eq (hrule : st.tcHt cookie = some rule) (hid : rule.id = idx) :
    ∃ pie, (deleteFlower st cookie).2 = ⟨pie, st.cntrs, update st.tcHt cookie none⟩ ∧
      pie.pieUseBm = update st.pie.pieUseBm idx false ∧ ∀ i ≠ idx, pie.iacl i = st.pie.iacl i := by
  rw [deleteFlower, hrule]
  exact ⟨_, rfl, pieRuleRm_of_eq st.pie hid⟩

lemma FlowerState.Inv.delete (h : st.Inv) (hrule : st.tcHt cookie = some rule)
    (hid : rule.id = idx) : (deleteFlower st cookie).2.Inv := by
  obtain ⟨pie, hst, huse, -⟩ := deleteFlower_eq hrule hid
  rw [hst]
  have hkept : ∀ cookie' rule', update st.tcHt cookie none cookie' = some rule' →
      cookie' ≠ cookie ∧ st.tcHt cookie' = some rule' := by
    intro cookie' rule' hrule'
    have hc : cookie' ≠ cookie := by
      rintro rfl
      rw [update_self] at hrule'
      cases hrule'
    exact ⟨hc, by rwa [update_of_ne hc] at hrule'⟩
  refine ⟨?_, ?_, ?_⟩
  · intro i
    rw [huse]
    by_cases hi : i = idx
    · subst hi
      rw [update_self]
      refine ⟨fun hfalse => (by cases hfalse), ?_⟩
      rintro ⟨cookie', rule', hrule', hid'⟩
      obtain ⟨hc, hrule'⟩ := hkept cookie' rule' hrule'
      exact absurd (h.unique _ _ _ _ hrule' hrule (hid'.trans hid.symm)) hc
    · rw [update_of_ne hi, h.books i]
      constructor
      · rintro ⟨cookie', rule', hrule', hid'⟩
        have hc : cookie' ≠ cookie := by
          rintro rfl
          obtain rfl := some.inj (hrule'.symm.trans hrule)
          omega
        exact ⟨cookie', rule', (update_of_ne hc ..).trans hrule', hid'⟩
      · rintro ⟨cookie', rule', hrule', hid'⟩
        exact ⟨cookie', rule', (hkept cookie' rule' hrule').2, hid'⟩
  · intro cookie' rule' hrule'
    exact h.nonneg cookie' rule' (hkept cookie' rule' hrule').2
  · intro cookie₁ cookie₂ rule₁ rule₂ h₁ h₂ hids
    exact h.unique _ _ _ _ (hkept _ _ h₁).2 (hkept _ _ h₂).2 hids

lemma deleteFlower_none (h : st.tcHt cookie = none) : (deleteFlower st cookie).2 = st := by
  rw [deleteFlower, h]

lemma FlowerState.Inv.delete_correct (h : st.Inv) (cookie : Nat) :
    (st.step b cpuPort (.delete cookie)).Inv ∧ st.Correct b cpuPort (.delete cookie) := by
  cases hrule : st.tcHt cookie with
  | none =>
    have hst : st.step b cpuPort (.delete cookie) = st := deleteFlower_none hrule
    refine ⟨hst.symm ▸ h, hst.symm ▸ h.books, fun _ => hst.symm ▸ ⟨rfl, rfl, rfl⟩, ?_⟩
    intro rule hsome
    rw [hrule] at hsome
    cases hsome
  | some rule =>
    obtain ⟨idx, hid⟩ := Int.eq_ofNat_of_zero_le (h.nonneg cookie rule hrule)
    obtain ⟨pie, hst, huse, hiacl⟩ := deleteFlower_eq hrule hid
    have hst : st.step b cpuPort (.delete cookie) = _ := hst
    have hinv : (st.step b cpuPort (.delete cookie)).Inv := h.delete hrule hid
    refine ⟨hinv, hinv.books, ?_, ?_⟩
    · intro hnone
      rw [hrule] at hnone
      cases hnone
    intro rule₁ h₁
    obtain rfl := some.inj (hrule.symm.trans h₁)
    refine ⟨idx, hid, by rw [hst], by rw [hst, huse], ?_⟩
    intro cookie' rule' hc hrule'
    have hids : rule'.id ≠ rule.id := fun hids => hc (h.unique _ _ _ _ hrule' hrule hids)
    refine ⟨hids, ?_⟩
    have := h.nonneg cookie' rule' hrule'
    rw [hst, hiacl _ (by omega)]

lemma FlowerState.Inv.configure_correct (h : st.Inv) (allocated : Bool) (insertErr : Int)
    (hmeets : st.Meets b cpuPort (.configure f allocated insertErr)) :
    (st.step b cpuPort (.configure f allocated insertErr)).Inv ∧
      st.Correct b cpuPort (.configure f allocated insertErr) := by
  by_cases hnew : st.tcHt f.cookie = none ∧ allocated ∧ insertErr = 0
  · obtain ⟨hcookie, rfl, rfl⟩ := hnew
    obtain ⟨hsupported, hfits⟩ := hmeets hcookie rfl rfl
    obtain ⟨⟨j, idx⟩, hfind⟩ := isSome_iff_exists.1 (pieFind_isSome.2 hfits)
    obtain ⟨herr, hinv⟩ := h.configure hcookie hfind
    refine ⟨hinv, hinv.books, ?_⟩
    rintro (hne | hunsupported)
    · exact absurd herr hne
    · exact absurd hsupported hunsupported
  · have hst : st.step b cpuPort (.configure f allocated insertErr) = st :=
      configureFlower_refused hnew
    exact ⟨hst.symm ▸ h, hst.symm ▸ h.books, fun _ => hst.symm ▸ ⟨rfl, rfl, rfl⟩⟩

lemma not_correct_of_not_meets
    (hmeets : ¬ st.Meets b cpuPort (.configure f allocated insertErr)) :
    ¬ st.Correct b cpuPort (.configure f allocated insertErr) := by
  simp only [FlowerState.Meets, Classical.not_imp] at hmeets
  obtain ⟨hcookie, rfl, rfl, hbad⟩ := hmeets
  rintro ⟨-, hcorrect⟩
  have hleft : (st.step b cpuPort (.configure f true 0)).tcHt ≠ st.tcHt := by
    intro hsame
    have hnone := congrFun hsame f.cookie
    rw [FlowerState.step, configureFlower_new hcookie, hcookie] at hnone
    simp at hnone
  apply hleft
  apply FlowerState.Same.tcHt
  apply hcorrect
  by_cases hsupported : Supported cpuPort f
  · left
    have hnone : pieFind b st.pie (flowRule cpuPort f (packetCntrAlloc st.cntrs).1) = none := by
      rw [← not_isSome_iff_eq_none, pieFind_isSome]
      exact fun hfits => hbad ⟨hsupported, hfits⟩
    rw [configureFlower_new hcookie, pieRuleAdd_none hnone]
    exact (by decide : -EOPNOTSUPP ≠ 0)
  · exact .inr hsupported

/-- Every call does what it has to do exactly in the runs whose new flows are supported and fit. -/
theorem flower_books_iff (st : FlowerState) (hflows : ∀ cookie, st.tcHt cookie = none)
    (huse : ∀ idx, st.pie.pieUseBm idx = false) (calls : List FlowerCall) :
    Each (FlowerState.step b cpuPort) (FlowerState.Correct b cpuPort) st calls ↔
      Each (FlowerState.step b cpuPort) (FlowerState.Meets b cpuPort) st calls := by
  have hinit : st.Inv := by
    refine ⟨fun idx => ?_, fun cookie rule h => ?_, fun cookie _ rule _ h => ?_⟩
    · simp [hflows, huse]
    · simp [hflows] at h
    · simp [hflows] at h
  refine each_iff_each ?_ ?_ calls hinit
  · rintro st (⟨f, allocated, insertErr⟩ | cookie) h hmeets
    · exact (h.configure_correct allocated insertErr hmeets).1
    · exact (h.delete_correct cookie).1
  rintro st (⟨f, allocated, insertErr⟩ | cookie) h
  · constructor
    · intro hcorrect
      by_contra hmeets
      exact not_correct_of_not_meets hmeets hcorrect
    · exact fun hmeets => (h.configure_correct allocated insertErr hmeets).2
  · exact ⟨fun _ => trivial, fun _ => (h.delete_correct cookie).2⟩

end

def emptyPie : PieState := ⟨fun _ => false, fun _ => false, fun _ => 0, fun _ _ => 0⟩

def dropDnsOfHost : FlowClsOffload where
  cookie := 1
  flowMatch := {
    control := true
    basic := some (ETH_P_IP, IPPROTO_UDP)
    ipv4Addrs := some (⟨0x0a000001, 0⟩, ⟨0xffffffff, 0⟩)
    ports := some (⟨53, 0⟩, ⟨0xffff, 0⟩) }
  actions := [.drop]

def emptyFlower : FlowerState := ⟨emptyPie, ⟨fun _ => false, fun _ => false⟩, fun _ => none⟩

theorem flower_books_dropDnsOfHost :
    Each (FlowerState.step pieInitBlocks 28) (FlowerState.Correct pieInitBlocks 28) emptyFlower
      [.configure dropDnsOfHost true 0, .delete 1] := by
  refine (flower_books_iff emptyFlower (fun _ => rfl) (fun _ => rfl) _).2 ⟨?_, trivial, trivial⟩
  intro _ _ _
  exact ⟨⟨by decide, by decide⟩, 0, by decide, 1, by decide, by decide +kernel⟩

def dropFromMac : FlowClsOffload where
  cookie := 2
  flowMatch := {
    control := true
    basic := some (ETH_P_IP, IPPROTO_TCP)
    ethAddrs := some (⟨⟨0, 0, 0, 0, 0, 0⟩, ⟨2, 0, 0, 0, 0, 1⟩⟩,
      ⟨⟨0, 0, 0, 0, 0, 0⟩, ⟨255, 255, 255, 255, 255, 255⟩⟩)
    ipv4Addrs := some (⟨0x0a000001, 0⟩, ⟨0xffffffff, 0⟩) }
  actions := [.drop]

/-- A refused flow stays in the table with the rule id 0, and its deletion takes the rule of another
flow out of use. -/
theorem refused_flow_removes_rule :
    let st := emptyFlower.step pieInitBlocks 28 (.configure dropDnsOfHost true 0)
    let refused := configureFlower pieInitBlocks 28 st dropFromMac true 0
    let st' := refused.2.step pieInitBlocks 28 (.delete 2)
    refused.1 = -EOPNOTSUPP ∧ (refused.2.tcHt 2).map PieRule.id = some 0 ∧
      (st'.tcHt 1).map PieRule.id = some 0 ∧ st'.pie.pieUseBm 0 = false := by
  decide +kernel

end SourceMaster.Realtek
