import SourceMaster.Realtek.Mdb

/-!
# The packet inspection engine

A rule of the packet inspection engine (PIE) of the RTL838x matches a packet in twelve fields of 16
bits, those of the template that the rule selects among the three of its block.
`rtl838x_pie_rule_add` takes the first block and template that `rtl838x_pie_verify_template`
accepts, and `rtl838x_write_pie_templated` writes data and mask of the fields of the template; a
field that the template does not have is not written anywhere.
-/

namespace SourceMaster.Realtek

open Switch List

def PIE_BLOCK_SIZE : Nat := 128
def N_FIXED_FIELDS : Nat := 12

def nPieBlocks : Nat := 12

/-! ## Templates -/

inductive TemplateField
  | spmmask | spm0 | spm1 | rangeChk | dmac0 | dmac1 | dmac2 | smac0 | smac1 | smac2
  | ethertype | otag | itag | sip0 | sip1 | dip0 | dip1 | ipTosProto | l34Header
  | l4Sport | l4Dport | icmpIgmp | ipRange | fieldSelectorValid | fieldSelector0
  | fieldSelector1 | fieldSelector2 | fieldSelector3 | sip2 | sip3 | sip4 | sip5 | sip6 | sip7
  | dip2 | dip3 | dip4 | dip5 | dip6 | dip7 | fwdVid | flowLabel
deriving DecidableEq, Repr

def fixedTemplates : List (List TemplateField) :=
  [[.spm0, .spm1, .otag, .smac0, .smac1, .smac2, .dmac0, .dmac1, .dmac2,
    .ethertype, .itag, .rangeChk], [.sip0, .sip1, .dip0, .dip1, .ipTosProto, .l4Sport,
    .l4Dport, .icmpIgmp, .itag, .rangeChk, .spm0, .spm1], [.dmac0, .dmac1, .dmac2,
    .itag, .ethertype, .ipTosProto, .l4Dport, .l4Sport, .sip0, .sip1, .dip0, .dip1],
   [.dip0, .dip1, .dip2, .dip3, .dip4, .dip5, .dip6, .dip7, .l4Dport,
    .l4Sport, .icmpIgmp, .ipTosProto], [.sip0, .sip1, .sip2, .sip3, .sip4, .sip5,
    .sip6, .sip7, .itag, .rangeChk, .spm0, .spm1]]

def fixedTemplate (t : Nat) : List TemplateField := fixedTemplates.getD t []

/-! ## Rules -/

abbrev In6Addr := Fin 8 → BitVec 16

def In6Addr.s6Addr32 (a : In6Addr) (i : Fin 4) : BitVec 32 :=
  a ⟨2 * i, by omega⟩ ++ a ⟨2 * i + 1, by omega⟩

/-- The fields of `struct pie_rule` used in templates, for the data and for the masks. `ethertype_m`
has eight bits only. -/
structure PieFields (w : Nat) where
  spm : BitVec 64 := 0
  otag : BitVec 16 := 0
  smac : EtherAddr := ⟨0, 0, 0, 0, 0, 0⟩
  dmac : EtherAddr := ⟨0, 0, 0, 0, 0, 0⟩
  ethertype : BitVec w := 0
  itag : BitVec 16 := 0
  fieldRangeCheck : BitVec 16 := 0
  sip : BitVec 32 := 0
  sip6 : In6Addr := fun _ => 0
  dip : BitVec 32 := 0
  dip6 : In6Addr := fun _ => 0
  tosProto : BitVec 16 := 0
  sport : BitVec 16 := 0
  dport : BitVec 16 := 0
  icmpIgmp : BitVec 16 := 0

/-- The fields of `struct pie_rule` matched with every template, for data and masks. -/
structure PieFixed where
  spmmaskFix : BitVec 8 := 0
  spn : BitVec 8 := 0
  mgntVlan : Bool := false
  dmacHitSw : Bool := false
  notFirstFrag : Bool := false
  frameTypeL4 : BitVec 8 := 0
  frameType : BitVec 8 := 0
  otagFmt : Bool := false
  itagFmt : Bool := false
  otagExist : Bool := false
  itagExist : Bool := false
  frameTypeL2 : Bool := false
  tid : BitVec 8 := 0

structure PieAction where
  drop : Bool := false
  fwdSel : Bool := false
  ovidSel : Bool := false
  ividSel : Bool := false
  fltSel : Bool := false
  logSel : Bool := false
  rmkSel : Bool := false
  meterSel : Bool := false
  tagstSel : Bool := false
  mirSel : Bool := false
  nopriSel : Bool := false
  cpupriSel : Bool := false
  otpidSel : Bool := false
  itpidSel : Bool := false
  shaperSel : Bool := false
  bypassSel : Bool := false
  fwdModToCpu : Bool := false
  fwdAct : BitVec 8 := 0
  fwdData : BitVec 16 := 0
  ovidAct : BitVec 8 := 0
  ovidData : BitVec 16 := 0
  ividAct : BitVec 8 := 0
  ividData : BitVec 16 := 0
  fltData : BitVec 16 := 0
  logData : BitVec 16 := 0
  rmkData : BitVec 16 := 0
  meterData : BitVec 16 := 0
  tagstData : BitVec 16 := 0
  mirData : BitVec 16 := 0
  nopriData : BitVec 16 := 0
  otpidData : BitVec 16 := 0
  itpidData : BitVec 16 := 0
  shaperData : BitVec 16 := 0
  bypassAll : Bool := false
  bypassIgrStp : Bool := false
  bypassIbcSc : Bool := false

/-- `struct pie_rule`. The defaults are what `kzalloc` leaves. -/
structure PieRule where
  id : Int := 0
  packetCntr : Int := 0
  isIpv6 : Bool := false
  fixed : PieFixed := {}
  fixedM : PieFixed := {}
  valid : Bool := false
  condNot : Bool := false
  condAnd1 : Bool := false
  condAnd2 : Bool := false
  ivalid : Bool := false
  key : PieFields 16 := {}
  mask : PieFields 8 := {}
  act : PieAction := {}

/-! ## The raw rule -/

abbrev RawRule := Nat → BitVec 32

def bitIf (b : Bool) (n : Nat) : BitVec 32 := if b then .twoPow 32 n else 0

def PieFixed.word (p : PieFixed) : BitVec 32 :=
  (p.spmmaskFix &&& 0x3).setWidth 32 <<< 22 ||| (p.spn &&& 0x3f).setWidth 32 <<< 16 |||
    bitIf p.mgntVlan 15 ||| bitIf p.dmacHitSw 14 ||| bitIf p.notFirstFrag 13 |||
    (p.frameTypeL4 &&& 0x7).setWidth 32 <<< 10 ||| (p.frameType &&& 0x3).setWidth 32 <<< 8 |||
    bitIf p.otagFmt 7 ||| bitIf p.itagFmt 6 ||| bitIf p.otagExist 5 ||| bitIf p.itagExist 4 |||
    bitIf p.frameTypeL2 2 ||| (p.tid &&& 0x3).setWidth 32

variable (r : RawRule)

def writePieFixedFields (pr : PieRule) : RawRule :=
  let r := Function.update r 6 pr.fixed.word
  let r := Function.update r 13 pr.fixedM.word
  let r := Function.update r 14 (bitIf pr.valid 31 ||| bitIf pr.condNot 30 |||
    bitIf pr.condAnd1 29 ||| bitIf pr.condAnd2 28 ||| bitIf pr.ivalid 27)
  let a := pr.act
  Function.update r 17 (bitIf a.drop 14 ||| bitIf a.fwdSel 13 ||| bitIf a.ovidSel 12 |||
    bitIf a.ividSel 11 ||| bitIf a.fltSel 10 ||| bitIf a.logSel 9 ||| bitIf a.rmkSel 8 |||
    bitIf a.meterSel 7 ||| bitIf a.tagstSel 6 ||| bitIf a.mirSel 5 ||| bitIf a.nopriSel 4 |||
    bitIf a.cpupriSel 3 ||| bitIf a.otpidSel 2 ||| bitIf a.itpidSel 1 ||| bitIf a.shaperSel 0)

def bytes16 (a b : UInt8) : BitVec 16 := a.toBitVec.setWidth 16 <<< 8 ||| b.toBitVec.setWidth 16

/-- The switch in `rtl838x_write_pie_templated`, for data and masks. There is no case for fields
without a value here. -/
def PieFields.field {w : Nat} (p : PieFields w) (isIpv6 : Bool) : TemplateField → Option (BitVec 16)
  | .spm0 => some (p.spm.setWidth 16)
  | .spm1 => some ((p.spm >>> 16).setWidth 16)
  | .otag => some p.otag
  | .smac0 => some (bytes16 p.smac.b4 p.smac.b5)
  | .smac1 => some (bytes16 p.smac.b2 p.smac.b3)
  | .smac2 => some (bytes16 p.smac.b0 p.smac.b1)
  | .dmac0 => some (bytes16 p.dmac.b4 p.dmac.b5)
  | .dmac1 => some (bytes16 p.dmac.b2 p.dmac.b3)
  | .dmac2 => some (bytes16 p.dmac.b0 p.dmac.b1)
  | .ethertype => some (p.ethertype.setWidth 16)
  | .itag => some p.itag
  | .rangeChk => some p.fieldRangeCheck
  | .sip0 => some (if isIpv6 then p.sip6 7 else p.sip.setWidth 16)
  | .sip1 => some (if isIpv6 then p.sip6 6 else (p.sip >>> 16).setWidth 16)
  | .sip2 => some (p.sip6 5)
  | .sip3 => some (p.sip6 4)
  | .sip4 => some (p.sip6 3)
  | .sip5 => some (p.sip6 2)
  | .sip6 => some (p.sip6 1)
  | .sip7 => some (p.sip6 0)
  | .dip0 => some (if isIpv6 then p.dip6 7 else p.dip.setWidth 16)
  | .dip1 => some (if isIpv6 then p.dip6 6 else (p.dip >>> 16).setWidth 16)
  | .dip2 => some (p.dip6 5)
  | .dip3 => some (p.dip6 4)
  | .dip4 => some (p.dip6 3)
  | .dip5 => some (p.dip6 2)
  | .dip6 => some (p.dip6 1)
  | .dip7 => some (p.dip6 0)
  | .ipTosProto => some p.tosProto
  | .l4Sport => some p.sport
  | .l4Dport => some p.dport
  | .icmpIgmp => some p.icmpIgmp
  | _ => none

/-- The lower half of a register is assigned, the upper one is or-ed in. -/
def putHalf (x : BitVec 32) (i : Nat) (data : BitVec 16) : BitVec 32 :=
  if i % 2 = 0 then data.setWidth 32 else x ||| data.setWidth 32 <<< 16

/-- Data and mask of field `i` go to one half of `r[5 - i / 2]` and of `r[12 - i / 2]`. -/
def putField (i : Nat) (data dataM : BitVec 16) : RawRule :=
  Function.update (Function.update r (5 - i / 2) (putHalf (r (5 - i / 2)) i data)) (12 - i / 2)
    (putHalf (r (12 - i / 2)) i dataM)

def writePieTemplated (pr : PieRule) (t : List TemplateField) : RawRule :=
  (range N_FIXED_FIELDS).foldl (fun r i =>
    let fieldType := t.getD i .spmmask
    match pr.key.field pr.isIpv6 fieldType, pr.mask.field pr.isIpv6 fieldType with
    | some data, some dataM => putField r i data dataM
    | _, _ => r) r

/-- The actions with data, in the order of the action information fields: selected, number of fields
checked, data. -/
def PieAction.fields (a : PieAction) : List (Bool × Bool × BitVec 16) :=
  [(a.fwdSel, false, a.fwdAct.setWidth 16 <<< 13 ||| a.fwdData |||
      (if a.bypassAll then 1 <<< 12 else 0) ||| (if a.bypassIbcSc then 1 <<< 11 else 0) |||
      (if a.bypassIgrStp then 1 <<< 10 else 0)),
   (a.ovidSel, false, (a.ovidAct &&& 0x3).setWidth 16 <<< 12 ||| a.ovidData),
   (a.ividSel, false, (a.ividAct &&& 0x3).setWidth 16 <<< 12 ||| a.ividData),
   (a.fltSel, false, a.fltData), (a.logSel, true, a.logData), (a.rmkSel, true, a.rmkData),
   (a.meterSel, true, a.meterData), (a.tagstSel, true, a.tagstData), (a.mirSel, true, a.mirData),
   (a.nopriSel, true, a.nopriData),
   -- the data of the normal priority, not of the one for the CPU
   (a.cpupriSel, true, a.nopriData), (a.otpidSel, true, a.otpidData),
   (a.itpidSel, true, a.itpidData), (a.shaperSel, true, a.shaperData)]

/-- `*aif-- = data`. The pointer starts in front of `r[17]`, on this big endian machine the lower
half of `r[16]`. -/
def putAif (used : Nat) (data : BitVec 16) : RawRule :=
  let i := 16 - used / 2
  Function.update r i
    (if used % 2 = 0 then (r i &&& 0xffff0000) ||| data.setWidth 32
    else (r i &&& 0x0000ffff) ||| data.setWidth 32 <<< 16)

def putActions : RawRule → Nat → List (Bool × Bool × BitVec 16) → Option RawRule
  | r, _, [] => some r
  | r, used, (sel, checked, data) :: fields =>
    if sel then
      if checked && decide (4 ≤ used) then none
      else putActions (putAif r used data) (used + 1) fields
    else putActions r used fields

/-- `rtl838x_write_pie_action`; `none` stands for -1. -/
def writePieAction (pr : PieRule) : Option RawRule := putActions r 0 pr.act.fields

/-! ## The tables -/

/-- The template selectors of the blocks, which name rows of `fixed_templates`. -/
structure PieBlocks where
  tmplteCtrl : Nat → BitVec 32
  selects : ∀ block j, j < 3 → (tmplteCtrl block >>> (j * 3) &&& 0x7).toNat < 5

def PieBlocks.template (b : PieBlocks) (block j : Nat) : Nat :=
  (b.tmplteCtrl block >>> (j * 3) &&& 0x7).toNat

/-- The selectors of `rtl838x_pie_init`: templates 0, 1, 2 for even blocks up to 4, and 0, 3, 4 for
odd ones. The blocks 6, 8 and 10 keep theirs, here 0. -/
def pieInitBlocks : PieBlocks where
  tmplteCtrl block :=
    if block % 2 = 1 then 0 ||| 3 <<< 3 ||| 4 <<< 6
    else if block < 6 then 0 ||| 1 <<< 3 ||| 2 <<< 6
    else 0
  selects block j hj := by
    obtain rfl | rfl | rfl : j = 0 ∨ j = 1 ∨ j = 2 := by omega
    all_goals
      split_ifs
      all_goals decide

structure PieState where
  pieUseBm : Nat → Bool
  /-- `RTL838X_ACL_BLK_LOOKUP_CTRL` -/
  lookupCtrl : Nat → Bool
  /-- the data registers of the table access -/
  tableData : RawRule
  /-- the IACL table -/
  iacl : Nat → RawRule

section

variable (b : PieBlocks)

variable (st : PieState)

/-- `rtl838x_pie_rule_write`. On errors the table is written as well. -/
def pieRuleWrite (idx : Nat) (pr : PieRule) : Int × PieState :=
  let block := idx / PIE_BLOCK_SIZE
  let stale := { st with iacl := Function.update st.iacl idx st.tableData }
  if !pr.valid then (-EINVAL, stale)
  else
    let r := writePieFixedFields (fun _ => 0) pr
    let r := writePieTemplated r pr (fixedTemplate (b.template block pr.fixed.tid.toNat))
    match writePieAction r pr with
    | none => (-1, stale)
    | some r => (0, { st with tableData := r, iacl := Function.update st.iacl idx r })

def pieTemplHas (t : Nat) (fieldType : TemplateField) : Bool :=
  (range N_FIXED_FIELDS).any fun i => (fixedTemplate t).getD i .spmmask == fieldType

variable (pr : PieRule)

/-- The tests of `rtl838x_pie_verify_template`. Of MAC addresses it looks at the data, not the
mask. -/
def pieFitsTemplate (t : Nat) : Bool :=
  !(!pr.isIpv6 && pr.mask.sip != 0 && !pieTemplHas t .sip0) &&
  !(!pr.isIpv6 && pr.mask.dip != 0 && !pieTemplHas t .dip0) &&
  !(pr.isIpv6 &&
    ((pr.mask.sip6.s6Addr32 0 != 0 || pr.mask.sip6.s6Addr32 1 != 0 ||
        pr.mask.sip6.s6Addr32 2 != 0 || pr.mask.sip6.s6Addr32 3 != 0) && !pieTemplHas t .sip2 ||
      (pr.mask.dip6.s6Addr32 0 != 0 || pr.mask.dip6.s6Addr32 1 != 0 ||
        pr.mask.dip6.s6Addr32 2 != 0 || pr.mask.dip6.s6Addr32 3 != 0) && !pieTemplHas t .dip2)) &&
  !(pr.key.smac.toU64 != 0 && !pieTemplHas t .smac0) &&
  !(pr.key.dmac.toU64 != 0 && !pieTemplHas t .dmac0)

/-- `rtl838x_pie_verify_template`; `none` stands for -1. -/
def pieVerifyTemplate (t block : Nat) : Option Nat :=
  if !pieFitsTemplate pr t then none
  else
    let i := findFirstZeroBit (fun i => st.pieUseBm (i + PIE_BLOCK_SIZE * block)) PIE_BLOCK_SIZE
    if PIE_BLOCK_SIZE ≤ i then none else some (i + PIE_BLOCK_SIZE * block)

/-- The search in `rtl838x_pie_rule_add`: the selector and the index of the rule. -/
def pieFind : Option (Nat × Nat) :=
  (range nPieBlocks).findSome? fun block => (range 3).findSome? fun j =>
    (pieVerifyTemplate st pr (b.template block j) block).map fun idx => (j, idx)

def pieLookupEnable (index : Nat) : PieState :=
  { st with lookupCtrl := Function.update st.lookupCtrl (index / PIE_BLOCK_SIZE) true }

/-- `rtl838x_pie_rule_add`, which ignores the error of `rtl838x_pie_rule_write`. -/
def pieRuleAdd : Int × PieState × PieRule :=
  match pieFind b st pr with
  | none => (-EOPNOTSUPP, st, pr)
  | some (j, idx) =>
    let st := { st with pieUseBm := Function.update st.pieUseBm idx true }
    let pr := { pr with
      valid := true
      fixed.tid := .ofNat 8 j
      fixedM.tid := 0x3
      id := idx }
    let st := pieLookupEnable st idx
    (0, (pieRuleWrite b st idx pr).2, pr)

end

/-- `rtl838x_pie_rule_del` for a single rule. An enabled block is disabled, and a disabled one is
enabled afterwards. -/
def pieRuleDel (st : PieState) (index : Int) : PieState :=
  let block := (index.tdiv PIE_BLOCK_SIZE).toNat
  { st with
    lookupCtrl := Function.update st.lookupCtrl block (!st.lookupCtrl block)
    -- the command for a negative index names rules that the table does not have
    iacl := if index < 0 then st.iacl else Function.update st.iacl index.toNat fun _ => 0 }

/-- `rtl838x_pie_rule_rm`. A negative id clears a bit outside of the map. -/
def pieRuleRm (st : PieState) (pr : PieRule) : PieState :=
  let st := pieRuleDel st pr.id
  { st with
    pieUseBm := if pr.id < 0 then st.pieUseBm else Function.update st.pieUseBm pr.id.toNat false }

lemma findFirstZeroBit_eq_false {bm : Nat → Bool} {n : Nat} (h : findFirstZeroBit bm n < n) :
    bm (findFirstZeroBit bm n) = false := by
  unfold findFirstZeroBit at h ⊢
  cases hfind : (range n).find? fun i => !bm i with
  | none =>
    rw [hfind] at h
    exact absurd h (Nat.lt_irrefl n)
  | some i =>
    have := find?_some hfind
    simpa using this

/-! ## Deleting a range

The loops of `rtl838x_pie_rule_del` write the register from the value `blockState` that was read at
the start. -/

variable (blockState : Nat → Bool)

def writeLookup (on : Bool) (reg : Nat → Bool) (block : Nat) : Nat → Bool :=
  if blockState block = on then Function.update blockState block (!on) else reg

variable (indexFrom indexTo : Nat)

def delBlocks : List Nat :=
  range' (indexFrom / PIE_BLOCK_SIZE) (indexTo / PIE_BLOCK_SIZE + 1 - indexFrom / PIE_BLOCK_SIZE)

/-- `RTL838X_ACL_BLK_LOOKUP_CTRL` while `rtl838x_pie_rule_del` clears the rules, and when it
returns. -/
def delLookup : (Nat → Bool) × (Nat → Bool) :=
  let blocks := delBlocks indexFrom indexTo
  let clearing := blocks.foldl (writeLookup blockState true) blockState
  (clearing, blocks.foldl (writeLookup blockState false) clearing)

lemma pieRuleDel_lookupCtrl (st : PieState) (index : Nat) :
    (pieRuleDel st index).lookupCtrl = (delLookup st.lookupCtrl index index).2 := by
  have hblock : ((index : Int).tdiv PIE_BLOCK_SIZE).toNat = index / PIE_BLOCK_SIZE := by
    rw [← Int.ofNat_tdiv, Int.toNat_natCast]
  unfold pieRuleDel delLookup delBlocks
  rw [Nat.add_sub_cancel_left, hblock]
  cases hstate : st.lookupCtrl (index / PIE_BLOCK_SIZE) <;> simp [writeLookup, hstate]

lemma foldl_writeLookup (on : Bool) (blocks : List Nat) (reg : Nat → Bool) :
    (∀ b ∈ blocks, blockState b ≠ on) ∧ blocks.foldl (writeLookup blockState on) reg = reg ∨
      ∃ b ∈ blocks, blockState b = on ∧
        blocks.foldl (writeLookup blockState on) reg = Function.update blockState b (!on) := by
  induction blocks generalizing reg with
  | nil => exact .inl ⟨fun _ h => absurd h not_mem_nil, rfl⟩
  | cons block blocks ih =>
    obtain ⟨hnone, hsame⟩ | ⟨b, hb, hon, hlast⟩ := ih (writeLookup blockState on reg block)
    · by_cases hon : blockState block = on
      · exact .inr ⟨block, mem_cons_self, hon, hsame.trans (if_pos hon)⟩
      · exact .inl ⟨forall_mem_cons.2 ⟨hon, hnone⟩, hsame.trans (if_neg hon)⟩
    · exact .inr ⟨b, mem_cons_of_mem _ hb, hon, hlast⟩

lemma update_not_ne (b : Nat) {on : Bool} (h : blockState b = on) :
    Function.update blockState b (!on) ≠ blockState := by
  intro heq
  have hb := congrFun heq b
  rw [Function.update_self, h] at hb
  exact Bool.not_ne_self on hb

/-- All blocks are disabled while the rules are cleared and enabled as before afterwards exactly if
there is no block. -/
theorem lookup_kept_iff :
    ((∀ b ∈ delBlocks indexFrom indexTo, (delLookup blockState indexFrom indexTo).1 b = false) ∧
      (delLookup blockState indexFrom indexTo).2 = blockState) ↔
    indexTo / PIE_BLOCK_SIZE < indexFrom / PIE_BLOCK_SIZE := by
  constructor
  · rintro ⟨-, hkept⟩
    by_contra hle
    unfold delLookup at hkept
    have hmem : indexFrom / PIE_BLOCK_SIZE ∈ delBlocks indexFrom indexTo :=
      mem_range'_1.2 ⟨Nat.le_refl _, by omega⟩
    obtain ⟨hnone, hsame⟩ | ⟨b, -, hoff, hlast⟩ :=
      foldl_writeLookup blockState false (delBlocks indexFrom indexTo)
      ((delBlocks indexFrom indexTo).foldl (writeLookup blockState true) blockState)
    · -- the enabled blocks of the range are not enabled again
      obtain ⟨hnone', -⟩ | ⟨b, -, hon, hlast⟩ :=
        foldl_writeLookup blockState true (delBlocks indexFrom indexTo) blockState
      · exact hnone _ hmem (Bool.eq_false_iff.2 (hnone' _ hmem))
      · exact update_not_ne blockState b hon (hlast.symm.trans (hsame.symm.trans hkept))
    · exact update_not_ne blockState b hoff (hlast.symm.trans hkept)
  · intro hlt
    have hnil : delBlocks indexFrom indexTo = [] := by
      rw [delBlocks, show indexTo / PIE_BLOCK_SIZE + 1 - indexFrom / PIE_BLOCK_SIZE =
        0 by omega, range'_zero]
    unfold delLookup
    rw [hnil]
    exact ⟨fun _ h => absurd h not_mem_nil, rfl⟩

/-- Of two enabled blocks, block 0 stays enabled meanwhile, and block 1 disabled afterwards. A
disabled block is enabled. -/
theorem lookup_not_kept : let reg := delLookup (fun b => b ≠ 2) 0 255
    reg.1 0 ∧ reg.2 1 = false ∧ (delLookup (fun b => b ≠ 2) 256 256).2 2 := by
  decide

/-! ## Adding and removing a rule -/

def PieRule.placed (pr : PieRule) (j idx : Nat) : PieRule :=
  { pr with
    valid := true
    fixed.tid := .ofNat 8 j
    fixedM.tid := 0x3
    id := idx }

section

variable {b : PieBlocks} {st : PieState} {pr : PieRule} {j idx : Nat}

lemma pieVerifyTemplate_some {t block : Nat} (h : pieVerifyTemplate st pr t block = some idx) :
    st.pieUseBm idx = false := by
  unfold pieVerifyTemplate at h
  split at h
  next => cases h
  next =>
    dsimp only at h
    split at h
    next => cases h
    next hfree =>
      obtain rfl := Option.some.inj h
      exact findFirstZeroBit_eq_false (Nat.not_le.1 hfree)

/-- A rule that is found is not in use. -/
theorem pieFind_some (h : pieFind b st pr = some (j, idx)) : st.pieUseBm idx = false := by
  obtain ⟨block, -, hinner⟩ := exists_of_findSome?_eq_some h
  obtain ⟨j', -, hverify⟩ := exists_of_findSome?_eq_some hinner
  obtain ⟨idx', hidx, heq⟩ := Option.map_eq_some_iff.1 hverify
  obtain ⟨-, rfl⟩ := Prod.mk.inj heq
  exact pieVerifyTemplate_some hidx

lemma pieRuleAdd_none (h : pieFind b st pr = none) : pieRuleAdd b st pr =
    (-EOPNOTSUPP, st, pr) := by
  rw [pieRuleAdd, h]

lemma pieRuleWrite_pieUseBm (st : PieState) (idx : Nat) (pr : PieRule) :
    (pieRuleWrite b st idx pr).2.pieUseBm = st.pieUseBm := by
  unfold pieRuleWrite
  dsimp only
  split
  next => rfl
  next => split <;> rfl

lemma pieRuleAdd_some (h : pieFind b st pr = some (j, idx)) : ∃ st',
    pieRuleAdd b st pr = (0, st', pr.placed j idx) ∧
      st'.pieUseBm = Function.update st.pieUseBm idx true := by
  rw [pieRuleAdd, h]
  exact ⟨_, rfl, pieRuleWrite_pieUseBm _ idx _⟩

lemma pieRuleRm_of_eq (st : PieState) (hid : pr.id = idx) :
    (pieRuleRm st pr).pieUseBm = Function.update st.pieUseBm idx false ∧
      ∀ i ≠ idx, (pieRuleRm st pr).iacl i = st.iacl i := by
  have hnonneg : ¬ pr.id < 0 := by omega
  have hnat : pr.id.toNat = idx := by omega
  simp only [pieRuleRm, pieRuleDel, hnonneg, hnat, if_false, true_and]
  exact fun i hi => Function.update_of_ne hi ..

end

end SourceMaster.Realtek
