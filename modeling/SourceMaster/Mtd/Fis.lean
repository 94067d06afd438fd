import Mathlib.Data.List.Basic
import Mathlib.Data.List.TakeWhile

/-!
# The FIS directory

`fis.c` replaces partitions in the directory of the boot loader, which is one erase block of
descriptors. `fis_remap` looks for the first and the last descriptor that has one of the old names,
and puts the new partitions in place of all that is between them: what follows is moved with
`memmove`, and what becomes free is to be filled with `memset`, the length of which has the wrong
sign.
-/

namespace SourceMaster.Mtd

/-! ## Descriptors -/

structure FisDesc where
  name : Vector UInt8 16
  flashBase : UInt32
  memBase : UInt32
  size : UInt32
  entryPoint : UInt32
  dataLength : UInt32
  pad : Vector UInt8 212
  crcDesc : UInt32
  crcFile : UInt32
deriving DecidableEq

structure FisPart where
  name : Vector UInt8 16
  loadaddr : UInt32
  size : UInt32
  length : UInt32
  crc : UInt32

def cstr (name : Vector UInt8 16) : List UInt8 := name.toList.takeWhile (· ≠ 0)

/-- The directory ends at the first descriptor that has no such name. -/
def inUse (name : Vector UInt8 16) : Bool := !(name[0] = 0 || name[0] = 0xff)

open List Option Nat

section

variable (t : List FisDesc)

def used : List FisDesc := t.takeWhile fun desc => inUse desc.name

def isOld (old : List FisPart) (desc : FisDesc) : Bool :=
    old.any fun part => cstr desc.name = cstr part.name

def fisValidate (old new : List FisPart) : Int :=
  -- only the last partition can have its size detected
  if new.dropLast.any fun part => part.size = 0 then -1
  else if ((used t).filter (isOld old)).length = old.length then 1
  else -1

/-! ## Memory -/

/-- `memmove` of whole descriptors; no result if it does not stay within the directory. -/
def memmove (dst src : Nat) (len : Int) : Option (List FisDesc) :=
  if len < 0 ∨ t.length < dst + len.toNat ∨ t.length < src + len.toNat then none
  else some (t.take dst ++ (t.drop src).take len.toNat ++ t.drop (dst + len.toNat))

def blankDesc : FisDesc where
  name := .replicate 16 0xff
  flashBase := 0xffffffff
  memBase := 0xffffffff
  size := 0xffffffff
  entryPoint := 0xffffffff
  dataLength := 0xffffffff
  pad := .replicate 212 0xff
  crcDesc := 0xffffffff
  crcFile := 0xffffffff

def memset (dst : Nat) (len : Int) : Option (List FisDesc) :=
  if len < 0 ∨ t.length < dst + len.toNat then none
  else some (t.take dst ++ replicate len.toNat blankDesc ++ t.drop (dst + len.toNat))

/-! ## `fis_remap` -/

/-- The first descriptor with an old name, and the last one so far. -/
def locateStep (i : Nat) : Option (Nat × Nat) → Option (Nat × Nat)
  | none => some (i, i)
  | some (first, _) => some (first, i)

def locate (old : List FisPart) : List FisDesc → Nat → Option (Nat × Nat) → Option (Nat × Nat)
  | [], _, found => found
  | desc :: descs, i, found =>
    locate old descs (i + 1) (if isOld old desc then locateStep i found else found)

/-- Where the flash of the old partitions begins, and the space that is available. -/
def available (descs : List FisDesc) (first last : FisDesc) : UInt32 × UInt32 :=
  let (firstFb, lastFb) :=
    if last.flashBase < first.flashBase then (last.flashBase, first.flashBase)
    else (first.flashBase, last.flashBase)
  let offset := descs.foldl
    (fun offset desc => if offset < desc.flashBase then desc.flashBase else offset) 0
  let offset := descs.foldl
    (fun offset desc =>
      if lastFb < desc.flashBase && desc.flashBase < offset then desc.flashBase else offset) offset
  (firstFb, offset - firstFb)

def newDescs : List FisPart → UInt32 → UInt32 → List FisDesc
  | [], _, _ => []
  | part :: parts, offset, size =>
    let descSize := if 0 < part.size then part.size else size
    { name := part.name
      flashBase := offset
      memBase := part.loadaddr
      size := descSize
      entryPoint := part.loadaddr
      dataLength := if 0 < part.length then part.length else descSize
      pad := .replicate 212 0
      crcDesc := 0
      crcFile := part.crc } :: newDescs parts (offset + descSize) (size - descSize)

/-- What follows the old partitions is moved behind the new ones. -/
def moveTail (dst src : Nat) : Option (List FisDesc) :=
  if dst = src then some t
  else do
    let t ← memmove t dst src ((t.length : Int) - max dst src)
    if dst < src then
      let tmp := t.length - (src - dst)
      -- `tmp - end`
      memset t tmp ((tmp : Int) - t.length)
    else some t

/-- `fis_remap`; no result if it writes outside of the directory or finds no old partition. -/
def fisRemap (old new : List FisPart) : Option (List FisDesc) := do
  let (first, last) ← locate old (used t) 0 none
  let (offset, size) := available (used t) (← t[first]?) (← t[last]?)
  let t ← moveTail t (first + new.length) (last + 1)
  if t.length < first + new.length then none
  else some (t.take first ++ newDescs new offset size ++ t.drop (first + new.length))

end

/-! ## The directory after it -/

/-- The partitions with other names are as before, the new ones are among them, and what is behind
them is what was there, as far as there is room. -/
def FisUpdated (old new : List FisPart) (t t' : List FisDesc) : Prop :=
  ∃ before descs after, (used t).filter (fun desc => !isOld old desc) = before ++ after ∧
    descs.map FisDesc.name = new.map FisPart.name ∧ used t' = before ++ descs ++ after ∧
    t'.length = t.length ∧ t'.drop (used t').length <+: t.drop (used t).length

/-- The old partitions stand together, are replaced by at least as many, and there is room. -/
structure Replaceable (old new : List FisPart) (t : List FisDesc) : Prop where
  together : ∃ before olds after, used t = before ++ olds ++ after ∧
    (∀ desc ∈ olds, isOld old desc) ∧ ∀ desc ∈ before ++ after, isOld old desc = false
  le : old.length ≤ new.length
  room : (used t).length + new.length ≤ t.length + old.length

section

variable {old new : List FisPart} {t t' : List FisDesc}

variable (parts : List FisPart) (x : List FisDesc) {olds : List FisDesc} (offset : UInt32)
  (y : List FisDesc) (size : UInt32)

lemma locate_append (i : Nat) (found : Option (Nat × Nat)) :
    locate old (x ++ y) i found = locate old y (i + x.length) (locate old x i found) := by
  induction x generalizing i found with
  | nil => rfl
  | cons desc x ih =>
    rw [cons_append, locate, locate, ih, length_cons, Nat.add_right_comm, Nat.add_assoc]

lemma locate_of_not_old {descs : List FisDesc} (h : ∀ desc ∈ descs, isOld old desc = false)
    (i : Nat) (found : Option (Nat × Nat)) : locate old descs i found = found := by
  induction descs generalizing i with
  | nil => rfl
  | cons desc descs ih =>
    rw [locate, h desc mem_cons_self, if_neg Bool.false_ne_true]
    exact ih (fun desc' hdesc => h desc' (mem_cons_of_mem desc hdesc)) (i + 1)

lemma locate_some (descs : List FisDesc) (i first last : Nat) : ∃ last' olds after,
    locate old descs i (some (first, last)) = some (first, last') ∧ descs = olds ++ after ∧
      (∀ desc ∈ after, isOld old desc = false) ∧
      (olds = [] ∧ last' = last ∨ last' + 1 = i + olds.length) := by
  induction descs generalizing i last with
  | nil => exact ⟨last, [], [], rfl, rfl, nofun, .inl ⟨rfl, rfl⟩⟩
  | cons desc descs ih =>
    rw [locate]
    cases hold : isOld old desc with
    | true =>
      obtain ⟨last', olds, after, hlocate, rfl, hafter, hlast⟩ := ih (i + 1) i
      refine ⟨last', desc :: olds, after, hlocate, rfl, hafter, .inr ?_⟩
      rw [length_cons]
      obtain ⟨rfl, rfl⟩ | hlast := hlast
      · rfl
      · omega
    | false =>
      obtain ⟨last', olds, after, hlocate, rfl, hafter, hlast⟩ := ih (i + 1) last
      obtain ⟨rfl, rfl⟩ | hlast := hlast
      · refine ⟨last', [], desc :: after, hlocate, rfl, ?_, .inl ⟨rfl, rfl⟩⟩
        intro desc' hdesc
        obtain rfl | hdesc := mem_cons.1 hdesc
        · exact hold
        · exact hafter desc' hdesc
      · refine ⟨last', desc :: olds, after, hlocate, rfl, hafter, .inr ?_⟩
        rw [length_cons]
        omega

lemma locate_none (descs : List FisDesc) (i : Nat) {first last : Nat}
    (h : locate old descs i none = some (first, last)) : ∃ before olds after,
      descs = before ++ olds ++ after ∧ first = i + before.length ∧
      last + 1 = first + olds.length ∧ ∀ desc ∈ before ++ after, isOld old desc = false := by
  induction descs generalizing i with
  | nil => cases h
  | cons desc descs ih =>
    rw [locate] at h
    cases hold : isOld old desc with
    | true =>
      rw [hold, if_pos rfl, locateStep] at h
      obtain ⟨last', olds, after, hlocate, rfl, hafter, hlast⟩ := @locate_some old descs (i + 1) i i
      rw [hlocate] at h
      obtain ⟨rfl, rfl⟩ := Prod.mk.inj (some.inj h)
      refine ⟨[], desc :: olds, after, rfl, rfl, ?_, hafter⟩
      rw [length_cons]
      obtain ⟨rfl, rfl⟩ | hlast := hlast
      · rfl
      · omega
    | false =>
      rw [hold, if_neg Bool.false_ne_true] at h
      obtain ⟨before, olds, after, rfl, hfirst, hlast, hnot⟩ := ih (i + 1) h
      refine ⟨desc :: before, olds, after, rfl, ?_, hlast, ?_⟩
      · rw [hfirst, length_cons]
        omega
      · intro desc' hdesc
        obtain rfl | hdesc := mem_cons.1 hdesc
        · exact hold
        · exact hnot desc' hdesc

lemma locate_of_old (h : ∀ desc ∈ olds, isOld old desc) (i first last : Nat) :
    locate old olds i (some (first, last)) =
      some (first, if olds = [] then last else i + olds.length - 1) := by
  induction olds generalizing i last with
  | nil => rfl
  | cons desc olds ih =>
    rw [locate, h desc mem_cons_self, if_pos rfl, locateStep,
      ih (fun desc' hdesc => h desc' (mem_cons_of_mem desc hdesc)), if_neg (cons_ne_nil _ _)]
    congr 2
    split
    next hnil =>
      rw [hnil]
      rfl
    next =>
      rw [length_cons]
      omega

lemma locate_eq {before after : List FisDesc} (holds : ∀ desc ∈ olds, isOld old desc)
    (hne : olds ≠ []) (hnot : ∀ desc ∈ before ++ after, isOld old desc = false) :
    locate old (before ++ olds ++ after) 0 none =
    some (before.length, before.length + olds.length - 1) := by
  obtain ⟨desc, olds, rfl⟩ := exists_cons_of_ne_nil hne
  rw [locate_append, locate_append, locate_of_not_old fun d hd => hnot d (mem_append_left _ hd),
    locate_of_not_old fun d hd => hnot d (mem_append_right _ hd), locate,
    holds desc mem_cons_self, if_pos rfl, locateStep,
    locate_of_old fun d hd => holds d (mem_cons_of_mem desc hd), Nat.zero_add]
  congr 2
  split
  next hnil =>
    rw [hnil]
    rfl
  next =>
    rw [length_cons]
    omega

lemma length_newDescs : (newDescs parts offset size).length = parts.length := by
  induction parts generalizing offset size with
  | nil => rfl
  | cons part parts ih => rw [newDescs, length_cons, ih, length_cons]

lemma name_newDescs : (newDescs parts offset size).map FisDesc.name = parts.map FisPart.name := by
  induction parts generalizing offset size with
  | nil => rfl
  | cons part parts ih => rw [newDescs, map_cons, ih, map_cons]

/-- Nothing is moved out of the directory, unless there is less to fill in: then `memset` gets a
negative length. -/
theorem moveTail_eq {dst src : Nat} (hsrc : src ≤ t.length) : moveTail t dst src =
    if src ≤ dst ∧ dst ≤ t.length then some (t.take dst ++ (t.drop src).take (t.length - dst))
    else none := by
  unfold moveTail
  split
  next heq =>
    subst heq
    have hall : (t.drop dst).take (t.length - dst) = t.drop dst :=
      take_of_length_le (le_of_eq length_drop)
    rw [if_pos ⟨le_refl dst, hsrc⟩, hall, take_append_drop]
  next hne =>
    obtain hlt | hlt := lt_or_gt_of_ne hne
    · -- fewer partitions than before
      rw [if_neg (by omega), max_eq_right (le_of_lt hlt)]
      cases hmove : memmove t dst src (t.length - src) with
      | none => rfl
      | some t₁ =>
        have hlen : t₁.length = t.length := by
          unfold memmove at hmove
          split at hmove
          next => cases hmove
          next h =>
            obtain rfl := some.inj hmove
            simp only [length_append, length_take, length_drop]
            omega
        show (if dst < src then memset t₁ (t₁.length - (src - dst)) _ else some t₁) = none
        rw [if_pos hlt, memset, if_pos]
        exact .inl (by omega)
    · rw [max_eq_left (le_of_lt hlt)]
      by_cases hdst : dst ≤ t.length
      · have hlen : ((t.length : Int) - dst).toNat = t.length - dst := by omega
        have hmove : memmove t dst src (t.length - dst) =
            some (t.take dst ++ (t.drop src).take (t.length - dst)) := by
          rw [memmove, if_neg (by omega), hlen, Nat.add_sub_cancel' hdst, drop_length, append_nil]
        rw [hmove, if_pos ⟨le_of_lt hlt, hdst⟩]
        show (if dst < src then _ else some _) = _
        rw [if_neg (by omega)]
      · rw [memmove, if_pos (.inl (by omega)), if_neg fun h => hdst h.2]
        rfl

lemma fisRemap_eq {first last : Nat} (hlocate : locate old (used t) 0 none = some (first, last))
    (hle : first ≤ last) (hlast : last < t.length) : ∃ offset size, fisRemap t old new =
      if last + 1 ≤ first + new.length ∧ first + new.length ≤ t.length then
        some (t.take first ++ newDescs new offset size ++
          (t.drop (last + 1)).take (t.length - (first + new.length))) else none := by
  have hfirst : t[first]? = some t[first] := getElem?_eq_getElem _
  have hlast' : t[last]? = some t[last] := getElem?_eq_getElem hlast
  refine ⟨(available (used t) t[first] t[last]).1, (available (used t) t[first] t[last]).2, ?_⟩
  simp only [fisRemap, hlocate, hfirst, hlast', bind_eq_bind, bind_some]
  rw [moveTail_eq (succ_le_of_lt hlast)]
  by_cases hroom : last + 1 ≤ first + new.length ∧ first + new.length ≤ t.length
  · rw [if_pos hroom, if_pos hroom, bind_some]
    obtain ⟨hlt, hend⟩ := hroom
    have htake : (t.take (first + new.length)).length = first + new.length := length_take_of_le hend
    rw [if_neg (by rw [length_append, htake]; omega), take_append_of_le_length (by omega),
      take_take, min_eq_left (by omega), drop_append, drop_of_length_le (by omega), htake,
      Nat.sub_self, drop_zero, nil_append]
  · rw [if_neg hroom, if_neg hroom]
    rfl

/-! ## The equivalence -/

lemma used_append_drop (t : List FisDesc) : t = used t ++ t.drop (used t).length := by
  have hprefix : used t <+: t := takeWhile_prefix _
  conv_lhs => rw [← take_append_drop (used t).length t]
  rw [← prefix_iff_eq_take.1 hprefix]

lemma inUse_of_mem {desc : FisDesc} (h : desc ∈ used t) : inUse desc.name :=
  mem_takeWhile_imp (p := fun desc : FisDesc => inUse desc.name) h

lemma used_append {x : List FisDesc} (hx : ∀ desc ∈ x, inUse desc.name) (y : List FisDesc) :
    used (x ++ y) = x ++ used y :=
  takeWhile_append_of_pos hx

lemma used_take_drop (t : List FisDesc) (n : Nat) :
    used ((t.drop (used t).length).take n) = [] := by
  have hnil : used (t.drop (used t).length) = [] := by
    have hused := congrArg used (used_append_drop t)
    rw [used_append fun desc hdesc => inUse_of_mem hdesc] at hused
    exact self_eq_append_right.1 hused
  cases hend : t.drop (used t).length with
  | nil => rw [take_nil]; rfl
  | cons desc rest =>
    rw [hend] at hnil
    cases n with
    | zero => rfl
    | succ n =>
      have hfree : ¬ inUse desc.name := by
        intro huse
        rw [used, takeWhile_cons, if_pos huse] at hnil
        cases hnil
      rw [take_succ_cons, used, takeWhile_cons, if_neg hfree]

lemma length_old_of_validate (hvalid : fisValidate t old new = 1) :
    ((used t).filter (isOld old)).length = old.length := by
  unfold fisValidate at hvalid
  split at hvalid
  next => cases hvalid
  next =>
    split at hvalid
    next h => exact h
    next => cases hvalid

lemma filter_middle {p : FisDesc → Bool} {before after : List FisDesc}
    (hnot : ∀ desc ∈ before ++ after, p desc = false) :
    (before ++ olds ++ after).filter p = olds.filter p := by
  have hnil : ∀ l : List FisDesc, (∀ desc ∈ l, p desc = false) → l.filter p = [] := fun l hl =>
    filter_eq_nil_iff.2 fun desc hdesc => by rw [hl desc hdesc]; exact Bool.false_ne_true
  rw [filter_append, filter_append, hnil before fun d hd => hnot d (mem_append_left _ hd),
    hnil after fun d hd => hnot d (mem_append_right _ hd), nil_append, append_nil]

lemma length_used_le (t : List FisDesc) : (used t).length ≤ t.length :=
  IsPrefix.length_le <| takeWhile_prefix _

lemma length_used_append_le : (used (x ++ y)).length ≤ x.length + (used y).length := by
  induction x with
  | nil => rw [nil_append, length_nil, Nat.zero_add]
  | cons desc x ih =>
    rw [cons_append, used, takeWhile_cons]
    split
    · rw [length_cons, length_cons, Nat.add_right_comm]
      exact succ_le_succ ih
    · exact zero_le _

lemma Replaceable.updated (hvalid : fisValidate t old new = 1) (hold : old ≠ [])
    (hnew : ∀ part ∈ new, inUse part.name) (h : Replaceable old new t) :
    ∃ t', fisRemap t old new = some t' ∧ FisUpdated old new t t' := by
  obtain ⟨⟨before, olds, after, hused, holds, hnot⟩, hle, hroom⟩ := h
  have hlen : olds.length = old.length := by
    rw [← length_old_of_validate hvalid, hused, filter_middle hnot, filter_eq_self.2 holds]
  have hpos : 0 < olds.length := by
    rw [hlen]
    exact length_pos_iff.2 hold
  have hne := length_pos_iff.1 hpos
  have hsplit := used_append_drop t
  have htotal := congrArg length hused
  rw [length_append, length_append] at htotal
  generalize hrest : t.drop (used t).length = rest at hsplit
  obtain ⟨offset, size, heq⟩ := @fisRemap_eq old new t _ _
    (hused ▸ locate_eq holds hne hnot) (by omega) (by omega)
  rw [if_pos (by omega)] at heq
  refine ⟨_, heq, ?_⟩
  -- the parts of the directory
  have hbefore : t.take before.length = before := by
    rw [hsplit, hused, append_assoc, append_assoc, take_left]
  have hafter : t.drop (before.length + olds.length - 1 + 1) = after ++ rest := by
    rw [Nat.sub_add_cancel (by omega), hsplit, hused, append_assoc, ← length_append, drop_left]
  have htail : (after ++ rest).take (t.length - (before.length + new.length)) =
      after ++ rest.take (t.length - (before.length + new.length) - after.length) := by
    rw [take_append, take_of_length_le (by omega)]
  rw [hbefore, hafter, htail]
  have hinUse : ∀ desc ∈ before ++ newDescs new offset size ++ after, inUse desc.name := by
    intro desc hdesc
    obtain hdesc | hdesc := mem_append.1 hdesc
    · obtain hdesc | hdesc := mem_append.1 hdesc
      · refine inUse_of_mem (t := t) ?_
        rw [hused, append_assoc]
        exact mem_append_left _ hdesc
      have hname := List.mem_map_of_mem (f := FisDesc.name) hdesc
      rw [name_newDescs] at hname
      obtain ⟨part, hpart, heq⟩ := List.mem_map.1 hname
      rw [← heq]
      exact hnew part hpart
    · refine inUse_of_mem (t := t) ?_
      rw [hused]
      exact mem_append_right _ hdesc
  have hused' : used (before ++ newDescs new offset size ++ (after ++
      rest.take (t.length - (before.length + new.length) - after.length))) =
      before ++ newDescs new offset size ++ after := by
    rw [← append_assoc, used_append hinUse, ← hrest, used_take_drop, append_nil]
  refine ⟨before, newDescs new offset size, after, ?_, name_newDescs _ _ _, hused', ?_, ?_⟩
  · rw [hused, filter_append, filter_append]
    have hself : ∀ l : List FisDesc, (∀ desc ∈ l, isOld old desc = false) →
        l.filter (fun desc => !isOld old desc) = l := fun l hl =>
      filter_eq_self.2 fun desc hdesc => by rw [hl desc hdesc]; rfl
    have hnone : olds.filter (fun desc => !isOld old desc) = [] :=
      filter_eq_nil_iff.2 fun desc hdesc => by rw [holds desc hdesc]; exact Bool.false_ne_true
    rw [hself before fun d hd => hnot d (mem_append_left _ hd), hnone,
      hself after fun d hd => hnot d (mem_append_right _ hd), append_nil]
  · have hlenrest : rest.length = t.length - (used t).length := by rw [← hrest, length_drop]
    simp only [length_append, length_take, length_newDescs]
    omega
  · rw [hused', ← append_assoc, drop_left, hrest]
    exact take_prefix _ _

lemma FisUpdated.replaceable (hvalid : fisValidate t old new = 1) (hold : old ≠ [])
    (hremap : fisRemap t old new = some t') (h : FisUpdated old new t t') :
    Replaceable old new t := by
  obtain ⟨before', descs, after', hothers, hnames, hused', hlength, -⟩ := h
  have hcount := length_old_of_validate hvalid
  have hpos : 0 < old.length := length_pos_iff.2 hold
  -- the two that are found
  obtain ⟨first, last, hlocate⟩ : ∃ first last, locate old (used t) 0 none =
    some (first, last) := by
    cases hlocate : locate old (used t) 0 none with
    | none =>
      rw [fisRemap, hlocate] at hremap
      cases hremap
    | some found => exact ⟨found.1, found.2, rfl⟩
  obtain ⟨before, olds, after, hused, hfirst, hlast, hnot⟩ := locate_none (used t) 0 hlocate
  rw [Nat.zero_add] at hfirst
  have hfilter : (olds.filter (isOld old)).length = old.length := by
    rw [← hcount, hused, filter_middle hnot]
  have hfew := length_filter_le (isOld old) olds
  have hshort := length_used_le t
  have htotal := congrArg length hused
  rw [length_append, length_append] at htotal
  obtain ⟨offset, size, heq⟩ := @fisRemap_eq old new t _ _ hlocate (by omega) (by omega)
  rw [hremap] at heq
  split at heq
  next hroom =>
    have ht' := some.inj heq
    -- what is behind the new descriptors
    have hafter : t.drop (last + 1) = after ++ t.drop (used t).length := by
      conv_lhs => rw [used_append_drop t, hused, hlast, hfirst]
      rw [append_assoc, ← length_append, drop_left, ← hused]
    have hrest (k : Nat) : (used ((t.drop (last + 1)).take k)).length ≤ after.length := by
      rw [hafter, take_append]
      refine le_trans (length_used_append_le _ _) ?_
      rw [used_take_drop, length_take]
      exact min_le_right _ _
    have hle : (used t').length ≤ first + new.length + after.length := by
      rw [ht']
      refine le_trans (length_used_append_le _ _) (Nat.add_le_add ?_ (hrest _))
      rw [length_append, length_take, length_newDescs]
      omega
    -- nothing is lost, so there are as many as before, with the new ones for the old ones
    have hsplit := length_eq_length_filter_add (l := used t) (isOld old)
    have hothers' := congrArg length hothers
    have hdescs := congrArg length hnames
    have hlen := congrArg length hused'
    rw [length_append] at hothers'
    rw [length_map, length_map] at hdescs
    rw [length_append, length_append, hdescs] at hlen
    have hshort' := length_used_le t'
    refine ⟨⟨before, olds, after, hused, ?_, hnot⟩, by omega, by omega⟩
    exact length_filter_eq_length_iff.1 (by omega)
  next => cases heq

/-- `fis_remap` replaces the old partitions and keeps the others exactly if the old ones stand
together, are not more than the new ones, and there is room for these. -/
theorem fis_remap_iff (t : List FisDesc) (old new : List FisPart)
    (hvalid : fisValidate t old new = 1) (hold : old ≠ []) (hnew : ∀ part ∈ new, inUse part.name) :
    (∃ t', fisRemap t old new = some t' ∧ FisUpdated old new t t') ↔ Replaceable old new t := by
  constructor
  · rintro ⟨t', hremap, hupdated⟩
    exact hupdated.replaceable hvalid hold hremap
  · exact fun h => h.updated hvalid hold hnew

end

/-! ## Small directories -/

def letterPart (c : UInt8) : FisPart := ⟨(Vector.replicate 16 0).set 0 c, 0, 16, 0, 0⟩

def letterDesc (c : UInt8) (flashBase : UInt32) : FisDesc :=
  { blankDesc with name := (Vector.replicate 16 0).set 0 c, flashBase }

/-- One partition is replaced by two. -/
theorem fis_remap_iff_two : ∃ t', fisRemap
    [letterDesc 97 0, letterDesc 98 16, letterDesc 99 32, blankDesc] [letterPart 98]
    [letterPart 100, letterPart 101] = some t' ∧
    FisUpdated [letterPart 98] [letterPart 100, letterPart 101]
      [letterDesc 97 0, letterDesc 98 16, letterDesc 99 32, blankDesc] t' :=
  (fis_remap_iff _ _ _ (by decide) (by decide) (by decide)).2
    ⟨⟨[letterDesc 97 0], [letterDesc 98 16], [letterDesc 99 32], rfl, by decide, by decide⟩,
      by decide, by decide⟩

/-- Two partitions are to be replaced by one: `fis_remap` writes outside of the directory. -/
theorem fis_remap_shrinks : fisValidate
    [letterDesc 97 0, letterDesc 98 16, letterDesc 99 32, blankDesc] [letterPart 97, letterPart 98]
      [letterPart 100] = 1 ∧ ¬ ∃ t',
      fisRemap [letterDesc 97 0, letterDesc 98 16, letterDesc 99 32, blankDesc]
      [letterPart 97, letterPart 98] [letterPart 100] = some t' ∧
      FisUpdated [letterPart 97, letterPart 98] [letterPart 100]
        [letterDesc 97 0, letterDesc 98 16, letterDesc 99 32, blankDesc] t' := by
  refine ⟨by decide, ?_⟩
  rintro ⟨t', hremap, -⟩
  have hnone : fisRemap [letterDesc 97 0, letterDesc 98 16, letterDesc 99 32, blankDesc]
      [letterPart 97, letterPart 98] [letterPart 100] = none := by
    decide
  cases hremap

end SourceMaster.Mtd
