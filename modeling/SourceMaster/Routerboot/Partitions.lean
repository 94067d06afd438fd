import SourceMaster.Lib.Memory
import SourceMaster.Lib.While
import Mathlib.Data.List.Chain

/-!
# RouterBoot partitions

Some partitions of a RouterBoot device are found by their magic. The scan for them stays where it
cannot read (`find_dynparts_iff`), and the check of a partition adds its offset and size in a
`size_t` (`partitions_parse_iff`).
-/

namespace SourceMaster.Routerboot

open Memory List While

/-- A device that a `size_t` can address. In each round of the scan other reads may fail. -/
structure Master where
  bigEndian : Bool
  bits : Nat
  bits_le : 12 ≤ bits ∧ bits ≤ 64
  size : Nat
  size_le : size + 0x1000 ≤ 2 ^ bits
  data : Nat → UInt8
  fails : (round offset len : Nat) → Bool

structure Dynpart where
  name : String
  magic : UInt32
  /-- The size is in the header of a device tree. -/
  sizeFixup : Bool
  offset : Nat
  size : Nat
  found : Bool

def rbDynparts (bigEndian : Bool) : List Dynpart :=
  [⟨"hard_config", 0x64726148, false, 0, 0x1000, false⟩,
    ⟨"soft_config", 0x74666f53, false, 0, 0x1000, false⟩,
    ⟨"dtb_config", if bigEndian then 0xd00dfeed else 0xedfe0dd0, true, 0, 0, false⟩]

namespace Master

variable (m : Master) (round : Nat)

def read (offset len : Nat) : Option (List UInt8) :=
  if m.size < offset + len ∨ m.fails round offset len then none else some (slice m.data offset len)

def dtbsfixup (offset : Nat) : Option Nat :=
  (m.read round offset 40).bind fun header =>
    let psize := (decode32 true ((header.drop 4).take 4)).toNat
    if psize = 0 then none else some psize

/-- The loop over the table, with the number of bytes to skip. -/
def inspect (offset : Nat) (buf : UInt32) : List Dynpart → List Dynpart × Nat
  | [] => ([], 0)
  | p :: ps =>
    let rest := inspect offset buf ps
    if p.found ∨ p.magic ≠ buf then (p :: rest.1, rest.2)
    else match if p.sizeFixup then m.dtbsfixup round offset else some p.size with
      | none => ({ p with offset := offset } :: rest.1, rest.2)
      | some size =>
        ({ p with offset := offset, size := size, found := true } :: ps,
          (size - 0x1000) / 0x1000 * 0x1000)

/-- The number of rounds so far, the offset and the table. -/
structure Scan where
  round : Nat
  offset : Nat
  parts : List Dynpart

/-- A round of `routerboot_find_dynparts`. -/
def scanRound (s : Scan) : Except (List Dynpart) Scan :=
  if m.size ≤ s.offset then .error s.parts
  else match m.read s.round s.offset 4 with
    | none => .ok { s with round := s.round + 1 }
    | some buf =>
      let (parts, skip) := m.inspect s.round s.offset (decode32 m.bigEndian buf) s.parts
      if s.parts.all (·.found) then .error parts
      else .ok ⟨s.round + 1, (s.offset + skip + 0x1000) % 2 ^ m.bits, parts⟩

def findDynparts (table : List Dynpart) (fuel : Nat) : Option (List Dynpart) :=
    run m.scanRound fuel ⟨0, 0, table⟩

/-- The magic of the partition is at its offset, where a block starts. -/
def HasMagic (p : Dynpart) : Prop :=
  p.offset % 0x1000 = 0 ∧ p.offset + 4 ≤ m.size ∧
    decode32 m.bigEndian (slice m.data p.offset 4) = p.magic

variable {m round} {table parts : List Dynpart} {s s' : Scan} {offset fuel : Nat} {buf : UInt32}

def unfound (parts : List Dynpart) : Nat := parts.countP (!·.found)

lemma inspect_unfound (m : Master) (round offset : Nat) (buf : UInt32) (parts : List Dynpart) :
    unfound (m.inspect round offset buf parts).1 < unfound parts ∨
      unfound (m.inspect round offset buf parts).1 = unfound parts ∧
      (m.inspect round offset buf parts).2 = 0 := by
  induction parts with
  | nil => exact .inr ⟨rfl, rfl⟩
  | cons p ps ih =>
    unfold unfound at ih ⊢
    grind [inspect]

lemma inspect_skip (m : Master) (round offset : Nat) (buf : UInt32) (parts : List Dynpart) :
    (m.inspect round offset buf parts).2 % 0x1000 = 0 := by
  induction parts with
  | nil => rfl
  | cons p ps ih => grind [inspect]

lemma inspect_found {p : Dynpart} (h : p ∈ (m.inspect round offset buf parts).1)
    (hfound : p.found) : p ∈ parts ∨ p.offset = offset ∧ p.magic = buf := by
  induction parts with
  | nil => cases h
  | cons q ps ih =>
    grind [inspect]

/-- What a round does that is not the last one. -/
theorem scanRound_ok (h : m.scanRound s = .ok s') :
    s.offset < m.size ∧ (m.read s.round s.offset 4 = none ∧ s' = { s with round := s.round + 1 } ∨
      ∃ buf skip, m.read s.round s.offset 4 = some buf ∧
        m.inspect s.round s.offset (decode32 m.bigEndian buf) s.parts = (s'.parts, skip) ∧
        s'.offset = (s.offset + skip + 0x1000) % 2 ^ m.bits) := by
  unfold scanRound at h
  grind

def Sound (m : Master) (table parts : List Dynpart) : Prop := ∀ p ∈ parts, p.found → p ∈ table ∨
    m.HasMagic p

lemma inspect_sound (hoffset : s.offset % 0x1000 = 0) (hsound : m.Sound table s.parts)
    {buf : List UInt8} (hread : m.read s.round s.offset 4 = some buf) :
    m.Sound table (m.inspect s.round s.offset (decode32 m.bigEndian buf) s.parts).1 := by
  intro p hp hfound
  obtain ⟨hsize, rfl⟩ : s.offset + 4 ≤ m.size ∧ buf = slice m.data s.offset 4 := by grind [read]
  obtain hold | ⟨hplace, hmagic⟩ := inspect_found hp hfound
  · exact hsound p hold hfound
  · rw [← hplace] at hoffset hsize hmagic
    exact .inr ⟨hoffset, hsize, hmagic.symm⟩

lemma findDynparts_sound (h : m.findDynparts table fuel = some parts) : m.Sound table parts := by
  refine of_run (fun s => s.offset % 0x1000 = 0 ∧ m.Sound table s.parts) ?_ ?_
    ⟨rfl, fun p hp _ => .inl hp⟩ h
  · intro s s' ⟨hoffset, hsound⟩ hround
    obtain ⟨-, ⟨-, rfl⟩ | ⟨buf, skip, hread, hinspect, hnext⟩⟩ := scanRound_ok hround
    · exact ⟨hoffset, hsound⟩
    · have hsound' := inspect_sound hoffset hsound hread
      have hskip := inspect_skip m s.round s.offset (decode32 m.bigEndian buf) s.parts
      rw [hinspect] at hsound' hskip
      have hbits : 0x1000 ∣ 2 ^ m.bits := Nat.pow_dvd_pow 2 m.bits_le.1
      rw [hnext, Nat.mod_mod_of_dvd _ hbits]
      exact ⟨by simp only at hskip; omega, hsound'⟩
  · intro s last ⟨hoffset, hsound⟩ hround
    unfold scanRound at hround
    grind [inspect_sound]

/-- The partitions that are not found count more than what is left of the device. -/
def remaining (m : Master) (s : Scan) : Nat := unfound s.parts * (m.size + 1) + (m.size - s.offset)

lemma scanRound_progress (h : m.scanRound s = .ok s') :
    m.read s.round s.offset 4 = none ∧ s' = { s with round := s.round + 1 } ∨
    m.remaining s' < m.remaining s := by
  obtain ⟨hsize, hnone | ⟨buf, skip, hread, hinspect, hnext⟩⟩ := scanRound_ok h
  · exact .inl hnone
  · have hcount := inspect_unfound m s.round s.offset (decode32 m.bigEndian buf) s.parts
    rw [hinspect] at hcount
    dsimp only at hcount
    unfold remaining
    obtain hless | ⟨hsame, hskip⟩ := hcount
    · have hmul := Nat.mul_le_mul_right (m.size + 1) (Nat.succ_le_of_lt hless)
      rw [Nat.succ_mul] at hmul
      omega
    · have hle := m.size_le
      rw [hsame, hnext, hskip, Nat.mod_eq_of_lt (by omega)]
      omega

/-- No block that the scan comes to is unreadable for ever. -/
def Readable (m : Master) (table : List Dynpart) : Prop :=
  ∀ s, Reached m.scanRound ⟨0, 0, table⟩ s → s.offset < m.size →
    ∃ wait, (m.read (s.round + wait) s.offset 4).isSome

lemma scan_ends (h : m.Readable table) (hreached : Reached m.scanRound ⟨0, 0, table⟩ s) :
    Ends m.scanRound s := by
  induction hn : m.remaining s using Nat.strongRecOn generalizing s with
  | _ n ih =>
    by_cases hsize : s.offset < m.size
    · obtain ⟨wait, hwait⟩ := h s hreached hsize
      induction wait using Nat.strongRecOn generalizing s with
      | _ wait ihwait =>
        cases hround : m.scanRound s with
        | error last => exact ends_of_error hround
        | ok s' =>
          have hnext := hreached.next hround
          rw [ends_iff_of_ok hround]
          obtain ⟨hnone, rfl⟩ | hless := scanRound_progress hround
          · obtain ⟨wait, rfl⟩ : ∃ k, wait = k + 1 := Nat.exists_eq_succ_of_ne_zero (by grind)
            exact ihwait wait (Nat.lt_succ_self _) hnext hn hsize (by rwa [Nat.add_right_comm])
          · exact ih _ (hn ▸ hless) hnext rfl
    · exact ends_of_error (if_pos (Nat.not_lt.1 hsize))

lemma run_of_unreadable (hsize : s.offset < m.size)
    (h : ∀ wait, ¬ (m.read (s.round + wait) s.offset 4).isSome) :
    run m.scanRound fuel s = none := by
  refine run_eq_none (fun s' => s.round ≤ s'.round ∧ s'.offset = s.offset) ?_ ⟨Nat.le_refl _, rfl⟩
  intro s' ⟨hle, hoffset⟩
  obtain ⟨wait, hwait⟩ := Nat.exists_eq_add_of_le hle
  have hnone := h wait
  refine ⟨{ s' with round := s'.round + 1 }, ?_, Nat.le_succ_of_le hle, hoffset⟩
  rw [← hwait, ← hoffset, Option.not_isSome_iff_eq_none] at hnone
  rw [scanRound, if_neg (by omega), hnone]

/-- The scan ends if and only if every block it comes to can be read sooner or later. What it marks
as found has its magic. -/
theorem find_dynparts_iff (m : Master) (table : List Dynpart) :
    ((∃ fuel, (m.findDynparts table fuel).isSome) ∧
      ∀ fuel parts, m.findDynparts table fuel = some parts → m.Sound table parts) ↔
      m.Readable table := by
  constructor
  · intro ⟨hends, _⟩ s hreached hsize
    by_contra hnever
    obtain ⟨fuel, hfuel⟩ := hreached.ends hends
    rw [run_of_unreadable hsize (not_exists.1 hnever)] at hfuel
    cases hfuel
  · intro h
    exact ⟨scan_ends h .start, fun _ _ => findDynparts_sound⟩

/-- The first block cannot be read. -/
theorem find_dynparts_never_ends : ∃ m : Master, ∀ fuel,
    m.findDynparts (rbDynparts m.bigEndian) fuel = none :=
  ⟨⟨true, 32, by decide, 0x10000, by decide, fun _ => 0xff, fun _ offset _ => offset = 0⟩,
    fun _ => run_of_unreadable (by decide) fun _ => by simp [read]⟩

end Master

/-! ## The table of partitions -/

/-- A child of the node of the device. Its name is the label, the property `name` or the name of the
node. -/
structure Node where
  partname : String
  addrCells : Nat
  sizeCells : Nat
  reg : Option (List UInt32)
  size : Option (List UInt32)
  readOnly : Bool
  lock : Bool

structure Part where
  name : String
  offset : Nat
  size : Nat
  maskFlags : Nat

/-- The check for an overlap is made before the size is filled in. -/
def Part.fixup (p : Part) (next : Nat) : Part :=
    { p with size := if p.size = 0 then next - p.offset else p.size }

namespace Master

variable (m : Master) (dynparts : List Dynpart)

def readNumber (cells : List UInt32) : Nat :=
  cells.foldl (fun r cell => (r * 2 ^ 32 + cell.toNat) % 2 ^ 64) 0 % 2 ^ m.bits

/-- The offset and size of a partition, if its properties have the right lengths. -/
def place (masterOfs : Nat) (node : Node) : Option (Nat × Nat) :=
  match node.reg with
  | some reg =>
    if reg.length ≠ node.addrCells + node.sizeCells then none
    else some (m.readNumber (reg.take node.addrCells), m.readNumber (reg.drop node.addrCells))
  | none =>
    let known := (dynparts.find? fun p => p.name = node.partname ∧ p.found).elim (masterOfs, 0)
      fun p => (p.offset, p.size)
    match node.size with
    | none => some known
    | some sz => if sz.length ≠ node.sizeCells then none else some (known.1, m.readNumber sz)

/-- The next offset, aligned to `RB_BLOCK_SIZE`. -/
def masterOfs (offset size : Nat) : Nat :=
  ((offset + size) % 2 ^ m.bits + 0xfff) % 2 ^ m.bits / 0x1000 * 0x1000

/-- The loop over the nodes. The offsets and sizes of partitions have 64 bits. -/
def parseNodes : Option Part → Nat → List Node → Option (List Part)
  | prev, _, [] => some prev.toList
  | prev, ofs, node :: nodes =>
    (m.place dynparts ofs node).bind fun (offset, size) =>
      if prev.any fun p => offset < (p.offset + p.size) % 2 ^ 64 then none
      else if m.size < (offset + size) % 2 ^ m.bits then none
      else
        let flags := (if node.readOnly then 0x400 else 0) ||| if node.lock then 0x2000 else 0
        (parseNodes (some ⟨node.partname, offset, size, flags⟩) (m.masterOfs offset size) nodes).map
          ((prev.map (·.fixup offset)).toList ++ ·)

/-- `routerboot_partitions_parse`, after the scan has left `dynparts`. -/
def partitionsParse (nodes : List Node) : Option (List Part) := m.parseNodes dynparts none 0 nodes

/-- No sum of an offset and a size wraps. -/
def NoWrap : Nat → List Node → Prop
  | _, [] => True
  | ofs, node :: nodes => ∀ offset size, m.place dynparts ofs node = some (offset, size) →
      offset + size < 2 ^ m.bits ∧ NoWrap (m.masterOfs offset size) nodes

def Before (p q : Part) : Prop := p.offset + p.size ≤ q.offset

variable {m dynparts} {prev : Option Part} {p : Part} {ofs : Nat} {nodes : List Node}
  {parts : List Part}

lemma parseNodes_cons {node : Node}
    (h : m.parseNodes dynparts prev ofs (node :: nodes) = some parts) :
    ∃ p rest, m.place dynparts ofs node = some (p.offset, p.size) ∧
      (∀ q ∈ prev, (q.offset + q.size) % 2 ^ 64 ≤ p.offset) ∧
      (p.offset + p.size) % 2 ^ m.bits ≤ m.size ∧
      m.parseNodes dynparts (some p) (m.masterOfs p.offset p.size) nodes = some rest ∧
      parts = (prev.map (·.fixup p.offset)).toList ++ rest := by
  rw [parseNodes] at h
  obtain ⟨⟨offset, size⟩, hplace, h⟩ := Option.bind_eq_some_iff.1 h
  obtain ⟨hoverlap, h⟩ := Option.ite_none_left_eq_some.1 h
  obtain ⟨hinside, h⟩ := Option.ite_none_left_eq_some.1 h
  obtain ⟨rest, hrest, rfl⟩ := Option.map_eq_some_iff.1 h
  refine ⟨_, rest, hplace, fun q hq => ?_, Nat.not_lt.1 hinside, hrest, rfl⟩
  cases hq
  simpa using hoverlap

lemma parseNodes_head (h : m.parseNodes dynparts (some p) ofs nodes = some parts) :
    ∃ q rest, parts = q :: rest ∧ q.offset = p.offset := by
  cases nodes with
  | nil =>
    cases h
    exact ⟨p, [], rfl, rfl⟩
  | cons node nodes =>
    obtain ⟨next, rest, -, -, -, -, rfl⟩ := parseNodes_cons h
    exact ⟨_, rest, rfl, rfl⟩

lemma parseNodes_iff (hprev : ∀ p ∈ prev, (p.offset + p.size) % 2 ^ m.bits ≤ m.size)
    (h : m.parseNodes dynparts prev ofs nodes = some parts) :
    (parts.IsChain Before ∧ ∀ p ∈ parts, p.offset + p.size ≤ m.size) ↔
      (∀ p ∈ prev, p.offset + p.size < 2 ^ m.bits) ∧ m.NoWrap dynparts ofs nodes := by
  have hsize := m.size_le
  induction nodes generalizing prev ofs parts with
  | nil =>
    cases h
    cases prev with
    | none => simp [NoWrap]
    | some p =>
      have hmod : p.offset + p.size < 2 ^ m.bits →
        (p.offset + p.size) % 2 ^ m.bits = p.offset + p.size :=
        Nat.mod_eq_of_lt
      have hp := hprev p rfl
      simp only [Option.toList_some, List.isChain_singleton, mem_singleton, forall_eq, true_and,
        NoWrap, and_true, Option.mem_some, forall_eq']
      omega
  | cons node nodes ih =>
    obtain ⟨p, rest, hplace, hoverlap, hinside, hrest, rfl⟩ := parseNodes_cons h
    have hnodes := @ih (some p) _ _ (by simpa using hinside) hrest
    have hnowrap : m.NoWrap dynparts ofs (node :: nodes) ↔
        p.offset + p.size < 2 ^ m.bits ∧ m.NoWrap dynparts (m.masterOfs p.offset p.size) nodes := by
      simp [NoWrap, hplace]
    simp only [Option.mem_some, forall_eq'] at hnodes
    rw [hnowrap]
    refine Iff.trans ?_ (and_congr Iff.rfl hnodes)
    cases prev with
    | none => simp
    | some q =>
      obtain ⟨next, rest, rfl, hnext⟩ := parseNodes_head hrest
      have hbits : 2 ^ m.bits ≤ 2 ^ 64 := Nat.pow_le_pow_right (by decide) m.bits_le.2
      have hmod : q.offset + q.size < 2 ^ 64 → (q.offset + q.size) % 2 ^ 64 = q.offset + q.size :=
        Nat.mod_eq_of_lt
      have hq := hoverlap q rfl
      simp only [Option.map_some, Option.toList_some, singleton_append, isChain_cons_cons, Before,
        hnext, Part.fixup, forall_mem_cons, Option.mem_some, forall_eq']
      grind

/-- The partitions are in order, disjoint and in the device if and only if no end wraps. -/
theorem partitions_parse_iff (h : m.partitionsParse dynparts nodes = some parts) :
    (parts.Pairwise Before ∧ ∀ p ∈ parts, p.offset + p.size ≤ m.size) ↔
    m.NoWrap dynparts 0 nodes := by
  have htrans : Trans Before Before Before :=
    ⟨fun {p q r} (hpq : _ ≤ _) (hqr : _ ≤ _) => show _ ≤ _ by omega⟩
  rw [← isChain_iff_pairwise, parseNodes_iff (by simp) h]
  simp

def block : Master := ⟨true, 32, by decide, 0x1000, by decide, fun _ => 0xff, fun _ _ _ => false⟩

def flash : Master := { block with size := 0x10000, size_le := by decide }

def fixed (offset size : UInt32) : Node := ⟨"a", 1, 1, some [offset, size], none, true, false⟩

def hardConfig : Dynpart := ⟨"hard_config", 0x64726148, false, 0x2000, 0x1000, true⟩

/-- A fixed partition, one that was found on the flash, and one behind it. -/
def threeNodes : List Node :=
  [fixed 0 0x1000, ⟨"hard_config", 1, 1, none, none, true, false⟩,
    ⟨"firmware", 1, 1, none, some [0xc000], false, false⟩]

theorem partitions_parse_iff_three : ∃ parts,
    flash.partitionsParse [hardConfig] threeNodes = some parts ∧ parts.length = 3 ∧
      parts.Pairwise Before ∧ ∀ p ∈ parts, p.offset + p.size ≤ flash.size := by
  have hparse : flash.partitionsParse [hardConfig] threeNodes = some
      [⟨"a", 0, 0x1000, 0x400⟩, ⟨"hard_config", 0x2000, 0x1000, 0x400⟩,
        ⟨"firmware", 0x3000, 0xc000, 0⟩] := rfl
  refine ⟨_, hparse, rfl, (partitions_parse_iff hparse).2 ?_⟩
  intro offset size hfixed
  cases hfixed
  refine ⟨by decide, fun offset size hfound => ?_⟩
  cases hfound
  refine ⟨by decide, fun offset size hbehind => ?_⟩
  cases hbehind
  exact ⟨by decide, trivial⟩

/-- The sum of the offset and the size is 0. -/
theorem partitions_parse_wraps : ∃ part, block.partitionsParse [] [fixed 0x800 0xfffff800] =
    some [part] ∧ ¬ part.offset + part.size ≤ block.size :=
  ⟨⟨"a", 0x800, 0xfffff800, 0x400⟩, rfl, by decide⟩

end Master

end SourceMaster.Routerboot
