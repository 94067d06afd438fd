import SourceMaster.Lib.Memory
import SourceMaster.Lib.While

/-!
# Splitting a firmware partition

`mtd_find_rootfs_from` looks for a root filesystem at the start of every erase block. The parsers
place the second of their partitions where it finds one. What the first one holds may reach farther
(`cfe_bootfs_parse_iff`, `fit_parse_iff`).
-/

namespace SourceMaster.Mtdsplit

open Memory List Nat While

/-- A device, of a machine with the given byte order. -/
structure Mtd where
  bigEndian : Bool
  name : String
  size : Nat
  erasesize : Nat
  erasesize_pos : 0 < erasesize
  data : Nat → UInt8
  fails : Nat → Bool

inductive PartType
  | squashfs | jffs2 | ubi

structure Part where
  name : String
  offset : Nat
  size : Nat

namespace Mtd

variable (m : Mtd)

def read (offset len : Nat) : Option (List UInt8) :=
  if m.size < offset + len ∨ m.fails offset then none else some (slice m.data offset len)

def nextEb (offset : Nat) : Nat := offset / m.erasesize * m.erasesize + m.erasesize

def checkRootfsMagic (offset : Nat) : Option PartType :=
  (m.read offset 4).bind fun magic =>
    if decode32 false magic = 0x73717368 then some .squashfs
    else if decode32 m.bigEndian magic = 0x19852003 then some .jffs2
    else if decode32 true magic = 0x55424923 then some .ubi
    else none

/-- Offsets increase, so there are at most `limit - offset` rounds. -/
def findLoop (limit : Nat) : Nat → Nat → Option (Nat × PartType)
  | 0, _ => none
  | fuel + 1, offset =>
    if limit ≤ offset then none
    else match m.checkRootfsMagic offset with
      | some type => some (offset, type)
      | none => findLoop limit fuel (m.nextEb offset)

def findRootfsFrom (start limit : Nat) : Option (Nat × PartType) :=
    m.findLoop limit (limit - start) start

/-- The partition for what was found, up to the end of the device. -/
def rootfsPart (found : Nat × PartType) : Part :=
  ⟨match found.2 with | .ubi => "ubi" | _ => "rootfs", found.1, m.size - found.1⟩

def IsNode (offset : Nat) : Prop :=
  (m.read offset 40).isSome ∧ decode16 m.bigEndian (slice m.data offset 2) = 0x1985

instance (offset : Nat) : Decidable (m.IsNode offset) := inferInstanceAs (Decidable (_ ∧ _))

def totlen (offset : Nat) : Nat := (decode32 m.bigEndian (slice m.data (offset + 4) 4)).toNat

/-- Nothing wraps in the 64 bits of `size_t`. -/
def nextNode (offset : Nat) : Nat := (offset + m.totlen offset + 3) / 4 * 4

/-- A round of the loop over the nodes of the bootfs. -/
def nodeRound (offset : Nat) : Except Nat Nat :=
  if ¬ m.IsNode offset then .error offset
  else if m.nextNode offset < m.size then .ok (m.nextNode offset)
  else .error (m.nextNode offset)

def cfeBootfsParse (fuel : Nat) : Option (Option (Part × Part)) :=
  if m.name ≠ "firmware" then some none
  else (run m.nodeRound fuel 0).map fun _ =>
    (m.findRootfsFrom m.erasesize m.size).map fun found =>
      (⟨"bootfs", 0, found.1⟩, m.rootfsPart found)

variable {m} {limit fuel offset c : Nat} {found : Nat × PartType}

/-! ## The search for a root filesystem -/

lemma lt_nextEb (m : Mtd) (offset : Nat) : offset < m.nextEb offset :=
    lt_div_mul_add m.erasesize_pos

lemma dvd_nextEb (m : Mtd) (offset : Nat) : m.erasesize ∣ m.nextEb offset :=
  Nat.dvd_add (Nat.dvd_mul_left _ _) (Nat.dvd_refl _)

lemma nextEb_le (hc : m.erasesize ∣ c) (h : offset < c) : m.nextEb offset ≤ c := by
  obtain ⟨k, rfl⟩ := hc
  have hdiv : offset / m.erasesize < k := Nat.div_lt_of_lt_mul h
  calc m.nextEb offset = (offset / m.erasesize + 1) * m.erasesize := (succ_mul _ _).symm
    _ ≤ k * m.erasesize := Nat.mul_le_mul_right _ hdiv
    _ = m.erasesize * k := Nat.mul_comm _ _

lemma lt_size_of_magic (h : m.checkRootfsMagic c ≠ none) : c < m.size := by
  unfold checkRootfsMagic read at h
  grind

lemma le_size_of_read {len : Nat} {l : List UInt8} (h : m.read offset len = some l) :
    offset + len ≤ m.size := by
  unfold read at h
  grind

lemma findLoop_some (h : m.findLoop limit fuel offset = some found) :
    found.1 < limit ∧ m.checkRootfsMagic found.1 ≠ none ∧ (found.1 = offset ∨
      m.checkRootfsMagic offset = none ∧ m.nextEb offset ≤ found.1 ∧ m.erasesize ∣ found.1) := by
  induction fuel generalizing offset with
  | zero => cases h
  | succ fuel ih =>
    have hnext := lt_nextEb m (m.nextEb offset)
    have hdvd := dvd_nextEb m offset
    rw [findLoop] at h
    grind

/-- The first of the erase blocks with a filesystem is found. -/
theorem exists_findLoop (hfuel : limit - offset ≤ fuel) (hc : m.erasesize ∣ c) (hle : offset ≤ c)
    (hlimit : c < limit) (hmagic : m.checkRootfsMagic c ≠ none) :
    ∃ found, m.findLoop limit fuel offset = some found ∧ found.1 ≤ c := by
  induction fuel generalizing offset with
  | zero => omega
  | succ fuel ih =>
    have hlt := lt_nextEb m offset
    rw [findLoop, if_neg (by omega)]
    cases hoffset : m.checkRootfsMagic offset with
    | some type => exact ⟨_, rfl, hle⟩
    | none =>
      have hne : offset ≠ c := by
        rintro rfl
        exact hmagic hoffset
      exact ih (by omega) (nextEb_le hc (by omega))

/-! ## The bootfs -/

lemma IsNode.lt_size (h : m.IsNode offset) : offset < m.size := by
  have hread := h.1
  unfold read at hread
  grind

lemma nodeRound_ok {offset' : Nat} (h : m.nodeRound offset = .ok offset') :
    m.IsNode offset ∧ offset' = m.nextNode offset ∧ offset' < m.size := by
  unfold nodeRound at h
  grind

lemma mod_four_of_reached (h : Reached m.nodeRound 0 offset) : offset % 4 = 0 := by
  cases h with
  | start => rfl
  | next _ hround =>
    rw [(nodeRound_ok hround).2.1]
    exact Nat.mul_mod_left _ _

lemma run_of_totlen_zero (hreached : Reached m.nodeRound 0 offset) (hnode : m.IsNode offset)
    (hzero : m.totlen offset = 0) : run m.nodeRound fuel offset = none := by
  have hmod := mod_four_of_reached hreached
  have hsame : m.nextNode offset = offset := by
    rw [nextNode, hzero]
    omega
  refine run_eq_none (· = offset) (fun o ho => ⟨offset, ?_, rfl⟩) rfl
  rw [ho, nodeRound, if_neg (not_not.2 hnode), hsame, if_pos hnode.lt_size]

lemma ends_of_totlen (h : ∀ offset, Reached m.nodeRound 0 offset → m.IsNode offset →
    m.totlen offset ≠ 0) (hreached : Reached m.nodeRound 0 offset) : Ends m.nodeRound offset := by
  -- the offset increases, and there is no node at the end of the device
  induction hrest : m.size - offset using Nat.strongRecOn generalizing offset with
  | _ rest ih =>
    cases hround : m.nodeRound offset with
    | error last => exact ends_of_error hround
    | ok next =>
      obtain ⟨hnode, rfl, hlt⟩ := nodeRound_ok hround
      have htotlen := h offset hreached hnode
      rw [ends_iff_of_ok hround]
      refine ih _ ?_ (hreached.next hround) rfl
      unfold nextNode at hlt ⊢
      omega

/-- The parser ends, with the rootfs behind all nodes, if and only if no node has length 0 and no
erase block that starts before the end of a node starts like a root filesystem. -/
theorem cfe_bootfs_parse_iff (m : Mtd) :
    ((∃ fuel, (m.cfeBootfsParse fuel).isSome) ∧
    ∀ fuel parts, m.cfeBootfsParse fuel = some (some parts) →
      ∀ offset, Reached m.nodeRound 0 offset → m.IsNode offset →
      m.nextNode offset ≤ parts.2.offset) ↔
    (m.name = "firmware" → ∀ offset, Reached m.nodeRound 0 offset → m.IsNode offset →
    m.totlen offset ≠ 0 ∧
      ∀ c, m.erasesize ∣ c → m.erasesize ≤ c → c < m.nextNode offset →
      m.checkRootfsMagic c = none) := by
  by_cases hname : m.name = "firmware"
  · simp only [cfeBootfsParse, hname, ne_eq, not_true_eq_false, if_false, forall_const,
      Option.isSome_map]
    constructor
    · intro ⟨⟨fuel, hends⟩, hparts⟩ offset hreached hnode
      refine ⟨fun hzero => ?_, fun c hc hle hlt => ?_⟩
      · obtain ⟨fuel', hfuel'⟩ := hreached.ends ⟨fuel, hends⟩
        rw [run_of_totlen_zero hreached hnode hzero] at hfuel'
        cases hfuel'
      · by_contra hmagic
        obtain ⟨found, hfound, hfirst⟩ :=
          exists_findLoop (Nat.le_refl _) hc hle (lt_size_of_magic hmagic) hmagic
        obtain ⟨stop, hstop⟩ := Option.isSome_iff_exists.1 hends
        have hbehind := hparts fuel _ (by rw [hstop, findRootfsFrom, hfound]; rfl) offset hreached
          hnode
        exact absurd (Nat.le_trans hbehind hfirst) (Nat.not_le.2 hlt)
    · intro h
      refine ⟨ends_of_totlen (fun offset hreached hnode => (h offset hreached hnode).1) .start, ?_⟩
      intro fuel parts hparts offset hreached hnode
      obtain ⟨_, _, hparts⟩ := Option.map_eq_some_iff.1 hparts
      obtain ⟨found, hfound, rfl⟩ := Option.map_eq_some_iff.1 hparts
      obtain ⟨-, hmagic, hplace⟩ := findLoop_some hfound
      have hblock : m.erasesize ∣ found.1 ∧ m.erasesize ≤ found.1 := by
        obtain hfirst | ⟨-, hnext, hdvd⟩ := hplace
        · rw [hfirst]
          exact ⟨Nat.dvd_refl _, Nat.le_refl _⟩
        · exact ⟨hdvd, Nat.le_trans (Nat.le_of_lt (lt_nextEb m _)) hnext⟩
      by_contra hlt
      exact hmagic ((h offset hreached hnode).2 found.1 hblock.1 hblock.2 (Nat.not_le.1 hlt))
  · simp [cfeBootfsParse, hname]

/-- A bootfs that starts with a node of length 0. -/
theorem cfe_bootfs_parse_never_ends : ∃ m : Mtd, ∀ fuel, m.cfeBootfsParse fuel = none := by
  refine ⟨⟨false, "firmware", 0x40000, 0x20000, by decide, ([0x85, 0x19].getD · 0), fun _ => false⟩,
    fun fuel => ?_⟩
  rw [cfeBootfsParse, if_neg (by decide), run_of_totlen_zero .start (by decide) (by decide)]
  rfl

/-! ## FIT images -/

variable (m) (bits offsetStart : Nat)

def FitAt (offset : Nat) (hdr : List UInt8) : Prop :=
  m.read ((offset + offsetStart) % 2 ^ bits) 40 = some hdr ∧ decode32 true (hdr.take 4) = 0xd00dfeed

/-- The search for a header, with no result after a read error. If the loop ends without one, what
was read last is kept. -/
def fitScan : Nat → Nat → List UInt8 → Option (Nat × List UInt8)
  | 0, offset, hdr => some (offset, hdr)
  | fuel + 1, offset, hdr =>
    if m.size < offset + 40 then some (offset, hdr)
    else match m.read ((offset + offsetStart) % 2 ^ bits) 40 with
      | none => none
      | some hdr =>
        if decode32 true (hdr.take 4) = 0xd00dfeed then some (offset, hdr)
        else fitScan fuel (offset + m.erasesize) hdr

def totalsize (hdr : List UInt8) : Nat := (decode32 true ((hdr.drop 4).take 4)).toNat

/-- The partitions if `mtdsplit_fit_parse` returns 2, for a `size_t` of the given width. At first
`hdr` is what is on the stack. -/
def fitParse (hdr : List UInt8) : Option (Part × Part) :=
  (m.fitScan bits offsetStart (m.size + 1) 0 hdr).bind fun fit =>
    let fitSize := totalsize fit.2
    if fitSize ≤ 0x1000 then none
    else (m.findRootfsFrom ((fit.1 + fitSize + offsetStart) % 2 ^ bits) m.size).map fun found =>
      (⟨"kernel", fit.1, m.nextEb ((fitSize + offsetStart) % 2 ^ bits)⟩, m.rootfsPart found)

variable {m bits offsetStart} {hdr : List UInt8} {fit : Nat × List UInt8}

/-- No block before the one where the search ends has a header. -/
theorem fitScan_some (hfuel : m.size < fuel + offset) (hdvd : m.erasesize ∣ offset)
    (hbefore : ∀ c < offset, m.erasesize ∣ c → ∀ hdr, ¬ m.FitAt bits offsetStart c hdr)
    (h : m.fitScan bits offsetStart fuel offset hdr = some fit) :
    m.erasesize ∣ fit.1 ∧ (∀ c < fit.1, m.erasesize ∣ c → ∀ hdr, ¬ m.FitAt bits offsetStart c hdr) ∧
      (m.FitAt bits offsetStart fit.1 fit.2 ∨ m.size < fit.1 + 40) := by
  induction fuel generalizing offset hdr with
  | zero =>
    cases h
    exact ⟨hdvd, hbefore, .inr (by omega)⟩
  | succ fuel ih =>
    have hpos := m.erasesize_pos
    rw [fitScan] at h
    split at h
    · cases h
      exact ⟨hdvd, hbefore, .inr ‹_›⟩
    · split at h
      · cases h
      · rename_i hdr' hread
        split at h
        · cases h
          exact ⟨hdvd, hbefore, .inl ⟨hread, ‹_›⟩⟩
        · refine ih (by omega) (Nat.dvd_add hdvd (Nat.dvd_refl _)) (fun c hc hcdvd hdr hfit => ?_) h
          obtain hlt | rfl := Nat.lt_or_eq_of_le (le_of_lt_add_of_dvd hc hcdvd hdvd)
          · exact hbefore c hlt hcdvd hdr hfit
          · have heq : hdr' = hdr := Option.some.inj (hread.symm.trans hfit.1)
            exact absurd (heq ▸ hfit.2) ‹_›

lemma nextEb_add (h : m.erasesize ∣ c) : m.nextEb (c + offset) = c + m.nextEb offset := by
  obtain ⟨k, rfl⟩ := h
  rw [nextEb, nextEb, mul_add_div m.erasesize_pos, Nat.add_mul, Nat.mul_comm k, Nat.add_assoc]

/-- The kernel partition holds the image and the rootfs is behind it if and only if the end of the
first image does not wrap and no root filesystem starts right at this end. -/
theorem fit_parse_iff {kernel rootfs : Part} (hsize : m.size + m.erasesize ≤ 2 ^ bits)
    (h : m.fitParse bits offsetStart hdr = some (kernel, rootfs)) :
    (∃ hdr, m.read (kernel.offset + offsetStart) 40 = some hdr ∧
    decode32 true (hdr.take 4) = 0xd00dfeed ∧
      totalsize hdr + offsetStart ≤ kernel.size ∧ kernel.offset + kernel.size ≤ rootfs.offset ∧
      rootfs.offset + rootfs.size ≤ m.size) ↔
    ∃ offset hdr, m.erasesize ∣ offset ∧ m.FitAt bits offsetStart offset hdr ∧
      (∀ c < offset, m.erasesize ∣ c → ∀ hdr, ¬ m.FitAt bits offsetStart c hdr) ∧
      offset + totalsize hdr + offsetStart < 2 ^ bits ∧
      m.checkRootfsMagic (offset + totalsize hdr + offsetStart) = none := by
  obtain ⟨⟨fitOffset, fitHdr⟩, hscan, h⟩ := Option.bind_eq_some_iff.1 h
  obtain ⟨hdvd, hbefore, hfit⟩ := fitScan_some (by omega) (Nat.dvd_zero _) (by simp) hscan
  dsimp only at h hdvd hbefore hfit
  split at h
  · cases h
  obtain ⟨found, hfound, hparts⟩ := Option.map_eq_some_iff.1 h
  cases hparts
  obtain ⟨hlimit, hmagic, hplace⟩ := findLoop_some hfound
  constructor
  · intro ⟨hdr, hread, hfdt, hholds, hend, hrest⟩
    have hinside := le_size_of_read hread
    have hfit' := hfit.resolve_right (by simp only at hinside; omega)
    have hhdr : hdr = fitHdr := by
      have hread' := hfit'.1
      rw [Nat.mod_eq_of_lt (by simp only at hinside ⊢; omega)] at hread'
      exact Option.some.inj (hread.symm.trans hread')
    subst hhdr
    have hwrap : fitOffset + totalsize hdr + offsetStart < 2 ^ bits := by
      simp only [rootfsPart] at hend hholds
      omega
    refine ⟨fitOffset, hdr, hdvd, hfit', hbefore, hwrap, ?_⟩
    rw [Nat.mod_eq_of_lt hwrap] at hplace
    obtain hfirst | ⟨hnone, -⟩ := hplace
    · have hlt := lt_nextEb m (totalsize hdr + offsetStart)
      rw [Nat.mod_eq_of_lt (by omega)] at hend
      simp only [rootfsPart] at hend
      omega
    · exact hnone
  · intro ⟨offset, hdr, hoffset, hfit', hfirst, hwrap, hnone⟩
    have hread := hfit'.1
    rw [Nat.mod_eq_of_lt (by omega)] at hread
    have hinside := le_size_of_read hread
    have hle : fitOffset ≤ offset :=
      Nat.le_of_not_lt fun hlt => hbefore offset hlt hoffset hdr hfit'
    have hscanned := hfit.resolve_right (by omega)
    have heq : fitOffset = offset := by
      refine Nat.le_antisymm hle (Nat.le_of_not_lt fun hlt => ?_)
      exact hfirst fitOffset hlt hdvd fitHdr hscanned
    subst heq
    have hhdr : fitHdr = hdr := Option.some.inj (hscanned.1.symm.trans hfit'.1)
    subst hhdr
    rw [Nat.mod_eq_of_lt hwrap] at hplace
    have hnext : m.nextEb (fitOffset + totalsize fitHdr + offsetStart) ≤ found.1 := by
      obtain hat | ⟨-, hnext, -⟩ := hplace
      · exact absurd (hat ▸ hnone) hmagic
      · exact hnext
    have hkernel := lt_nextEb m (totalsize fitHdr + offsetStart)
    rw [Nat.add_assoc, nextEb_add hdvd] at hnext
    refine ⟨fitHdr, hread, hfit'.2, ?_⟩
    rw [Nat.mod_eq_of_lt (by omega)]
    simp only [rootfsPart]
    omega

/-- A FIT image of 0x1010 bytes and the magic of a squashfs. -/
def fitDevice (rootfs : Nat) : Mtd where
  bigEndian := false
  name := "firmware"
  size := 0x4000
  erasesize := 0x1000
  erasesize_pos := by decide
  data := put (put (fun _ => 0) 0 [0xd0, 0x0d, 0xfe, 0xed, 0, 0, 0x10, 0x10]) rootfs
    [0x68, 0x73, 0x71, 0x73]
  fails := fun _ => false

theorem fit_parse_iff_aligned : ∃ kernel rootfs,
    (fitDevice 0x2000).fitParse 32 0 [] = some (kernel, rootfs) ∧
    kernel.offset + kernel.size ≤ rootfs.offset := by
  refine ⟨⟨"kernel", 0, 0x2000⟩, ⟨"rootfs", 0x2000, 0x2000⟩, rfl, ?_⟩
  have hiff := @fit_parse_iff (fitDevice 0x2000) 32 0 [] ⟨"kernel", 0, 0x2000⟩
    ⟨"rootfs", 0x2000, 0x2000⟩
    (by decide) rfl
  obtain ⟨_, -, -, -, hend, -⟩ := hiff.2 ⟨0, _, Nat.dvd_zero _, ⟨rfl, rfl⟩, by simp, by decide, rfl⟩
  exact hend

/-- The root filesystem starts in the kernel partition. -/
theorem fit_parse_overlaps : ∃ kernel rootfs,
    (fitDevice 0x1010).fitParse 32 0 [] = some (kernel, rootfs) ∧
    rootfs.offset < kernel.offset + kernel.size :=
  ⟨⟨"kernel", 0, 0x2000⟩, ⟨"rootfs", 0x1010, 0x2ff0⟩, rfl, by decide⟩

end SourceMaster.Mtdsplit.Mtd
