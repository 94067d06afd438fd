import SourceMaster.Mtd.SingleDevice

/-!
# An image on several devices

When a block cannot be erased, `mtd_write` goes on with the next device. The number of bytes that
were skipped because of bad blocks is kept, and the part of the buffer that it takes for written is
as long as what was skipped. `mtd_write_devices` says that the image arrives if no block was skipped
on a device that is left before the image ends; `mtd_write_beyond_buffer` is what happens otherwise.
-/

namespace SourceMaster.Mtd

open Padding List Nat

def Piece.Before (x y : Piece) : Prop := x.dev < y.dev ∨ x.dev = y.dev ∧ x.block < y.block

def Op.bytes : Op → List UInt8
  | .erase .. => []
  | .write _ _ data => data

/-- The calls are one erasure and one write for each block of the image and no others, to good
blocks of the devices in order. -/
def Arrives (devs : List Device) (erasesize : Nat) (image : List UInt8) (ops : List Op) : Prop :=
  ∃ pieces : List Piece, ops = pieces.flatMap (Piece.ops erasesize) ∧
    pieces.Pairwise Piece.Before ∧
    (∀ x ∈ pieces, ∃ d, devs[x.dev]? = some d ∧ d.CanErase x.block) ∧
    pieces.flatMap Piece.data = pad erasesize 0xff image ∧
    -- what was there before does not matter
    ∀ mem, ∀ x ∈ pieces, (ops.foldl Op.apply mem : Flash).block erasesize x.dev x.block = x.data

/-- The number of blocks that are written to the device before it is left: those that are not
marked, up to the first one that cannot be erased. -/
def Device.room (d : Device) : Nat :=
  (((range d.blocks).takeWhile fun i => d.bad i || !d.worn i).filter fun i => !d.bad i).length

/-- No bad block in front of the first one that cannot be erased. -/
def Device.Clean (d : Device) : Prop :=
  ∀ i < d.blocks, (∀ j < i, d.CanErase j) → d.bad i = false

/-- Each device that an image of `n` blocks fills is clean, and the next one has blocks of the same
size. -/
def LeftClean : List Device → Nat → Prop
  | d :: d' :: next, n =>
    n ≤ d.room ∨ d.Clean ∧ d'.erasesize = d.erasesize ∧ LeftClean (d' :: next) (n - d.room)
  | _, _ => True

section

variable {erasesize : Nat} {d : Device} {n : Nat} {s : Writer} {image : List UInt8}
  {pieces : List Piece} {devs next : List Device}

/-- The image so far, in blocks of the devices up to block `n` of the present one. -/
structure Spread (devs : List Device) (erasesize n : Nat) (image : List UInt8) (s : Writer)
    (left : List UInt8) (pieces : List Piece) : Prop where
  ops : s.ops = pieces.flatMap (Piece.ops erasesize)
  ordered : pieces.Pairwise Piece.Before
  below : ∀ x ∈ pieces, x.dev < s.dev ∨ x.dev = s.dev ∧ x.block < n
  length : ∀ x ∈ pieces, x.data.length = erasesize
  good : ∀ x ∈ pieces, ∃ d, devs[x.dev]? = some d ∧ d.CanErase x.block
  data : pieces.flatMap Piece.data ++ left = pad erasesize 0xff image

variable {s' : Writer} {i : Nat} {block : List UInt8} {ops : List Op}

lemma Spread.wrote (h : Spread devs d.erasesize n image s (s.left d) pieces)
    (hcur : devs[s.dev]? = some d) (hw : s.Wrote s' d 0 n i block) :
    Spread devs d.erasesize (i + 1) image s' (s'.left d) (pieces ++ [⟨s.dev, i, block⟩]) := by
  have hcan := hw.canErase
  have hops := hw.ops
  rw [zero_add] at hcan hops
  have hforall {p : Piece → Prop} (hold : ∀ x ∈ pieces, p x) (hnew : p ⟨s.dev, i, block⟩) :
      ∀ x ∈ pieces ++ [⟨s.dev, i, block⟩], p x := by
    intro x hx
    obtain hx | hx := mem_append.1 hx
    · exact hold x hx
    · rw [mem_singleton.1 hx]
      exact hnew
  have hbefore : ∀ x ∈ pieces, x.dev < s.dev ∨ x.dev = s.dev ∧ x.block < i := by
    intro x hx
    obtain hlt | ⟨heq, hlt⟩ := h.below x hx
    · exact .inl hlt
    · exact .inr ⟨heq, lt_of_lt_of_le hlt hw.le⟩
  refine ⟨?_, ?_, hforall ?_ ?_, hforall h.length hw.length, hforall h.good ⟨d, hcur, hcan⟩, ?_⟩
  · rw [hops, h.ops, flatMap_append]
    rfl
  · refine pairwise_append.2 ⟨h.ordered, pairwise_singleton _ _, fun x hx y hy => ?_⟩
    rw [mem_singleton.1 hy]
    exact hbefore x hx
  · intro x hx
    rw [hw.dev]
    obtain hlt | ⟨heq, hlt⟩ := hbefore x hx
    · exact .inl hlt
    · exact .inr ⟨heq, lt_succ_of_lt hlt⟩
  · rw [hw.dev]
    exact .inr ⟨rfl, lt_succ_self i⟩
  · rw [flatMap_append, append_assoc, ← h.data, ← hw.left]
    simp

lemma Spread.arrives (h : Spread devs erasesize n image s [] pieces)
    (hops : ops = s.ops) : Arrives devs erasesize image ops := by
  have hnodup : (pieces.map fun x => (x.dev, x.block)).Nodup := by
    refine pairwise_map.2 (h.ordered.imp fun hxy heq => ?_)
    obtain ⟨hdev, hblock⟩ := Prod.mk.inj heq
    obtain hlt | ⟨-, hlt⟩ := hxy
    · omega
    · omega
  refine ⟨pieces, hops.trans h.ops, h.ordered, h.good, ?_, fun mem x hx => ?_⟩
  · rw [← h.data, append_nil]
  · rw [hops, h.ops]
    exact foldl_pieces_of_mem h.length hnodup hx mem

lemma flatMap_bytes (pieces : List Piece) :
    (pieces.flatMap (Piece.ops erasesize)).flatMap Op.bytes = pieces.flatMap Piece.data := by
  rw [flatMap_assoc]
  refine flatMap_congr fun x _ => ?_
  simp [Piece.ops, Op.bytes]

/-! ## What is left of a device -/

/-- The first `n` blocks were skipped or written, and `blocks` is the number of those that were to
come when the device was opened. -/
structure Writer.Along (s : Writer) (d : Device) (n blocks : Nat) : Prop where
  passed : ∀ j < n, d.bad j ∨ d.CanErase j
  count : (d.unmarked n).length * d.erasesize + (s.left d).length = blocks * d.erasesize

lemma Writer.Along.wrote {blocks : Nat} (h : s.Along d n blocks) (hw : s.Wrote s' d 0 n i block) :
    s'.Along d (i + 1) blocks := by
  constructor
  · intro j hj
    have hcan := hw.canErase
    rw [zero_add] at hcan
    obtain hlt | rfl := Nat.lt_succ_iff_lt_or_eq.1 hj
    · obtain hjn | hnj := lt_or_ge j n
      · exact h.passed j hjn
      · exact .inl (hw.bad j hnj hlt)
    · exact .inr hcan
  · have hleft := congrArg length hw.left
    rw [length_append, hw.length] at hleft
    rw [unmarked_succ, hw.good, unmarked_of_bad hw.le hw.bad, ← h.count, ← hleft]
    simp [Nat.add_mul, Nat.add_assoc]

/-- At a block that cannot be erased, the device has no room left. -/
theorem Writer.Along.room_eq {blocks : Nat} (h : s.Along d n blocks) (hf : s.Failed s' d 0 n i) :
    d.room = (d.unmarked n).length := by
  have hle : i ≤ d.blocks := hf.ready.reached.le
  have hcan := hf.canErase
  rw [zero_add] at hcan
  have hpassed : ∀ j ∈ range i, (d.bad j || !d.worn j) = true := by
    intro j hj
    obtain hjn | hnj := lt_or_ge j n
    · obtain hbad | ⟨-, -, hworn⟩ := h.passed j hjn
      · rw [hbad, Bool.true_or]
      · rw [hworn, Bool.not_false, Bool.or_true]
    · rw [hf.bad j hnj (mem_range.1 hj), Bool.true_or]
  have hsplit : range d.blocks = range i ++ (range (d.blocks - i)).map (i + ·) := by
    rw [← range_add, Nat.add_sub_cancel' hle]
  have hstop :
    ((range (d.blocks - i)).map (i + ·)).takeWhile (fun j => d.bad j || !d.worn j) = [] := by
    obtain heq | hlt := eq_or_lt_of_le hle
    · rw [heq, Nat.sub_self]
      rfl
    · obtain ⟨m, hm⟩ := exists_eq_succ_of_ne_zero (Nat.sub_ne_zero_of_lt hlt)
      rw [hm, succ_eq_add_one, range_succ_eq_map, map_cons, takeWhile_cons_of_neg]
      rw [Nat.add_zero, hf.good, Bool.false_or]
      intro hworn
      exact hcan ⟨hlt, hf.good, by simpa using hworn⟩
  rw [Device.room, hsplit, takeWhile_append_of_pos hpassed, hstop, append_nil]
  show (d.unmarked i).length = _
  rw [unmarked_of_bad hf.le hf.bad]

structure Writer.Unskipped (s : Writer) (d : Device) (n : Nat) : Prop where
  skipBadBlocks : s.skipBadBlocks = 0
  canErase : ∀ j < n, d.CanErase j

lemma Device.Clean.next_eq (hd : d.Clean) (hs : s.Unskipped d n) (hle : n ≤ i) (hi : i ≤ d.blocks)
    (hbad : ∀ j, n ≤ j → j < i → d.bad j) : i = n := by
  obtain heq | hlt := eq_or_lt_of_le hle
  · exact heq.symm
  · have hgood := hd n (lt_of_lt_of_le hlt hi) hs.canErase
    rw [hbad n (le_refl n) hlt] at hgood
    cases hgood

lemma Writer.Unskipped.wrote (hd : d.Clean) (h : s.Unskipped d n) (hs : s.Ready d 0 n)
    (hw : s.Wrote s' d 0 n i block) : s'.Unskipped d (i + 1) := by
  have hcan := hw.canErase
  rw [zero_add] at hcan
  obtain rfl := hd.next_eq h hw.le (le_of_lt hcan.1) hw.bad
  constructor
  · have hpassed := hs.reached.passed
    have hpassed' := hw.ready.reached.passed
    rw [hs.reached.e, h.skipBadBlocks] at hpassed
    rw [hw.ready.reached.e, hw.w, succ_mul] at hpassed'
    omega
  · intro j hj
    obtain hlt | rfl := Nat.lt_succ_iff_lt_or_eq.1 hj
    · exact h.canErase j hlt
    · exact hcan

lemma Writer.Failed.flush (hd : d.Clean) (h : s.Unskipped d n) (hs : s.Ready d 0 n)
    (hf : s.Failed s' d 0 n i) : s'.flush d = s' ∧ s'.skipBadBlocks = 0 := by
  obtain rfl := hd.next_eq h hf.le hf.ready.reached.le hf.bad
  have hpassed := hs.reached.passed
  have hpassed' := hf.ready.reached.passed
  rw [hs.reached.e, h.skipBadBlocks] at hpassed
  rw [hf.ready.reached.e, hf.w] at hpassed'
  refine ⟨?_, by omega⟩
  rw [Writer.flush, if_neg]
  rw [hf.ready.reached.e, hf.w]
  omega

lemma Writer.Ready.switch {d' : Device} (hs : s.Ready d 0 n) (hE : d'.erasesize = d.erasesize)
    (hskip : s.skipBadBlocks = 0) : (s.switch d' 0).Ready d' 0 0 := by
  refine ⟨⟨(Nat.zero_mul _).symm, ?_, fun _ => ?_, Nat.zero_le _⟩, hs.offset, ?_, hs.readable⟩
  · show 0 + s.skipBadBlocks = 0
    rw [hskip]
  · show openPos d' 0 = _
    rw [openPos, lseek, if_pos (Nat.zero_le _), Nat.zero_mul]
  · rw [hE]
    exact hs.buflen

lemma Device.offset_zero_lt (d : Device) : 0 * d.erasesize + d.mtdsize < 2 ^ 32 := by
  have := d.size_lt
  rw [Nat.zero_mul, Device.mtdsize]
  omega

lemma writeLoop_arrives {fuel blocks : Nat} (hd : d.erasesize = erasesize)
    (hdevs : devs.drop s.dev = d :: next) (hclean : LeftClean (d :: next) blocks)
    (hs : s.Ready d 0 n) (halong : s.Along d n blocks)
    (hskip : next ≠ [] → d.room < blocks → s.Unskipped d n)
    (h : Spread devs d.erasesize n image s (s.left d) pieces)
    (hret : writeLoop 0 fuel d next s = .returned ops) : Arrives devs erasesize image ops := by
  induction fuel generalizing d next s n pieces blocks with
  | zero => cases hret
  | succ fuel ih =>
    have hcur : devs[s.dev]? = some d := by
      have := congrArg (fun l => l[0]?) hdevs
      simpa using this
    have hleft : next ≠ [] → d.room < blocks → d.Clean := by
      intro hne hlt
      cases next with
      | nil => exact absurd rfl hne
      | cons d' next => exact (hclean.resolve_left (not_le.2 hlt)).1
    rw [← Nat.zero_mul d.erasesize] at hret
    obtain ⟨hleft, hops⟩ | ⟨s', i, block, hw, hret⟩ | ⟨s', i, d', next', rfl, hf, hret⟩ :=
      writeLoop_returned d.offset_zero_lt hs hret
    · rw [hleft, hd] at h
      exact h.arrives hops
    · rw [Nat.zero_mul] at hret
      refine ih hd ?_ hclean hw.ready (halong.wrote hw)
        (fun hne hlt => (hskip hne hlt).wrote (hleft hne hlt) hs hw) (h.wrote hcur hw) hret
      rw [hw.dev]
      exact hdevs
    · rw [Nat.zero_mul] at hret
      have hne : d' :: next' ≠ [] := cons_ne_nil _ _
      have hroom := halong.room_eq hf
      -- a block of the image is left
      have hlt : d.room < blocks := by
        have hcount := halong.count
        have hmore := hf.more
        rw [← hroom] at hcount
        exact Nat.lt_of_mul_lt_mul_right (show d.room * d.erasesize < _ by omega)
      obtain ⟨hflush, hzero⟩ := Writer.Failed.flush (hleft hne hlt) (hskip hne hlt) hs hf
      rw [hflush] at hret
      have hdrop : devs.drop (s.dev + 1) = d' :: next' := by
        rw [← drop_drop, hdevs]
        rfl
      obtain ⟨-, hsame, hclean'⟩ := hclean.resolve_left (not_le.2 hlt)
      have hkeep : (s'.switch d' 0).left d' = s.left d := by
        rw [← hf.left, Writer.left, Writer.left, hsame]
        rfl
      refine ih (s := s'.switch d' 0) (n := 0) (hsame.trans hd) ?_ hclean'
        (hf.ready.switch hsame hzero) ⟨fun _ hj => absurd hj (not_lt_zero _), ?_⟩
        (fun _ _ => ⟨hzero, fun _ hj => absurd hj (not_lt_zero _)⟩)
        ⟨?_, h.ordered, ?_, ?_, h.good, ?_⟩ hret
      · show devs.drop (s'.dev + 1) = _
        rw [hf.dev, hdrop]
      · rw [hkeep, hsame, Nat.sub_mul, ← halong.count, ← hroom, Nat.add_sub_cancel_left]
        show 0 * _ + _ = _
        rw [Nat.zero_mul, Nat.zero_add]
      · rw [hsame]
        exact hf.ops.trans h.ops
      · intro x hx
        show x.dev < s'.dev + 1 ∨ _
        rw [hf.dev]
        obtain hlt | ⟨heq, -⟩ := h.below x hx
        · exact .inl (lt_succ_of_lt hlt)
        · exact .inl (heq ▸ lt_succ_self s.dev)
      · rw [hsame]
        exact h.length
      · rw [hkeep, hsame]
        exact h.data

/-- If `mtd_write` returns, what it wrote is the image, padded to whole blocks, and nothing else, if
on a device that is left before the image ends no bad block was in front of the end, and the next
one has blocks of the same size. -/
theorem mtd_write_devices (d : Device) (next : List Device) (input : Input)
    (hbuf : input.buflen ≤ d.erasesize) (hread : Readable input.faults)
    (hclean : LeftClean (d :: next) (d.blocksOf input.rest))
    {ops : List Op} (hret : mtdWrite d next 0 input = .returned ops) :
    ops.flatMap Op.bytes = pad d.erasesize 0xff input.rest ∧
      Arrives (d :: next) d.erasesize input.rest ops := by
  have harrives : Arrives (d :: next) d.erasesize input.rest ops := by
    refine writeLoop_arrives rfl (n := 0) rfl hclean
      ⟨⟨(Nat.zero_mul _).symm, rfl, fun _ => ?_, Nat.zero_le _⟩, rfl, hbuf, hread⟩ ⟨nofun, ?_⟩
      (fun _ _ => ⟨rfl, nofun⟩) (show Spread (d :: next) d.erasesize 0 input.rest _ _ [] from
        ⟨rfl, .nil, nofun, nofun, nofun, rfl⟩) hret
    · rw [openPos, lseek, if_pos (Nat.zero_le _), Nat.zero_mul]
    · show 0 * _ + _ = _
      rw [Nat.zero_mul, Nat.zero_add, Writer.left, length_pad d.erasesize_pos, Nat.mul_comm]
      rfl
  obtain ⟨pieces, hops, -, -, hdata, -⟩ := id harrives
  refine ⟨?_, harrives⟩
  rw [hops, flatMap_bytes, hdata]

end

/-! ## Two small devices -/

def wornDevice (badBlock wornBlock : Nat) : Device where
  nand := true
  erasesize := 2
  blocks := 3
  bad b := b = badBlock
  worn b := b = wornBlock
  faulty _ := false
  erasesize_pos := Nat.zero_lt_two
  size_lt := by decide
  bad_nand _ _ := rfl

def fourBytes : Input where
  buf i := if i < 2 then .ofNat (i + 1) else 9
  buflen := 2
  content := [3, 4]
  faults := []

/-- The bad block of the first device is behind the one that cannot be erased; that of the second is
skipped, but the image ends there. -/
theorem mtd_write_devices_two : ∃ ops,
    mtdWrite (wornDevice 2 1) [wornDevice 0 5, wornDevice 1 0] 0 fourBytes = .returned ops ∧
      ops.flatMap Op.bytes = [1, 2, 3, 4] := by
  refine ⟨_, rfl, (mtd_write_devices (wornDevice 2 1) [wornDevice 0 5, wornDevice 1 0] fourBytes
    (by decide) (by decide) (.inr ⟨fun i _ hi => ?_, rfl, .inl (by decide)⟩) rfl).1⟩
  -- the block 1 ends the device
  match i with
  | 0 => rfl
  | 1 => rfl
  | i + 2 => exact absurd (hi 1 (by omega)).2.2 (by decide)

/-- With the bad block first, what is behind the buffer is written to the second device, in the
place of the first bytes of the image. -/
theorem mtd_write_beyond_buffer : ∃ ops,
    mtdWrite (wornDevice 0 1) [wornDevice 5 5] 0 fourBytes = .returned ops ∧
      ops = [.write 0 2 [1, 2], .erase 1 0 2, .erase 1 2 2, .write 1 0 [9, 9],
        .erase 1 4 2, .write 1 2 [3, 4]] ∧ ¬ pad 2 0xff fourBytes.rest <+: ops.flatMap Op.bytes :=
  ⟨_, rfl, by decide, by decide⟩

end SourceMaster.Mtd
