import Mathlib.Data.List.Nodup
import Mathlib.Data.List.Range
import SourceMaster.Mtd.WriteSteps

/-!
# An image on one device

The blocks are written to the partition from `part_offset` on, but `mtd_write` asks for the bad
blocks at the beginning of the device. `mtd_write_single_iff` says when this makes no difference.
-/

namespace SourceMaster.Mtd

open Padding List Option Nat Device Op

/-! ## What the calls do to the memory -/

structure Piece where
  dev : Nat
  block : Nat
  data : List UInt8

def Piece.ops (erasesize : Nat) (x : Piece) : List Op :=
  [.erase x.dev (x.block * erasesize) erasesize, .write x.dev (x.block * erasesize) x.data]

def Flash.block (mem : Flash) (erasesize dev b : Nat) : List UInt8 :=
  (range erasesize).map fun i => mem dev (b * erasesize + i)

section

variable {erasesize : Nat}

lemma block_unique {b b' i : Nat} (hi : i < erasesize)
    (h : b' * erasesize ≤ b * erasesize + i ∧ b * erasesize + i < b' * erasesize + erasesize) :
    b' = b := by
  have hpos : 0 < erasesize := zero_lt_of_lt hi
  have hb : (b * erasesize + i) / erasesize = b := by
    rw [mul_comm, mul_add_div hpos, div_eq_of_lt hi, Nat.add_zero]
  have hb' : (b * erasesize + i) / erasesize = b' := by
    rw [Nat.div_eq_iff hpos]
    omega
  exact hb'.symm.trans hb

lemma apply_piece (mem : Flash) (x : Piece) (hx : x.data.length = erasesize) (dev b : Nat) :
    ((x.ops erasesize).foldl apply mem).block erasesize dev b =
      if dev = x.dev ∧ b = x.block then x.data else mem.block erasesize dev b := by
  simp only [Piece.ops, foldl_cons, foldl_nil, apply, hx]
  split
  next h =>
    obtain ⟨rfl, rfl⟩ := h
    apply ext_getElem
    · simp [Flash.block, hx]
    intro i hi hi'
    have hin : True ∧ x.block * erasesize ≤ x.block * erasesize + i ∧
        x.block * erasesize + i < x.block * erasesize + erasesize := by
      exact ⟨trivial, by omega, by omega⟩
    simp only [Flash.block, getElem_map, getElem_range]
    rw [if_pos hin, if_pos hin, Nat.add_sub_cancel_left, getD_eq_getElem?_getD,
      getElem?_eq_getElem hi', getD_some]
    exact UInt8.neg_one_and
  next h =>
    refine map_congr_left fun i hi => ?_
    have hne : ¬ (dev = x.dev ∧ x.block * erasesize ≤ b * erasesize + i ∧
        b * erasesize + i < x.block * erasesize + erasesize) := by
      rintro ⟨hdev, hin⟩
      exact h ⟨hdev, (block_unique (mem_range.1 hi) hin).symm⟩
    dsimp only
    rw [if_neg hne, if_neg hne]

variable {pieces : List Piece}

section

variable (hlen : ∀ x ∈ pieces, x.data.length = erasesize)
include hlen

lemma foldl_pieces_of_not_mem {dev b : Nat}
    (hnot : ∀ x ∈ pieces, ¬ (x.dev = dev ∧ x.block = b)) (mem : Flash) :
    ((pieces.flatMap (Piece.ops erasesize)).foldl apply mem).block erasesize dev b =
      mem.block erasesize dev b := by
  induction pieces generalizing mem with
  | nil => rfl
  | cons x pieces ih =>
    rw [flatMap_cons, foldl_append,
      ih (fun y hy => hlen y (mem_cons_of_mem x hy)) fun y hy => hnot y (mem_cons_of_mem x hy),
      apply_piece mem x (hlen x mem_cons_self), if_neg]
    rintro ⟨rfl, rfl⟩
    exact hnot x mem_cons_self ⟨rfl, rfl⟩

lemma foldl_pieces_of_mem
    (hnodup : (pieces.map fun x => (x.dev, x.block)).Nodup) {x : Piece} (hx : x ∈ pieces)
    (mem : Flash) :
    ((pieces.flatMap (Piece.ops erasesize)).foldl apply mem).block erasesize x.dev x.block =
    x.data := by
  induction pieces generalizing mem with
  | nil => cases hx
  | cons y pieces ih =>
    rw [map_cons, nodup_cons] at hnodup
    have hlen' : ∀ z ∈ pieces, z.data.length = erasesize :=
      fun z hz => hlen z (mem_cons_of_mem y hz)
    rw [flatMap_cons, foldl_append]
    obtain rfl | hx := mem_cons.1 hx
    · rw [foldl_pieces_of_not_mem hlen', apply_piece mem x (hlen x mem_cons_self),
        if_pos ⟨rfl, rfl⟩]
      rintro z hz ⟨hdev, hblock⟩
      exact hnodup.1 (List.mem_map.2 ⟨z, hz, Prod.ext hdev hblock⟩)
    · exact ih hlen' hnodup.2 hx _

end

end

/-! ## Where the image goes -/

section

variable (d : Device)

def Device.unmarked (n : Nat) : List Nat := (range n).filter fun i => !d.bad i

def Device.goodFrom (q : Nat) : List Nat := (range' q (d.blocks - q)).filter fun b => !d.bad b

def Device.blocksOf (image : List UInt8) : Nat := (image.length + d.erasesize - 1) / d.erasesize

/-- The good blocks from `q` on start with the image, and the others have not been changed. -/
structure Device.Written (q : Nat) (image : List UInt8) (mem mem' : Flash) : Prop where
  starts : pad d.erasesize 0xff image <+: (d.goodFrom q).flatMap (mem'.block d.erasesize 0)
  frame : ∀ b, b ∉ (d.goodFrom q).take (d.blocksOf image) →
    mem'.block d.erasesize 0 b = mem.block d.erasesize 0 b

def Op.AvoidsBad : Op → Prop
  | .erase _ start size => ∀ i < size, d.bad ((start + i) / d.erasesize) = false
  | .write _ pos data => ∀ i < data.length, d.bad ((pos + i) / d.erasesize) = false

end

section

variable {d : Device} {q n : Nat} {s : Writer} {image : List UInt8} {pieces : List Piece}
  {ops : List Op}
  {i : Nat}

lemma unmarked_succ (n : Nat) : d.unmarked (n + 1) = d.unmarked n ++
    (if d.bad n then [] else [n]) := by
  rw [unmarked, unmarked, range_succ, filter_append]
  cases h : d.bad n <;> simp [h]

lemma unmarked_of_bad (hle : n ≤ i) (hbad : ∀ j, n ≤ j → j < i → d.bad j) :
    d.unmarked i = d.unmarked n := by
  induction i with
  | zero =>
    rw [le_zero.1 hle]
  | succ i ih =>
    obtain rfl | hlt := eq_or_lt_of_le hle
    · rfl
    · rw [unmarked_succ, hbad i (le_of_lt_succ hlt) (lt_succ_self i), if_pos rfl, append_nil]
      exact ih (le_of_lt_succ hlt) fun j hj hji => hbad j hj (lt_succ_of_lt hji)

/-- The pieces are on the unmarked blocks of the first `n`, moved by `q`, and have the image as far
as written. -/
structure Placed (d : Device) (q n : Nat) (image left : List UInt8) (ops : List Op)
    (pieces : List Piece) : Prop where
  ops : ops = pieces.flatMap (Piece.ops d.erasesize)
  blocks : pieces.map Piece.block = (d.unmarked n).map (q + ·)
  dev : ∀ x ∈ pieces, x.dev = 0
  length : ∀ x ∈ pieces, x.data.length = d.erasesize
  canErase : ∀ x ∈ pieces, d.CanErase x.block
  data : pieces.flatMap Piece.data ++ left = pad d.erasesize 0xff image
  -- the last block that was passed was written
  last : ∀ i, n = i + 1 → d.bad i = false

lemma Placed.wrote {s' : Writer} {block : List UInt8}
    (h : Placed d q n image (s.left d) s.ops pieces) (hdev : s.dev = 0)
    (hw : s.Wrote s' d q n i block) :
    Placed d q (i + 1) image (s'.left d) s'.ops (pieces ++ [⟨0, q + i, block⟩]) := by
  have hforall {p : Piece → Prop} (hold : ∀ x ∈ pieces, p x) (hnew : p ⟨0, q + i, block⟩) :
      ∀ x ∈ pieces ++ [⟨0, q + i, block⟩], p x := by
    intro x hx
    obtain hx | hx := mem_append.1 hx
    · exact hold x hx
    · rw [mem_singleton.1 hx]
      exact hnew
  refine ⟨?_, ?_, hforall h.dev rfl, hforall h.length hw.length, hforall h.canErase hw.canErase, ?_,
    ?_⟩
  · rw [hw.ops, h.ops, flatMap_append, hdev]
    rfl
  · rw [map_append, h.blocks, unmarked_succ, hw.good, unmarked_of_bad hw.le hw.bad]
    simp
  · rw [flatMap_append, append_assoc, ← h.data, ← hw.left]
    simp
  · rintro j hj
    obtain rfl := succ.inj hj
    exact hw.good

lemma writeLoop_placed (hq : q * d.erasesize + d.mtdsize < 2 ^ 32) {fuel : Nat}
    (hs : s.Ready d q n) (hdev : s.dev = 0) (h : Placed d q n image (s.left d) s.ops pieces)
    (hret : writeLoop (q * d.erasesize) fuel d [] s = .returned ops) :
    ∃ n' ≤ d.blocks, ∃ pieces', Placed d q n' image [] ops pieces' := by
  induction fuel generalizing s n pieces with
  | zero => cases hret
  | succ fuel ih =>
    obtain ⟨hleft, rfl⟩ | ⟨s', i, block, hw, hret⟩ | ⟨_, _, _, _, hnext, _⟩ :=
      writeLoop_returned hq hs hret
    · rw [hleft] at h
      exact ⟨n, hs.reached.le, pieces, h⟩
    · exact ih hw.ready (hw.dev.trans hdev) (h.wrote hdev hw) hret
    · cases hnext

lemma openPos_eq (hq : q ≤ d.blocks) : openPos d (q * d.erasesize) = q * d.erasesize := by
  rw [openPos, lseek, if_pos]
  rw [mtdsize, mul_comm]
  exact mul_le_mul_left _ hq

lemma mtdWrite_placed (hq : q * d.erasesize + d.mtdsize < 2 ^ 32) {input : Input}
    (hbuf : input.buflen ≤ d.erasesize) (hread : Readable input.faults)
    (hret : mtdWrite d [] (q * d.erasesize) input = .returned ops) :
    ∃ n ≤ d.blocks, ∃ pieces, Placed d q n input.rest [] ops pieces := by
  refine writeLoop_placed hq (n := 0) ⟨⟨?_, rfl, fun hle => ?_, zero_le _⟩, rfl, hbuf, hread⟩
    rfl (show Placed d q 0 input.rest _ _ [] from ⟨rfl, rfl, nofun, nofun, nofun, rfl, nofun⟩) hret
  · exact (Nat.zero_mul _).symm
  · exact openPos_eq hle

/-! ## When these are the good blocks of the partition -/

lemma goodFrom_eq (q : Nat) :
    d.goodFrom q = ((range (d.blocks - q)).filter fun i => !d.bad (q + i)).map (q + ·) := by
  rw [goodFrom, range'_eq_map_range, List.filter_map]
  rfl

lemma mem_take_filter_range {p : Nat → Bool} {N k b : Nat} : b ∈ ((range N).filter p).take k ↔
      b < N ∧ p b ∧ ((range b).filter p).length < k := by
  have hsplit (hb : b < N) (hp : p b) : ∃ l, (range N).filter p = (range b).filter p ++ b :: l := by
    obtain ⟨m, rfl⟩ := Nat.exists_eq_add_of_lt hb
    refine ⟨((range m).map (b + 1 + ·)).filter p, ?_⟩
    rw [show b + m + 1 = b + 1 + m by omega, range_add, filter_append, range_succ,
      filter_append, filter_cons_of_pos hp, filter_nil, append_assoc]
    rfl
  constructor
  · intro hmem
    obtain ⟨hb, hp⟩ := mem_filter.1 (mem_of_mem_take hmem)
    refine ⟨mem_range.1 hb, hp, ?_⟩
    obtain ⟨l, hl⟩ := hsplit (mem_range.1 hb) hp
    by_contra hge
    -- otherwise only smaller ones are taken
    rw [hl, take_append_of_le_length (not_lt.1 hge)] at hmem
    have hlt := mem_range.1 (mem_filter.1 (mem_of_mem_take hmem)).1
    exact lt_irrefl b hlt
  · rintro ⟨hb, hp, hlt⟩
    obtain ⟨l, hl⟩ := hsplit hb hp
    rw [hl, take_append]
    apply mem_append_right
    obtain ⟨j, hj⟩ := Nat.exists_eq_add_of_lt hlt
    rw [show k - ((range b).filter p).length = j + 1 by omega]
    exact mem_cons_self

variable {ops : List Op}

section

variable (h : Placed d q n image [] ops pieces)
include h

lemma Placed.length_unmarked : (d.unmarked n).length = d.blocksOf image := by
  have hlen : (pieces.flatMap Piece.data).length = d.erasesize * pieces.length := by
    rw [length_flatMap, map_congr_left (fun x hx => h.length x hx)]
    simp [mul_comm]
  have hdata := h.data
  rw [append_nil] at hdata
  rw [hdata, length_pad d.erasesize_pos] at hlen
  have hblocks := congrArg List.length h.blocks
  rw [length_map, length_map] at hblocks
  rw [← hblocks]
  exact (Nat.eq_of_mul_eq_mul_left d.erasesize_pos hlen).symm

lemma Placed.lt_iff {i : Nat} : (d.unmarked i).length < d.blocksOf image ↔ i < n := by
  have hmono {a b : Nat} (hab : a ≤ b) : (d.unmarked a).length ≤ (d.unmarked b).length :=
    ((range_sublist.2 hab).filter _).length_le
  rw [← h.length_unmarked]
  constructor
  · intro hlt
    by_contra hge
    exact absurd (hmono (not_lt.1 hge)) (not_le.2 hlt)
  intro hlt
  obtain ⟨m, rfl⟩ := exists_eq_succ_of_ne_zero (ne_zero_of_lt hlt)
  have hlast := unmarked_succ (d := d) m
  rw [h.last m rfl] at hlast
  have hle := hmono (le_of_lt_succ hlt)
  rw [hlast, length_append]
  exact lt_of_le_of_lt hle (lt_succ_self _)

lemma Placed.keys_nodup : (pieces.map fun x => (x.dev, x.block)).Nodup := by
  have hblocks : (pieces.map Piece.block).Nodup := by
    rw [h.blocks]
    exact (nodup_range.filter _).map fun _ _ => add_left_cancel
  refine List.Nodup.of_map Prod.snd ?_
  rwa [List.map_map]

lemma Placed.avoidsBad : ∀ op ∈ ops, op.AvoidsBad d := by
  intro op hop
  rw [h.ops] at hop
  obtain ⟨x, hx, hop⟩ := mem_flatMap.1 hop
  have hgood : ∀ i < d.erasesize, d.bad ((x.block * d.erasesize + i) / d.erasesize) = false := by
    intro i hi
    rw [mul_comm, mul_add_div d.erasesize_pos, div_eq_of_lt hi, Nat.add_zero]
    exact (h.canErase x hx).2.1
  simp only [Piece.ops, mem_cons, not_mem_nil, or_false] at hop
  obtain rfl | rfl := hop
  · exact hgood
  · show ∀ i < x.data.length, _
    rw [h.length x hx]
    exact hgood

end

/-- Blocks that are marked where `mtd_write` looks are marked in the partition as well. -/
def Device.MarksAgree (d : Device) (q n : Nat) : Prop := ∀ i < n, d.bad i → d.bad (q + i)

lemma Placed.written (hn : n ≤ d.blocks - q) {ops : List Op}
    (h : Placed d q n image [] ops pieces)
    (hagree : d.MarksAgree q n) (mem : Flash) : d.Written q image mem (ops.foldl apply mem) := by
  -- the pieces are on the first good blocks
  have hsame : ∀ i ∈ range n, (!d.bad (q + i)) = !d.bad i := by
    intro i hi
    cases hbad : d.bad i with
    | true => rw [hagree i (mem_range.1 hi) hbad]
    | false =>
      have hmem : q + i ∈ pieces.map Piece.block := by
        rw [h.blocks]
        exact List.mem_map_of_mem (mem_filter.2 ⟨hi, by rw [hbad]; rfl⟩)
      obtain ⟨x, hx, hxi⟩ := List.mem_map.1 hmem
      rw [← hxi, (h.canErase x hx).2.1]
  have hgood : d.goodFrom q = pieces.map Piece.block ++
      (((range (d.blocks - q - n)).map (n + ·)).filter fun i => !d.bad (q + i)).map (q + ·) := by
    rw [goodFrom_eq, h.blocks, show d.blocks - q = n + (d.blocks - q - n) by omega, range_add,
      filter_append, filter_congr hsame, map_append]
    rw [Nat.add_sub_cancel_left]
    rfl
  have htake : (d.goodFrom q).take (d.blocksOf image) = pieces.map Piece.block := by
    have hlen : (pieces.map Piece.block).length = d.blocksOf image := by
      rw [h.blocks, length_map, h.length_unmarked]
    rw [hgood, ← hlen, take_left]
  constructor
  · rw [hgood, flatMap_append]
    have hdata : (pieces.map Piece.block).flatMap
        ((ops.foldl apply mem).block d.erasesize 0) = pad d.erasesize 0xff image := by
      rw [← h.data, append_nil, flatMap_map]
      apply flatMap_congr
      intro x hx
      have hmem := foldl_pieces_of_mem h.length h.keys_nodup hx mem
      rw [h.dev x hx, ← h.ops] at hmem
      exact hmem
    rw [hdata]
    exact prefix_append _ _
  · intro b hb
    rw [htake] at hb
    rw [h.ops]
    apply foldl_pieces_of_not_mem h.length
    rintro x hx ⟨-, rfl⟩
    exact hb (List.mem_map_of_mem hx)

lemma Placed.marksAgree (h : Placed d q n image [] ops pieces)
    (hwritten : ∀ mem, d.Written q image mem (ops.foldl apply mem)) : d.MarksAgree q n := by
  intro i hi hbad
  by_contra hgood
  obtain ⟨m, rfl⟩ := exists_eq_succ_of_ne_zero (ne_zero_of_lt hi)
  have hlast := h.last m rfl
  have him : i < m := by
    refine lt_of_le_of_ne (le_of_lt_succ hi) ?_
    rintro rfl
    rw [hbad] at hlast
    cases hlast
  have hblock : ∀ j, j < m + 1 → d.bad j = false → ∃ x ∈ pieces, x.block = q + j := by
    intro j hj hj'
    have hmem : q + j ∈ pieces.map Piece.block := by
      rw [h.blocks]
      exact List.mem_map_of_mem (mem_filter.2 ⟨mem_range.2 hj, by rw [hj']; rfl⟩)
    exact List.mem_map.1 hmem
  obtain ⟨x, hx, hxm⟩ := hblock m (lt_succ_self m) hlast
  -- a good block was skipped, so the last block is behind those that the image should take
  have hnot : x.block ∉ (d.goodFrom q).take (d.blocksOf image) := by
    rw [goodFrom_eq, ← map_take, hxm]
    intro hmem
    obtain ⟨m', htake, heq⟩ := List.mem_map.1 hmem
    rw [add_left_cancel heq] at htake
    obtain ⟨-, -, hlt⟩ := mem_take_filter_range.1 htake
    have hsub : (d.unmarked m).Sublist ((range m).filter fun i => !d.bad (q + i)) := by
      have hboth : ∀ j ∈ range m, (!d.bad j) = (!d.bad j && !d.bad (q + j)) := by
        intro j hj
        cases hj' : d.bad j with
        | true => rfl
        | false =>
          obtain ⟨y, hy, hyj⟩ := hblock j (lt_succ_of_lt (mem_range.1 hj)) hj'
          rw [← hyj, (h.canErase y hy).2.1]
          rfl
      rw [unmarked, filter_congr hboth]
      exact monotone_filter_right _ fun j hj => (Bool.and_eq_true_iff.1 hj).2
    have hcount : (d.unmarked (m + 1)).length = (d.unmarked m).length + 1 := by
      rw [unmarked_succ, hlast]
      simp
    rw [← h.length_unmarked, hcount] at hlt
    have hsame := hsub.eq_of_length (le_antisymm hsub.length_le (le_of_lt_succ hlt))
    have hmem : i ∈ d.unmarked m := by
      rw [hsame]
      exact mem_filter.2 ⟨mem_range.2 him, by simpa using hgood⟩
    rw [unmarked, mem_filter, hbad] at hmem
    exact Bool.noConfusion hmem.2
  -- what was there before may differ
  have hframe := (hwritten fun _ a => (x.data.getD (a - x.block * d.erasesize) 0) + 1).frame x.block
    hnot
  have hthere := foldl_pieces_of_mem h.length h.keys_nodup hx
    fun _ a => (x.data.getD (a - x.block * d.erasesize) 0) + 1
  rw [h.dev x hx, ← h.ops, hframe] at hthere
  have hpos := d.erasesize_pos
  have hlen := h.length x hx
  have hfirst := congrArg (fun l => l[0]?) hthere
  simp only [Flash.block, getElem?_map, getElem?_range hpos, map_some, Nat.add_zero,
    Nat.sub_self, getD_eq_getElem?_getD, getElem?_eq_getElem (hlen ▸ hpos), getD_some,
    some.injEq] at hfirst
  exact absurd hfirst (by simp)

/-- If `mtd_write` returns, no bad block was touched and the image is at the beginning of the good
blocks exactly if the blocks marked where `mtd_write` looks are marked in the partition as well. The
offsets are passed to the kernel in 32 bits. -/
theorem mtd_write_single_iff (d : Device) (q : Nat) (hq : q * d.erasesize + d.mtdsize < 2 ^ 32)
    (input : Input) (hbuf : input.buflen ≤ d.erasesize) (hread : Readable input.faults)
    {ops : List Op} (hret : mtdWrite d [] (q * d.erasesize) input = .returned ops) :
    ((∀ op ∈ ops, op.AvoidsBad d) ∧ ∀ mem, d.Written q input.rest mem (ops.foldl apply mem)) ↔
      ∀ i, (d.unmarked i).length < d.blocksOf input.rest → d.bad i → d.bad (q + i) := by
  obtain ⟨n, hn, pieces, h⟩ := mtdWrite_placed hq hbuf hread hret
  have hmarks : d.MarksAgree q n ↔
      ∀ i, (d.unmarked i).length < d.blocksOf input.rest → d.bad i → d.bad (q + i) := by
    simp only [h.lt_iff, Device.MarksAgree]
  have hend : n ≤ d.blocks - q := by
    cases n with
    | zero => exact zero_le _
    | succ m =>
      have hmem : q + m ∈ pieces.map Piece.block := by
        rw [h.blocks]
        exact List.mem_map_of_mem (mem_filter.2
          ⟨mem_range.2 (lt_succ_self m), by rw [h.last m rfl]; rfl⟩)
      obtain ⟨x, hx, hxm⟩ := List.mem_map.1 hmem
      have hlt := (h.canErase x hx).1
      omega
  rw [← hmarks]
  exact ⟨fun hw => h.marksAgree hw.2, fun hagree => ⟨h.avoidsBad, h.written hend hagree⟩⟩

end

/-! ## A small device -/

def firstBad : Device where
  nand := true
  erasesize := 2
  blocks := 5
  bad b := b = 0
  worn _ := false
  faulty _ := false
  erasesize_pos := by decide
  size_lt := by decide
  bad_nand _ _ := rfl

def threeBytes : Input where
  buf _ := 1
  buflen := 1
  content := [2, 3]
  faults := [.interrupted, .short 0]

/-- At the beginning of the device, the image goes behind the bad block. -/
theorem mtd_write_single_iff_start : ∃ ops, mtdWrite firstBad [] 0 threeBytes = .returned ops ∧
    ∀ mem, firstBad.Written 0 [1, 2, 3] mem (ops.foldl apply mem) := by
  refine ⟨_, rfl, ?_⟩
  exact ((mtd_write_single_iff firstBad 0 (by decide) threeBytes (by decide) (by decide) rfl).2
    fun i _ hbad => by simpa using hbad).2

/-- The partition begins with the second block. Its first block is skipped because the first block
of the device is bad. -/
theorem mtd_write_skips_good_block : ∃ ops, mtdWrite firstBad [] 2 threeBytes = .returned ops ∧
    ¬ ∀ mem, firstBad.Written 1 [1, 2, 3] mem (ops.foldl apply mem) := by
  refine ⟨_, rfl, fun h => ?_⟩
  exact absurd (h fun _ _ => 0).starts (by decide)

end SourceMaster.Mtd
