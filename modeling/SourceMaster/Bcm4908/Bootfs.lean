import Mathlib.Logic.Function.Iterate
import SourceMaster.Bcm4908.Create

/-!
# Renaming a file of the bootfs

`bcm4908img bootfs mv` looks for a directory entry of the JFFS2 file system in an image, replaces
its name, and updates the checksum in the tail. It writes the tail to the end of the file, where it
is unless there is a vendor tail behind it (`bootfs_mv_breaks_vendor_image`), and does not ask
whether the entry is in the bootfs. Otherwise the image is kept (`bootfs_mv_keeps_image`).
-/

namespace SourceMaster.Bcm4908

open Memory Crc Failing Function List Option Nat File Except

/-! ## The program -/

/-- An argument of the program: a string, and what is behind it in memory. -/
structure Arg where
  mem : Nat → UInt8
  len : Nat
  nul : mem len = 0
  noNul : ∀ i < len, mem i ≠ 0

def Arg.chars (a : Arg) : List UInt8 := slice a.mem 0 a.len

def JFFS2_MAGIC_BITMASK : UInt16 := 0x1985
def JFFS2_NODETYPE_DIRENT : UInt16 := 0xe001

def sizeofNode : Nat := 12

def sizeofDirent : Nat := 40

def FILENAME_MAX : Nat := 4096

inductive MvError
  /-- New filename must have the same length as the old one -/
  | length
  /-- Failed to read a node -/
  | node
  /-- Failed to read filename -/
  | filename
  /-- Failed to find the old name -/
  | notFound
  /-- Failed to compute the checksum -/
  | crc (e : ParseError)
deriving DecidableEq

section

-- the byte order of the host, which is also the one of the file system
variable (bigEndian : Bool)

def nextOffset (f : File) (offset : Nat) : Nat :=
  offset + ((decode32 bigEndian (slice f.data (offset + 4) 4) + 3) &&& ~~~3).toNat

/-- The loop of `bcm4908img_bootfs_mv`: offset and name size of the first entry with the name. There
is no result if it does not end. -/
def findDirent (f : File) (oldname : Arg) : Nat → Nat → Option (Except MvError (Nat × Nat))
  | 0, _ => none
  | fuel + 1, offset =>
    if f.size < offset + sizeofNode then some (.error .node)
    else if decode16 bigEndian (slice f.data offset 2) ≠ JFFS2_MAGIC_BITMASK then some
      (.error .notFound)
    else if decode16 bigEndian (slice f.data (offset + 2) 2) ≠ JFFS2_NODETYPE_DIRENT then
      findDirent f oldname fuel (nextOffset bigEndian f offset)
    else if f.size < offset + sizeofDirent then some (.error .node)
    else
      let nsize := (f.data (offset + 28)).toNat
      if FILENAME_MAX < nsize + 1 then findDirent f oldname fuel (nextOffset bigEndian f offset)
      else if f.size < offset + sizeofDirent + nsize then some (.error .filename)
      else if (slice f.data (offset + sizeofDirent) nsize).takeWhile (· ≠ 0) ≠ oldname.chars then
        findDirent f oldname fuel (nextOffset bigEndian f offset)
      else some (.ok (offset, nsize))

def renameDirent (f : File) (offset nsize : Nat) (newname : Arg) : File :=
  let name := slice newname.mem 0 nsize
  (f.write (offset + 36) (encode32 bigEndian (crc32 0 name))).write (offset + sizeofDirent) name

def Tail.withCrc (t : Tail) (crc : UInt32) : Tail := { t with crc32 := crc }

def bootfsMv (fuel : Nat) (f : File) (info : Info) (oldname newname : Arg) :
    Option (Except MvError File) :=
  if newname.len ≠ oldname.len then some (.error .length)
  else
    (findDirent bigEndian f oldname fuel info.bootfsOffset).map fun found => do
      let (offset, nsize) ← found
      let f := renameDirent bigEndian f offset nsize newname
      match calcCrc32 f info.toLayout with
      | .error e => .error (.crc e)
      | .ok crc => pure (f.write (f.size - sizeofTail) (info.tail.withCrc crc).bytes)

end

/-! ## What is written -/

variable {bigEndian : Bool} {f : File} {fuel : Nat} {info : Info} {oldname : Arg} {offset : Nat}
  {newname : Arg} {nsize : Nat}

lemma File.size_write {pos : Nat} {l : List UInt8} (h : pos + l.length ≤ f.size) :
    (f.write pos l).size = f.size := max_eq_left h

/-- A directory entry with the name. -/
structure Entry (bigEndian : Bool) (f : File) (name : Arg) (offset : Nat) : Prop where
  magic : decode16 bigEndian (slice f.data offset 2) = JFFS2_MAGIC_BITMASK
  nodetype : decode16 bigEndian (slice f.data (offset + 2) 2) = JFFS2_NODETYPE_DIRENT
  name : (slice f.data (offset + sizeofDirent) (f.data (offset + 28)).toNat).takeWhile (· ≠ 0) =
    name.chars

/-- The entry is the first one with the name, by the lengths in the headers of the nodes. -/
structure FirstEntry (bigEndian : Bool) (f : File) (name : Arg) (start offset : Nat) : Prop where
  entry : Entry bigEndian f name offset
  first : ∃ n, (nextOffset bigEndian f)^[n] start = offset ∧
    ∀ m < n, ¬ Entry bigEndian f name ((nextOffset bigEndian f)^[m] start)

lemma FirstEntry.of_next {start : Nat}
    (h : FirstEntry bigEndian f oldname (nextOffset bigEndian f start) offset)
    (hnot : ¬ Entry bigEndian f oldname start) : FirstEntry bigEndian f oldname start offset := by
  obtain ⟨hentry, n, hn, hfirst⟩ := h
  refine ⟨hentry, n + 1, hn, fun m hm => ?_⟩
  cases m with
  | zero => exact hnot
  | succ m => exact hfirst m (lt_of_succ_lt_succ hm)

lemma findDirent_spec {start : Nat}
    (h : findDirent bigEndian f oldname fuel start = some (.ok (offset, nsize))) :
    FirstEntry bigEndian f oldname start offset ∧ nsize = (f.data (offset + 28)).toNat ∧
      start ≤ offset ∧ offset + sizeofDirent + nsize ≤ f.size := by
  induction fuel generalizing start with
  | zero => cases h
  | succ fuel ih =>
    have hcontinue (hnot : ¬ Entry bigEndian f oldname start)
        (h : findDirent bigEndian f oldname fuel (nextOffset bigEndian f start) =
          some (.ok (offset, nsize))) :
        FirstEntry bigEndian f oldname start offset ∧ nsize = (f.data (offset + 28)).toNat ∧
          start ≤ offset ∧ offset + sizeofDirent + nsize ≤ f.size := by
      obtain ⟨hfirst, hnsize, hle, hend⟩ := ih h
      exact ⟨hfirst.of_next hnot, hnsize, le_trans (le_add_right _ _) hle, hend⟩
    rw [findDirent] at h
    split at h
    next => cases h
    split at h
    next => cases h
    next hmagic =>
    split at h
    next htype => exact hcontinue (fun hentry => htype hentry.nodetype) h
    next htype =>
    split at h
    next => cases h
    dsimp only at h
    split at h
    next hlong =>
      have hlt := (f.data (start + 28)).toNat_lt
      have hmax : FILENAME_MAX = 4096 := rfl
      omega
    split at h
    next => cases h
    next hend =>
      split at h
      next hname => exact hcontinue (fun hentry => hname hentry.name) h
      next hname =>
        obtain ⟨rfl, rfl⟩ := Prod.mk.inj (ok.inj (some.inj h))
        exact ⟨⟨⟨not_not.1 hmagic, not_not.1 htype, not_not.1 hname⟩, 0, rfl, nofun⟩, rfl,
          le_refl _, not_lt.1 hend⟩

/-- The bytes of an entry that a new name may change: its checksums and its name. -/
def InDirent (offset nsize i : Nat) : Prop := offset + 32 ≤ i ∧ i < offset + sizeofDirent + nsize

lemma size_renameDirent (h : offset + sizeofDirent + nsize ≤ f.size) :
    (renameDirent bigEndian f offset nsize newname).size = f.size := by
  have hdirent : sizeofDirent = 40 := rfl
  have hfirst (crc : UInt32) : (f.write (offset + 36) (encode32 bigEndian crc)).size = f.size := by
    refine size_write ?_
    rw [length_encode32]
    omega
  rw [renameDirent, size_write, hfirst]
  rw [hfirst, length_slice]
  exact h

lemma data_renameDirent {bigEndian : Bool} {f : File} {offset nsize : Nat} {newname : Arg}
    {i : Nat} (h : ¬ InDirent offset nsize i) :
    (renameDirent bigEndian f offset nsize newname).data i = f.data i := by
  have hdirent : sizeofDirent = 40 := rfl
  unfold InDirent at h
  show put (put f.data (offset + 36) _) (offset + sizeofDirent) _ i = f.data i
  by_cases hlow : i < offset + 32
  · rw [put_of_lt (by omega), put_of_lt (by omega)]
  · rw [put_of_le (by rw [length_slice]; omega), put_of_le (by rw [length_encode32]; omega)]

/-! ## Accepted images -/

lemma parse_eq_ok (h : parse f = .ok info) :
    locate f = .ok info.toLayout ∧ info.tail = readTail f (tailOffset f) := by
  obtain ⟨l, hl, -⟩ := bind_eq_ok.1 h
  rw [parse_of_locate hl] at h
  split at h
  next =>
    obtain rfl := ok.inj h
    exact ⟨hl, rfl⟩
  next => cases h

lemma parse_ok_iff : (∃ info, parse f = .ok info) ↔
    ∃ l, locate f = .ok l ∧ crc32 0xffffffff (payload f) = (readTail f (tailOffset f)).crc32 := by
  constructor
  · rintro ⟨info, h⟩
    obtain ⟨l, hl, -⟩ := bind_eq_ok.1 h
    rw [parse_of_locate hl] at h
    split at h
    next heq => exact ⟨l, hl, heq⟩
    next => cases h
  · rintro ⟨l, hl, heq⟩
    rw [parse_of_locate hl, if_pos heq]
    exact ⟨_, rfl⟩

/-! ## The image is kept -/

def newCrc (g : File) (info : Info) : UInt32 :=
  crc32 0xffffffff (slice g.data info.cferomOffset (info.tailOffset - info.cferomOffset))

def renamedImage (bigEndian : Bool) (f : File) (info : Info) (offset nsize : Nat) (newname : Arg)
    (pos : Nat) : File :=
  let g := renameDirent bigEndian f offset nsize newname
  g.write pos (info.tail.withCrc (newCrc g info)).bytes

lemma bootfsMv_of_found (hparse : parse f = .ok info) (hlen : newname.len = oldname.len)
    (hfind : findDirent bigEndian f oldname fuel info.bootfsOffset = some (.ok (offset, nsize))) :
    bootfsMv bigEndian fuel f info oldname newname =
      some (.ok (renamedImage bigEndian f info offset nsize newname (f.size - sizeofTail))) := by
  obtain ⟨hsize, hcferom, htail, hle, hlt⟩ := locate_spec (parse_eq_ok hparse).1
  have hend := tailOffset_le hsize
  obtain ⟨-, -, -, hbound⟩ := findDirent_spec hfind
  have hcrc : calcCrc32 (renameDirent bigEndian f offset nsize newname) info.toLayout =
      .ok (newCrc (renameDirent bigEndian f offset nsize newname) info) :=
    crcLoop_eq (by rw [size_renameDirent hbound]; omega) _
  rw [bootfsMv, if_neg (not_not.2 hlen), hfind, map_some, ok_bind]
  dsimp only
  rw [hcrc, size_renameDirent hbound]
  rfl

lemma bootfsMv_eq_ok {f' : File} (hparse : parse f = .ok info)
    (h : bootfsMv bigEndian fuel f info oldname newname = some (.ok f')) :
    ∃ offset nsize, findDirent bigEndian f oldname fuel info.bootfsOffset =
    some (.ok (offset, nsize)) ∧
      f' = renamedImage bigEndian f info offset nsize newname (f.size - sizeofTail) := by
  have hlen : newname.len = oldname.len := by
    by_contra hne
    rw [bootfsMv, if_pos hne] at h
    cases h
  have hfound : ∃ offset nsize,
      findDirent bigEndian f oldname fuel info.bootfsOffset = some (.ok (offset, nsize)) := by
    rw [bootfsMv, if_neg (not_not.2 hlen)] at h
    obtain ⟨found, hfind, h⟩ := map_eq_some_iff.1 h
    obtain ⟨⟨offset, nsize⟩, rfl, -⟩ := bind_eq_ok.1 h
    exact ⟨offset, nsize, hfind⟩
  obtain ⟨offset, nsize, hfind⟩ := hfound
  rw [bootfsMv_of_found hparse hlen hfind] at h
  exact ⟨offset, nsize, hfind, (ok.inj (some.inj h)).symm⟩

section

variable {bigEndian : Bool} {f : File} {info : Info} {offset nsize pos : Nat} {newname : Arg}

lemma size_renamedImage (h : offset + sizeofDirent + nsize ≤ f.size)
    (hpos : pos + sizeofTail ≤ f.size) :
    (renamedImage bigEndian f info offset nsize newname pos).size = f.size := by
  rw [renamedImage, size_write, size_renameDirent h]
  rw [Tail.length_bytes, size_renameDirent h]
  exact hpos

lemma data_renamedImage {i : Nat} (hi : ¬ InDirent offset nsize i) (hpos : i < pos ∨
    pos + sizeofTail ≤ i) :
    (renamedImage bigEndian f info offset nsize newname pos).data i = f.data i := by
  rw [← @data_renameDirent bigEndian f offset nsize newname i hi]
  obtain hlt | hle := hpos
  · exact put_of_lt hlt
  · exact put_of_le (by rw [Tail.length_bytes]; exact hle)

lemma readTail_renamedImage :
    (readTail (renamedImage bigEndian f info offset nsize newname pos) pos).crc32 =
    newCrc (renameDirent bigEndian f offset nsize newname) info := by
  have hslice := slice_put_prefix (renameDirent bigEndian f offset nsize newname).data pos
    (encode32 false (newCrc (renameDirent bigEndian f offset nsize newname) info)) info.tail.rest
  exact (congrArg (decode32 false) hslice).trans (decode32_encode32 _ _)

lemma rest_renamedImage (hparse : parse f = .ok info) {i : Nat} (hi : i < 16) :
    (renamedImage bigEndian f info offset nsize newname pos).data (pos + 4 + i) =
      f.data (tailOffset f + 4 + i) := by
  have hslice := slice_put_suffix (renameDirent bigEndian f offset nsize newname).data pos
    (encode32 false (newCrc (renameDirent bigEndian f offset nsize newname) info)) info.tail.rest
  rw [length_encode32, info.tail.rest_length] at hslice
  refine apply_of_slice_eq (hslice.trans ?_) hi
  rw [(parse_eq_ok hparse).2]
  rfl

end

/-- The result is accepted, and only checksums and the name of the entry may have changed. -/
def Kept (f f' : File) (offset nsize : Nat) : Prop :=
  (∃ info', parse f' = .ok info') ∧ f'.size = f.size ∧
    ∀ i, f'.data i ≠ f.data i → InDirent offset nsize i ∨ tailOffset f ≤ i ∧ i < tailOffset f + 4

lemma findBootfs_congr {img : File} {tail start bootfs : Nat} (hsize : img.size = f.size)
    (hdata : ∀ i < bootfs + 2, img.data i = f.data i) (h : findBootfs f tail start = .ok bootfs) :
    findBootfs img tail start = .ok bootfs := by
  have hle := (findBootfs_bounds h).1
  have hread : img.read start 2 = f.read start 2 := by
    rw [File.read, File.read, hsize, slice_congr fun i hi => hdata _ (by omega)]
  fun_induction findBootfs f tail start with
  | case1 => cases h
  | case2 start hlt hbuf =>
    rw [findBootfs, if_pos hlt, hread, hbuf]
    exact h
  | case3 start hlt tmp16 hbuf hne ih =>
    have hle' := (findBootfs_bounds h).1
    rw [findBootfs, if_pos hlt, hread, hbuf]
    dsimp only
    rw [if_neg hne]
    refine ih h hle' ?_
    rw [File.read, File.read, hsize, slice_congr fun i hi => hdata _ (by omega)]
  | case4 => cases h

lemma read_eq_some {pos n : Nat} {buf : List UInt8} (h : f.read pos n = some buf) :
    pos + n ≤ f.size ∧ buf = slice f.data pos n := by
  unfold File.read at h
  split at h
  next hle => exact ⟨hle, (some.inj h).symm⟩
  next => cases h

lemma not_magic_of_isAllFf {buf : List UInt8} (hlen : 4 ≤ buf.length) (h : isAllFf buf) :
    decode32 true (buf.take 4) ≠ UBI_EC_HDR_MAGIC := by
  have hff : buf.take 4 = replicate 4 0xff := by
    refine eq_replicate_iff.2 ⟨by rw [length_take, min_eq_left hlen], fun b hb => ?_⟩
    exact of_decide_eq_true (all_eq_true.1 h b (mem_of_mem_take hb))
  rw [hff]
  decide

/-- Where the rootfs and the padding in front of it are. -/
theorem findRootfs_spec {tail start padding rootfs padding' : Nat}
    (h : findRootfs f tail start padding = .ok (rootfs, padding')) :
    start ≤ rootfs ∧ rootfs < tail ∧ (padding ≠ 0 → padding' = padding) ∧
      (padding = 0 → padding' ≠ 0 → padding' + 256 ≤ rootfs) ∧
      (padding' = 0 → rootfs + 256 ≤ f.size) := by
  fun_induction findRootfs f tail start padding with
  | case1 => cases h
  | case2 start padding hlt length buf hbuf padding₁ hmagic =>
    obtain ⟨rfl, rfl⟩ := Prod.mk.inj (ok.inj h)
    obtain ⟨hend, rfl⟩ := read_eq_some hbuf
    have hnot : ¬ (padding = 0 ∧ isAllFf (slice f.data start length)) := by
      rintro ⟨hzero, hff⟩
      refine not_magic_of_isAllFf ?_ hff hmagic
      rw [length_slice]
      subst length
      split <;> decide
    subst length padding₁
    rw [dif_neg hnot]
    split_ifs at hend <;> omega
  | case3 start padding hlt length buf hbuf padding₁ hmagic ih =>
    obtain ⟨hle, hlt', hkeep, hfound, hnone⟩ := ih h
    subst length padding₁
    split_ifs at hkeep hfound <;> omega
  | case4 => cases h

lemma findRootfs_reads {tail start padding : Nat} {r : Nat × Nat}
    (h : findRootfs f tail start padding = .ok r) :
    start < tail ∧ start + (if padding ≠ 0 then 4 else 256) ≤ f.size := by
  rw [findRootfs] at h
  split at h
  next hlt =>
    refine ⟨hlt, not_lt.1 fun hend => ?_⟩
    dsimp only at h
    rw [File.read, if_neg (not_le.2 hend)] at h
    cases h
  next => cases h

/-- The rootfs is found in a file with the same padding in front of it. -/
theorem findRootfs_of_same {img : File} {tail start padding padding₂ rootfs padding' : Nat}
    (hsize : img.size = f.size) (h : findRootfs f tail start padding = .ok (rootfs, padding'))
    (hroot : slice img.data rootfs 4 = slice f.data rootfs 4)
    (hpad : padding' ≠ 0 → slice img.data padding' 256 = slice f.data padding' 256)
    (hsome : padding ≠ 0 → padding₂ ≠ 0) : ∃ r, findRootfs img tail start padding₂ = .ok r := by
  induction hn : tail - start using Nat.strongRecOn generalizing start padding padding₂ with
  | ind n ih =>
    obtain ⟨hlt, hread⟩ := findRootfs_reads h
    -- the loop reads no more than in the other file
    have hread₂ : start + (if padding₂ ≠ 0 then 4 else 256) ≤ img.size := by
      rw [hsize]
      split_ifs at hread ⊢ <;> omega
    rw [findRootfs_eq hlt hread] at h
    rw [findRootfs_eq hlt hread₂]
    dsimp only at h ⊢
    by_cases hmagic : decode32 true (slice img.data start 4) = UBI_EC_HDR_MAGIC
    · rw [if_pos hmagic]
      exact ⟨_, rfl⟩
    rw [if_neg hmagic]
    split at h
    next hmagic' =>
      obtain ⟨rfl, -⟩ := Prod.mk.inj (ok.inj h)
      rw [hroot] at hmagic
      exact absurd hmagic' hmagic
    next =>
      refine ih (tail - (start + 0x20000)) (by omega) h (fun hne => ?_) rfl
      by_cases hzero : padding₂ = 0
      · have hpadding : padding = 0 := not_not.1 fun hpadding => hsome hpadding hzero
        have hsame := (findRootfs_spec h).2.2.1 hne
        by_cases hff : isAllFf (slice f.data start 256)
        · rw [if_pos ⟨hpadding, hff⟩] at hne hsame
          rw [hsame] at hpad
          rw [hpad hne, if_pos ⟨hzero, hff⟩]
          exact hne
        · rw [if_neg fun h => hff h.2] at hne
          exact absurd hpadding hne
      · rw [if_neg fun h => hzero h.1]
        exact hzero

/-- The bootfs ends at the padding or the rootfs. -/
def Layout.bootfsEnd (l : Layout) : Nat :=
  if l.paddingOffset ≠ 0 then l.paddingOffset else l.rootfsOffset

lemma locate_rootfs {l : Layout} (h : locate f = .ok l) :
    findBootfs f (tailOffset f) (cferomOffset f) = .ok l.bootfsOffset ∧
      findRootfs f (tailOffset f) l.bootfsOffset 0 = .ok (l.rootfsOffset, l.paddingOffset) := by
  unfold locate at h
  split at h
  next => cases h
  next =>
    obtain ⟨bootfs, hboot, h⟩ := bind_eq_ok.1 h
    obtain ⟨r, hroot, h⟩ := bind_eq_ok.1 h
    obtain rfl := ok.inj h
    exact ⟨hboot, hroot⟩

/-- A file is accepted that differs from an accepted one in the bootfs, behind the first node
header, and in the tail, if the checksum is right. -/
theorem parse_of_same {img : File} (hparse : parse f = .ok info) (hlinksys : hasLinksys f = false)
    (hroot : info.rootfsOffset + 4 ≤ info.tailOffset) (hsize : img.size = f.size)
    (hstart : ∀ i < info.bootfsOffset + 32, img.data i = f.data i)
    (hrest : ∀ i, info.bootfsEnd ≤ i → i < info.tailOffset → img.data i = f.data i)
    (hcrc : crc32 0xffffffff (slice img.data info.cferomOffset
    (info.tailOffset - info.cferomOffset)) =
      (readTail img info.tailOffset).crc32) : ∃ info', parse img = .ok info' := by
  have hsizeof : sizeofTail = 20 := rfl
  have hvendor : sizeofLinksys = 256 := rfl
  obtain ⟨hlocate, -⟩ := parse_eq_ok hparse
  obtain ⟨hsmall, hcferom, htail, hle, hlt⟩ := locate_spec hlocate
  obtain ⟨hboot, hfind⟩ := locate_rootfs hlocate
  obtain ⟨hbr, hrt, -, hpad, hnopad⟩ := findRootfs_spec hfind
  have htail' : tailOffset f = f.size - sizeofTail := by
    rw [tailOffset, hlinksys, if_neg Bool.false_ne_true]
  have hend : info.bootfsEnd ≤ info.rootfsOffset ∧ info.bootfsEnd + 256 ≤ f.size ∧
      (info.paddingOffset ≠ 0 → info.bootfsEnd = info.paddingOffset) := by
    unfold Layout.bootfsEnd
    split <;> omega
  have hkeep {pos n : Nat} (hpos : info.bootfsEnd ≤ pos) (hn : pos + n ≤ info.tailOffset) :
      slice img.data pos n = slice f.data pos n :=
    slice_congr fun i hi => hrest _ (by omega) (by omega)
  have hlinksysImg : hasLinksys img = false := by
    rw [hasLinksys, hsize, hkeep (by omega) (by omega)]
    exact hlinksys
  have htailImg : tailOffset img = info.tailOffset := by
    rw [tailOffset, hlinksysImg, if_neg Bool.false_ne_true, hsize, htail, htail']
  have hheader {pos : Nat} (hpos : pos + 4 ≤ 8) : slice img.data pos 4 = slice f.data pos 4 :=
    slice_congr fun i hi => hstart _ (by omega)
  have hcferomImg : cferomOffset img = info.cferomOffset := by
    rw [cferomOffset, hheader (by decide), hheader (by decide), hcferom, cferomOffset]
  have hbootImg := findBootfs_congr hsize (fun i hi => hstart i (by omega)) hboot
  obtain ⟨r, hrootImg⟩ := findRootfs_of_same hsize hfind (hkeep hend.1 hroot)
    (fun hne => hkeep (by omega) (by omega)) (fun h => h)
  refine parse_ok_iff.2 ⟨⟨info.cferomOffset, info.bootfsOffset, r.2, r.1, info.tailOffset⟩, ?_, ?_⟩
  · unfold locate
    rw [if_neg (by omega), htailImg, hcferomImg, hcferom, htail, hbootImg, ok_bind, hrootImg,
      ok_bind]
    rfl
  · rw [payload, htailImg, hcferomImg]
    exact hcrc

/-- The first entry with the name is in the bootfs. -/
def InBootfs (bigEndian : Bool) (f : File) (info : Info) (name : Arg) : Prop :=
  ∀ offset, FirstEntry bigEndian f name info.bootfsOffset offset →
    offset + sizeofDirent + (f.data (offset + 28)).toNat ≤ info.bootfsEnd

/-- If there is no vendor tail, the entry is in the bootfs and the rootfs has room for its magic
number, a rename keeps the image. -/
theorem bootfs_mv_keeps_image {bigEndian : Bool} {fuel : Nat} {f f' : File} {info : Info}
    {oldname newname : Arg} (hparse : parse f = .ok info) (hlinksys : hasLinksys f = false)
    (hroot : info.rootfsOffset + 4 ≤ info.tailOffset) (hin : InBootfs bigEndian f info oldname)
    (hmv : bootfsMv bigEndian fuel f info oldname newname = some (.ok f')) : ∃ offset,
      FirstEntry bigEndian f oldname info.bootfsOffset offset ∧
        Kept f f' offset (f.data (offset + 28)).toNat := by
  have hsizeof : sizeofTail = 20 := rfl
  have hdirent : sizeofDirent = 40 := rfl
  obtain ⟨offset, nsize, hfind, rfl⟩ := bootfsMv_eq_ok hparse hmv
  obtain ⟨hfirst, rfl, hle, hbound⟩ := findDirent_spec hfind
  have hbefore := hin offset hfirst
  obtain ⟨hsize, hcferom, htail, hle', hlt⟩ := locate_spec (parse_eq_ok hparse).1
  have hpos : f.size - sizeofTail = info.tailOffset := by
    rw [htail, tailOffset, hlinksys, if_neg Bool.false_ne_true]
  rw [hpos]
  have hend := findRootfs_spec (locate_rootfs (parse_eq_ok hparse).1).2
  have hbefore' : info.bootfsEnd < info.tailOffset := by
    unfold Layout.bootfsEnd
    split <;> omega
  refine ⟨offset, hfirst, ?_, size_renamedImage hbound (by omega), fun i hne => ?_⟩
  · refine parse_of_same hparse hlinksys hroot (size_renamedImage hbound (by omega))
      (fun i hi => data_renamedImage (by unfold InDirent; omega) (.inl (by omega)))
      (fun i hi hi' => data_renamedImage (by unfold InDirent; omega) (.inl hi')) ?_
    rw [readTail_renamedImage, newCrc]
    exact congrArg _ (slice_put_of_disjoint (.inl (by omega)))
  · by_contra hout
    obtain ⟨hdirent, hfield⟩ := not_or.1 hout
    refine hne ?_
    by_cases hlow : i < tailOffset f
    · exact data_renamedImage hdirent (.inl (by omega))
    by_cases hhigh : tailOffset f + sizeofTail ≤ i
    · exact data_renamedImage hdirent (.inr (by omega))
    obtain ⟨k, rfl⟩ : ∃ k, i = tailOffset f + 4 + k := Nat.exists_eq_add_of_le (by omega)
    rw [htail]
    exact rest_renamedImage hparse (by omega)

/-! ## A bootfs with one file -/

variable (vendor : List UInt8) (nameCrc : UInt32) (c : UInt8)

def entryRest (nameCrc : UInt32) (c : UInt8) : List UInt8 :=
  [41, 0, 0, 0, 0, 0, 0, 0, 0, 0, 0, 0, 0, 0, 0, 0, 0, 0, 0, 0, 0, 0, 0, 0, 1, 0, 0, 0, 0, 0, 0,
    0] ++ encode32 false nameCrc ++ [c, 0, 0, 0]

def entryBody (nameCrc : UInt32) (c : UInt8) : List UInt8 :=
    bootStart ++ entryRest nameCrc c ++ rootPart 44

def oneFile (vendor : List UInt8) : File :=
  .ofList (entryBody 0 97 ++ (createdTail (crc32 0xffffffff (entryBody 0 97))).bytes ++ vendor)

def letter (c : UInt8) (h : c ≠ 0) : Arg where
  mem i := if i = 0 then c else 0
  len := 1
  nul := rfl
  noNul i hi := by
    obtain rfl : i = 0 := by omega
    exact h

lemma length_entryStart : (bootStart ++ entryRest nameCrc c).length = 44 := by
  rfl

lemma length_entryBody : (entryBody nameCrc c).length = 0x20400 := by
  rw [entryBody, length_append, length_entryStart, length_rootPart (by decide)]

structure OneFile (vendor : List UInt8) (f : File) (nameCrc : UInt32) (c : UInt8) : Prop where
  size : f.size = 0x20414 + vendor.length
  body : slice f.data 0 0x20400 = entryBody nameCrc c
  last : vendor ≠ [] → slice f.data 0x20414 9 = vendor.take 9

lemma size_oneFile : (oneFile vendor).size = 0x20414 + vendor.length := by
  rw [oneFile, size_ofList, length_append, length_append, length_entryBody, Tail.length_bytes]
  rfl

section

variable {vendor : List UInt8} {nameCrc : UInt32} {c : UInt8}

lemma oneFile_spec (hvendor : vendor = [] ∨ 29 ≤ vendor.length) :
    OneFile vendor (oneFile vendor) 0 97 ∧
      (readTail (oneFile vendor) 0x20400).crc32 = crc32 0xffffffff (entryBody 0 97) := by
  have hsize := size_oneFile vendor
  have hlength := length_entryBody 0 97
  obtain ⟨body, hbody⟩ : ∃ body, body = entryBody 0 97 := ⟨_, rfl⟩
  obtain ⟨crc, hcrc⟩ : ∃ crc, crc = crc32 0xffffffff body := ⟨_, rfl⟩
  rw [oneFile, ← hbody, ← hcrc] at hsize ⊢
  rw [← hbody] at hlength
  have hbytes := (createdTail crc).length_bytes
  refine ⟨⟨hsize, ?_, fun hne => ?_⟩, ?_⟩
  · rw [← hbody]
    exact slice_of_eq (a := []) (by rw [append_assoc, nil_append]) rfl hlength
  · have hsplit := take_append_drop 9 vendor
    refine slice_of_eq (a := body ++ (createdTail crc).bytes) (c := vendor.drop 9) ?_ ?_ ?_
    · rw [hsplit]
    · rw [length_append, hlength, hbytes]
      rfl
    · obtain rfl | hle := hvendor
      · exact absurd rfl hne
      · rw [length_take, min_eq_left (le_trans (by decide) hle)]
  · have hslice : slice (ofList (body ++ (createdTail crc).bytes ++ vendor)).data 0x20400 4 =
        encode32 false crc :=
      slice_of_eq (by rw [Tail.bytes, append_assoc, append_assoc]; rfl) hlength
        (length_encode32 _ _)
    exact (congrArg (decode32 false) hslice).trans (decode32_encode32 _ _)

lemma OneFile.rooted (h : OneFile vendor f nameCrc c) : Rooted f := by
  have hlength := length_entryStart nameCrc c
  exact rooted_of_body hlength (by decide) h.body

lemma OneFile.locate {f : File}
    (h : OneFile vendor f nameCrc c) (htail : tailOffset f = 0x20400) :
    locate f = .ok ⟨0, 0, 0, 0x20000, 0x20400⟩ ∧ payload f = entryBody nameCrc c := by
  have hsize := h.size
  obtain ⟨hlocate, hpayload⟩ := h.rooted.locate_eq (by omega) htail
  exact ⟨hlocate, hpayload.trans h.body⟩

end

def linksysTail : List UInt8 := linksysMagic ++ replicate 247 0

lemma OneFile.tailOffset_linksys {nameCrc : UInt32} {c : UInt8}
    (h : OneFile linksysTail f nameCrc c) : hasLinksys f ∧ tailOffset f = 0x20400 := by
  have hlength : linksysTail.length = 256 := by
    rw [linksysTail, length_append, length_replicate]
    rfl
  have hsize : f.size = 0x20514 := by rw [h.size, hlength]
  have hsome : hasLinksys f := by
    rw [hasLinksys, hsize]
    show decide (slice f.data 0x20414 9 = linksysMagic)
    rw [h.last (by rw [← length_pos_iff, hlength]; decide)]
    decide
  refine ⟨hsome, ?_⟩
  rw [tailOffset, hsome, if_pos rfl, hsize]
  rfl

lemma findDirent_oneFile :
    findDirent false (oneFile vendor) (letter 97 (by decide)) 1 0 = some (.ok (0, 1)) := by
  have hsize := size_oneFile vendor
  have hmagic : decode16 false (slice (oneFile vendor).data 0 2) = JFFS2_MAGIC_BITMASK := rfl
  have htype : decode16 false (slice (oneFile vendor).data (0 + 2) 2) = JFFS2_NODETYPE_DIRENT := rfl
  have hnsize : ((oneFile vendor).data (0 + 28)).toNat = 1 := rfl
  have hname : (slice (oneFile vendor).data (0 + sizeofDirent) 1).takeWhile (· ≠ 0) =
      (letter 97 (by decide)).chars := rfl
  have hdirent : sizeofDirent = 40 := rfl
  have hnode : sizeofNode = 12 := rfl
  rw [findDirent, if_neg (by omega), if_neg (not_not.2 hmagic), if_neg (not_not.2 htype),
    if_neg (by omega)]
  rw [hnsize, if_neg (by decide), if_neg (by omega), if_neg (not_not.2 hname)]

lemma rename_entry : slice (renameDirent false (oneFile vendor) 0 1 (letter 98 (by decide))).data
    0 44 =
      bootStart ++ entryRest (crc32 0 [98]) 98 := rfl

variable {vendor : List UInt8}

lemma renamedImage_oneFile (hvendor : vendor = [] ∨ 29 ≤ vendor.length) (info : Info) :
    OneFile vendor (renamedImage false (oneFile vendor) info 0 1 (letter 98 (by decide))
      ((oneFile vendor).size - sizeofTail)) (crc32 0 [98]) 98 := by
  have hsizeof : sizeofTail = 20 := rfl
  have hdirent : sizeofDirent = 40 := rfl
  have hsize := size_oneFile vendor
  obtain ⟨hone, -⟩ := oneFile_spec hvendor
  have hentry := rename_entry vendor
  have hframe (i : Nat) (hi : 44 ≤ i) := @data_renameDirent false (oneFile vendor) 0 1
    (letter 98 (by decide)) i (by unfold InDirent; omega)
  refine ⟨?_, ?_, fun hne => ?_⟩
  · rw [size_renamedImage (by omega) (by omega), hsize]
  · have hrest : slice (oneFile vendor).data 44 (0x20400 - 44) = rootPart 44 := by
      have hbody := hone.body
      rw [entryBody, ← append_nil (rootPart 44)] at hbody
      have hslice := slice_of_slice_eq hbody
      have hlength := length_rootPart (n := 44) (by decide)
      rw [show 0x20400 - 44 = (rootPart 44).length by omega]
      exact hslice
    obtain ⟨n, hn⟩ : ∃ n, 0x20400 - 44 = n := ⟨_, rfl⟩
    have htotal : 0x20400 = 44 + n := by omega
    rw [hn] at hrest
    rw [entryBody, ← hrest, ← hentry, htotal]
    refine (slice_put_of_disjoint (.inl (by omega))).trans ?_
    rw [slice_add]
    refine congrArg _ (slice_congr fun i _ => hframe _ (by omega))
  · obtain rfl | hle := hvendor
    · exact absurd rfl hne
    · rw [← hone.last hne]
      exact slice_congr fun i hi => data_renamedImage (by unfold InDirent; omega) (.inl (by omega))

lemma bootfsMv_oneFile (hvendor : vendor = [] ∨ 29 ≤ vendor.length)
    (htail : tailOffset (oneFile vendor) = 0x20400) : ∃ info, parse (oneFile vendor) = .ok info ∧
      findDirent false (oneFile vendor) (letter 97 (by decide)) 1 info.bootfsOffset =
      some (.ok (0, 1)) ∧
      bootfsMv false 1 (oneFile vendor) info (letter 97 (by decide)) (letter 98 (by decide)) =
        some (.ok (renamedImage false (oneFile vendor) info 0 1 (letter 98 (by decide))
          ((oneFile vendor).size - sizeofTail))) := by
  obtain ⟨hone, hcrc⟩ := oneFile_spec hvendor
  obtain ⟨hlocate, hpayload⟩ := hone.locate htail
  have hparse := parse_of_locate hlocate
  rw [if_pos (by rw [hpayload, htail, hcrc])] at hparse
  have hfind := findDirent_oneFile vendor
  exact ⟨_, hparse, hfind, bootfsMv_of_found hparse rfl hfind⟩

theorem bootfs_mv_keeps_image_plain : ∃ info f' offset, parse (oneFile []) = .ok info ∧
    bootfsMv false 1 (oneFile []) info (letter 97 (by decide)) (letter 98 (by decide)) =
      some (.ok f') ∧ Kept (oneFile []) f' offset ((oneFile []).data (offset + 28)).toNat := by
  obtain ⟨hone, -⟩ := @oneFile_spec [] (.inl rfl)
  obtain ⟨hlinksys, htail⟩ := hone.rooted.tailOffset_eq hone.size
  obtain ⟨info, hparse, hfind, hmv⟩ := bootfsMv_oneFile (.inl rfl) htail
  have hlayout : info.toLayout = ⟨0, 0, 0, 0x20000, 0x20400⟩ :=
    ok.inj ((parse_eq_ok hparse).1.symm.trans (hone.locate htail).1)
  have hin : InBootfs false (oneFile []) info (letter 97 (by decide)) := by
    -- it is the first node
    rintro offset ⟨-, n, hn, hfirst⟩
    have hboot : info.bootfsOffset = 0 := congrArg Layout.bootfsOffset hlayout
    have hentry := (findDirent_spec hfind).1.entry
    rw [← hboot] at hentry
    cases n with
    | zero =>
      obtain rfl : 0 = offset := hboot.symm.trans hn
      rw [hlayout]
      show 0 + 40 + 1 ≤ 0x20000
      decide
    | succ n => exact absurd hentry (hfirst 0 n.succ_pos)
  obtain ⟨offset, -, hkept⟩ :=
    bootfs_mv_keeps_image hparse hlinksys (by rw [hlayout]; decide) hin hmv
  exact ⟨info, _, offset, hparse, hmv, hkept⟩

/-- With a vendor tail, the result of a successful rename is rejected. -/
theorem bootfs_mv_breaks_vendor_image : ∃ info f', parse (oneFile linksysTail) = .ok info ∧
    bootfsMv false 1 (oneFile linksysTail) info (letter 97 (by decide)) (letter 98 (by decide)) =
      some (.ok f') ∧ (∃ calculated stored, parse f' = .error (.crc32 calculated stored)) ∧
    ¬ Kept (oneFile linksysTail) f' 0 1 := by
  have hlength : linksysTail.length = 256 := by
    rw [linksysTail, length_append, length_replicate]
    rfl
  have hvendor : linksysTail = [] ∨ 29 ≤ linksysTail.length := .inr (by omega)
  obtain ⟨hone, hcrc⟩ := oneFile_spec hvendor
  obtain ⟨-, htail⟩ := hone.tailOffset_linksys
  obtain ⟨info, hparse, -, hmv⟩ := bootfsMv_oneFile hvendor htail
  have hrenamed := renamedImage_oneFile hvendor info
  obtain ⟨-, htail'⟩ := hrenamed.tailOffset_linksys
  obtain ⟨hlocate, hpayload⟩ := hrenamed.locate htail'
  have hsize := size_oneFile linksysTail
  -- the tail before the vendor tail is the old one
  have hstored : (readTail (renamedImage false (oneFile linksysTail) info 0 1
    (letter 98 (by decide)) ((oneFile linksysTail).size - sizeofTail)) 0x20400).crc32 =
        crc32 0xffffffff (entryBody 0 97) := by
    have hsizeof : sizeofTail = 20 := rfl
    have hdirent : sizeofDirent = 40 := rfl
    rw [← hcrc]
    refine congrArg (decode32 false) (slice_congr fun i hi => ?_)
    exact data_renamedImage (by unfold InDirent; omega) (.inl (by omega))
  have hne : crc32 0xffffffff (entryBody (crc32 0 [98]) 98) ≠
      crc32 0xffffffff (entryBody 0 97) := by
    intro heq
    rw [entryBody, entryBody, crc32_append, crc32_append _ (bootStart ++ entryRest 0 97)] at heq
    have hstart := crc_injective crc32Tbl_injective heq
    revert hstart
    decide +kernel
  have hreject := parse_of_locate hlocate
  rw [hpayload, htail', hstored, if_neg hne] at hreject
  refine ⟨info, _, hparse, hmv, ⟨_, _, hreject⟩, fun hkept => ?_⟩
  obtain ⟨info', hok⟩ := hkept.1
  rw [hreject] at hok
  cases hok

end SourceMaster.Bcm4908
