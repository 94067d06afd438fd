import SourceMaster.Lib.Crc
import SourceMaster.Lib.Failing
import SourceMaster.Lib.Memory

/-!
# BCM4908 images

`bcm4908img.c` works on images of a firmware: an optional vendor header, an optional boot loader, a
bootfs, a rootfs, a tail with a checksum, and an optional vendor tail. `bcm4908img_parse` finds the
parts and checks the checksum.
-/

namespace SourceMaster.Bcm4908

open Memory Crc Failing List

set_option maxRecDepth 4096 in
def crc32Tbl : List UInt32 :=
  [0x00000000, 0x77073096, 0xee0e612c, 0x990951ba, 0x076dc419, 0x706af48f, 0xe963a535, 0x9e6495a3,
    0x0edb8832, 0x79dcb8a4, 0xe0d5e91e, 0x97d2d988, 0x09b64c2b, 0x7eb17cbd, 0xe7b82d07, 0x90bf1d91,
    0x1db71064, 0x6ab020f2, 0xf3b97148, 0x84be41de, 0x1adad47d, 0x6ddde4eb, 0xf4d4b551, 0x83d385c7,
    0x136c9856, 0x646ba8c0, 0xfd62f97a, 0x8a65c9ec, 0x14015c4f, 0x63066cd9, 0xfa0f3d63, 0x8d080df5,
    0x3b6e20c8, 0x4c69105e, 0xd56041e4, 0xa2677172, 0x3c03e4d1, 0x4b04d447, 0xd20d85fd, 0xa50ab56b,
    0x35b5a8fa, 0x42b2986c, 0xdbbbc9d6, 0xacbcf940, 0x32d86ce3, 0x45df5c75, 0xdcd60dcf, 0xabd13d59,
    0x26d930ac, 0x51de003a, 0xc8d75180, 0xbfd06116, 0x21b4f4b5, 0x56b3c423, 0xcfba9599, 0xb8bda50f,
    0x2802b89e, 0x5f058808, 0xc60cd9b2, 0xb10be924, 0x2f6f7c87, 0x58684c11, 0xc1611dab, 0xb6662d3d,
    0x76dc4190, 0x01db7106, 0x98d220bc, 0xefd5102a, 0x71b18589, 0x06b6b51f, 0x9fbfe4a5, 0xe8b8d433,
    0x7807c9a2, 0x0f00f934, 0x9609a88e, 0xe10e9818, 0x7f6a0dbb, 0x086d3d2d, 0x91646c97, 0xe6635c01,
    0x6b6b51f4, 0x1c6c6162, 0x856530d8, 0xf262004e, 0x6c0695ed, 0x1b01a57b, 0x8208f4c1, 0xf50fc457,
    0x65b0d9c6, 0x12b7e950, 0x8bbeb8ea, 0xfcb9887c, 0x62dd1ddf, 0x15da2d49, 0x8cd37cf3, 0xfbd44c65,
    0x4db26158, 0x3ab551ce, 0xa3bc0074, 0xd4bb30e2, 0x4adfa541, 0x3dd895d7, 0xa4d1c46d, 0xd3d6f4fb,
    0x4369e96a, 0x346ed9fc, 0xad678846, 0xda60b8d0, 0x44042d73, 0x33031de5, 0xaa0a4c5f, 0xdd0d7cc9,
    0x5005713c, 0x270241aa, 0xbe0b1010, 0xc90c2086, 0x5768b525, 0x206f85b3, 0xb966d409, 0xce61e49f,
    0x5edef90e, 0x29d9c998, 0xb0d09822, 0xc7d7a8b4, 0x59b33d17, 0x2eb40d81, 0xb7bd5c3b, 0xc0ba6cad,
    0xedb88320, 0x9abfb3b6, 0x03b6e20c, 0x74b1d29a, 0xead54739, 0x9dd277af, 0x04db2615, 0x73dc1683,
    0xe3630b12, 0x94643b84, 0x0d6d6a3e, 0x7a6a5aa8, 0xe40ecf0b, 0x9309ff9d, 0x0a00ae27, 0x7d079eb1,
    0xf00f9344, 0x8708a3d2, 0x1e01f268, 0x6906c2fe, 0xf762575d, 0x806567cb, 0x196c3671, 0x6e6b06e7,
    0xfed41b76, 0x89d32be0, 0x10da7a5a, 0x67dd4acc, 0xf9b9df6f, 0x8ebeeff9, 0x17b7be43, 0x60b08ed5,
    0xd6d6a3e8, 0xa1d1937e, 0x38d8c2c4, 0x4fdff252, 0xd1bb67f1, 0xa6bc5767, 0x3fb506dd, 0x48b2364b,
    0xd80d2bda, 0xaf0a1b4c, 0x36034af6, 0x41047a60, 0xdf60efc3, 0xa867df55, 0x316e8eef, 0x4669be79,
    0xcb61b38c, 0xbc66831a, 0x256fd2a0, 0x5268e236, 0xcc0c7795, 0xbb0b4703, 0x220216b9, 0x5505262f,
    0xc5ba3bbe, 0xb2bd0b28, 0x2bb45a92, 0x5cb36a04, 0xc2d7ffa7, 0xb5d0cf31, 0x2cd99e8b, 0x5bdeae1d,
    0x9b64c2b0, 0xec63f226, 0x756aa39c, 0x026d930a, 0x9c0906a9, 0xeb0e363f, 0x72076785, 0x05005713,
    0x95bf4a82, 0xe2b87a14, 0x7bb12bae, 0x0cb61b38, 0x92d28e9b, 0xe5d5be0d, 0x7cdcefb7, 0x0bdbdf21,
    0x86d3d2d4, 0xf1d4e242, 0x68ddb3f8, 0x1fda836e, 0x81be16cd, 0xf6b9265b, 0x6fb077e1, 0x18b74777,
    0x88085ae6, 0xff0f6a70, 0x66063bca, 0x11010b5c, 0x8f659eff, 0xf862ae69, 0x616bffd3, 0x166ccf45,
    0xa00ae278, 0xd70dd2ee, 0x4e048354, 0x3903b3c2, 0xa7672661, 0xd06016f7, 0x4969474d, 0x3e6e77db,
    0xaed16a4a, 0xd9d65adc, 0x40df0b66, 0x37d83bf0, 0xa9bcae53, 0xdebb9ec5, 0x47b2cf7f, 0x30b5ffe9,
    0xbdbdf21c, 0xcabac28a, 0x53b39330, 0x24b4a3a6, 0xbad03605, 0xcdd70693, 0x54de5729, 0x23d967bf,
    0xb3667a2e, 0xc4614ab8, 0x5d681b02, 0x2a6f2b94, 0xb40bbe37, 0xc30c8ea1, 0x5a05df1b, 0x2d02ef8d]

def crc32 (init : UInt32) (data : List UInt8) : UInt32 := crc crc32Tbl init data

set_option maxRecDepth 4096 in
lemma crc32Tbl_injective : Injective crc32Tbl := ⟨rfl, by decide +kernel⟩

lemma crc32_append (init : UInt32) (data data' : List UInt8) :
    crc32 init (data ++ data') = crc32 (crc32 init data) data' := crc_append init data data'

/-! ## Files -/

structure File where
  size : Nat
  data : Nat → UInt8

def File.ofList (l : List UInt8) : File := ⟨l.length, put (fun _ => 0) 0 l⟩

lemma File.size_ofList (l : List UInt8) : (File.ofList l).size = l.length := rfl

lemma slice_ofList (a b c : List UInt8) :
    slice (File.ofList (a ++ (b ++ c))).data a.length b.length = b := by
  have hput := put_put (fun _ => (0 : UInt8)) 0 a (b ++ c)
  rw [Nat.zero_add] at hput
  rw [File.ofList, ← hput]
  exact slice_put_prefix _ _ _ _

variable {f : File} {l : Layout} {pos n : Nat}

lemma slice_of_eq {a b c : List UInt8} (h : f = .ofList (a ++ (b ++ c))) (hpos : a.length = pos)
    (hn : b.length = n) : slice f.data pos n = b := by
  subst h hpos hn
  exact slice_ofList a b c

section

variable (f : File)

def File.read (pos n : Nat) : Option (List UInt8) :=
  if pos + n ≤ f.size then some (slice f.data pos n) else none

def File.write (pos : Nat) (l : List UInt8) : File :=
    ⟨max f.size (pos + l.length), put f.data pos l⟩

/-! ## The parser -/

def WFI_VERSION : UInt32 := 0x00005732
def WFI_NAND128_FLASH : UInt32 := 3
def WFI_FLAG_SUPPORTS_BTRM : UInt32 := 0x2
def UBI_EC_HDR_MAGIC : UInt32 := 0x55424923

/-- `struct bcm4908img_tail`: the checksum, and the other words as they are stored. -/
structure Tail where
  crc32 : UInt32
  rest : List UInt8
  rest_length : rest.length = 16

def Tail.bytes (t : Tail) : List UInt8 := encode32 false t.crc32 ++ t.rest

def sizeofTail : Nat := 20

lemma Tail.length_bytes (t : Tail) : t.bytes.length = sizeofTail := by
  rw [Tail.bytes, length_append, length_encode32, t.rest_length]
  rfl

def sizeofLinksys : Nat := 256

inductive ParseError
  /-- Failed to read file header -/
  | header
  /-- Failed to read while looking for JFFS2 -/
  | jffs2
  /-- Failed to find bootfs offset -/
  | bootfs
  /-- Failed to read `length` bytes -/
  | bytes (length : Nat)
  /-- Failed to find rootfs offset -/
  | rootfs
  /-- Failed to read last `length` B of data -/
  | data (length : Nat)
  /-- Failed to read BCM4908 image tail -/
  | tail
  /-- Invalid data crc32 -/
  | crc32 (calculated stored : UInt32)
deriving DecidableEq

structure Layout where
  cferomOffset : Nat
  bootfsOffset : Nat
  paddingOffset : Nat
  rootfsOffset : Nat
  tailOffset : Nat

structure Info extends Layout where
  crc32 : UInt32
  tail : Tail

def chkMagic : UInt32 := 0x2a23245e

def cferomOffset : Nat :=
  if decode32 true (slice f.data 0 4) =
    chkMagic then (decode32 true (slice f.data 4 4)).toNat else 0

def linksysMagic : List UInt8 := [46, 76, 73, 78, 75, 83, 89, 83, 46]

def hasLinksys : Bool := slice f.data (f.size - sizeofLinksys) 9 = linksysMagic

def tailOffset : Nat :=
  if hasLinksys f then f.size - sizeofTail - sizeofLinksys else f.size - sizeofTail

end

def isAllFf (buf : List UInt8) : Bool := buf.all (· = 0xff)

def findBootfs (f : File) (tail offset : Nat) : Except ParseError Nat :=
  if offset < tail then
    match f.read offset 2 with
    | none => .error .jffs2
    | some tmp16 => if tmp16 =
      [0x85, 0x19] then .ok offset else findBootfs f tail (offset + 0x20000)
  else .error .bootfs
termination_by tail - offset
decreasing_by omega

def findRootfs (f : File) (tail offset padding : Nat) : Except ParseError (Nat × Nat) :=
  if offset < tail then
    let length := if padding ≠ 0 then 4 else 256
    match f.read offset length with
    | none => .error (.bytes length)
    | some buf =>
      let padding := if padding = 0 ∧ isAllFf buf then offset else padding
      if decode32 true (buf.take 4) = UBI_EC_HDR_MAGIC then .ok (offset, padding)
      else findRootfs f tail (offset + 0x20000) padding
  else .error .rootfs
termination_by tail - offset
decreasing_by omega

/-- The loop of `bcm4908img_calc_crc32` over the data, with a buffer of 1024 bytes. -/
def crcLoop (f : File) (pos length : Nat) (crc : UInt32) : Except ParseError UInt32 :=
  if length = 0 then .ok crc
  else
    let bytes := min (min 1024 length) (f.size - pos)
    if bytes = 0 then .error (.data length)
    else crcLoop f (pos + bytes) (length - bytes) (crc32 crc (slice f.data pos bytes))
termination_by length

def calcCrc32 (f : File) (l : Layout) : Except ParseError UInt32 :=
  crcLoop f l.cferomOffset (l.tailOffset - l.cferomOffset) 0xffffffff

/-- The part of `bcm4908img_parse` that finds the offsets. -/
def locate (f : File) : Except ParseError Layout := do
  if f.size < 1024 then throw .header
  let bootfs ← findBootfs f (tailOffset f) (cferomOffset f)
  let (rootfs, padding) ← findRootfs f (tailOffset f) bootfs 0
  pure ⟨cferomOffset f, bootfs, padding, rootfs, tailOffset f⟩

def readTail (f : File) (pos : Nat) : Tail where
  crc32 := decode32 false (slice f.data pos 4)
  rest := slice f.data (pos + 4) 16
  rest_length := length_slice _ _ _

def parse (f : File) : Except ParseError Info := do
  let l ← locate f
  let crc ← calcCrc32 f l
  if f.size < l.tailOffset + sizeofTail then throw .tail
  let tail := readTail f l.tailOffset
  if crc ≠ tail.crc32 then throw (.crc32 crc tail.crc32)
  pure { l with crc32 := crc, tail }

/-! ## What the parser computes -/

lemma crcLoop_eq {length : Nat} (h : pos + length ≤ f.size) (crc : UInt32) :
    crcLoop f pos length crc = .ok (crc32 crc (slice f.data pos length)) := by
  induction length using Nat.strongRecOn generalizing pos crc with
  | ind length ih =>
    rw [crcLoop]
    split
    next hzero =>
      subst hzero
      rfl
    next hpos =>
      obtain ⟨bytes, hbytes⟩ : ∃ bytes, min (min 1024 length) (f.size - pos) = bytes := ⟨_, rfl⟩
      have hle : bytes ≤ length := by omega
      rw [hbytes, if_neg (by omega), ih _ (by omega) (by omega), ← crc32_append, ← slice_add,
        Nat.add_sub_cancel' hle]

lemma findBootfs_bounds {tail offset bootfs : Nat} (h : findBootfs f tail offset = .ok bootfs) :
    offset ≤ bootfs ∧ bootfs < tail := by
  fun_induction findBootfs f tail offset with
  | case1 => cases h
  | case2 offset hlt =>
    obtain rfl := Except.ok.inj h
    exact ⟨Nat.le_refl _, hlt⟩
  | case3 offset hlt tmp16 hread hne ih =>
    obtain ⟨hle, hlt⟩ := ih h
    omega
  | case4 => cases h

lemma locate_spec (h : locate f = .ok l) : 1024 ≤ f.size ∧
    l.cferomOffset = cferomOffset f ∧ l.tailOffset = tailOffset f ∧
    cferomOffset f ≤ l.bootfsOffset ∧ l.bootfsOffset < tailOffset f := by
  unfold locate at h
  split at h
  next => cases h
  next hsize =>
    obtain ⟨bootfs, hboot, h⟩ := bind_eq_ok.1 h
    obtain ⟨r, hroot, h⟩ := bind_eq_ok.1 h
    obtain rfl := Except.ok.inj h
    have hbounds := findBootfs_bounds hboot
    exact ⟨Nat.not_lt.1 hsize, rfl, rfl, hbounds.1, hbounds.2⟩

lemma locate_ne_crc32 (f : File) (calculated stored : UInt32) :
    locate f ≠ .error (.crc32 calculated stored) := by
  have hboot (tail offset : Nat) :
    findBootfs f tail offset ≠ .error (.crc32 calculated stored) := by
    fun_induction findBootfs f tail offset with
    | case3 _ _ _ _ _ ih => exact ih
    | _ => exact nofun
  have hroot (tail offset padding : Nat) :
      findRootfs f tail offset padding ≠ .error (.crc32 calculated stored) := by
    fun_induction findRootfs f tail offset padding with
    | case3 _ _ _ _ _ _ _ _ ih => exact ih
    | _ => exact nofun
  unfold locate
  split
  next => exact nofun
  next =>
    intro h
    obtain h | ⟨bootfs, -, h⟩ := bind_eq_error.1 h
    · exact hboot _ _ h
    · obtain h | ⟨r, -, h⟩ := bind_eq_error.1 h
      · exact hroot _ _ _ h
      · cases h

lemma tailOffset_le (h : 1024 ≤ f.size) : tailOffset f + sizeofTail ≤ f.size := by
  have htail : sizeofTail = 20 := rfl
  unfold tailOffset
  split <;> omega

def payload (f : File) : List UInt8 :=
  slice f.data (cferomOffset f) (tailOffset f - cferomOffset f)

lemma parse_of_locate (h : locate f = .ok l) : parse f =
    if crc32 0xffffffff (payload f) = (readTail f (tailOffset f)).crc32 then
      .ok { l with crc32 := crc32 0xffffffff (payload f), tail := readTail f (tailOffset f) }
    else .error (.crc32 (crc32 0xffffffff (payload f)) (readTail f (tailOffset f)).crc32) := by
  obtain ⟨hsize, hcferom, htail, hle, hlt⟩ := locate_spec h
  have hend := tailOffset_le hsize
  have hcrc : calcCrc32 f l = .ok (crc32 0xffffffff (payload f)) := by
    rw [calcCrc32, hcferom, htail, crcLoop_eq (by omega), payload]
  have hroom : ¬ f.size < l.tailOffset + sizeofTail := by omega
  unfold parse
  rw [h, ok_bind, hcrc, ok_bind, if_neg hroom, htail]
  by_cases heq : crc32 0xffffffff (payload f) = (readTail f (tailOffset f)).crc32
  · rw [if_neg (not_not.2 heq), if_pos heq]
    rfl
  · rw [if_pos heq, if_neg heq]
    rfl

lemma read_of_le (h : pos + n ≤ f.size) : f.read pos n = some (slice f.data pos n) := if_pos h

/-- A round of the loop that looks for the rootfs. -/
theorem findRootfs_eq {tail offset padding : Nat} (hlt : offset < tail)
    (hread : offset + (if padding ≠ 0 then 4 else 256) ≤ f.size) :
    findRootfs f tail offset padding =
      let padding' := if padding = 0 ∧ isAllFf (slice f.data offset 256) then offset else padding
      if decode32 true (slice f.data offset 4) = UBI_EC_HDR_MAGIC then .ok (offset, padding')
      else findRootfs f tail (offset + 0x20000) padding' := by
  have htake : (slice f.data offset 256).take 4 = slice f.data offset 4 := by
    rw [show 256 = 4 + 252 from rfl, slice_add, take_left' (length_slice _ _ _)]
  rw [findRootfs, if_pos hlt]
  dsimp only
  rw [read_of_le hread]
  by_cases hzero : padding = 0
  · rw [if_neg (not_not.2 hzero)]
    dsimp only
    rw [htake]
  · simp only [if_pos hzero, hzero, false_and, if_false, take_of_length_le (length_slice _ _ _).le]

/-! ## Images with a bootfs of one block -/

lemma locate_of_block (hsize : 0x20100 ≤ f.size)
    (hboot : slice f.data 0 4 = [0x85, 0x19, 0x01, 0xe0])
    (hroot : slice f.data 0x20000 4 = [0x55, 0x42, 0x49, 0x23]) (htail : 0x20000 < tailOffset f) :
    locate f = .ok ⟨0, 0, 0, 0x20000, tailOffset f⟩ := by
  have hcferom : cferomOffset f = 0 := by
    rw [cferomOffset, hboot, if_neg (by decide)]
  have hff (pos : Nat) {a b c d : UInt8} (h : slice f.data pos 4 = [a, b, c, d]) (ha : a ≠ 0xff) :
      isAllFf (slice f.data pos 256) = false := by
    rw [show 256 = 4 + 252 from rfl, slice_add, h, isAllFf, cons_append, all_cons,
      decide_eq_false ha, Bool.false_and]
  have hmagic : slice f.data 0 2 = [0x85, 0x19] := by
    have hsplit : slice f.data 0 2 ++ slice f.data 2 2 = [0x85, 0x19] ++ [0x01, 0xe0] :=
      (slice_add f.data 0 2 2).symm.trans hboot
    exact (append_inj hsplit (length_slice _ _ _)).1
  have hfind : findBootfs f (tailOffset f) 0 = .ok 0 := by
    rw [findBootfs, if_pos (by omega), read_of_le (by omega), hmagic]
    rfl
  have hfind₁ : findRootfs f (tailOffset f) 0x20000 0 = .ok (0x20000, 0) := by
    rw [findRootfs_eq htail (by rw [if_neg (not_not.2 rfl)]; omega), hff _ hroot (by decide), hroot]
    rfl
  have hfind₀ : findRootfs f (tailOffset f) 0 0 = .ok (0x20000, 0) := by
    rw [findRootfs_eq (by omega) (by rw [if_neg (not_not.2 rfl)]; omega), hff _ hboot (by decide),
      hboot]
    dsimp only
    rw [if_neg (by decide), if_neg (by decide), Nat.zero_add, hfind₁]
  unfold locate
  rw [if_neg (by omega), hcferom, hfind, ok_bind, hfind₀, ok_bind]
  rfl

end SourceMaster.Bcm4908
