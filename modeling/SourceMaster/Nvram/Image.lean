import Mathlib.Data.List.FinRange
import Mathlib.Data.List.TakeWhile
import SourceMaster.Lib.Memory

/-!
# NVRAM images

`nvram.c` keeps variables in a hash table and stores them in a partition of the flash: a header, and
then `name=value` texts, each of them terminated by a zero, with another zero behind the last one.
`nvram_commit` writes such an image, `nvram_open` looks for one, and `_nvram_rehash` reads it.
-/

namespace SourceMaster.Nvram

open Memory List

/-! ## Variables -/

structure CStr where
  chars : List UInt8
  noNul : 0 ∉ chars
deriving DecidableEq

structure Tuple where
  name : CStr
  value : CStr
deriving DecidableEq

/-- Byte order, type `char`, size of pointers, `strtoul`, the mapping of the partition and its
size. -/
structure Platform where
  bigEndian : Bool
  signedChar : Bool
  sizeofPointer : Nat
  strtoul : CStr → UInt32
  base : Nat
  partSize : Nat
  sizeofPointer_pos : 0 < sizeofPointer
  -- pages are mapped
  base_mod : base % 4 = 0
  partSize_mod : partSize % 4 = 0
  -- `NVRAM_MIN_SPACE`
  minSpace_le : 0x8000 ≤ partSize
  -- `part_size` is an `int`
  partSize_lt : partSize < 2 ^ 31

section

variable (p : Platform)

def hash (s : CStr) : UInt32 :=
  s.chars.foldl
    (fun h c => 31 * h + if p.signedChar && 128 ≤ c then c.toUInt32 - 256 else c.toUInt32) 0

/-- The index of `nvram_hash`. `NVRAM_ARRAYSIZE` has no parentheses, so that the remainder is that
by the bytes of the array, and is then divided by those of a pointer. -/
def bucketOf (name : CStr) : Fin 257 where
  val := (hash p name).toNat % (257 * p.sizeofPointer) / p.sizeofPointer
  isLt := by
    have hpos : 0 < 257 * p.sizeofPointer := Nat.mul_pos (by decide) p.sizeofPointer_pos
    rw [Nat.div_lt_iff_lt_mul p.sizeofPointer_pos]
    exact Nat.mod_lt _ hpos

/-- `nvram_hash`: every tuple is in the bucket of its name, and no name is there twice. -/
structure Table where
  buckets : Fin 257 → List Tuple
  hashed : ∀ i, ∀ t ∈ buckets i, bucketOf p t.name = i
  distinct : ∀ i, ((buckets i).map Tuple.name).Nodup

def Table.empty : Table p := ⟨fun _ => [], nofun, fun _ => .nil⟩

variable {p}

variable (t : Table p)

def nvramGet (name : CStr) : Option CStr :=
  ((t.buckets (bucketOf p name)).find? fun x => x.name = name).map Tuple.value

def setBucket (l : List Tuple) (name value : CStr) : List Tuple :=
  if name ∈ l.map Tuple.name then l.map fun x => if x.name = name then { x with value } else x
  else ⟨name, value⟩ :: l

lemma map_name_setBucket (l : List Tuple) (name value : CStr) :
    (setBucket l name value).map Tuple.name =
    if name ∈ l.map Tuple.name then l.map Tuple.name else name :: l.map Tuple.name := by
  unfold setBucket
  split
  · rw [map_map]
    refine map_congr_left fun x _ => ?_
    show Tuple.name (if x.name = name then _ else x) = x.name
    split <;> rfl
  · rfl

def Table.set (name value : CStr) : Table p where
  buckets i := if i = bucketOf p name then setBucket (t.buckets i) name value else t.buckets i
  hashed i x hx := by
    split at hx
    next hi =>
      have hname : x.name ∈ (setBucket (t.buckets i) name value).map Tuple.name := mem_map_of_mem hx
      rw [map_name_setBucket] at hname
      have hold : x.name ∈ (t.buckets i).map Tuple.name → bucketOf p x.name = i := by
        intro hmem
        obtain ⟨y, hy, heq⟩ := mem_map.1 hmem
        rw [← heq]
        exact t.hashed i y hy
      split at hname
      next => exact hold hname
      next =>
        obtain heq | hmem := mem_cons.1 hname
        · rw [heq, hi]
        · exact hold hmem
    next => exact t.hashed i x hx
  distinct i := by
    split
    next =>
      rw [map_name_setBucket]
      split
      next => exact t.distinct i
      next hnot => exact nodup_cons.2 ⟨hnot, t.distinct i⟩
    next => exact t.distinct i

def Table.unset (name : CStr) : Table p where
  buckets i := if i = bucketOf p name then (t.buckets i).eraseP fun x =>
    x.name = name else t.buckets i
  hashed i x hx := by
    split at hx
    next => exact t.hashed i x (mem_of_mem_eraseP hx)
    next => exact t.hashed i x hx
  distinct i := by
    split
    next => exact (t.distinct i).sublist (eraseP_sublist.map _)
    next => exact t.distinct i

/-! ## The partition -/

variable (p)

def NVRAM_MAGIC : UInt32 := 0x48534c46
def NVRAM_MIN_SPACE : Nat := 0x8000

def sizeofHeader : Nat := 20

variable (mem : Nat → UInt8)

def getWord (pos : Nat) : UInt32 := decode32 p.bigEndian (slice mem pos 4)

def putWord (pos : Nat) (w : UInt32) : Nat → UInt8 :=
  put mem pos (encode32 p.bigEndian w)

/-- Stores something in the partition; there is no result if it does not fit. -/
def store (pos : Nat) (l : List UInt8) : Option (Nat → UInt8) :=
  if pos + l.length ≤ p.partSize then some (put mem pos l) else none

structure Handle where
  mem : Nat → UInt8
  offset : Nat
  table : Table p

variable {p}

def nvramSet (h : Handle p) (name value : CStr) : Int × Handle p :=
  if p.partSize - h.offset < value.chars.length + 1 then (-12, h)
  else (0, { h with table := h.table.set name value })

def nvramUnset (h : Handle p) (name : CStr) : Handle p := { h with table := h.table.unset name }

/-! ## Reading an image -/

def CStr.upTo (stop : UInt8) (l : List UInt8) : CStr where
  chars := l.takeWhile fun c => c ≠ 0 && c ≠ stop
  noNul h := by
    have := mem_takeWhile_imp h
    simp at this

/-- The loop of `_nvram_rehash` over the texts; no result if it leaves the partition. -/
def parseTuples : Nat → List UInt8 → Option (List Tuple)
  | 0, _ => none
  | _ + 1, [] => none
  | fuel + 1, c :: cs =>
    if c = 0 then some []
    else
      let name := CStr.upTo 61 (c :: cs)
      match (c :: cs).drop name.chars.length with
      | [] => none
      | eq :: rest =>
        if eq = 0 then some []
        else
          let value := CStr.upTo 0 rest
          match rest.drop value.chars.length with
          | [] => none
          | _ :: rest => (parseTuples fuel rest).map (⟨name, value⟩ :: ·)

def ascii (s : String) : List UInt8 := s.toList.map fun c => .ofNat c.toNat

def sdramInit : CStr := ⟨ascii "sdram_init", by decide⟩
def sdramConfig : CStr := ⟨ascii "sdram_config", by decide⟩
def sdramRefresh : CStr := ⟨ascii "sdram_refresh", by decide⟩
def sdramNcdl : CStr := ⟨ascii "sdram_ncdl", by decide⟩

def hexDigit (n : Nat) : UInt8 := if n % 16 < 10 then .ofNat (48 + n % 16) else .ofNat (55 + n % 16)

lemma hexDigit_ne_zero (n : Nat) : hexDigit n ≠ 0 := by
  have hlt : n % 16 < 16 := Nat.mod_lt n (by decide)
  unfold hexDigit
  generalize n % 16 = d at hlt ⊢
  decide +revert

def hexText (width n : Nat) : CStr where
  chars := ascii "0x" ++ (range width).map fun i => hexDigit (n / 16 ^ (width - 1 - i))
  noNul h := by
    obtain h | h := mem_append.1 h
    · revert h
      decide
    · obtain ⟨i, -, hi⟩ := mem_map.1 h
      exact hexDigit_ne_zero _ hi

def low16 (w : UInt32) : UInt32 := w &&& 0xffff

/-- The parameters of the memory taken from the header unless there are variables. -/
def headerVars (h : Handle p) : List Tuple :=
  let crcVerInit := getWord p h.mem (h.offset + 8)
  let configRefresh := getWord p h.mem (h.offset + 12)
  let configNcdl := getWord p h.mem (h.offset + 16)
  [⟨sdramInit, hexText 4 (crcVerInit >>> 16).toNat⟩,
    ⟨sdramConfig, hexText 4 (low16 configRefresh).toNat⟩,
    ⟨sdramRefresh, hexText 4 (configRefresh >>> 16).toNat⟩, ⟨sdramNcdl, hexText 8 configNcdl.toNat⟩]

def nvramRehash (h : Handle p) : Option (Handle p) :=
  let data := slice h.mem (h.offset + sizeofHeader) (p.partSize - (h.offset + sizeofHeader))
  (parseTuples (data.length + 1) data).map fun tuples =>
    let h := tuples.foldl (fun h t => (nvramSet h t.name t.value).2) { h with table := .empty p }
    (headerVars h).foldl
      (fun h t => if nvramGet h.table t.name = none then (nvramSet h t.name t.value).2 else h) h

/-- `nvram_open` of a partition; with `rdonly` the length in the header is not looked at. -/
def nvramOpen (p : Platform) (mem : Nat → UInt8) (rdonly : Bool) : Option (Handle p) := do
  let i ← (range ((p.partSize - NVRAM_MIN_SPACE) / 4 + 1)).find? fun i =>
    getWord p mem (4 * i) = NVRAM_MAGIC
  if rdonly || (getWord p mem (4 * i + 4)).toNat < p.partSize - 4 * i then
    nvramRehash ⟨mem, 4 * i, .empty p⟩
  else none

/-! ## Writing an image -/

set_option maxRecDepth 4096 in
def crc8Table : List UInt8 :=
  [0x00, 0xf7, 0xb9, 0x4e, 0x25, 0xd2, 0x9c, 0x6b, 0x4a, 0xbd, 0xf3, 0x04, 0x6f, 0x98, 0xd6, 0x21,
    0x94, 0x63, 0x2d, 0xda, 0xb1, 0x46, 0x08, 0xff, 0xde, 0x29, 0x67, 0x90, 0xfb, 0x0c, 0x42, 0xb5,
    0x7f, 0x88, 0xc6, 0x31, 0x5a, 0xad, 0xe3, 0x14, 0x35, 0xc2, 0x8c, 0x7b, 0x10, 0xe7, 0xa9, 0x5e,
    0xeb, 0x1c, 0x52, 0xa5, 0xce, 0x39, 0x77, 0x80, 0xa1, 0x56, 0x18, 0xef, 0x84, 0x73, 0x3d, 0xca,
    0xfe, 0x09, 0x47, 0xb0, 0xdb, 0x2c, 0x62, 0x95, 0xb4, 0x43, 0x0d, 0xfa, 0x91, 0x66, 0x28, 0xdf,
    0x6a, 0x9d, 0xd3, 0x24, 0x4f, 0xb8, 0xf6, 0x01, 0x20, 0xd7, 0x99, 0x6e, 0x05, 0xf2, 0xbc, 0x4b,
    0x81, 0x76, 0x38, 0xcf, 0xa4, 0x53, 0x1d, 0xea, 0xcb, 0x3c, 0x72, 0x85, 0xee, 0x19, 0x57, 0xa0,
    0x15, 0xe2, 0xac, 0x5b, 0x30, 0xc7, 0x89, 0x7e, 0x5f, 0xa8, 0xe6, 0x11, 0x7a, 0x8d, 0xc3, 0x34,
    0xab, 0x5c, 0x12, 0xe5, 0x8e, 0x79, 0x37, 0xc0, 0xe1, 0x16, 0x58, 0xaf, 0xc4, 0x33, 0x7d, 0x8a,
    0x3f, 0xc8, 0x86, 0x71, 0x1a, 0xed, 0xa3, 0x54, 0x75, 0x82, 0xcc, 0x3b, 0x50, 0xa7, 0xe9, 0x1e,
    0xd4, 0x23, 0x6d, 0x9a, 0xf1, 0x06, 0x48, 0xbf, 0x9e, 0x69, 0x27, 0xd0, 0xbb, 0x4c, 0x02, 0xf5,
    0x40, 0xb7, 0xf9, 0x0e, 0x65, 0x92, 0xdc, 0x2b, 0x0a, 0xfd, 0xb3, 0x44, 0x2f, 0xd8, 0x96, 0x61,
    0x55, 0xa2, 0xec, 0x1b, 0x70, 0x87, 0xc9, 0x3e, 0x1f, 0xe8, 0xa6, 0x51, 0x3a, 0xcd, 0x83, 0x74,
    0xc1, 0x36, 0x78, 0x8f, 0xe4, 0x13, 0x5d, 0xaa, 0x8b, 0x7c, 0x32, 0xc5, 0xae, 0x59, 0x17, 0xe0,
    0x2a, 0xdd, 0x93, 0x64, 0x0f, 0xf8, 0xb6, 0x41, 0x60, 0x97, 0xd9, 0x2e, 0x45, 0xb2, 0xfc, 0x0b,
    0xbe, 0x49, 0x07, 0xf0, 0x9b, 0x6c, 0x22, 0xd5, 0xf4, 0x03, 0x4d, 0xba, 0xd1, 0x26, 0x68, 0x9f]

def hndcrc8 (data : List UInt8) (crc : UInt8) : UInt8 :=
  data.foldl (fun crc b => crc8Table.getD (crc ^^^ b).toNat 0) crc

def Tuple.text (t : Tuple) : List UInt8 := t.name.chars ++ 61 :: t.value.chars ++ [0]

def writeBucket (stop : Nat) : List Tuple → Nat × (Nat → UInt8) → Nat × (Nat → UInt8)
  | [], s => s
  | t :: ts, (ptr, mem) =>
    if stop < ptr + t.name.chars.length + 1 + t.value.chars.length + 1 then (ptr, mem)
    else writeBucket stop ts (ptr + t.text.length, put mem ptr t.text)

def SDRAM_INIT : UInt32 := 0x419
def SDRAM_CONFIG : UInt32 := 0
def SDRAM_REFRESH : UInt32 := 0x8040

/-- The words of the header that are made from the parameters of the memory. -/
def headerWords (t : Table p) : UInt32 × UInt32 × UInt32 :=
  let version : UInt32 := (1 : UInt32) <<< 8
  match nvramGet t sdramInit, nvramGet t sdramConfig, nvramGet t sdramRefresh,
    nvramGet t sdramNcdl with
  | some init, some config, some refresh, some ncdl =>
    (version ||| low16 (p.strtoul init) <<< 16,
      low16 (p.strtoul config) ||| low16 (p.strtoul refresh) <<< 16, p.strtoul ncdl)
  | _, _, _, _ => (version ||| SDRAM_INIT <<< 16, SDRAM_CONFIG ||| SDRAM_REFRESH <<< 16, 0)

/-- What `memset` fills: `(int)ptr % 4` is negative for a negative address. -/
def padding (p : Platform) (ptr : Nat) : Nat :=
  let align := (((p.base + ptr : Nat) : Int).bmod (2 ^ 32)).tmod 4
  if align = 0 then 0 else (4 - align).toNat

/-- The new header without its length and checksum, and a cleared data area. -/
def clearData (h : Handle p) (configRefresh configNcdl : UInt32) : Option (Nat → UInt8) :=
  let mem := putWord p h.mem h.offset NVRAM_MAGIC
  let mem := putWord p mem (h.offset + 12) configRefresh
  let mem := putWord p mem (h.offset + 16) configNcdl
  store p mem (h.offset + sizeofHeader) (replicate (p.partSize - h.offset - sizeofHeader) 0xff)

def writeTuples (t : Table p) (s : Nat × (Nat → UInt8)) : Nat × (Nat → UInt8) :=
  (finRange 257).foldl (fun s i => writeBucket (p.partSize - 2) (t.buckets i) s) s

def endData (p : Platform) (ptr : Nat) (mem : Nat → UInt8) : Option (Nat × (Nat → UInt8)) := do
  let mem ← store p mem ptr [0]
  let ptr := ptr + 1
  let mem ← store p mem ptr (replicate (padding p ptr) 0)
  pure (ptr + 1, mem)

/-- The checksum over the last eleven bytes of the header and the data. -/
def checksum (p : Platform) (words : UInt32 × UInt32 × UInt32) (data : List UInt8) : UInt8 :=
  let tmp := putWord p (putWord p (putWord p (fun _ => 0) 8 words.1) 12 words.2.1) 16 words.2.2
  hndcrc8 data (hndcrc8 (slice tmp 9 11) 0xff)

def finishHeader (p : Platform) (offset : Nat) (words : UInt32 × UInt32 × UInt32) (ptr : Nat)
    (mem : Nat → UInt8) : Nat → UInt8 :=
  let len := (ptr - offset + 3) / 4 * 4
  let mem := putWord p mem (offset + 4) (.ofNat len)
  let crc := checksum p words (slice mem (offset + sizeofHeader) (len - sizeofHeader))
  putWord p mem (offset + 8) (words.1 ||| crc.toUInt32)

/-- `nvram_commit`; there is no result if it writes outside of the partition. -/
def nvramCommit (h : Handle p) : Option (Int × Handle p) := do
  let words := headerWords h.table
  let mem ← clearData h words.2.1 words.2.2
  let (ptr, mem) := writeTuples h.table (h.offset + sizeofHeader, mem)
  let (ptr, mem) ← endData p ptr mem
  let h ← nvramRehash { h with mem := finishHeader p h.offset words ptr mem }
  pure (0, h)

end

end SourceMaster.Nvram
