import SourceMaster.Bcm4908.Image

/-!
# Created images

`bcm4908img create` appends files and zeros to an image and computes the checksum of the tail on the
way. The zeros are not counted (`create_ignores_padding`), so the parser rejects an image with
padding, except by accident. Without padding the checksum is right, unless the contents of the files
make the parser look for another vendor's image (`create_crc_unpadded`).
-/

namespace SourceMaster.Bcm4908

open Memory Crc Failing List Option File Nat

/-! ## The program -/

/-- What depends on the host: the bits of a `long`, and which blocks there is memory for. -/
structure Host where
  bits : Nat
  malloc : Nat → Bool

/-- The options of `bcm4908img create`, with the contents of files and the results of `strtol`. -/
inductive Opt
  | f (content : Option (List UInt8))
  | a (alignment : Int)
  | A (offset : Int)
  /-- An option that is not known. -/
  | other

/-- The local variables of `bcm4908img_create`. -/
structure Writer where
  file : File
  crc32 : UInt32
  curOffset : Nat

def File.append (f : File) (l : List UInt8) : File := f.write f.size l

def createAppendFile (trx : File) (crc : UInt32) (content : List UInt8) : File × UInt32 :=
  if content = [] then (trx, crc)
  else createAppendFile (trx.append (content.take 1024)) (crc32 crc (content.take 1024))
    (content.drop 1024)
termination_by content.length
decreasing_by
  have := length_pos_iff.2 ‹_›
  rw [length_drop]
  omega

/-- `bcm4908img_create_append_zeros`, with the number of zeros if there is memory for them. -/
def createAppendZeros (host : Host) (trx : File) (length : Nat) : File × Nat :=
  if host.malloc length then (trx.append (replicate length 0), length) else (trx, 0)

/-- `bcm4908img_create_align`; there is no result if it divides by zero. -/
def createAlign (host : Host) (trx : File) (curOffset alignment : Nat) : Option (File × Nat) :=
  if curOffset &&& ((alignment + 2 ^ host.bits - 1) % 2 ^ host.bits) ≠ 0 then
    if alignment = 0 then none
    else some (createAppendZeros host trx (alignment - curOffset % alignment))
  else some (trx, 0)

def createOption (host : Host) (s : Writer) : Opt → Option Writer
  | .f none => some s
  | .f (some content) =>
    let (file, crc) := createAppendFile s.file s.crc32 content
    some ⟨file, crc, (s.curOffset + content.length) % 2 ^ host.bits⟩
  | .a alignment => do
    let (file, bytes) ← createAlign host s.file s.curOffset (alignment % 2 ^ host.bits).toNat
    pure { s with file, curOffset := (s.curOffset + bytes) % 2 ^ host.bits }
  | .A offset =>
    let bytes := (offset - s.curOffset).bmod (2 ^ host.bits)
    if bytes < 0 then some s
    else
      let (file, bytes) := createAppendZeros host s.file bytes.toNat
      some { s with file, curOffset := (s.curOffset + bytes) % 2 ^ host.bits }
  | .other => some s

def createdTail (crc : UInt32) : Tail where
  crc32 := crc
  rest := [WFI_VERSION, 0x4908, WFI_NAND128_FLASH, WFI_FLAG_SUPPORTS_BTRM].flatMap (encode32 false)
  rest_length := rfl

def createBody (host : Host) (opts : List Opt) : Option Writer :=
  opts.foldlM (createOption host) ⟨.ofList [], 0xffffffff, 0⟩

def create (host : Host) (opts : List Opt) : Option File := do
  let s ← createBody host opts
  pure (s.file.append (createdTail s.crc32).bytes)

/-! ## What is written -/

variable {f : File} (l : List UInt8) {n : Nat} {opts : List Opt} {img : File} {s s' : Writer}
  {start : List UInt8}

lemma append_ofList (l' : List UInt8) : (ofList l).append l' = .ofList (l ++ l') := by
  have hput := put_put (fun _ => (0 : UInt8)) 0 l l'
  rw [zero_add] at hput
  rw [append, write, ofList, ofList, hput, length_append, max_eq_right (le_add_right _ _)]

lemma createAppendFile_eq (crc : UInt32) (content : List UInt8) :
    createAppendFile (.ofList l) crc content = (.ofList (l ++ content), crc32 crc content) := by
  generalize htrx : ofList l = trx
  fun_induction createAppendFile trx crc content generalizing l with
  | case1 trx crc => rw [← htrx, append_nil, crc32, crc_nil]
  | case2 trx crc content hne ih =>
    rw [ih (l ++ content.take 1024) (by rw [← htrx, append_ofList]), append_assoc,
      ← crc32_append, take_append_drop]

def Opt.content : Opt → List UInt8
  | .f (some content) => content
  | .f none | .a _ | .A _ | .other => []

def contents (opts : List Opt) : List UInt8 := opts.flatMap Opt.content

lemma contents_cons (opt : Opt) (opts : List Opt) :
    contents (opt :: opts) = opt.content ++ contents opts :=
  flatMap_cons

/-- The number of zeros that an option asks for, after `curOffset` bytes. -/
def Opt.padding (host : Host) (curOffset : Nat) : Opt → Nat
  | .a alignment =>
    let alignment := (alignment % 2 ^ host.bits).toNat
    if curOffset &&& ((alignment + 2 ^ host.bits - 1) % 2 ^ host.bits) ≠ 0 then
      alignment - curOffset % alignment
    else 0
  | .A offset => ((offset - curOffset).bmod (2 ^ host.bits)).toNat
  | .f _ | .other => 0

/-- No option appends a zero: each offset is aligned as asked for, or there is no memory. -/
def Unpadded (host : Host) : Nat → List Opt → Prop
  | _, [] => True
  | curOffset, opt :: opts =>
    (opt.padding host curOffset = 0 ∨ host.malloc (opt.padding host curOffset) = false) ∧
      Unpadded host ((curOffset + opt.content.length) % 2 ^ host.bits) opts

/-- The zeros that are appended. -/
def Host.zeros (host : Host) (length : Nat) : Nat := if host.malloc length then length else 0

lemma createAppendZeros_eq (host : Host) (l : List UInt8) (length : Nat) :
    createAppendZeros host (.ofList l) length =
      (.ofList (l ++ replicate (host.zeros length) 0), host.zeros length) := by
  unfold createAppendZeros Host.zeros
  split
  · rw [append_ofList]
  · rw [replicate_zero, append_nil]

lemma Host.zeros_zero (host : Host) : host.zeros 0 = 0 := ite_self 0

lemma createAlign_eq {host : Host} {l : List UInt8} {curOffset : Nat} {alignment : Int}
    {r : File × Nat}
    (h : createAlign host (.ofList l) curOffset (alignment % 2 ^ host.bits).toNat = some r) :
    r = (.ofList (l ++ replicate (host.zeros ((Opt.a alignment).padding host curOffset)) 0),
      host.zeros ((Opt.a alignment).padding host curOffset)) := by
  unfold createAlign at h
  unfold Opt.padding
  dsimp only
  split at h
  next hne =>
    rw [if_pos hne]
    split at h
    · cases h
    · obtain rfl := some.inj h
      exact createAppendZeros_eq host l _
  next heq =>
    obtain rfl := some.inj h
    rw [if_neg heq, host.zeros_zero, replicate_zero, append_nil]

lemma createOption_spec {host : Host} {l : List UInt8} {opt : Opt} (hl : s.file = .ofList l)
    (hlt : s.curOffset < 2 ^ host.bits) (h : createOption host s opt = some s') :
    s'.file = .ofList (l ++ opt.content ++
        replicate (host.zeros (opt.padding host s.curOffset)) 0) ∧
      s'.crc32 = crc32 s.crc32 opt.content ∧
      s'.curOffset = (s.curOffset + opt.content.length +
        host.zeros (opt.padding host s.curOffset)) % 2 ^ host.bits := by
  obtain ⟨file, crc, curOffset⟩ := s
  subst hl
  have hsame (l' : List UInt8) : ofList l' = .ofList (l' ++ replicate (host.zeros 0) 0) := by
    rw [host.zeros_zero, replicate_zero, append_nil]
  have hmod : curOffset = (curOffset + 0 + host.zeros 0) % 2 ^ host.bits := by
    rw [host.zeros_zero, Nat.add_zero, mod_eq_of_lt hlt]
  cases opt with
  | f content =>
    cases content with
    | none =>
      obtain rfl := some.inj h
      exact ⟨(congrArg ofList (append_nil l).symm).trans (hsame _), rfl, hmod⟩
    | some content =>
      simp only [createOption, createAppendFile_eq] at h
      obtain rfl := some.inj h
      refine ⟨hsame _, rfl, ?_⟩
      show _ = (curOffset + content.length + host.zeros 0) % 2 ^ host.bits
      rw [host.zeros_zero, Nat.add_zero]
  | a alignment =>
    obtain ⟨r, hr, h⟩ := bind_eq_some_iff.1 h
    obtain rfl := createAlign_eq hr
    obtain rfl := some.inj h
    exact ⟨by rw [Opt.content, append_nil], rfl, rfl⟩
  | A offset =>
    simp only [createOption] at h
    split at h
    next hneg =>
      obtain rfl := some.inj h
      have hzero : (Opt.A offset).padding host curOffset = 0 :=
        Int.toNat_of_nonpos (Int.le_of_lt hneg)
      dsimp only
      rw [hzero, Opt.content, append_nil]
      exact ⟨hsame l, rfl, hmod⟩
    next =>
      rw [createAppendZeros_eq] at h
      obtain rfl := some.inj h
      exact ⟨by rw [Opt.content, append_nil]; rfl, rfl, rfl⟩
  | other =>
    obtain rfl := some.inj h
    exact ⟨(congrArg ofList (append_nil l).symm).trans (hsame _), rfl, hmod⟩

lemma foldlM_createOption_spec {host : Host} {l : List UInt8} (hl : s.file = .ofList l)
    (hlt : s.curOffset < 2 ^ host.bits) (h : opts.foldlM (createOption host) s = some s') :
    ∃ body, (Unpadded host s.curOffset opts → body = contents opts) ∧
      s'.file = .ofList (l ++ body) ∧ s'.crc32 = crc32 s.crc32 (contents opts) := by
  induction opts generalizing s l with
  | nil =>
    obtain rfl := some.inj h
    exact ⟨[], fun _ => rfl, by rw [append_nil]; exact hl, rfl⟩
  | cons opt opts ih =>
    obtain ⟨s₁, hs₁, h⟩ := bind_eq_some_iff.1 h
    obtain ⟨hfile, hcrc, hoffset⟩ := createOption_spec hl hlt hs₁
    obtain ⟨body, hbody, hfile', hcrc'⟩ := ih hfile (hoffset ▸ mod_lt _ (Nat.two_pow_pos _)) h
    refine ⟨opt.content ++ replicate (host.zeros (opt.padding host s.curOffset)) 0 ++ body,
      fun ⟨hnone, hun⟩ => ?_, ?_, ?_⟩
    · have hzero : host.zeros (opt.padding host s.curOffset) = 0 := by
        obtain hzero | hmalloc := hnone
        · rw [hzero, host.zeros_zero]
        · rw [Host.zeros, hmalloc, if_neg Bool.false_ne_true]
      rw [hzero, Nat.add_zero] at hoffset
      rw [hzero, replicate_zero, append_nil, hbody (hoffset ▸ hun), contents_cons]
    · rw [hfile', append_assoc, append_assoc, append_assoc]
    · rw [hcrc', hcrc, ← crc32_append, contents_cons]

lemma create_spec {host : Host} (h : create host opts = some img) : ∃ body,
    (Unpadded host 0 opts → body = contents opts) ∧
      img = .ofList (body ++ (createdTail (crc32 0xffffffff (contents opts))).bytes) := by
  obtain ⟨s, hs, h⟩ := bind_eq_some_iff.1 h
  obtain ⟨body, hbody, hfile, hcrc⟩ := foldlM_createOption_spec (l := []) rfl (Nat.two_pow_pos _) hs
  obtain rfl := some.inj h
  rw [nil_append] at hfile
  exact ⟨body, hbody, by rw [hfile, hcrc, append_ofList]⟩

/-! ## The checksum of a created image -/

def CrcValid (img : File) : Prop :=
    ∀ calculated stored, parse img ≠ .error (.crc32 calculated stored)

lemma crcValid_iff : CrcValid img ↔ ((∃ l, locate img = .ok l) →
    crc32 0xffffffff (payload img) = (readTail img (tailOffset img)).crc32) := by
  unfold CrcValid
  cases hlocate : locate img with
  | error e =>
    refine ⟨fun _ => nofun, fun _ calculated stored hparse => ?_⟩
    obtain h | ⟨l, hl, -⟩ := bind_eq_error.1 hparse
    · exact locate_ne_crc32 img calculated stored h
    · rw [hlocate] at hl
      cases hl
  | ok l =>
    rw [parse_of_locate hlocate]
    split
    next heq => exact ⟨fun _ _ => heq, fun _ _ _ => nofun⟩
    next hne => exact ⟨fun h => absurd rfl (h _ _), fun h => absurd (h ⟨l, rfl⟩) hne⟩

lemma create_tail {host : Host} (h : create host opts = some img) :
    (readTail img (img.size - sizeofTail)).crc32 = crc32 0xffffffff (contents opts) := by
  obtain ⟨body, -, rfl⟩ := create_spec h
  generalize crc32 0xffffffff (contents opts) = crc
  have hslice := slice_ofList body (encode32 false crc) (createdTail crc).rest
  rw [size_ofList, length_append, Tail.length_bytes, Nat.add_sub_cancel]
  exact (congrArg (decode32 false) hslice).trans (decode32_encode32 _ _)

/-- Contents that are no other vendor's image: a CHK header has no length, and there is no mark
where the parser looks for it once the tail follows. -/
structure PlainContents (content : List UInt8) : Prop where
  chk : cferomOffset (.ofList content) = 0
  linksys : (content.drop (content.length + sizeofTail - sizeofLinksys)).take 9 ≠ linksysMagic

lemma slice_ofList_append {content tail : List UInt8} {pos : Nat} (h : pos + n ≤ content.length) :
    slice (ofList (content ++ tail)).data pos n = (content.drop pos).take n := by
  refine slice_of_eq (a := content.take pos) (c := (content.drop pos).drop n ++ tail) ?_ ?_ ?_
  · rw [← append_assoc (take n _), take_append_drop, ← append_assoc, take_append_drop]
  · rw [length_take]
    omega
  · rw [length_take, length_drop]
    omega

/-- The checksum of a created image is right if no option appended a zero and the contents of the
files are no other vendor's image. -/
theorem create_crc_unpadded {host : Host} {opts : List Opt} {img : File}
    (h : create host opts = some img) (hpad : Unpadded host 0 opts)
    (hplain : PlainContents (contents opts)) : CrcValid img := by
  rw [crcValid_iff]
  rintro ⟨l, hlocate⟩
  have hsize := (locate_spec hlocate).1
  have htail := create_tail h
  obtain ⟨body, hbody, rfl⟩ := create_spec h
  obtain rfl := hbody hpad
  have hlen : (ofList (contents opts ++
      (createdTail (crc32 0xffffffff (contents opts))).bytes)).size =
        (contents opts).length + sizeofTail := by
    rw [size_ofList, length_append, Tail.length_bytes]
  have htwenty : sizeofTail = 20 := rfl
  have hvendor : sizeofLinksys = 256 := rfl
  have hlinksys : hasLinksys (ofList (contents opts ++
      (createdTail (crc32 0xffffffff (contents opts))).bytes)) = false := by
    rw [hasLinksys, hlen, slice_ofList_append (by omega)]
    exact decide_eq_false hplain.linksys
  have hcferom : cferomOffset (ofList (contents opts ++
      (createdTail (crc32 0xffffffff (contents opts))).bytes)) = 0 := by
    have hchk := hplain.chk
    rw [← append_nil (contents opts)] at hchk
    unfold cferomOffset at hchk ⊢
    rw [slice_ofList_append (by omega), slice_ofList_append (by omega)] at hchk ⊢
    exact hchk
  rw [payload, hcferom, tailOffset, hlinksys, if_neg Bool.false_ne_true, htail, hlen,
    Nat.add_sub_cancel, Nat.sub_zero, slice_ofList_append (Nat.zero_add _).le, drop_zero,
      take_length]

/-! ## A host and two images -/

def host : Host := ⟨64, fun _ => true⟩

def bootStart : List UInt8 := [0x85, 0x19, 0x01, 0xe0]

def ubiMagic : List UInt8 := [0x55, 0x42, 0x49, 0x23]

def rootPart (n : Nat) : List UInt8 :=
  replicate (0x20000 - n) 0 ++ (ubiMagic ++ replicate 1020 0)

lemma length_rootPart (h : n ≤ 0x20000) : n + (rootPart n).length = 0x20400 := by
  have hubi : ubiMagic.length = 4 := rfl
  simp only [rootPart, length_append, length_replicate, hubi]
  omega

/-- A bootfs and a rootfs at their places, and no vendor tail behind 20 more bytes. -/
structure Rooted (f : File) : Prop where
  boot : slice f.data 0 4 = bootStart
  root : slice f.data 0x20000 4 = ubiMagic
  last : slice f.data 0x20314 9 = replicate 9 0

lemma rooted_of_body (hn : start.length + 4 = n) (hle : n ≤ 0x20000)
    (hbody : slice f.data 0 0x20400 = bootStart ++ start ++ rootPart n) : Rooted f := by
  obtain ⟨m, hm⟩ : ∃ m, 0x20000 - n = m := ⟨_, rfl⟩
  obtain ⟨block, hblock⟩ : ∃ block, block = bootStart ++ start ++ replicate m 0 := ⟨_, rfl⟩
  have hlength : block.length = 0x20000 := by
    rw [hblock, length_append, length_append, length_replicate]
    show 4 + start.length + m = 0x20000
    omega
  have hzeros : replicate 1020 (0 : UInt8) =
      replicate 784 0 ++ (replicate 9 0 ++ replicate 227 0) := by
    rw [replicate_append_replicate, replicate_append_replicate]
  rw [rootPart, hm, ← append_assoc, ← hblock] at hbody
  refine ⟨?_, ?_, ?_⟩
  · rw [hblock, append_assoc, append_assoc, ← nil_append (bootStart ++ _)] at hbody
    exact slice_of_slice_eq hbody
  · have hslice := slice_of_slice_eq hbody
    rw [hlength] at hslice
    exact hslice
  · rw [hzeros, ← append_assoc ubiMagic, ← append_assoc block] at hbody
    have hslice := slice_of_slice_eq hbody
    rw [length_append, hlength, length_append, length_replicate, length_replicate] at hslice
    exact hslice

lemma Rooted.tailOffset_eq (h : Rooted f) (hsize : f.size = 0x20414) :
    hasLinksys f = false ∧ tailOffset f = 0x20400 := by
  have hnone : hasLinksys f = false := by
    rw [hasLinksys, hsize]
    show decide (slice f.data 0x20314 9 = linksysMagic) = false
    rw [h.last]
    decide
  refine ⟨hnone, ?_⟩
  rw [tailOffset, hnone, if_neg Bool.false_ne_true, hsize]
  rfl

lemma Rooted.locate_eq (h : Rooted f) (hsize : 0x20414 ≤ f.size)
    (htail : tailOffset f = 0x20400) :
    locate f = .ok ⟨0, 0, 0, 0x20000, 0x20400⟩ ∧ payload f = slice f.data 0 0x20400 := by
  have hcferom : cferomOffset f = 0 := by
    rw [cferomOffset, h.boot, if_neg (by decide)]
  constructor
  · rw [← htail]
    exact locate_of_block (by omega) h.boot h.root (by omega)
  · rw [payload, hcferom, htail, Nat.sub_zero]

lemma locate_rootPart {t : Tail} {n : Nat} (hn : start.length + 4 = n) (hle : n ≤ 0x20000)
    {img : File} (himg : img = ofList (bootStart ++ start ++ rootPart n ++ t.bytes)) :
    hasLinksys img = false ∧ tailOffset img = img.size - sizeofTail ∧
      locate img = .ok ⟨0, 0, 0, 0x20000, 0x20400⟩ ∧
      payload img = bootStart ++ start ++ rootPart n := by
  have hlength : (bootStart ++ start ++ rootPart n).length = 0x20400 := by
    rw [length_append, length_append, ← length_rootPart hle, ← hn, add_comm start.length]
    rfl
  have hsize : img.size = 0x20414 := by
    rw [himg, size_ofList, length_append, hlength, Tail.length_bytes]
    rfl
  have hbody : slice img.data 0 0x20400 = bootStart ++ start ++ rootPart n :=
    slice_of_eq (a := []) himg rfl hlength
  have hrooted := rooted_of_body hn hle hbody
  obtain ⟨hlinksys, htail⟩ := hrooted.tailOffset_eq hsize
  obtain ⟨hlocate, hpayload⟩ := hrooted.locate_eq (le_of_eq hsize.symm) htail
  refine ⟨hlinksys, ?_, hlocate, hpayload.trans hbody⟩
  rw [htail, hsize]
  rfl

lemma plainContents_rootPart : PlainContents (bootStart ++ rootPart 4) := by
  have hlength : (bootStart ++ rootPart 4).length = 0x20400 := by
    have hboot : bootStart.length = 4 := rfl
    rw [length_append, hboot, length_rootPart (by decide)]
  have hslice {pos n : Nat} (h : pos + n ≤ 0x20400) :
      slice (ofList (bootStart ++ rootPart 4)).data pos n =
        ((bootStart ++ rootPart 4).drop pos).take n := by
    rw [← append_nil (bootStart ++ _), slice_ofList_append (hlength ▸ h), append_nil]
  have hrooted : Rooted (ofList (bootStart ++ rootPart 4)) := by
    refine @rooted_of_body _ 4 [] rfl (by decide) ?_
    rw [hslice (Nat.zero_add _).le, drop_zero, take_of_length_le hlength.le, append_nil]
  constructor
  · rw [cferomOffset, hrooted.boot, if_neg (by decide)]
  · have hlast := hrooted.last
    rw [hslice (by decide)] at hlast
    rw [hlength]
    have hpos : 0x20400 + sizeofTail - sizeofLinksys = 0x20314 := rfl
    rw [hpos, hlast]
    decide

lemma createOption_f (l : List UInt8) (crc : UInt32) (curOffset : Nat) (content : List UInt8) :
    createOption host ⟨.ofList l, crc, curOffset⟩ (.f (some content)) =
      some ⟨.ofList (l ++ content), crc32 crc content, (curOffset + content.length) % 2 ^ 64⟩ := by
  rw [createOption, createAppendFile_eq]
  rfl

lemma createOption_four {file file' : File} {crc : UInt32} {curOffset bytes : Nat}
    (h : createAlign host file curOffset 4 = some (file', bytes)) :
    createOption host ⟨file, crc, curOffset⟩ (.a 4) =
      some ⟨file', crc, (curOffset + bytes) % 2 ^ 64⟩ := by
  have hfour : ((4 : Int) % 2 ^ host.bits).toNat = 4 := by decide
  rw [createOption, hfour, h]
  rfl

/-- A bootfs, and a rootfs in a second file; the bootfs is aligned already. -/
theorem create_crc_unpadded_two : ∃ img,
    create host [.f (some bootStart), .a 4, .f (some (rootPart 4))] = some img ∧
      (∃ l, locate img = .ok l) ∧ CrcValid img := by
  obtain ⟨root, hroot⟩ : ∃ root, root = rootPart 4 := ⟨_, rfl⟩
  have hcontents : contents [.f (some bootStart), .a 4, .f (some root)] = bootStart ++ root := by
    simp only [contents, flatMap_cons, flatMap_nil, Opt.content, append_nil, nil_append]
  have hcreate : create host [.f (some bootStart), .a 4, .f (some root)] =
      some (.ofList (bootStart ++ root ++
        (createdTail (crc32 0xffffffff (bootStart ++ root))).bytes)) := by
    have halign : createAlign host (.ofList bootStart) 4 4 = some (.ofList bootStart, 0) :=
      if_neg (by decide)
    simp only [create, createBody, foldlM_cons, foldlM_nil, createOption_f, nil_append,
      show (0 + bootStart.length) % 2 ^ 64 = 4 from rfl, createOption_four halign,
      bind_eq_bind, bind_some, Option.pure_def, append_ofList, crc32_append _ bootStart]
  have hunpadded : Unpadded host 0 [.f (some bootStart), .a 4, .f (some root)] :=
    ⟨.inl rfl, .inl rfl, .inl rfl, trivial⟩
  have hvalid := create_crc_unpadded hcreate hunpadded
    (by rw [hcontents, hroot]; exact plainContents_rootPart)
  subst hroot
  obtain ⟨-, -, hlocate, -⟩ := @locate_rootPart [] _ 4 rfl (by decide) _ rfl
  rw [append_nil] at hlocate
  exact ⟨_, hcreate, ⟨_, hlocate⟩, hvalid⟩

def padded (rest : List UInt8) : List Opt := [.f (some (bootStart ++ [0])), .a 4, .f (some rest)]

lemma create_padded (rest : List UInt8) : create host (padded rest) =
    some (.ofList (bootStart ++ [0, 0, 0, 0] ++ rest ++
      (createdTail (crc32 0xffffffff (bootStart ++ [0] ++ rest))).bytes)) := by
  have halign : createAlign host (.ofList (bootStart ++ [0])) 5 4 =
      some (.ofList (bootStart ++ [0, 0, 0, 0]), 3) := by
    have hzeros : createAlign host (.ofList (bootStart ++ [0])) 5 4 =
        some ((ofList (bootStart ++ [0])).append [0, 0, 0], 3) := rfl
    rw [hzeros, append_ofList]
    rfl
  simp only [create, createBody, padded, foldlM_cons, foldlM_nil, createOption_f, nil_append,
    show (0 + (bootStart ++ [0]).length) % 2 ^ 64 = 5 from rfl, createOption_four halign,
    bind_eq_bind, bind_some, Option.pure_def, append_ofList, crc32_append _ (bootStart ++ [0])]

/-- The parser rejects an image with padding. -/
theorem create_ignores_padding :
    ∃ img, create host (padded (rootPart 8)) = some img ∧
    (∃ l, locate img = .ok l) ∧ ¬ CrcValid img := by
  have hcreate := create_padded (rootPart 8)
  obtain ⟨img, himg⟩ : ∃ img, img = ofList (bootStart ++ [0, 0, 0, 0] ++ rootPart 8 ++
      (createdTail (crc32 0xffffffff (bootStart ++ [0] ++ rootPart 8))).bytes) := ⟨_, rfl⟩
  rw [← himg] at hcreate
  obtain ⟨-, htail, hlocate, hpayload⟩ := @locate_rootPart [0, 0, 0, 0] _ 8 rfl (by decide) _ himg
  refine ⟨img, hcreate, ⟨_, hlocate⟩, fun hvalid => ?_⟩
  have hcrc := crcValid_iff.1 hvalid ⟨_, hlocate⟩
  obtain ⟨rest, hrest⟩ : ∃ rest, rest = rootPart 8 := ⟨_, rfl⟩
  rw [← hrest] at hpayload hcreate
  have hcontents : contents (padded rest) = bootStart ++ [0] ++ rest := by
    simp only [contents, padded, flatMap_cons, flatMap_nil, Opt.content, append_assoc,
      append_nil, nil_append]
  -- the rootfs is the same in both, and cannot make up for the zeros before it
  rw [htail, create_tail hcreate, hpayload, hcontents, crc32_append,
    crc32_append _ (bootStart ++ [0])] at hcrc
  have hstart := crc_injective crc32Tbl_injective hcrc
  revert hstart
  decide

end SourceMaster.Bcm4908
