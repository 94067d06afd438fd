import SourceMaster.Lib.Memory
import SourceMaster.Lib.Padding

/-!
# Writing an image to flash

`mtd_write` of `mtd.c` copies an image block by block to a device, or to a list of devices: when a
block cannot be erased, it goes on with the next device. Blocks that are marked bad are skipped. The
calls of the kernel that change a device do not depend on what is stored there, so a run is the list
of these calls, which `Op.apply` then performs on the memory.

The replacement of jffs2 data (`-j`), writing without erasing (`-n`), the FIS table and the recovery
flag are not part of this.
-/

namespace SourceMaster.Mtd

open Memory Padding

/-! ## Devices -/

/-- A flash device. A block may be marked as bad, and erasing or writing it may fail. -/
structure Device where
  nand : Bool
  erasesize : Nat
  blocks : Nat
  bad : Nat → Bool
  worn : Nat → Bool
  faulty : Nat → Bool
  erasesize_pos : 0 < erasesize
  -- `mtdsize` is an `int`
  size_lt : erasesize * blocks < 2 ^ 31
  bad_nand : ∀ b, bad b → nand

def Device.mtdsize (d : Device) : Nat := d.erasesize * d.blocks

inductive Op
  | erase (dev start size : Nat)
  | write (dev pos : Nat) (data : List UInt8)
deriving DecidableEq, Repr

abbrev Flash := Nat → Nat → UInt8

/-- Erasing sets all bits, and writing clears some. -/
def Op.apply (mem : Flash) : Op → Flash
  | .erase dev start size => fun k i =>
    if k = dev ∧ start ≤ i ∧ i < start + size then 0xff else mem k i
  | .write dev pos data => fun k i =>
    if k = dev ∧ pos ≤ i ∧ i < pos + data.length then mem k i &&& data.getD (i - pos) 0 else mem k i

section

variable (d : Device)

/-- `mtd_block_is_bad`; an offset behind the device ends the program. -/
def mtdBlockIsBad (offset : Nat) : Option Bool :=
  if !d.nand then some false
  else if offset < d.mtdsize then some (d.bad (offset / d.erasesize)) else none

/-- Whether `mtd_erase_block` succeeds. The offset is passed to the kernel in 32 bits. -/
def mtdEraseBlock (offset : Nat) : Bool :=
  let start := offset % 2 ^ 32
  start % d.erasesize = 0 && start + d.erasesize ≤ d.mtdsize && !d.bad (start / d.erasesize) &&
    !d.worn (start / d.erasesize)

def write (pos n : Nat) : Option Nat :=
  let count := min n (d.mtdsize - pos)
  if d.mtdsize ≤ pos then none
  else if (List.range d.blocks).any fun b =>
      d.faulty b && b * d.erasesize < pos + count && pos < (b + 1) * d.erasesize then none
  else some count

/-- The position after `lseek`, which fails behind the device. -/
def lseek (pos target : Nat) : Nat := if target ≤ d.mtdsize then target else pos

end

/-! ## The image -/

inductive Fault
  | interrupted
  | error
  | short (n : Nat)
deriving DecidableEq, Repr

/-- The buffer, with what has been read, and the rest of the image. -/
structure Input where
  buf : Nat → UInt8
  buflen : Nat
  content : List UInt8
  faults : List Fault

def Input.read (s : Input) (n : Nat) : Input :=
  { s with
    buf := put s.buf s.buflen (s.content.take n)
    buflen := s.buflen + (s.content.take n).length
    content := s.content.drop n }

/-- The loop that fills the buffer. After an error it goes on as at the end of the image. -/
def fillBuf (erasesize : Nat) : List Fault → Input → Input
  | [], s => { s.read (erasesize - s.buflen) with faults := [] }
  | fault :: faults, s =>
    if erasesize ≤ s.buflen then { s with faults := fault :: faults }
    else
      match fault with
      | .interrupted => fillBuf erasesize faults s
      | .error => { s with faults }
      | .short n =>
        if s.content = [] then { s with faults }
        else fillBuf erasesize faults (s.read (min (n + 1) (erasesize - s.buflen)))

def padBuf (erasesize : Nat) (s : Input) : Input :=
  if s.buflen < erasesize then
    { s with buf := put s.buf s.buflen (List.replicate
      (erasesize - s.buflen) 0xff), buflen := erasesize }
  else s

/-! ## `mtd_write` -/

structure Writer where
  input : Input
  dev : Nat := 0
  pos : Nat := 0
  w : Nat := 0
  e : Nat := 0
  skipBadBlocks : Nat := 0
  offset : Nat := 0
  ops : List Op := []

inductive Erased
  | ready (s : Writer)
  | failed (s : Writer)
  | exited
  | stuck

def eraseLoop (d : Device) (partOffset : Nat) : Nat → Writer → Erased
  | 0, _ => .stuck
  | fuel + 1, s =>
    if s.w + s.input.buflen + s.skipBadBlocks ≤ s.e then .ready s
    else
      match mtdBlockIsBad d s.e with
      | none => .exited
      | some true =>
        eraseLoop d partOffset fuel
          { s with
            skipBadBlocks := s.skipBadBlocks + d.erasesize
            e := s.e + d.erasesize
            pos := lseek d s.pos (s.pos + d.erasesize) }
      | some false =>
        if mtdEraseBlock d (s.e + partOffset) then
          eraseLoop d partOffset fuel
            { s with
              e := s.e + d.erasesize
              ops := s.ops ++ [.erase s.dev ((s.e + partOffset) % 2 ^ 32) d.erasesize] }
        else .failed s

variable (s : Writer)

def Writer.data (n : Nat) : List UInt8 := slice s.input.buf s.offset n

inductive Outcome
  | returned (ops : List Op)
  | exited
  | stuck
deriving DecidableEq, Repr

def Writer.wrote : Writer :=
  { s with
    pos := s.pos + s.input.buflen
    w := s.w + s.input.buflen
    offset := 0
    input := { s.input with buflen := 0 }
    ops := s.ops ++ [.write s.dev s.pos (s.data s.input.buflen)] }

def openPos (d : Device) (partOffset : Nat) : Nat := lseek d 0 partOffset

/-- Before a device is left, what was erased is written, whether that works or not. -/
def Writer.flush (d : Device) : Writer :=
  if s.w < s.e then
    { s with
      offset := s.e - s.w
      ops := match write d s.pos (s.e - s.w) with
        | none => s.ops
        | some n => s.ops ++ [.write s.dev s.pos ((s.data (s.e - s.w)).take n)] }
  else s

def Writer.switch (d : Device) (partOffset : Nat) : Writer :=
  { s with w := 0, e := 0, dev := s.dev + 1, pos := openPos d partOffset }

def writeLoop (partOffset : Nat) : Nat → Device → List Device → Writer → Outcome
  | 0, _, _, _ => .stuck
  | fuel + 1, d, next, s =>
    let input := fillBuf d.erasesize s.input.faults s.input
    if input.buflen = 0 then .returned s.ops
    else
      let s := { s with input := padBuf d.erasesize input }
      let target := s.w + s.input.buflen + s.skipBadBlocks
      match eraseLoop d partOffset (d.blocks + (target - s.e) + 2) s with
      | .stuck => .stuck
      | .exited => .exited
      | .ready s =>
        match write d s.pos s.input.buflen with
        | none => .exited
        | some n =>
          if n < s.input.buflen then .exited else writeLoop partOffset fuel d next s.wrote
      | .failed s =>
        match next with
        | [] => .exited
        | d' :: next => writeLoop partOffset fuel d' next ((s.flush d).switch d' partOffset)

/-- `mtd_write` to a device and those that follow it in the list. -/
def mtdWrite (d : Device) (next : List Device) (partOffset : Nat) (input : Input) : Outcome :=
  writeLoop partOffset (input.content.length + next.length + 2) d next
    { input, pos := openPos d partOffset }

end SourceMaster.Mtd
