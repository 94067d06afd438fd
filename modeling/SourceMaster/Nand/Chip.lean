import Mathlib.Algebra.Group.Nat.Defs
import Mathlib.Logic.Function.Basic

/-!
# The NAND chip under the bad-block managers

The three managers see the chip through the callbacks of the MTD layer: read, write (data and the
spare bytes of a page), erase, and the bad-block mark. A chip is the contents of its blocks and the
marks. It counts the operations, and `Faults` says what the operation at each point in time does. A
failing erase or write may leave anything in its own block or page. In `trace` the chip remembers
what the erases and writes have left.
-/

namespace SourceMaster.Nand

open Function

structure Block where
  data : Nat → Nat
  oob : Nat → Nat → Nat

def Block.erased : Block := ⟨fun _ => 0xff, fun _ _ => 0xff⟩

def Block.program (blk : Block) (off len : Nat) (dat : Nat → Nat) : Block :=
  { blk with data := fun i => if off ≤ i ∧ i < off + len then dat (i - off) else blk.data i }

def Block.programOob (blk : Block) (page off : Nat) (dat : List Nat) : Block :=
  { blk with oob := fun p i =>
      if p = page ∧ off ≤ i then dat.getD (i - off) (blk.oob p i) else blk.oob p i }

/-- What `_read_oob` returns: corrected bit flips, `-EUCLEAN`, `-EBADMSG`, or another error. -/
inductive ReadResult where
  | ok (bitflips : Nat)
  | euclean
  | badmsg
  | error
  deriving DecidableEq, Repr

def ReadResult.isOk : ReadResult → Bool
  | .ok _ => true
  | _ => false

/-- What the operation at each time does: `none` if it succeeds, otherwise the contents left in the
block. -/
structure Faults where
  erase : Nat → Option Block
  write : Nat → Option Block
  read : Nat → ReadResult
  /-- What a page write that reports no error leaves instead of the data. -/
  flip : Nat → Option Block

def Faults.none : Faults := ⟨fun _ => .none, fun _ => .none, fun _ => .ok 0, fun _ => .none⟩

structure Chip where
  block : Nat → Block
  /-- The bad-block marks, as `_block_isbad` reports them. -/
  isBad : Nat → Bool
  clock : Nat
  /-- The blocks that were erased or written, in this order, with their new contents. -/
  trace : List (Nat × Block)

namespace Chip

variable (F : Faults) (c : Chip)

def set (b : Nat) (blk : Block) : Chip :=
  { c with block := update c.block b blk, clock := c.clock + 1, trace := c.trace ++ [(b, blk)] }

def erase (b : Nat) : Bool × Chip :=
  match F.erase c.clock with
  | none => (true, c.set b .erased)
  | some junk => (false, c.set b junk)

def write (b : Nat) (prog : Block → Block) : Bool × Chip :=
  match F.write c.clock with
  | none => (true, c.set b (prog (c.block b)))
  | some junk => (false, c.set b junk)

def writePage (b off len : Nat) (dat : Nat → Nat) : Bool × Chip :=
  match F.write c.clock with
  | some junk => (false, c.set b ((c.block b).program off len (fun i => junk.data (off + i))))
  | none =>
    match F.flip c.clock with
    | some junk => (true, c.set b ((c.block b).program off len (fun i => junk.data (off + i))))
    | none => (true, c.set b ((c.block b).program off len dat))

def read : ReadResult × Chip := (F.read c.clock, { c with clock := c.clock + 1 })

def markBad (b : Nat) : Chip :=
  { c with isBad := update c.isBad b true, clock := c.clock + 1 }

variable {F c}

variable (b : Nat) (prog : Block → Block) (blk : Block)

@[simp] lemma set_block_self : (c.set b blk).block b = blk := update_self ..

lemma set_block_of_ne {b b' : Nat} (h : b' ≠ b) (blk : Block) :
    (c.set b blk).block b' = c.block b' :=
  update_of_ne h ..

lemma erase_block_of_ne {b b' : Nat} (h : b' ≠ b) : (c.erase F b).2.block b' = c.block b' := by
  unfold erase
  cases F.erase c.clock <;> exact set_block_of_ne h _

@[simp] lemma erase_isBad : (c.erase F b).2.isBad = c.isBad := by
  unfold erase
  cases F.erase c.clock <;> rfl

@[simp] lemma erase_clock : (c.erase F b).2.clock = c.clock + 1 := by
  unfold erase
  cases F.erase c.clock <;> rfl

lemma erase_block_self {b : Nat} (h : (c.erase F b).1) : (c.erase F b).2.block b = .erased := by
  unfold erase at h ⊢
  cases hf : F.erase c.clock with
  | none => simp
  | some junk => simp [hf] at h

lemma write_block_of_ne {b b' : Nat} {prog : Block → Block} (h : b' ≠ b) :
    (c.write F b prog).2.block b' = c.block b' := by
  unfold write
  cases F.write c.clock <;> exact set_block_of_ne h _

@[simp] lemma write_clock : (c.write F b prog).2.clock = c.clock + 1 := by
  unfold write
  cases F.write c.clock <;> rfl

lemma write_block_self {b : Nat} {prog : Block → Block} (h : (c.write F b prog).1) :
    (c.write F b prog).2.block b = prog (c.block b) := by
  unfold write at h ⊢
  cases hf : F.write c.clock with
  | none => simp
  | some junk => simp [hf] at h

lemma erase_of_none (h : F.erase c.clock = none) (b : Nat) : c.erase F b =
    (true, c.set b .erased) := by
  unfold erase
  rw [h]

lemma write_of_none (h : F.write c.clock = none) (b : Nat) (prog : Block → Block) :
    c.write F b prog = (true, c.set b (prog (c.block b))) := by
  unfold write
  rw [h]

end Chip

end SourceMaster.Nand
