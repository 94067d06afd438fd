import Mathlib.Algebra.Group.Nat.Defs
import Mathlib.Data.List.Basic
import Mathlib.Data.List.Range

/-!
# Buffers of bytes

A buffer is a function from offsets to values of which only the low eight bits count. The module has
what a table format is made of: little-endian 32-bit words, fields of two bits packed into bytes,
and the reflected CRC-32 as a fold over the bytes.
-/

namespace Bytes

def byteOf (w k : Nat) : Nat := w / 256 ^ k % 256

lemma byteOf_lt (w k : Nat) : byteOf w k < 256 := Nat.mod_lt _ (by decide)

def word32 (f : Nat → Nat) (off : Nat) : Nat :=
  f off % 256 + 256 * (f (off + 1) % 256) + 256 ^ 2 * (f (off + 2) % 256) +
    256 ^ 3 * (f (off + 3) % 256)

lemma word32_lt (f : Nat → Nat) (off : Nat) : word32 f off < 2 ^ 32 := by
  unfold word32
  omega

variable {f g : Nat → Nat} {off len : Nat}

/-- Only the four bytes of the word count. -/
theorem word32_congr (h : ∀ k < 4, f (off + k) = g (off + k)) : word32 f off = word32 g off := by
  unfold word32
  rw [show f off = g off from h 0 (by decide), h 1 (by decide), h 2 (by decide), h 3 (by decide)]

/-! ## Fields of two bits -/

def pack2 (f : Nat → Nat) (k : Nat) : Nat :=
  f (4 * k) + 4 * f (4 * k + 1) + 16 * f (4 * k + 2) + 64 * f (4 * k + 3)

def field2 (g : Nat → Nat) (i : Nat) : Nat := g (i / 4) / 4 ^ (i % 4) % 4

lemma pack2_lt (hf : ∀ i, f i < 4) (k : Nat) : pack2 f k < 256 := by
  have h0 := hf (4 * k)
  have h1 := hf (4 * k + 1)
  have h2 := hf (4 * k + 2)
  have h3 := hf (4 * k + 3)
  unfold pack2
  omega

/-! ## CRC-32 -/

def crcBit (crc : Nat) : Nat :=
  if crc % 2 = 1 then (crc / 2) ^^^ 0xedb88320 else crc / 2

def crcByte (crc byte : Nat) : Nat :=
  crcBit (crcBit (crcBit (crcBit (crcBit (crcBit (crcBit (crcBit (crc ^^^ byte))))))))

/-- `crc32_le`: no inversion before or after. -/
def crc32Le (crc : Nat) (bytes : List Nat) : Nat := bytes.foldl crcByte crc

def slice (f : Nat → Nat) (off len : Nat) : List Nat :=
  (List.range len).map (fun i => f (off + i) % 256)

lemma slice_congr (h : ∀ i < len, f (off + i) = g (off + i)) :
    slice f off len = slice g off len := by
  apply List.map_congr_left
  intro i hi
  rw [h i (List.mem_range.mp hi)]

end Bytes
