import Mathlib.Data.List.GetD
import Mathlib.Data.List.Nodup
import Mathlib.Data.Nat.Bitwise

/-!
# Checksums from a table

A reflected CRC of 32 bits, a byte at a time from a table of 256 words. The checksum of a
concatenation is computed part by part. If the table has different high bytes, no byte makes two
different remainders equal, so a difference in the data that is followed by the same bytes stays
one.
-/

namespace Crc

open Nat List

variable (tbl : List UInt32)

def crcByte (crc : UInt32) (b : UInt8) : UInt32 :=
  tbl.getD ((crc ^^^ b.toUInt32) &&& 0xff).toNat 0 ^^^ (crc >>> 8)

def crc (init : UInt32) (data : List UInt8) : UInt32 := data.foldl (crcByte tbl) init

variable {tbl}

lemma crc_nil (init : UInt32) : crc tbl init [] = init := rfl

lemma crc_append (init : UInt32) (data data' : List UInt8) :
    crc tbl init (data ++ data') = crc tbl (crc tbl init data) data' := foldl_append

structure Injective (tbl : List UInt32) : Prop where
  length : tbl.length = 256
  nodup : (tbl.map fun w => w.toNat / 2 ^ 24).Nodup

lemma toNat_index (crc : UInt32) (b : UInt8) :
    ((crc ^^^ b.toUInt32) &&& 0xff).toNat = (crc.toNat % 256) ^^^ (b.toNat % 256) := by
  exact (and_two_pow_sub_one_eq_mod _ 8).trans (xor_mod_two_pow (n := 8))

/-- The high byte of a step comes from the table. -/
theorem crcByte_high (crc : UInt32) (b : UInt8) : (crcByte tbl crc b).toNat / 2 ^ 24 =
    (tbl.getD ((crc ^^^ b.toUInt32) &&& 0xff).toNat 0).toNat / 2 ^ 24 := by
  have hlow : (crc >>> 8).toNat / 2 ^ 24 = 0 := by
    have hlt := crc.toNat_lt
    have hshift : (crc >>> 8).toNat = crc.toNat / 2 ^ 8 := by
      rw [UInt32.toNat_shiftRight, shiftRight_eq_div_pow]
      rfl
    omega
  rw [crcByte, UInt32.toNat_xor, ← shiftRight_eq_div_pow, shiftRight_xor_distrib,
    shiftRight_eq_div_pow, shiftRight_eq_div_pow, hlow, xor_zero]

lemma crcByte_injective (h : Injective tbl) {crc crc' : UInt32} {b : UInt8}
    (heq : crcByte tbl crc b = crcByte tbl crc' b) : crc = crc' := by
  have hlt (crc : UInt32) : ((crc ^^^ b.toUInt32) &&& 0xff).toNat < tbl.length := by
    rw [h.length, UInt32.toNat_and]
    exact lt_succ_of_le and_le_right
  have hhigh := congrArg (fun w => w.toNat / 2 ^ 24) heq
  rw [crcByte_high, crcByte_high, getD_eq_getElem _ _ (hlt crc), getD_eq_getElem _ _ (hlt crc')]
    at hhigh
  have hindex : ((crc ^^^ b.toUInt32) &&& 0xff).toNat = ((crc' ^^^ b.toUInt32) &&& 0xff).toNat := by
    have hmap (crc : UInt32) :
      ((crc ^^^ b.toUInt32) &&& 0xff).toNat < (tbl.map fun w => w.toNat / 2 ^ 24).length := by
      rw [length_map]
      exact hlt crc
    refine (@List.Nodup.getElem_inj_iff _ _ h.nodup _ (hmap crc) _ (hmap crc')).1 ?_
    rw [getElem_map, getElem_map]
    exact hhigh
  have hshift : crc >>> 8 = crc' >>> 8 := by
    unfold crcByte at heq
    rw [hindex] at heq
    exact UInt32.xor_right_inj _ |>.1 heq
  rw [toNat_index, toNat_index, xor_left_inj] at hindex
  have hdiv : crc.toNat / 2 ^ 8 = crc'.toNat / 2 ^ 8 := by
    have hnat := congrArg UInt32.toNat hshift
    rw [UInt32.toNat_shiftRight, UInt32.toNat_shiftRight, shiftRight_eq_div_pow,
      shiftRight_eq_div_pow] at hnat
    exact hnat
  refine UInt32.toNat_inj.1 ?_
  omega

lemma crc_injective (h : Injective tbl) {init init' : UInt32} {data : List UInt8}
    (heq : crc tbl init data = crc tbl init' data) : init = init' := by
  induction data generalizing init init' with
  | nil => exact heq
  | cons b data ih => exact crcByte_injective h (ih heq)

end Crc
