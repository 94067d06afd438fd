import Mathlib.Algebra.Order.Ring.Int
import Mathlib.Data.Fin.Basic
import Mathlib.Data.List.FinRange
import SourceMaster.Lib.Blocks
import SourceMaster.Lib.Runs

/-!
# Encrypted messages of the emergency access daemon

`ead-crypt.c` is shared by the daemon and its client. A message is padded to blocks of 64 bytes and
gets a vector and a hash before it is encrypted in place. The vectors of one side grow by one to
four each; a receiver takes a message if its vector is at most 128 above that of the last one it
took.

AES and SHA-1 are parameters (`Primitives`), of which only that decryption undoes encryption is
assumed.
-/

namespace SourceMaster.Ead

open Blocks Runs Function UInt32

/-! ## `ead-crypt.c` -/

abbrev Mem := Nat → UInt8

abbrev Digest := Fin 5 → UInt32

/-- AES with a key of 32 bytes, and SHA-1. -/
structure Primitives where
  rijndaelEncrypt : (Fin 32 → UInt8) → (Fin 16 → UInt8) → Fin 16 → UInt8
  rijndaelDecrypt : (Fin 32 → UInt8) → (Fin 16 → UInt8) → Fin 16 → UInt8
  shaInit : Digest
  shaTransform : Digest → (Fin 64 → UInt8) → Digest
  decrypt_encrypt : ∀ key b, rijndaelDecrypt key (rijndaelEncrypt key b) = b

/-- The static variables; the two AES contexts are made from one key. -/
structure Crypt where
  key : Fin 32 → UInt8
  rxIv : UInt32
  txIv : UInt32
  ivofsVec : UInt32
  ivofsIdx : Fin 16

/-- `msg->len` in host order, and the memory from `enc` on. -/
structure Msg where
  len : UInt32
  enc : Mem

def EAD_ENC_PAD : UInt32 := 64
def EAD_MAX_IV_INCR : UInt32 := 128

/-- `sizeof(struct ead_msg_encrypted)`, with `hash` at 0, `iv` at 20 and `pad` at 24. -/
def sizeofEncrypted : UInt32 := 25

/-- An unsigned number taken as an `int`. -/
def int (x : UInt32) : Int := if x.toNat < 2 ^ 31 then x.toNat else x.toNat - 2 ^ 32

def getWord (mem : Mem) (off : Nat) : UInt32 :=
  .ofNat ((mem off).toNat * 256 ^ 3 + (mem (off + 1)).toNat * 256 ^ 2 +
    (mem (off + 2)).toNat * 256 + (mem (off + 3)).toNat)

def hostWord (bigEndian : Bool) (mem : Mem) (off : Nat) : UInt32 :=
  if bigEndian then getWord mem off else getWord (fun i => mem (2 * off + 3 - i)) off

/-- Stores `htonl(w)`. -/
def putWord (w : UInt32) (off : Nat) (mem : Mem) : Mem := fun i =>
  if off ≤ i ∧ i < off + 4 then .ofNat (w.toNat / 256 ^ (off + 3 - i)) else mem i

def eadSetKey (bigEndian : Bool) (skey : Mem) (c : Crypt) : Crypt :=
  -- the highest byte is cleared to avoid an overflow
  let iv := getWord skey 32 &&& 0x00ffffff
  { c with
    key := fun i => skey i
    rxIv := iv
    txIv := iv
    ivofsVec := hostWord bigEndian skey 36 }

def eadCheckRxIv (c : Crypt) (iv : UInt32) : Bool × Crypt :=
  if iv ≤ c.rxIv then (false, c)
  else if c.rxIv + EAD_MAX_IV_INCR < iv then (false, c)
  else (true, { c with rxIv := iv })

def eadGetTxIv (c : Crypt) : UInt32 × Crypt :=
  let ofs : UInt32 := 1 + (c.ivofsVec >>> ofNat (2 * c.ivofsIdx) &&& 0x3)
  let c := { c with ivofsIdx := c.ivofsIdx + 1, txIv := c.txIv + ofs }
  (c.txIv, c)

def noKey : Crypt := ⟨fun _ => 0, 0, 0, 0, 0⟩

/-- How often a loop runs that takes `size` off `len` while `len` is positive. -/
def rounds (len : Int) (size : Nat) : Nat := ((len + size - 1) / size).toNat

def clearHash (enc : Mem) : Mem := fun i => if i < 20 then 0 else enc i

section

variable (P : Primitives)

/-- `ead_hash_message`, with the message in which the stored hash is cleared. -/
def eadHashMessage (enc : Mem) (len : Int) : Digest × Mem :=
  let enc := clearHash enc
  (foldBlocks P.shaTransform (rounds len 64) enc P.shaInit, enc)

def putHash (hash : Digest) (enc : Mem) : Mem :=
  (List.finRange 5).foldl (fun enc i => putWord (hash i) (4 * i) enc) enc

def getHash (enc : Mem) : Digest := fun i => getWord enc (4 * i)

def eadEncryptMessage (c : Crypt) (enc : Mem) (len : UInt32) : Crypt × Msg :=
  let len := len + sizeofEncrypted
  let pad := (EAD_ENC_PAD - len % EAD_ENC_PAD) % EAD_ENC_PAD
  let enc := update enc 24 pad.toUInt8
  let enclen := int (len + pad)
  let (iv, c) := eadGetTxIv c
  let enc := putWord iv 20 enc
  let (hash, enc) := eadHashMessage P enc enclen
  let enc := putHash hash enc
  (c, ⟨len + pad, mapBlocks (P.rijndaelEncrypt c.key) (rounds enclen 16) enc⟩)

/-- The checks of `ead_decrypt_message` on the decrypted message, with the message after them. -/
def eadCheckMessage (c : Crypt) (len : UInt32) (enc : Mem) : Int × Crypt × Mem :=
  if EAD_ENC_PAD ≤ (enc 24).toUInt32 then (0, c, enc)
  else if !(eadCheckRxIv c (getWord enc 20)).1 then (0, (eadCheckRxIv c (getWord enc 20)).2, enc)
  else if ¬ ∀ i, getHash enc i = (eadHashMessage P enc (int len)).1 i then
    (0, (eadCheckRxIv c (getWord enc 20)).2, (eadHashMessage P enc (int len)).2)
  else
    (int (len - ((enc 24).toUInt32 + sizeofEncrypted)), (eadCheckRxIv c (getWord enc 20)).2,
      (eadHashMessage P enc (int len)).2)

def eadDecryptMessage (c : Crypt) (msg : Msg) : Int × Crypt × Mem :=
  if int msg.len = 0 ∨ 0 < (int msg.len).tmod 64 then (0, c, msg.enc)
  else
    eadCheckMessage P c msg.len
      (mapBlocks (P.rijndaelDecrypt c.key) (rounds (int msg.len) 16) msg.enc)

end

/-! ## Fields of a message -/

variable {w : UInt32} (enc : Mem) {off i : Nat} (mem : Mem)

lemma getWord_congr {mem mem' : Mem} (h : ∀ i, off ≤ i → i < off + 4 → mem i = mem' i) :
    getWord mem off = getWord mem' off := by
  unfold getWord
  rw [h off (by omega) (by omega), h (off + 1) (by omega) (by omega),
    h (off + 2) (by omega) (by omega), h (off + 3) (by omega) (by omega)]

lemma getWord_putWord (w : UInt32) (off : Nat) (mem : Mem) :
    getWord (putWord w off mem) off = w := by
  have hw := w.toNat_lt
  have hbyte : ∀ k < 4, (putWord w off mem (off + k)).toNat = w.toNat / 256 ^ (3 - k) % 256 := by
    intro k hk
    rw [putWord, if_pos (by omega), UInt8.toNat_ofNat', show off + 3 - (off + k) = 3 - k by omega]
  have h0 : (putWord w off mem off).toNat = _ := hbyte 0 (by decide)
  unfold getWord
  rw [h0, hbyte 1 (by decide), hbyte 2 (by decide), hbyte 3 (by decide), ← UInt32.toNat_inj,
    toNat_ofNat']
  omega

lemma putWord_of_not (h : i < off ∨ off + 4 ≤ i) : putWord w off mem i = mem i :=
    if_neg (by omega)

lemma getWord_putWord_of_ne {off' : Nat} (h : off' + 4 ≤ off ∨ off + 4 ≤ off') :
    getWord (putWord w off mem) off' = getWord mem off' :=
  getWord_congr fun i _ _ => putWord_of_not mem (by omega)

lemma putHash_eq (hash : Digest) (enc : Mem) : putHash hash enc = putWord (hash 4) 16
    (putWord (hash 3) 12 (putWord (hash 2) 8 (putWord (hash 1) 4 (putWord (hash 0) 0 enc)))) := rfl

lemma getHash_putHash (hash : Digest) (enc : Mem) : getHash (putHash hash enc) = hash := by
  funext i
  rw [getHash, putHash_eq]
  match i with
  | 0 =>
    iterate 4 rw [getWord_putWord_of_ne _ (by decide)]
    exact getWord_putWord ..
  | 1 =>
    iterate 3 rw [getWord_putWord_of_ne _ (by decide)]
    exact getWord_putWord ..
  | 2 =>
    iterate 2 rw [getWord_putWord_of_ne _ (by decide)]
    exact getWord_putWord ..
  | 3 =>
    rw [getWord_putWord_of_ne _ (by decide)]
    exact getWord_putWord ..
  | 4 => exact getWord_putWord ..

lemma putHash_of_le {hash : Digest} {enc : Mem} (h : 20 ≤ i) : putHash hash enc i = enc i := by
  rw [putHash_eq]
  iterate 5 rw [putWord_of_not _ (by omega)]

lemma clearHash_putHash (hash : Digest) (enc : Mem) :
    clearHash (putHash hash enc) = clearHash enc := by
  funext i
  unfold clearHash
  split
  next => rfl
  next h => exact putHash_of_le (by omega)

lemma clearHash_clearHash : clearHash (clearHash enc) = clearHash enc := by
  funext i
  unfold clearHash
  split <;> rfl

/-! ## Lengths -/

section

variable (len : UInt32)

def padOf : UInt32 := (EAD_ENC_PAD - (len + sizeofEncrypted) % EAD_ENC_PAD) % EAD_ENC_PAD

def encLen : UInt32 := len + sizeofEncrypted + padOf len

variable {len}

lemma padOf_toNat : (padOf len).toNat = (64 - (len.toNat + 25) % 2 ^ 32 % 64) % 64 := by
  unfold padOf EAD_ENC_PAD sizeofEncrypted
  rw [UInt32.toNat_mod, UInt32.toNat_sub, UInt32.toNat_mod, UInt32.toNat_add]
  simp only [reduceToNat]
  omega

variable (hlen : len.toNat < 2 ^ 31)
include hlen

lemma encLen_toNat : (encLen len).toNat = len.toNat + 25 + (padOf len).toNat := by
  have hpad := @padOf_toNat len
  unfold encLen sizeofEncrypted
  rw [UInt32.toNat_add, UInt32.toNat_add]
  simp only [reduceToNat]
  omega

lemma encLen_mod : (encLen len).toNat % 64 = 0 := by
  have hpad := @padOf_toNat len
  rw [encLen_toNat hlen]
  omega

end

variable {x : UInt32}

lemma rounds_le {size : Nat} (hsize : 0 < size) (h : x.toNat % size = 0) :
    size * rounds (int x) size ≤ x.toNat := by
  have hx := x.toNat_lt
  unfold rounds int
  split
  next =>
    -- a multiple of the size
    obtain ⟨k, hk⟩ := Nat.dvd_of_mod_eq_zero h
    have hdiv : ((x.toNat : Int) + size - 1) / size = k := by
      rw [hk]
      push_cast
      rw [Int.add_sub_assoc, Int.mul_add_ediv_left _ _ (by omega),
        Int.ediv_eq_zero_of_lt (by omega) (by omega), Int.add_zero]
    rw [hdiv, Int.toNat_natCast, hk]
  next =>
    have hneg : ((x.toNat : Int) - 2 ^ 32 + size - 1) / size < 1 :=
      Int.ediv_lt_of_lt_mul (by omega) (by omega)
    rw [Int.toNat_of_nonpos (by omega)]
    exact Nat.zero_le _

lemma int_ne_zero (h : 0 < x.toNat) : int x ≠ 0 := by
  have hx := x.toNat_lt
  unfold int
  split <;> omega

lemma int_tmod (h : x.toNat % 64 = 0) : ¬ 0 < (int x).tmod 64 := by
  have hdvd : (64 : Int) ∣ int x := by
    unfold int
    split <;> omega
  rw [Int.tmod_eq_zero_of_dvd hdvd]
  exact Int.lt_irrefl 0

lemma int_of_lt (h : x.toNat < 2 ^ 31) : int x = x.toNat := if_pos h

/-! ## A message comes back -/

def sealed (P : Primitives) (enc : Mem) (len iv : UInt32) : Mem :=
  let enc := putWord iv 20 (update enc 24 (padOf len).toUInt8)
  let (hash, enc) := eadHashMessage P enc (int (encLen len))
  putHash hash enc

section

variable {P : Primitives} {enc : Mem} {len iv : UInt32}

lemma sealed_of_le {i : Nat} (h : 20 ≤ i) :
    sealed P enc len iv i = putWord iv 20 (update enc 24 (padOf len).toUInt8) i :=
  (putHash_of_le h).trans (if_neg (Nat.not_lt_of_ge h))

lemma sealed_pad : (sealed P enc len iv 24).toUInt32 = padOf len := by
  have hpad := @padOf_toNat len
  rw [sealed_of_le (by decide), putWord_of_not _ (by decide), update_self, ← UInt32.toNat_inj,
    UInt8.toNat_toUInt32, toNat_toUInt8]
  omega

lemma getWord_sealed : getWord (sealed P enc len iv) 20 = iv := by
  rw [getWord_congr fun i hi _ => sealed_of_le hi]
  exact getWord_putWord ..

lemma sealed_data (i : Nat) : sealed P enc len iv (25 + i) = enc (25 + i) := by
  rw [sealed_of_le (by omega), putWord_of_not _ (by omega), update_of_ne (by omega)]

lemma getHash_sealed : getHash (sealed P enc len iv) =
    (eadHashMessage P (sealed P enc len iv) (int (encLen len))).1 := by
  unfold sealed eadHashMessage
  rw [getHash_putHash, clearHash_putHash, clearHash_clearHash]

lemma eadHashMessage_congr (P : Primitives) {mem mem' : Mem} {x : UInt32}
    (hmod : x.toNat % 64 = 0) (h : ∀ i < x.toNat, mem i = mem' i) :
    (eadHashMessage P mem (int x)).1 = (eadHashMessage P mem' (int x)).1 := by
  have hle := rounds_le (by decide) hmod
  unfold eadHashMessage
  apply foldBlocks_congr
  intro i hi
  unfold clearHash
  rw [h i (by omega)]

lemma encLen_sub (hlen : len.toNat < 2 ^ 31) :
    int (encLen len - (padOf len + sizeofEncrypted)) = len.toNat := by
  have htotal := encLen_toNat hlen
  have h25 : sizeofEncrypted.toNat = 25 := rfl
  have hsub : encLen len - (padOf len + sizeofEncrypted) = len := by
    rw [← UInt32.toNat_inj, UInt32.toNat_sub, UInt32.toNat_add, h25]
    omega
  rw [hsub, int_of_lt hlen]

lemma not_le_padOf : ¬ EAD_ENC_PAD ≤ padOf len := by
  have hnat := @padOf_toNat len
  have h64 : EAD_ENC_PAD.toNat = 64 := rfl
  rw [UInt32.not_le, UInt32.lt_iff_toNat_lt]
  omega

end

variable {P : Primitives} {c : Crypt} {iv : UInt32} {r : Crypt} {len : UInt32} {d : Msg}

lemma eadCheckRxIv_of_false (h : (eadCheckRxIv c iv).1 = false) : (eadCheckRxIv c iv).2 = c := by
  unfold eadCheckRxIv at h ⊢
  split_ifs at h ⊢
  · rfl
  · rfl

lemma eadCheckRxIv_of_true (h : (eadCheckRxIv c iv).1) :
    (eadCheckRxIv c iv).2 = { c with rxIv := iv } := by
  unfold eadCheckRxIv at h ⊢
  split_ifs at h ⊢
  rfl

section

variable (P : Primitives)

def Msg.plain (d : Msg) (key : Fin 32 → UInt8) : Mem :=
  mapBlocks (P.rijndaelDecrypt key) (rounds (int d.len) 16) d.enc

def Msg.vector (d : Msg) (key : Fin 32 → UInt8) : UInt32 := getWord (d.plain P key) 20

/-- The message gets as far as its hash: its length, its padding and its vector are taken. -/
structure Msg.Reaches (P : Primitives) (d : Msg) (c : Crypt) : Prop where
  size : ¬ (int d.len = 0 ∨ 0 < (int d.len).tmod 64)
  pad : (d.plain P c.key 24).toUInt32.toNat < 64
  vector : (eadCheckRxIv c (d.vector P c.key)).1

def Msg.HashOk (d : Msg) (key : Fin 32 → UInt8) : Prop :=
  ∀ i, getHash (d.plain P key) i = (eadHashMessage P (d.plain P key) (int d.len)).1 i

/-- A message that does not get as far as its hash changes nothing; any other one sets the
vector. -/
theorem eadDecryptMessage_cases (c : Crypt) (d : Msg) :
    (¬ d.Reaches P c ∧ ∃ mem, eadDecryptMessage P c d = (0, c, mem)) ∨
      (d.Reaches P c ∧ ∃ ret iv mem, iv = d.vector P c.key ∧
      eadDecryptMessage P c d = (ret, { c with rxIv := iv }, mem) ∧
        (d.HashOk P c.key → ret = int (d.len - ((d.plain P c.key 24).toUInt32 + sizeofEncrypted))) ∧
        (¬ d.HashOk P c.key → ret = 0)) := by
  unfold eadDecryptMessage
  by_cases hsize : int d.len = 0 ∨ 0 < (int d.len).tmod 64
  · rw [if_pos hsize]
    exact .inl ⟨fun h => h.size hsize, _, rfl⟩
  rw [if_neg hsize]
  show _ ∧ (∃ mem, eadCheckMessage P c d.len (d.plain P c.key) = _) ∨
    _ ∧ ∃ ret iv mem, _ ∧ eadCheckMessage P c d.len (d.plain P c.key) = _ ∧ _
  unfold eadCheckMessage
  by_cases hpad : EAD_ENC_PAD ≤ (d.plain P c.key 24).toUInt32
  · rw [if_pos hpad]
    exact .inl ⟨fun h => absurd h.pad (Nat.not_lt.2 hpad), _, rfl⟩
  have hlt : (d.plain P c.key 24).toUInt32.toNat < 64 := Nat.not_le.1 hpad
  rw [if_neg hpad, show getWord (d.plain P c.key) 20 = d.vector P c.key from rfl]
  cases hiv : (eadCheckRxIv c (d.vector P c.key)).1 with
  | false =>
    rw [Bool.not_false, if_pos rfl, eadCheckRxIv_of_false hiv]
    exact .inl ⟨fun h => absurd h.vector (by rw [hiv]; decide), _, rfl⟩
  | true =>
    rw [Bool.not_true, if_neg Bool.false_ne_true, eadCheckRxIv_of_true hiv]
    refine .inr ⟨⟨hsize, hlt, hiv⟩, ?_⟩
    by_cases hhash : d.HashOk P c.key
    · exact ⟨_, _, _, rfl, if_neg (not_not.2 hhash), fun _ => rfl, fun h => absurd hhash h⟩
    · exact ⟨_, _, _, rfl, if_pos hhash, fun h => absurd h hhash, fun _ => rfl⟩

end

/-- What arrives if a message is delivered unmodified; the memory behind it may differ. -/
structure Msg.IsCopy (d msg : Msg) : Prop where
  len : d.len = msg.len
  enc : ∀ i < msg.len.toNat, d.enc i = msg.enc i

lemma decrypted_copy {enc : Mem} (hkey : r.key = c.key) (hlen : len.toNat < 2 ^ 31)
    (hd : d.IsCopy (eadEncryptMessage P c enc len).2) {i : Nat} (hi : i < (encLen len).toNat) :
    mapBlocks (P.rijndaelDecrypt r.key) (rounds (int d.len) 16) d.enc i =
      sealed P enc len (eadGetTxIv c).1 i := by
  have hmod := encLen_mod hlen
  have hdlen : d.len = encLen len := hd.len
  have hdenc : ∀ i < (encLen len).toNat, d.enc i = mapBlocks (P.rijndaelEncrypt c.key)
      (rounds (int (encLen len)) 16) (sealed P enc len (eadGetTxIv c).1) i := hd.enc
  rw [hdlen, mapBlocks_congr _ hdenc (rounds_le (by decide) (by omega)) hi, hkey,
    mapBlocks_mapBlocks (P.decrypt_encrypt c.key)]

lemma eadDecryptMessage_copy {enc : Mem} (hkey : r.key = c.key) (hlen : len.toNat < 2 ^ 31)
    (hd : d.IsCopy (eadEncryptMessage P c enc len).2) :
    ∃ mem : Mem, (∀ i < len.toNat, mem (25 + i) = enc (25 + i)) ∧ eadDecryptMessage P r d =
      if (eadCheckRxIv r (eadGetTxIv c).1).1 then
        ((len.toNat : Int), (eadCheckRxIv r (eadGetTxIv c).1).2, mem) else (0, r, mem) := by
  have htotal := encLen_toNat hlen
  have hmod := encLen_mod hlen
  have hdlen : d.len = encLen len := hd.len
  have hplain : ∀ i < (encLen len).toNat,
      mapBlocks (P.rijndaelDecrypt r.key) (rounds (int d.len) 16) d.enc i =
        sealed P enc len (eadGetTxIv c).1 i := fun i hi => decrypted_copy hkey hlen hd hi
  rw [hdlen] at hplain
  generalize hmem : mapBlocks (P.rijndaelDecrypt r.key) (rounds (int (encLen len)) 16) d.enc =
    mem at hplain
  have hpad : (mem 24).toUInt32 = padOf len := by rw [hplain 24 (by omega), sealed_pad]
  have hiv : getWord mem 20 = (eadGetTxIv c).1 := by
    rw [getWord_congr fun i _ hi => hplain i (by omega), getWord_sealed]
  have hhash : ∀ i, getHash mem i = (eadHashMessage P mem (int (encLen len))).1 i := by
    have hold : getHash mem = getHash (sealed P enc len (eadGetTxIv c).1) := by
      funext j
      exact getWord_congr fun i _ hi => hplain i (by omega)
    intro i
    rw [hold, eadHashMessage_congr P hmod hplain, getHash_sealed]
  have hsize : ¬ (int (encLen len) = 0 ∨ 0 < (int (encLen len)).tmod 64) := by
    rw [not_or]
    exact ⟨int_ne_zero (by omega), int_tmod hmod⟩
  have hlt : ¬ EAD_ENC_PAD ≤ (mem 24).toUInt32 := by
    rw [hpad]
    exact not_le_padOf
  rw [eadDecryptMessage, hdlen, if_neg hsize, hmem, eadCheckMessage, if_neg hlt, hiv]
  cases hok : (eadCheckRxIv r (eadGetTxIv c).1).1 with
  | false =>
    refine ⟨mem, fun i hi => by rw [hplain _ (by omega), sealed_data], ?_⟩
    rw [Bool.not_false, if_pos rfl, if_neg Bool.false_ne_true, eadCheckRxIv_of_false hok]
  | true =>
    refine ⟨clearHash mem, fun i hi => ?_, ?_⟩
    · rw [clearHash, if_neg (by omega), hplain _ (by omega), sealed_data]
    · rw [Bool.not_true, if_neg Bool.false_ne_true, if_neg (not_not.2 hhash), hpad, encLen_sub hlen,
        if_pos rfl]
      rfl

end SourceMaster.Ead
