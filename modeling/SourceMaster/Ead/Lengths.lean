import SourceMaster.Ead.Channel
import SourceMaster.Ead.Server

/-!
# Lengths in a message

`handle_packet` compares the length of a frame with the one that the message in it states, and the
handlers take the lengths of what they copy and decrypt from the message. A number without any byte,
not even that for its id, is copied with the length -1; and where `size_t` has 32 bits, the sum in
the comparison overflows (`lengths_fit_iff`).
-/

namespace SourceMaster.Ead

open List

variable {T : Type} (P : Primitives) (host : Host) (inst : Instance) (pkt : Packet)

/-- The checks of `handle_packet` and `parse_message`, with the type of a message that passes
them. -/
def checked (state : EadType) : Option EadType :=
  if pkt.len < sizeofPacket ∨ pkt.etherType ≠ ETHERTYPE_IP ∨ (¬ ∀ i, pkt.dhost i = 0xff) ∨
      pkt.proto ≠ UIP_PROTO_UDP ∨ pkt.destport ≠ EAD_PORT ∨ pkt.magic ≠ EAD_MAGIC ∨
      pkt.len < (sizeofPacket + pkt.msgLen.toNat) % host.sizeMod ∨
        (pkt.nid ≠ 0xffff ∧ pkt.nid ≠ inst.nid) ∨
      (EadType.getPrime.code ≤ int pkt.type ∧ state.code ≠ int pkt.type) ∨
      (int pkt.type ≠ EadType.ping.code ∧ ((pkt.sid &&& 0xf000) >>> 12).toNat ≠ inst.id) then
    none
  else
    (typeOf pkt.type).filter fun type => type.minLen.any (· ≤ pkt.len)

lemma handlePacket_eq (srp : Srp T) (env : Env T) (s : Server T) :
    handlePacket P srp host inst env s pkt =
      match checked host inst pkt s.state with
      | none => (s, [])
      | some type => runHandler P srp host env s pkt type := by
  unfold handlePacket parseMessage checked
  simp only [← ite_or]
  split
  · rfl
  cases typeOf pkt.type with
  | none => rfl
  | some type =>
    rw [Option.filter_some]
    cases hmin : type.minLen with
    | none => simp [hmin]
    | some minLen =>
      obtain hlen | hlen := Nat.lt_or_ge pkt.len minLen
      · simp [hmin, hlen, Nat.not_le.2 hlen]
      · simp [hmin, hlen, Nat.not_lt.2 hlen]

/-- A use of a length: how many bytes, from where in the message, and the room where they go. -/
structure Use where
  len : Int
  offset : Nat
  room : Int
deriving DecidableEq, Repr

structure Use.Fits (u : Use) : Prop where
  nonneg : 0 ≤ u.len
  inFrame : (sizeofPacket + u.offset : Nat) + u.len ≤ pkt.len
  hasRoom : u.len ≤ u.room

/-- The lengths that the handlers use. A message is decrypted in place. -/
def uses (c : Crypt) : EadType → List Use
  | .sendA =>
    let len := int (pkt.msgLen - 1)
    if MAXPARAMLEN + 1 < len then [] else [⟨len, 1, MAXPARAMLEN + 1⟩]
  | .sendCmd =>
    let len := int pkt.msgLen
    let datalen := ((eadDecryptMessage P c ⟨pkt.msgLen, pkt.data⟩).1 - 3).bmod (2 ^ 32)
    (if len = 0 ∨ 0 < len.tmod 64 then [] else [⟨len, 0, (pkt.len - sizeofPacket : Nat)⟩]) ++
      if datalen ≤ 0 then [] else [⟨datalen, 25 + 3, (pkt.len - sizeofPacket - (25 + 3) : Nat)⟩]
  | _ => []

variable {host inst pkt} {state type : EadType} {x : UInt32}

/-- Without an overflow the length is one that the frame has, and otherwise it is negative. -/
theorem checked_cases (h : checked host inst pkt state = some type) :
    (sizeofPacket + pkt.msgLen.toNat < host.sizeMod ∧ sizeofPacket + pkt.msgLen.toNat ≤ pkt.len) ∨
      (¬ sizeofPacket + pkt.msgLen.toNat < host.sizeMod ∧
      2 ^ 32 - sizeofPacket ≤ pkt.msgLen.toNat) := by
  have hcheck : (sizeofPacket + pkt.msgLen.toNat) % host.sizeMod ≤ pkt.len := by
    unfold checked at h
    split at h
    · cases h
    next hchecks =>
      simp only [not_or, Nat.not_lt] at hchecks
      exact hchecks.2.2.2.2.2.2.1
  obtain hmod | hmod : host.sizeMod = 2 ^ 64 ∨ host.sizeMod = 2 ^ 32 := ite_eq_or_eq ..
  · rw [hmod] at hcheck ⊢
    omega
  · rw [hmod] at hcheck ⊢
    omega

lemma int_sub_one (h : x.toNat < 2 ^ 31) : int (x - 1) = x.toNat - 1 := by
  have hsub : (x - 1).toNat = (2 ^ 32 - 1 + x.toNat) % 2 ^ 32 := UInt32.toNat_sub ..
  unfold int
  split <;> omega

lemma int_neg (h : 2 ^ 31 ≤ x.toNat) : int x < 0 := by
  have hlt := x.toNat_lt
  unfold int
  split <;> omega

lemma sendA_fits_iff (c : Crypt) (h : checked host inst pkt state = some type) :
    (∀ u ∈ uses P pkt c .sendA, u.Fits pkt) ↔
      pkt.msgLen ≠ 0 ∧ sizeofPacket + pkt.msgLen.toNat < host.sizeMod := by
  have hlen := pkt.len_lt
  have hzero : pkt.msgLen ≠ 0 ↔ pkt.msgLen.toNat ≠ 0 := UInt32.toNat_inj.symm.not
  have hpacket : sizeofPacket = 62 := rfl
  unfold uses MAXPARAMLEN
  dsimp only
  rw [hzero]
  obtain ⟨hover, hle⟩ | ⟨hover, hge⟩ := checked_cases h
  · rw [int_sub_one (by omega)]
    split
    · exact iff_of_true (fun _ hu => absurd hu not_mem_nil) ⟨by omega, hover⟩
    rw [forall_mem_singleton]
    refine ⟨fun hfits => ⟨?_, hover⟩, fun hne => ⟨?_, ?_, ?_⟩⟩
    · have hpos := hfits.nonneg
      dsimp only at hpos
      omega
    all_goals dsimp only; omega
  · have hneg : int (pkt.msgLen - 1) < 0 := by
      have hsub : (pkt.msgLen - 1).toNat = (2 ^ 32 - 1 + pkt.msgLen.toNat) % 2 ^ 32 :=
        UInt32.toNat_sub ..
      have := pkt.msgLen.toNat_lt
      exact int_neg (by omega)
    rw [if_neg (by omega), forall_mem_singleton]
    exact iff_of_false (fun hfits => Int.not_le.2 hneg hfits.nonneg) fun hok => hover hok.2

lemma datalen_le {c : Crypt} (msg : Msg) (hlt : msg.len.toNat < 2 ^ 31)
    (h : ¬ ((eadDecryptMessage P c msg).1 - 3).bmod (2 ^ 32) ≤ 0) :
    25 + 3 + ((eadDecryptMessage P c msg).1 - 3).bmod (2 ^ 32) ≤ msg.len.toNat := by
  obtain ⟨⟨-, hpad, -⟩, -, hret⟩ := eadDecryptMessage_ne_zero (ne_zero_of_pos h)
  rw [hret] at h ⊢
  unfold int at h ⊢
  rw [toNat_sub_pad hpad, Int.bmod_def] at h ⊢
  split_ifs at h ⊢ <;> omega

lemma sendCmd_fits_iff (c : Crypt) (h : checked host inst pkt state = some type) :
    (∀ u ∈ uses P pkt c .sendCmd, u.Fits pkt) ↔ sizeofPacket + pkt.msgLen.toNat < host.sizeMod := by
  have hlen := pkt.len_lt
  have hpacket : sizeofPacket = 62 := rfl
  unfold uses
  dsimp only
  obtain ⟨hover, hle⟩ | ⟨hover, hge⟩ := checked_cases h
  · refine iff_of_true (fun u hu => ?_) hover
    obtain hu | hu := mem_append.1 hu
    · split at hu
      · cases hu
      · obtain rfl := mem_singleton.1 hu
        rw [int_of_lt (by omega)]
        constructor <;> dsimp only <;> omega
    · split at hu
      · cases hu
      next hpos =>
        obtain rfl := mem_singleton.1 hu
        have hcmd := datalen_le P ⟨pkt.msgLen, pkt.data⟩ (by dsimp only; omega) hpos
        dsimp only at hcmd
        constructor <;> dsimp only <;> omega
  · have hneg : int pkt.msgLen < 0 := int_neg (by omega)
    have hmod : 0 ≤ (-int pkt.msgLen).tmod 64 := Int.tmod_nonneg _ (by omega)
    rw [Int.neg_tmod] at hmod
    refine iff_of_false (fun hfits => ?_) hover
    rw [if_neg (by omega)] at hfits
    exact Int.not_le.2 hneg (hfits _ mem_cons_self).nonneg

def numberFrame (msgLen : UInt32) : Packet where
  len := 64
  etherType := ETHERTYPE_IP
  dhost _ := 0xff
  proto := UIP_PROTO_UDP
  destport := EAD_PORT
  magic := EAD_MAGIC
  msgLen
  type := 6
  nid := 0xffff
  sid := 0
  data _ := 0
  len_lt := by decide

end SourceMaster.Ead
