import SourceMaster.Ead.Crypt

/-!
# One direction of the encrypted channel

One side encrypts messages one after the other, and the other side gets them in order, some of them
not at all and some of them again later. `channel_correct` says that every message that is new comes
back as it was, and that every other one is rejected, as long as no 32 messages in a row are lost.
-/

namespace SourceMaster.Ead

open Runs UInt32 Nat Crypt

/-! ## The sender -/

/-- A message before encryption: the memory from `enc` on, with the payload at 25, and its
length. -/
structure Plain where
  enc : Mem
  len : UInt32

def sendAll (P : Primitives) : Crypt → List Plain → List Msg
  | _, [] => []
  | c, p :: ps =>
    (eadEncryptMessage P c p.enc p.len).2 :: sendAll P (eadEncryptMessage P c p.enc p.len).1 ps

def Crypt.after (c : Crypt) (i : Nat) : Crypt := (fun c => (eadGetTxIv c).2)^[i] c

lemma sendAll_getElem? (P : Primitives) (c : Crypt) (ps : List Plain) (i : Nat) :
    (sendAll P c ps)[i]? = ps[i]?.map fun p => (eadEncryptMessage P (c.after i) p.enc p.len).2 := by
  induction ps generalizing c i with
  | nil => rfl
  | cons p ps ih =>
    cases i with
    | zero => rfl
    | succ i => exact ih (eadGetTxIv c).2 i

lemma Crypt.key_after (c : Crypt) (i : Nat) : (c.after i).key = c.key := by
  induction i generalizing c with
  | zero => rfl
  | succ i ih => exact ih (eadGetTxIv c).2

lemma Crypt.after_succ (c : Crypt) (i : Nat) : c.after (i + 1) = (eadGetTxIv (c.after i)).2 :=
  Function.iterate_succ_apply' _ i c

lemma eadGetTxIv_bounds {c : Crypt} (h : c.txIv.toNat + 4 < 2 ^ 32) :
    c.txIv.toNat + 1 ≤ (eadGetTxIv c).2.txIv.toNat ∧
    (eadGetTxIv c).2.txIv.toNat ≤ c.txIv.toNat + 4 := by
  have hofs : ∀ x : UInt32, (x &&& 0x3).toNat ≤ 3 := by
    intro x
    exact Nat.and_le_right
  have hx := hofs (c.ivofsVec >>> ofNat (2 * c.ivofsIdx))
  unfold eadGetTxIv
  rw [UInt32.toNat_add, UInt32.toNat_add, UInt32.toNat_one]
  omega

lemma Crypt.after_bounds (c : Crypt) (i j : Nat) (h : (c.after i).txIv.toNat + 4 * j < 2 ^ 32) :
    (c.after i).txIv.toNat + j ≤ (c.after (i + j)).txIv.toNat ∧
      (c.after (i + j)).txIv.toNat ≤ (c.after i).txIv.toNat + 4 * j := by
  induction j with
  | zero => exact ⟨le_refl _, le_refl _⟩
  | succ j ih =>
    have hstep := eadGetTxIv_bounds (c := c.after (i + j)) (by omega)
    rw [← after_succ] at hstep
    rw [show i + (j + 1) = i + j + 1 from rfl]
    omega

lemma Crypt.after_le {c : Crypt} (htx : c.txIv.toNat < 2 ^ 24) {i : Nat} (hi : i < 2 ^ 29) :
    (c.after i).txIv.toNat < 2 ^ 24 + 4 * i := by
  have hzero : (c.after 0).txIv.toNat = c.txIv.toNat := rfl
  have hbounds := (c.after_bounds 0 i (by omega)).2
  rw [zero_add] at hbounds
  omega

lemma eadSetKey_txIv_lt (bigEndian : Bool) (skey : Mem) (c : Crypt) :
    (eadSetKey bigEndian skey c).txIv.toNat < 2 ^ 24 := by
  exact and_lt_two_pow _ (by decide)

/-! ## The receiver -/

/-- The receiver, with the number of the first message that has not gone by. -/
structure Receiver where
  crypt : Crypt
  next : Nat

structure Delivery where
  num : Nat
  msg : Msg

def Receiver.step (P : Primitives) (r : Receiver) (d : Delivery) : Receiver :=
  ⟨(eadDecryptMessage P r.crypt d.msg).2.1, max r.next (d.num + 1)⟩

/-- The channel delivers copies of messages that were sent, old or new, and does not lose more than
31 in a row. -/
def Receiver.Allowed (sent : List Msg) (r : Receiver) (d : Delivery) : Prop :=
  d.num ≤ r.next + 31 ∧ ∃ msg, sent[d.num]? = some msg ∧ d.msg.IsCopy msg

/-- A new message is accepted and comes back as it was; an old one is rejected. -/
def Receiver.Correct (P : Primitives) (ps : List Plain) (r : Receiver) (d : Delivery) : Prop :=
  let res := eadDecryptMessage P r.crypt d.msg
  if r.next ≤ d.num then
    ∃ p, ps[d.num]? = some p ∧ r.crypt.rxIv < res.2.1.rxIv ∧ res.1 = p.len.toNat ∧
      ∀ i < p.len.toNat, res.2.2 (25 + i) = p.enc (25 + i)
  else res.1 = 0 ∧ res.2.1 = r.crypt

section

variable {P : Primitives} {ps : List Plain} {r : Receiver} {d : Delivery} {iv : UInt32} {c : Crypt}

structure Receiver.Inv (c : Crypt) (ps : List Plain) (r : Receiver) : Prop where
  key : r.crypt.key = c.key
  rxIv : r.crypt.rxIv = (c.after r.next).txIv
  next_le : r.next ≤ ps.length

lemma eadCheckRxIv_true (hlow : c.rxIv.toNat < iv.toNat)
    (hhigh : iv.toNat ≤ c.rxIv.toNat + 128) (hwrap : c.rxIv.toNat + 128 < 2 ^ 32) :
    eadCheckRxIv c iv = (true, { c with rxIv := iv }) := by
  have h128 : EAD_MAX_IV_INCR.toNat = 128 := rfl
  rw [eadCheckRxIv, if_neg (by rw [le_iff_toNat_le]; omega), if_neg]
  rw [UInt32.lt_iff_toNat_lt, UInt32.toNat_add, h128]
  omega

lemma eadCheckRxIv_false (h : iv.toNat ≤ c.rxIv.toNat) : eadCheckRxIv c iv = (false, c) := by
  rw [eadCheckRxIv, if_pos (le_iff_toNat_le.2 h)]

lemma Receiver.Inv.step (hinv : r.Inv c ps) (htx : c.txIv.toNat < 2 ^ 24)
    (hcount : ps.length < 2 ^ 29) (hlen : ∀ p ∈ ps, p.len.toNat < 2 ^ 31)
    (hd : r.Allowed (sendAll P c ps) d) : (r.step P d).Inv c ps ∧ r.Correct P ps d := by
  obtain ⟨hlost, msg, hmsg, hcopy⟩ := hd
  rw [sendAll_getElem?] at hmsg
  obtain ⟨p, hp, rfl⟩ := Option.map_eq_some_iff.1 hmsg
  have hnum : d.num < ps.length := (List.getElem?_eq_some_iff.1 hp).1
  have hkey : r.crypt.key = (c.after d.num).key := by rw [hinv.key, c.key_after]
  obtain ⟨mem, hmem, hdec⟩ := eadDecryptMessage_copy hkey (hlen p (List.mem_of_getElem? hp)) hcopy
  have hiv : (eadGetTxIv (c.after d.num)).1 = (c.after (d.num + 1)).txIv := by
    rw [c.after_succ]
    rfl
  rw [hiv] at hdec
  have hle := hinv.next_le
  unfold Receiver.Correct
  split
  next hnew =>
    have hlt := after_le htx (i := r.next) (by omega)
    obtain ⟨hlow, hhigh⟩ := c.after_bounds r.next (d.num + 1 - r.next) (by omega)
    rw [Nat.add_sub_cancel' (by omega), ← hinv.rxIv] at hlow hhigh
    rw [← hinv.rxIv] at hlt
    rw [eadCheckRxIv_true (by omega) (by omega) (by omega), if_pos rfl] at hdec
    refine ⟨⟨?_, ?_, Nat.max_le.2 ⟨hle, hnum⟩⟩, p, hp, ?_, ?_, ?_⟩
    · show (eadDecryptMessage P r.crypt d.msg).2.1.key = _
      rw [hdec]
      exact hinv.key
    · show (eadDecryptMessage P r.crypt d.msg).2.1.rxIv = (c.after (max r.next (d.num + 1))).txIv
      rw [hdec, max_eq_right (by omega)]
    · rw [hdec, UInt32.lt_iff_toNat_lt]
      show r.crypt.rxIv.toNat < (c.after (d.num + 1)).txIv.toNat
      omega
    · rw [hdec]
    · rw [hdec]
      exact hmem
  next hold =>
    have hlt := after_le htx (i := d.num + 1) (by omega)
    obtain ⟨hlow, -⟩ := c.after_bounds (d.num + 1) (r.next - (d.num + 1)) (by omega)
    rw [Nat.add_sub_cancel' (by omega), ← hinv.rxIv] at hlow
    rw [eadCheckRxIv_false (by omega), if_neg Bool.false_ne_true] at hdec
    have hcrypt : (eadDecryptMessage P r.crypt d.msg).2.1 = r.crypt := by rw [hdec]
    have hstep : r.step P d = r := by
      rw [Receiver.step, hcrypt, max_eq_left (by omega)]
    exact ⟨hstep.symm ▸ hinv, by rw [hdec], hcrypt⟩

/-- However the messages of one side are delivered, new ones come back as they were and old ones are
rejected.
-/
theorem channel_correct (P : Primitives) (bigEndian bigEndian' : Bool) (skey : Mem) (c r : Crypt)
    (ps : List Plain) (hcount : ps.length < 2 ^ 29) (hlen : ∀ p ∈ ps, p.len.toNat < 2 ^ 31)
    (ds : List Delivery)
    (hds : Each (Receiver.step P) (Receiver.Allowed (sendAll P (eadSetKey bigEndian skey c) ps))
      ⟨eadSetKey bigEndian' skey r, 0⟩ ds) :
    Each (Receiver.step P) (Receiver.Correct P ps) ⟨eadSetKey bigEndian' skey r, 0⟩ ds := by
  have htx := eadSetKey_txIv_lt bigEndian skey c
  have hinit : Receiver.Inv (eadSetKey bigEndian skey c) ps ⟨eadSetKey bigEndian' skey r, 0⟩ :=
    ⟨rfl, rfl, zero_le _⟩
  exact each_of_each (fun r d hinv hd => hinv.step htx hcount hlen hd) ds hinit hds

end

/-! ## Messages of others -/

section

variable (P : Primitives) {c : Crypt} {d : Msg}

/-- A message that gets as far as its hash has the right hash and is not empty. -/
def Msg.Traceless (c : Crypt) (d : Msg) : Prop :=
  d.Reaches P c → d.HashOk P c.key ∧
    int (d.len - ((d.plain P c.key 24).toUInt32 + sizeofEncrypted)) ≠ 0

lemma Msg.Traceless.unchanged {P : Primitives} (h : d.Traceless P c)
    (hzero : (eadDecryptMessage P c d).1 = 0) : (eadDecryptMessage P c d).2.1 = c := by
  obtain ⟨-, mem, hdec⟩ | ⟨hreach, ret, iv, mem, -, hdec, hok, -⟩ := eadDecryptMessage_cases P c d
  · rw [hdec]
  · obtain ⟨hhash, hne⟩ := h hreach
    rw [hdec] at hzero
    exact absurd ((hok hhash).symm.trans hzero) hne

lemma Msg.traceless_of_unchanged {P : Primitives}
    (h : (eadDecryptMessage P c d).1 = 0 → (eadDecryptMessage P c d).2.1.rxIv = c.rxIv) :
    d.Traceless P c := by
  intro hreach
  obtain ⟨hnot, -⟩ | ⟨-, ret, iv, mem, hiv, hdec, hok, hbad⟩ := eadDecryptMessage_cases P c d
  · exact absurd hreach hnot
  rw [hdec] at h
  have hret : ret ≠ 0 := by
    intro hzero
    -- a vector that is taken is a new one
    have hold := hreach.vector
    rw [← hiv, eadCheckRxIv_false (le_of_eq (congrArg toNat (h hzero)))] at hold
    cases hold
  have hhash : d.HashOk P c.key := by
    by_contra hhash
    exact hret (hbad hhash)
  exact ⟨hhash, hok hhash ▸ hret⟩

inductive Arrival
  | genuine (d : Delivery)
  | other (d : Msg)

def Receiver.arrive (r : Receiver) : Arrival → Receiver
  | .genuine d => r.step P d
  | .other d => { r with crypt := (eadDecryptMessage P r.crypt d).2.1 }

/-- The messages of others are rejected, and are traceless. -/
def Receiver.Undisturbed (sent : List Msg) (r : Receiver) : Arrival → Prop
  | .genuine d => r.Allowed sent d
  | .other d => (eadDecryptMessage P r.crypt d).1 = 0 ∧ d.Traceless P r.crypt

def Receiver.Served (ps : List Plain) (r : Receiver) : Arrival → Prop
  | .genuine d => r.Correct P ps d
  | .other _ => True

/-- A rejected message leaves the vector as it is exactly if it is traceless; if all messages of
others are, those of the sender are accepted as without them. -/
theorem rejected_messages_iff :
    (∀ c d, ((eadDecryptMessage P c d).1 = 0 → (eadDecryptMessage P c d).2.1.rxIv = c.rxIv) ↔
    d.Traceless P c) ∧
    ∀ (bigEndian bigEndian' : Bool) (skey : Mem) (c r : Crypt) (ps : List Plain),
    ps.length < 2 ^ 29 →
      (∀ p ∈ ps, p.len.toNat < 2 ^ 31) → ∀ as : List Arrival,
      Each (Receiver.arrive P) (Receiver.Undisturbed P (sendAll P (eadSetKey bigEndian skey c) ps))
        ⟨eadSetKey bigEndian' skey r, 0⟩ as →
      Each (Receiver.arrive P) (Receiver.Served P ps) ⟨eadSetKey bigEndian' skey r, 0⟩ as := by
  refine ⟨fun c d => ⟨Msg.traceless_of_unchanged, fun h hzero => congrArg rxIv (h.unchanged hzero)⟩,
    ?_⟩
  intro bigEndian bigEndian' skey c r ps hcount hlen as has
  have htx := eadSetKey_txIv_lt bigEndian skey c
  have hinit : Receiver.Inv (eadSetKey bigEndian skey c) ps ⟨eadSetKey bigEndian' skey r, 0⟩ :=
    ⟨rfl, rfl, zero_le _⟩
  refine each_of_each (fun r a hinv ha => ?_) as hinit has
  cases a with
  | genuine d => exact hinv.step htx hcount hlen ha
  | other d =>
    have hsame : r.arrive P (.other d) = r := by
      simp only [Receiver.arrive, ha.2.unchanged ha.1]
    exact ⟨hsame.symm ▸ hinv, trivial⟩

end

def plainPrimitives : Primitives where
  rijndaelEncrypt _ b := b
  rijndaelDecrypt _ b := b
  shaInit _ := 0
  shaTransform hash _ := hash
  decrypt_encrypt _ _ := rfl

/-- The second of three messages is lost, and the first one arrives again at the end. -/
theorem channel_correct_three : let ps : List Plain :=
    [⟨fun _ => 1, 1⟩, ⟨fun _ => 2, 50⟩, ⟨fun _ => 3, 7⟩]
    let skey : Mem := fun i => .ofNat i
    let sent := sendAll plainPrimitives (eadSetKey false skey noKey) ps
    ∃ first ∈ sent[0]?, ∃ third ∈ sent[2]?,
      Each (Receiver.step plainPrimitives) (Receiver.Correct plainPrimitives ps)
        ⟨eadSetKey true skey noKey, 0⟩ [⟨0, first⟩, ⟨2, third⟩, ⟨0, first⟩] := by
  refine ⟨_, rfl, _, rfl, channel_correct plainPrimitives false true _ noKey noKey _ (by decide)
    (by decide) _ ⟨⟨by decide, _, rfl, rfl, fun _ _ => rfl⟩, ⟨?_, _, rfl, rfl, fun _ _ => rfl⟩,
      ⟨zero_le _, _, rfl, rfl, fun _ _ => rfl⟩, trivial⟩⟩
  decide

def forged : Msg := ⟨64, putWord 128 20 (fun i => if i = 24 then 0 else 1)⟩

/-- It is rejected, and so is the next message of the sender then. -/
theorem forged_message_blocks : let c := eadSetKey false (fun _ => 0) noKey
    let msg := (eadEncryptMessage plainPrimitives c (fun _ => 7) 1).2
    let res := eadDecryptMessage plainPrimitives c forged
    res.1 = 0 ∧ res.2.1.rxIv ≠ c.rxIv ∧ (eadDecryptMessage plainPrimitives c msg).1 = 1 ∧
      (eadDecryptMessage plainPrimitives res.2.1 msg).1 = 0 := by
  decide +kernel

/-- A message that is too short comes before the first one of the sender. -/
theorem rejected_messages_short : let ps : List Plain := [⟨fun _ => 1, 1⟩]
    let skey : Mem := fun i => .ofNat i
    ∃ first ∈ (sendAll plainPrimitives (eadSetKey false skey noKey) ps)[0]?,
      Each (Receiver.arrive plainPrimitives) (Receiver.Served plainPrimitives ps)
        ⟨eadSetKey true skey noKey, 0⟩ [.other ⟨7, fun _ => 0⟩, .genuine ⟨0, first⟩] :=
  ⟨_, rfl, (rejected_messages_iff plainPrimitives).2 false true _ noKey noKey _ (by decide)
    (by decide) _
    ⟨⟨rfl, fun h => absurd (by decide) h.size⟩, ⟨zero_le _, _, rfl, rfl, fun _ _ => rfl⟩, trivial⟩⟩

end SourceMaster.Ead
