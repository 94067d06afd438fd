import SourceMaster.Ead.Lengths

/-!
# No command is executed twice

A message is accepted only with a vector above the last one. The vector is set anew with every key,
so the order holds among the commands that have been executed since then.
-/

namespace SourceMaster.Ead

open Runs List

def Event.isKey : Event → Bool
  | .key .. => true
  | _ => false

def Event.command : Event → Option Msg
  | .fork msg => some msg
  | _ => none

/-- The messages of the commands since the last key, the newest one first. -/
def commands (log : List Event) : List Msg :=
    (log.takeWhile fun e => !e.isKey).filterMap Event.command

variable {T : Type} {P : Primitives} {srp : Srp T} {host : Host} {inst : Instance} {env : Env T}
  {s s' : Server T}

lemma streamOutput_rxIv (outs : List (List UInt8)) (c : Crypt) (buf : Mem) :
    (streamOutput P c buf outs).1.rxIv = c.rxIv := by
  induction outs generalizing c buf with
  | nil => rfl
  | cons out outs ih => exact ih ..

lemma handleSendCmd_rxIv (s : Server T) (msg : Msg) :
    (handleSendCmd P host env s msg).1.crypt.rxIv = (eadDecryptMessage P s.crypt msg).2.1.rxIv := by
  unfold handleSendCmd
  dsimp only
  repeat' split
  all_goals first | rfl | exact streamOutput_rxIv ..

lemma Msg.Reaches.lt {c : Crypt} {msg : Msg} (h : msg.Reaches P c) :
    c.rxIv < msg.vector P c.key := by
  by_contra hle
  have hvector := h.vector
  rw [eadCheckRxIv_false (UInt32.not_lt.1 hle)] at hvector
  cases hvector

structure Server.Fresh (P : Primitives) (s : Server T) : Prop where
  ordered : (commands s.log).Pairwise fun new old =>
    old.vector P s.crypt.key < new.vector P s.crypt.key
  le : ∀ msg ∈ commands s.log, msg.vector P s.crypt.key ≤ s.crypt.rxIv

namespace Server.Fresh

lemma of_eq (h : s.Fresh P) (hlog : commands s'.log = commands s.log)
    (hkey : s'.crypt.key = s.crypt.key) (hrx : s.crypt.rxIv ≤ s'.crypt.rxIv) : s'.Fresh P := by
  obtain ⟨hordered, hle⟩ := h
  constructor
  · rwa [hlog, hkey]
  · rw [hlog, hkey]
    exact fun msg hmsg => UInt32.le_trans (hle msg hmsg) hrx

lemma setState (h : s.Fresh P) (nstate : EadType) : (setState srp host env s nstate).Fresh P := by
  unfold Ead.setState advance
  repeat' split
  all_goals first | exact h.of_eq rfl rfl (UInt32.le_refl _) | exact ⟨.nil, nofun⟩

lemma handleSendCmd (h : s.Fresh P) (msg : Msg) : (handleSendCmd P host env s msg).1.Fresh P := by
  have hrx := @handleSendCmd_rxIv T P host env s msg
  obtain ⟨crypt, hkey, -, hcases⟩ := @handleSendCmd_cases T P host env s msg
  obtain ⟨-, mem, hdec⟩ | ⟨hreach, ret, iv, mem, rfl, hdec, -⟩ :=
    eadDecryptMessage_cases P s.crypt msg
  · -- rejected
    rw [hdec] at hrx hcases
    obtain heq | ⟨hpos, -⟩ := hcases
    · rw [heq] at hrx ⊢
      exact h.of_eq rfl hkey (UInt32.le_of_eq hrx.symm)
    · exact absurd (show ((0 : Int) - 3).bmod (2 ^ 32) ≤ 0 by decide) hpos
  rw [hdec] at hrx
  have hlt : s.crypt.rxIv < msg.vector P s.crypt.key := hreach.lt
  obtain heq | ⟨-, heq⟩ := hcases
  all_goals rw [heq] at hrx ⊢
  · exact h.of_eq rfl hkey (hrx ▸ UInt32.le_of_lt hlt)
  have hnewer : ∀ old ∈ commands s.log, old.vector P s.crypt.key < msg.vector P s.crypt.key :=
    fun old hold => UInt32.lt_of_le_of_lt (h.le old hold) hlt
  constructor
  all_goals rw [hkey]
  · exact .cons hnewer h.ordered
  · rw [hrx]
    exact forall_mem_cons.2 ⟨UInt32.le_refl _, fun old hold => UInt32.le_of_lt (hnewer old hold)⟩

lemma handle (h : s.Fresh P) (pkt : Packet) (type : EadType) :
    (handle P srp host env s pkt type).1.Fresh P := by
  cases type with
  | setUsername => exact (h.setState .setUsername).of_eq rfl rfl (UInt32.le_refl _)
  | sendCmd => exact h.handleSendCmd _
  | getPrime | sendA | sendAuth =>
    dsimp only [Ead.handle, handleGetPrime, handleSendA, handleSendAuth]
    repeat' split
    all_goals exact h.of_eq rfl rfl (UInt32.le_refl _)
  | _ => exact h

lemma step (h : s.Fresh P) (input : Packet × Env T) : (s.step P srp host inst input).Fresh P := by
  unfold Server.step
  split
  next => exact h
  rw [handlePacket_eq]
  split
  next => exact h
  next type _ =>
    have hhandle : (Ead.handle P srp host input.2 s input.1 type).1.Fresh P := h.handle input.1 type
    unfold runHandler
    dsimp only
    split
    · exact hhandle
    · exact hhandle.setState _

end Server.Fresh

/-- Under one key, the commands that are executed have ascending vectors, whatever packets
arrive. -/
theorem commands_not_replayed (P : Primitives) (srp : Srp T) (host : Host) (inst : Instance)
    (crypt : Crypt) (inputs : List (Packet × Env T)) :
    Always (Server.step P srp host inst) (fun s => (commands s.log).Pairwise
      fun new old => old.vector P s.crypt.key < new.vector P s.crypt.key)
      (Server.start crypt) inputs :=
  always_of_step (fun _ (h : Server.Fresh P _) => h.ordered) (fun _ input h => h.step input) inputs
    ⟨.nil, nofun⟩

end SourceMaster.Ead
