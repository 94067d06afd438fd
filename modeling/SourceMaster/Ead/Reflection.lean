import SourceMaster.Ead.Channel
import SourceMaster.Ead.Server

/-!
# Messages that come back to their sender

Both sides of a session have the same key, and their vectors start at the same number. So the daemon
cannot tell a message of the client from one of its own: it takes both if the vector is new. The
vectors of its own messages are new as soon as it has sent more of them than it has got, which is
the case whenever the output of a command needs more than one answer.
-/

namespace SourceMaster.Ead

open Blocks Runs List

/-! ## A session over a network -/

structure Session (T : Type) where
  client : Crypt
  server : Server T
  clientSent : List Msg := []
  serverSent : List Msg := []

inductive NetEvent (T : Type)
  | send (plain : Plain)
  | toClient (msg : Msg)
  | toServer (msg : Msg) (env : Env T)

section

variable {T : Type} (P : Primitives) (host : Host)

section

variable (s : Session T)

def Session.step : NetEvent T → Session T
  | .send p =>
    let (client, msg) := eadEncryptMessage P s.client p.enc p.len
    { s with client, clientSent := s.clientSent ++ [msg] }
  | .toClient msg => { s with client := (eadDecryptMessage P s.client msg).2.1 }
  | .toServer msg env =>
    let (server, msgs) := handleSendCmd P host env s.server msg
    { s with server, serverSent := s.serverSent ++ msgs }

def Session.start (bigEndian : Bool) (skey : Mem) (client : Crypt) (server : Server T) :
    Session T where
  client := eadSetKey bigEndian skey client
  server := { server with crypt := eadSetKey host.bigEndian skey server.crypt }

def Msg.OneOf (d : Msg) (sent : List Msg) : Prop := ∃ msg ∈ sent, d.IsCopy msg

/-- Nobody can make a message without the key that the daemon accepts. -/
def Session.Unforged : NetEvent T → Prop
  | .toServer d _ =>
    0 < (eadDecryptMessage P s.server.crypt d).1 → d.OneOf (s.clientSent ++ s.serverSent)
  | _ => True

/-- What the daemon accepts has been made by the client. -/
def Session.FromClient : NetEvent T → Prop
  | .toServer d _ => 0 < (eadDecryptMessage P s.server.crypt d).1 → d.OneOf s.clientSent
  | _ => True

/-- Of the messages of the daemon, none comes back to it whose vector it takes. -/
def Session.NotReflected : NetEvent T → Prop
  | .toServer d _ => d.OneOf s.serverSent → ¬ d.OneOf s.clientSent →
    (eadCheckRxIv s.server.crypt (d.vector P s.server.crypt.key)).1 = false
  | _ => True

end

structure Session.Inv (s : Session T) : Prop where
  serverSealed : ∀ msg ∈ s.serverSent, msg.Sealed P s.server.crypt.key

end

section

variable {T : Type} {P : Primitives} {host : Host} {s : Session T}

lemma Msg.OneOf.append {d : Msg} {sent sent' : List Msg} :
    d.OneOf (sent ++ sent') ↔ d.OneOf sent ∨ d.OneOf sent' := by
  simp only [Msg.OneOf, mem_append, or_and_right, exists_or]

lemma accepted_iff {c : Crypt} {msg d : Msg} (hmsg : msg.Sealed P c.key) (hd : d.IsCopy msg) :
    0 < (eadDecryptMessage P c d).1 ↔ (eadCheckRxIv c (d.vector P c.key)).1 := by
  obtain ⟨c', enc, len, hkey, hpos, hlt, rfl⟩ := hmsg
  have hvector : d.vector P c.key = (eadGetTxIv c').1 := by
    have htotal := encLen_toNat hlt
    unfold Msg.vector Msg.plain
    rw [getWord_congr fun i _ hi => decrypted_copy hkey.symm hlt hd (by omega), getWord_sealed]
  obtain ⟨mem, -, hdec⟩ := eadDecryptMessage_copy hkey.symm hlt hd
  rw [hdec, hvector]
  cases (eadCheckRxIv c (eadGetTxIv c').1).1 with
  | false => exact ⟨fun h => absurd h (Int.lt_irrefl 0), nofun⟩
  | true => exact ⟨fun _ => rfl, fun _ => Int.natCast_pos.2 hpos⟩

lemma Session.Inv.step (h : s.Inv P) (e : NetEvent T) : (s.step P host e).Inv P := by
  cases e with
  | send p => exact ⟨h.serverSealed⟩
  | toClient msg => exact ⟨h.serverSealed⟩
  | toServer msg env =>
    obtain ⟨crypt, hkey, hsealed, hserver⟩ := @handleSendCmd_cases T P host env s.server msg
    have hcrypt : (s.step P host (.toServer msg env)).server.crypt.key = s.server.crypt.key := by
      obtain heq | ⟨-, heq⟩ := hserver
      · exact (congrArg (fun s => s.crypt.key) heq).trans hkey
      · exact (congrArg (fun s => s.crypt.key) heq).trans hkey
    constructor
    intro msg' hmsg
    rw [hcrypt]
    obtain hold | hnew := mem_append.1 hmsg
    · exact h.serverSealed msg' hold
    · exact hsealed msg' hnew

lemma Session.Inv.fromClient_iff (h : s.Inv P) {e : NetEvent T} (he : s.Unforged P e) :
    s.FromClient P e ↔ s.NotReflected P e := by
  cases e with
  | send p => exact Iff.rfl
  | toClient msg => exact Iff.rfl
  | toServer d env =>
    constructor
    · rintro hclient ⟨msg, hmem, hcopy⟩ hnot
      rw [Bool.eq_false_iff, ne_eq, ← accepted_iff (h.serverSealed msg hmem) hcopy]
      exact fun hpos => hnot (hclient hpos)
    intro hrefl hpos
    by_contra hnot
    obtain hclient | ⟨msg, hmem, hcopy⟩ := Msg.OneOf.append.1 (he hpos)
    · exact hnot hclient
    · have hfalse := hrefl ⟨msg, hmem, hcopy⟩ hnot
      rw [(accepted_iff (h.serverSealed msg hmem) hcopy).1 hpos] at hfalse
      exact Bool.noConfusion hfalse

lemma Session.start_inv (bigEndian : Bool) (skey : Mem) (client : Crypt) (server : Server T) :
    (Session.start host bigEndian skey client server).Inv P := ⟨nofun⟩

/-- If nobody forges messages, the daemon accepts only what the client made exactly if no message of
the daemon with a vector that it takes is sent back to it. -/
theorem accepted_from_client_iff (P : Primitives) (host : Host) (bigEndian : Bool) (skey : Mem)
    (client : Crypt) (server : Server T) (events : List (NetEvent T))
    (hunforged : Each (Session.step P host) (Session.Unforged P)
      (Session.start host bigEndian skey client server) events) :
    Each (Session.step P host) (Session.FromClient P)
        (Session.start host bigEndian skey client server) events ↔
      Each (Session.step P host) (Session.NotReflected P)
        (Session.start host bigEndian skey client server) events := by
  exact each_congr (fun s e hs _ => hs.step e) (fun s e hs he => hs.fromClient_iff he) events
    (Session.start_inv bigEndian skey client server) hunforged

end

/-! ## A command that prints something -/

def printingEnv : Env Unit where
  openServer _ := none
  random _ := 0
  pktbuf _ := 0
  pipe := true
  pid := 1
  output := [[1]]
  output_le := by decide
  childPending := false

def littleHost : Host := ⟨false, false⟩

def freshSession : Session Unit :=
  Session.start littleHost false (fun _ => 0) noKey { crypt := noKey }

def commandPlain : Plain := ⟨fun _ => 0, 64⟩

def command : Msg :=
  (eadEncryptMessage plainPrimitives freshSession.client commandPlain.enc commandPlain.len).2

def answered : Session Unit :=
  (freshSession.step plainPrimitives littleHost (.send commandPlain)).step plainPrimitives
    littleHost
    (.toServer command printingEnv)

lemma answered_inv : answered.Inv plainPrimitives :=
  ((Session.start_inv false (fun _ => 0) noKey { crypt := noKey }).step _).step _

lemma answered_serverSent : ∃ output done, answered.serverSent = [output, done] ∧ done.len = 64 ∧
    (eadCheckRxIv answered.server.crypt
    (output.vector plainPrimitives answered.server.crypt.key)).1 = false ∧
    (eadCheckRxIv answered.server.crypt (done.vector plainPrimitives answered.server.crypt.key)).1 =
      true := by
  have hlen : answered.serverSent.length = 2 := by decide +kernel
  obtain ⟨output, done, hsent⟩ := length_eq_two.1 hlen
  have hfacts : answered.serverSent.map (fun msg => (msg.len, (eadCheckRxIv answered.server.crypt
      (msg.vector plainPrimitives answered.server.crypt.key)).1)) = [(64, false), (64, true)] := by
    decide +kernel
  rw [hsent] at hfacts
  simp only [map_cons, map_nil, cons.injEq, Prod.mk.injEq, and_true] at hfacts
  exact ⟨output, done, hsent, hfacts.2.1, hfacts.1.2, hfacts.2.2⟩

lemma Msg.IsCopy.refl (msg : Msg) : msg.IsCopy msg := ⟨rfl, fun _ _ => rfl⟩

lemma command_oneOf (sent : List Msg) : command.OneOf (command :: sent) :=
  ⟨command, mem_cons_self, .refl command⟩

/-- The first answer is not accepted when it comes back, as the client has used its vector. -/
theorem accepted_from_client_iff_output : ∃ output ∈ answered.serverSent,
    Each (Session.step plainPrimitives littleHost) (Session.FromClient plainPrimitives) freshSession
      [.send commandPlain, .toServer command printingEnv, .toServer output printingEnv] := by
  obtain ⟨output, done, hsent, -, hold, -⟩ := answered_serverSent
  have hmem : output ∈ answered.serverSent := by
    rw [hsent]
    exact mem_cons_self
  have hunforged : Each (Session.step plainPrimitives littleHost) (Session.Unforged plainPrimitives)
      freshSession [.send commandPlain, .toServer command printingEnv,
        .toServer output printingEnv] :=
    ⟨trivial, fun _ => command_oneOf _,
      fun _ => Msg.OneOf.append.2 (.inr ⟨output, hmem, .refl output⟩), trivial⟩
  exact ⟨output, hmem, (accepted_from_client_iff plainPrimitives littleHost false (fun _ => 0) noKey
    { crypt := noKey } _ hunforged).2 ⟨trivial, nofun, fun _ _ => hold, trivial⟩⟩

/-- The second answer is accepted by the daemon that has sent it. -/
theorem daemon_accepts_own_answer : ∃ done ∈ answered.serverSent,
    Each (Session.step plainPrimitives littleHost) (Session.Unforged plainPrimitives) freshSession
      [.send commandPlain, .toServer command printingEnv, .toServer done printingEnv] ∧
    ¬ Each (Session.step plainPrimitives littleHost) (Session.FromClient plainPrimitives)
    freshSession
      [.send commandPlain, .toServer command printingEnv, .toServer done printingEnv] := by
  obtain ⟨output, done, hsent, hlen, -, hnew⟩ := answered_serverSent
  have hmem : done ∈ answered.serverSent := by
    rw [hsent]
    exact mem_cons_of_mem output mem_cons_self
  refine ⟨done, hmem, ⟨trivial, fun _ => command_oneOf _,
    fun _ => Msg.OneOf.append.2 (.inr ⟨done, hmem, .refl done⟩), trivial⟩, ?_⟩
  rintro ⟨-, -, hclient, -⟩
  have hpos := (accepted_iff (answered_inv.serverSealed done hmem) (.refl done)).2 hnew
  -- all that the client has sent is the command, which is longer
  obtain ⟨msg, hmsg, hcopy⟩ := hclient hpos
  obtain rfl : msg = command := mem_singleton.1 hmsg
  have hcommand : command.len = 128 := by decide +kernel
  have hne : done.len = command.len := hcopy.len
  rw [hlen, hcommand] at hne
  cases hne

end SourceMaster.Ead
