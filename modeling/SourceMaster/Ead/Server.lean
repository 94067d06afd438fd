import SourceMaster.Ead.Crypt

/-!
# The emergency access daemon

`ead.c` answers broadcast packets. A client names a user, asks for the SRP parameters, sends its
public key and a proof that it knows the password, and may then send commands. `set_state` advances
`state` after a handler; errors of the SRP library keep it, a failed proof and a new user name clear
it.

By `commands_authenticated` no command is executed before the whole exchange. For that, the server
keeps a log of what has happened, which the source does not.
-/

namespace SourceMaster.Ead

open Blocks Runs List Int

/-! ## Packets -/

inductive EadType
  | ping | pong | setUsername | ackUsername | getPrime | prime | sendA | sendB | sendAuth | doneAuth
  | sendCmd | resultCmd
deriving DecidableEq, Repr

def EadType.code : EadType → Int
  | .ping => 0
  | .pong => 1
  | .setUsername => 2
  | .ackUsername => 3
  | .getPrime => 4
  | .prime => 5
  | .sendA => 6
  | .sendB => 7
  | .sendAuth => 8
  | .doneAuth => 9
  | .sendCmd => 10
  | .resultCmd => 11

/-- What is particular to the machine: the width of `size_t` and the byte order. -/
structure Host where
  wide : Bool
  bigEndian : Bool

def Host.sizeMod (h : Host) : Nat := if h.wide then 2 ^ 64 else 2 ^ 32

def sizeofPacket : Nat := 62

/-- A captured packet: `h->len`, the fields that `handle_packet` looks at in host order, and the
memory behind the header. -/
structure Packet where
  len : Nat
  etherType : UInt16
  dhost : Fin 6 → UInt8
  proto : UInt8
  destport : UInt16
  magic : UInt32
  msgLen : UInt32
  type : UInt32
  nid : UInt16
  sid : UInt16
  data : Mem
  -- no link has frames of 2 GiB
  len_lt : len < 2 ^ 31

/-! ## The SRP library and the system -/

/-- The functions of the SRP library on the content `T` of a server object. -/
structure Srp (T : Type) where
  /-- with the random bytes -/
  tServergenexp : Mem → T → T
  /-- the session key, unless the number of the client is refused -/
  tServergetkey : T → List UInt8 → T × Option Mem
  tSerververify : T → (Fin 20 → UInt8) → T × Int

structure Env (T : Type) where
  /-- `prepare_password` for the user, and then `t_serveropenraw` -/
  openServer : List UInt8 → Option T
  random : Mem
  /-- what is in `pktbuf` behind the header of the message -/
  pktbuf : Mem
  /-- whether `pipe` succeeds -/
  pipe : Bool
  /-- what `fork` returns in the daemon -/
  pid : Int
  /-- what is read from the command, one item for each round of the loop -/
  output : List (List UInt8)
  output_le : ∀ out ∈ output, out.length ≤ 1024
  /-- whether the command is still running after the timeout -/
  childPending : Bool

/-- An object of the SRP library, and the how manieth it is. -/
structure Object (T : Type) where
  id : Nat
  content : T

inductive Event
  | setUsername
  | getPrime (id : Nat)
  | sendA (id : Option Nat)
  | key (id : Nat) (skey : Mem)
  | sendAuth (id : Nat) (err : Int)
  | fork (msg : Msg)

def Event.isSetUsername : Event → Bool
  | .setUsername => true
  | _ => false

/-! ## The daemon -/

structure Server (T : Type) where
  state : EadType := .setUsername
  username : List UInt8 := []
  ts : Option (Object T) := none
  /-- `A` -/
  numA : List UInt8 := []
  crypt : Crypt
  /-- how many objects have been opened -/
  opened : Nat := 0
  /-- the process has been stopped by a signal -/
  crashed : Bool := false
  /-- the newest event first -/
  log : List Event := []

section

variable {T : Type} (P : Primitives) (srp : Srp T) (host : Host)

def Server.crash (s : Server T) : Server T := { s with crashed := true }

section

variable (env : Env T)

section

variable (s : Server T)

/-- What `set_state` does when the state advances from the present one. -/
def advance (nstate : EadType) : Server T :=
  match s.state with
  | .setUsername =>
    match env.openServer s.username with
    | none => s
    | some t => { s with ts := some ⟨s.opened, t⟩, opened := s.opened + 1, state := nstate }
  | .getPrime =>
    match s.ts with
    | none => s.crash
    | some o => { s with ts := some ⟨o.id, srp.tServergenexp env.random o.content⟩, state := nstate
      }
  | .sendA =>
    match s.ts with
    | none => s.crash
    | some o =>
      match srp.tServergetkey o.content s.numA with
      | (t, none) => { s with ts := some ⟨o.id, t⟩ }
      | (t, some skey) =>
        { s with
          ts := some ⟨o.id, t⟩
          crypt := eadSetKey host.bigEndian skey s.crypt
          state := nstate
          log := .key o.id skey :: s.log }
  | _ => { s with state := nstate }

def setState (nstate : EadType) : Server T :=
  if s.state = nstate then s
  else if nstate.code < s.state.code then
    if nstate.code < EadType.getPrime.code ∧ EadType.getPrime.code ≤ s.state.code then
      -- `t_serverclose`
      match s.ts with
      | none => s.crash
      | some _ => { s with ts := none, state := nstate }
    else { s with state := nstate }
  else advance srp host env s nstate

section

variable (pkt : Packet)

/-- `handle_set_username`. The name ends at its first zero, and is cut to 31 bytes. -/
def handleSetUsername : Server T × EadType :=
  let s := setState srp host env s .setUsername
  let name := ((List.range 31).map pkt.data).takeWhile (· ≠ 0)
  ({ s with username := name, log := .setUsername :: s.log }, .getPrime)

def handleGetPrime : Server T × EadType :=
  match s.ts with
  | none => (s.crash, s.state)
  | some o => ({ s with log := .getPrime o.id :: s.log }, .sendA)

def MAXPARAMLEN : Int := 256

/-- `handle_send_a`. A negative length is a very large one for `memcpy`. -/
def handleSendA : Server T × EadType :=
  let len := int (pkt.msgLen - 1)
  if MAXPARAMLEN + 1 < len then (s, s.state)
  else if len < 0 then (s.crash, s.state)
  else
    ({ s with
      numA := (List.range len.toNat).map fun i => pkt.data (1 + i)
      log := .sendA (s.ts.map Object.id) :: s.log }, .sendAuth)

def handleSendAuth : Server T × EadType :=
  match s.ts with
  | none => (s.crash, s.state)
  | some o =>
    let (t, err) := srp.tSerververify o.content fun i => pkt.data i
    let s := { s with ts := some ⟨o.id, t⟩, log := .sendAuth o.id err :: s.log }
    if err ≠ 0 then (s, .setUsername) else (s, .sendCmd)

/-! ## Commands -/

inductive EadCmdType
  | normal | background
deriving DecidableEq, Repr

/-- `ntohs(cmd->type)` of a field that has one byte only, and the `switch` on it. -/
def cmdType (b : UInt8) : Option EadCmdType :=
  let type := if host.bigEndian then b.toNat else b.toNat * 256
  if type = 0 then some .normal else if type = 1 then some .background else none

def putBytes (l : List UInt8) (mem : Mem) : Mem :=
    fun i => if 25 ≤ i then l.getD (i - 25) (mem i) else mem i

def answer (c : Crypt) (buf : Mem) (done : UInt8) (data : List UInt8) : Crypt × Msg :=
  eadEncryptMessage P c (putBytes (done :: data) buf) (.ofNat (1 + data.length))

def streamOutput : Crypt → Mem → List (List UInt8) → Crypt × Mem × List Msg
  | c, buf, [] => (c, buf, [])
  | c, buf, out :: outs =>
    let (c, msg) := answer P c buf 0 out
    let (c, buf, msgs) := streamOutput c msg.enc outs
    (c, buf, msg :: msgs)

def finish (c : Crypt) (buf : Mem) (msgs : List Msg) : Crypt × List Msg :=
  let (c, msg) := answer P c buf 1 []
  (c, msgs ++ [msg])

/-- `handle_send_cmd`, with the messages that are sent. The command is executed by the child. -/
def handleSendCmd (msg : Msg) : Server T × List Msg :=
  let (ret, crypt, enc) := eadDecryptMessage P s.crypt msg
  let s := { s with crypt }
  -- `sizeof(struct ead_msg_cmd)` is unsigned, and the difference taken as an `int`
  let datalen := (ret - 3).bmod (2 ^ 32)
  if datalen ≤ 0 then (s, [])
  else
    match cmdType host (enc 25) with
    | none => (s, [])
    | some .normal =>
      if !env.pipe then (s, [])
      else
        let s := { s with log := .fork msg :: s.log }
        if env.pid ≤ 0 then (s, [])
        else
          let (crypt, buf, msgs) := streamOutput P s.crypt env.pktbuf env.output
          if env.childPending then ({ s with crypt }, msgs)
          else
            let (crypt, msgs) := finish P crypt buf msgs
            ({ s with crypt }, msgs)
    | some .background =>
      let s := { s with log := .fork msg :: s.log }
      if env.pid ≤ 0 then (s, [])
      else
        let (crypt, msgs) := finish P s.crypt env.pktbuf []
        ({ s with crypt }, msgs)

/-! ## Dispatch -/

/-- The messages that have a handler, and how long they are at least. -/
def EadType.minLen : EadType → Option Nat
  | .ping => some sizeofPacket
  | .setUsername => some (sizeofPacket + 32)
  | .getPrime => some sizeofPacket
  | .sendA => some (sizeofPacket + 1)
  | .sendAuth => some (sizeofPacket + 20)
  | .sendCmd => some (sizeofPacket + 3 + 25)
  | _ => none

def handle : EadType → Server T × EadType × List Msg
  | .setUsername =>
    let (s, nstate) := handleSetUsername srp host env s pkt
    (s, nstate, [])
  | .getPrime =>
    let (s, nstate) := handleGetPrime s
    (s, nstate, [])
  | .sendA =>
    let (s, nstate) := handleSendA s pkt
    (s, nstate, [])
  | .sendAuth =>
    let (s, nstate) := handleSendAuth srp s pkt
    (s, nstate, [])
  | .sendCmd =>
    let nstate := s.state
    let (s, msgs) := handleSendCmd P host env s ⟨pkt.msgLen, pkt.data⟩
    (s, nstate, msgs)
  | _ => (s, s.state, [])

/-- The state is set after the handler, if the process is still there. -/
def runHandler (type : EadType) : Server T × List Msg :=
  let (s, nstate, msgs) := handle P srp host env s pkt type
  if s.crashed then (s, msgs) else (setState srp host env s nstate, msgs)

end

end

end

def typeOf (type : UInt32) : Option EadType :=
  [EadType.ping, .pong, .setUsername, .ackUsername, .getPrime, .prime, .sendA, .sendB, .sendAuth,
    .doneAuth, .sendCmd, .resultCmd].find? fun t => t.code == int type

structure Instance where
  id : Int
  nid : UInt16

variable (inst : Instance)

def parseMessage (env : Env T) (s : Server T) (pkt : Packet) : Server T × List Msg :=
  if EadType.getPrime.code ≤ int pkt.type ∧ s.state.code ≠ int pkt.type then (s, [])
  else if int pkt.type ≠ EadType.ping.code ∧
    ((pkt.sid &&& 0xf000) >>> 12).toNat ≠ inst.id then (s, [])
  else
    match typeOf pkt.type with
    | none => (s, [])
    | some type =>
      match type.minLen with
      | none => (s, [])
      | some minLen =>
        if pkt.len < minLen then (s, []) else runHandler P srp host env s pkt type

def ETHERTYPE_IP : UInt16 := 0x0800
def UIP_PROTO_UDP : UInt8 := 17
def EAD_PORT : UInt16 := 56026
def EAD_MAGIC : UInt32 := 3671771902

def handlePacket (env : Env T) (s : Server T) (pkt : Packet) : Server T × List Msg :=
  if pkt.len < sizeofPacket then (s, [])
  else if pkt.etherType ≠ ETHERTYPE_IP then (s, [])
  else if ¬ ∀ i, pkt.dhost i = 0xff then (s, [])
  else if pkt.proto ≠ UIP_PROTO_UDP then (s, [])
  else if pkt.destport ≠ EAD_PORT then (s, [])
  else if pkt.magic ≠ EAD_MAGIC then (s, [])
  -- the sum can overflow where `size_t` has 32 bits
  else if pkt.len < (sizeofPacket + pkt.msgLen.toNat) % host.sizeMod then (s, [])
  else if pkt.nid ≠ 0xffff ∧ pkt.nid ≠ inst.nid then (s, [])
  else parseMessage P srp host inst env s pkt

def Server.step (s : Server T) (input : Packet × Env T) : Server T :=
  if s.crashed then s else (handlePacket P srp host inst input.2 s input.1).1

end

/-! ## What has to come before a command -/

/-- The message decrypts under the key with a matching hash. -/
structure HashMatches (P : Primitives) (key : Fin 32 → UInt8) (msg : Msg) : Prop where
  pos : 0 < int msg.len
  blocks : int msg.len % 64 = 0
  hash : let enc := mapBlocks (P.rijndaelDecrypt key) (rounds (int msg.len) 16) msg.enc
    ∀ i, getHash enc i = (eadHashMessage P enc (int msg.len)).1 i

/-- What has happened since the last user name was accepted. -/
def session (log : List Event) : List Event := log.takeWhile fun e => !e.isSetUsername

/-- Before the message a user name was accepted, then the prime was asked for, the number of the
client gave a key and its proof was verified, in this order and on one object; the message decrypts
under the key. -/
def Authenticated (P : Primitives) (log : List Event) (msg : Msg) : Prop :=
  Event.setUsername ∈ log ∧ ∃ id skey,
    [.sendAuth id 0, .key id skey, .sendA (some id), .getPrime id].Sublist (session log) ∧
      HashMatches P (fun i => skey i) msg

def Authentic (P : Primitives) : List Event → Prop
  | [] => True
  | e :: log => (∀ msg, e = .fork msg → Authenticated P log msg) ∧ Authentic P log

inductive Progress {T : Type} (ts : Option (Object T)) (key : Fin 32 → UInt8) (log : List Event) :
    EadType → Prop
  | idle (hts : ts = none) : Progress ts key log .setUsername
  | opened (o : Object T) (hts : ts = some o) (hname : Event.setUsername ∈ log) :
      Progress ts key log .getPrime
  | primed (o : Object T) (hts : ts = some o) (hname : Event.setUsername ∈ log)
      (hlog : [.getPrime o.id].Sublist (session log)) : Progress ts key log .sendA
  | keyed (o : Object T) (skey : Mem) (hts : ts = some o) (hname : Event.setUsername ∈ log)
      (hlog : [.key o.id skey, .sendA (some o.id), .getPrime o.id].Sublist (session log))
      (hkey : key = fun i : Fin 32 => skey i) : Progress ts key log .sendAuth
  | verified (o : Object T) (skey : Mem) (hts : ts = some o) (hname : Event.setUsername ∈ log)
      (hlog : [.sendAuth o.id 0, .key o.id skey, .sendA (some o.id), .getPrime o.id].Sublist
        (session log)) (hkey : key = fun i : Fin 32 => skey i) : Progress ts key log .sendCmd

structure Server.Inv {T : Type} (P : Primitives) (s : Server T) : Prop where
  authentic : Authentic P s.log
  progress : Progress s.ts s.crypt.key s.log s.state

lemma session_cons {e : Event} (he : e.isSetUsername = false) (log : List Event) :
    session (e :: log) = e :: session log := by
  simp [session, he]

lemma Authentic.cons {P : Primitives} {log : List Event} (h : Authentic P log) {e : Event}
    (he : ∀ msg, e ≠ .fork msg) : Authentic P (e :: log) :=
  ⟨fun msg hmsg => absurd hmsg (he msg), h⟩

section

variable {T : Type} {P : Primitives} {srp : Srp T} {host : Host} {env : Env T} {s : Server T}
  {pkt : Packet}

variable {ts : Option (Object T)} {nstate : EadType} {o : Object T} {log : List Event}
  {state : EadType} {key : Fin 32 → UInt8}

lemma Progress.object (h : Progress ts key log state) :
    state = .setUsername ∧ ts = none ∨ EadType.getPrime.code ≤ state.code ∧ ∃ o, ts = some o := by
  cases h with
  | idle hts => exact .inl ⟨rfl, hts⟩
  | opened o hts | primed o hts | keyed o skey hts | verified o skey hts =>
    exact .inr ⟨by decide, o, hts⟩

lemma Progress.log_cons (h : Progress ts key log state) {e : Event}
    (he : e.isSetUsername = false) : Progress ts key (e :: log) state := by
  have hsub {l : List Event} (hl : l.Sublist (session log)) : l.Sublist (session (e :: log)) := by
    rw [session_cons he]
    exact hl.cons e
  cases h with
  | idle hts => exact .idle hts
  | opened o hts hname => exact .opened o hts (mem_cons_of_mem e hname)
  | primed o hts hname hlog => exact .primed o hts (mem_cons_of_mem e hname) (hsub hlog)
  | keyed o skey hts hname hlog hkey =>
    exact .keyed o skey hts (mem_cons_of_mem e hname) (hsub hlog) hkey
  | verified o skey hts hname hlog hkey =>
    exact .verified o skey hts (mem_cons_of_mem e hname) (hsub hlog) hkey

/-! ## The handlers -/

lemma Server.Inv.crash (h : s.Inv P) : s.crash.Inv P := ⟨h.authentic, h.progress⟩

lemma setState_setUsername (h : Progress s.ts s.crypt.key s.log s.state) :
    setState srp host env s .setUsername = { s with ts := none, state := .setUsername } := by
  unfold setState
  obtain ⟨hstate, hts⟩ | ⟨hcode, o, hts⟩ := h.object
  · rw [if_pos hstate, ← hstate, ← hts]
  have hlt : EadType.setUsername.code < s.state.code := lt_of_lt_of_le (by decide) hcode
  have hne : s.state ≠ .setUsername := by
    intro heq
    rw [heq] at hlt
    exact lt_irrefl _ hlt
  rw [if_neg hne, if_pos hlt, if_pos ⟨by decide, hcode⟩, hts]

lemma setState_advance (h : s.state.code < nstate.code) :
    setState srp host env s nstate = advance srp host env s nstate := by
  have hne : s.state ≠ nstate := by
    rintro rfl
    exact lt_irrefl _ h
  rw [setState, if_neg hne, if_neg (not_lt.2 (le_of_lt h))]

lemma setState_self : setState srp host env s s.state = s := by
  rw [setState, if_pos rfl]

/-! From each state to the next, once the handler has done its part. -/

section

variable (s : Server T)

section

variable (hauth : Authentic P s.log)
include hauth

lemma Server.Inv.toGetPrime
    (hstate : s.state = .setUsername) (hts : s.ts = none) (hname : Event.setUsername ∈ s.log) :
    (setState srp host env s .getPrime).Inv P := by
  obtain ⟨state, username, ts, numA, crypt, opened, crashed, log⟩ := s
  obtain rfl : state = .setUsername := hstate
  obtain rfl : ts = none := hts
  rw [setState_advance (show EadType.setUsername.code < EadType.getPrime.code by decide)]
  unfold advance
  cases env.openServer username with
  | none => exact ⟨hauth, .idle rfl⟩
  | some t => exact ⟨hauth, .opened _ rfl hname⟩

lemma Server.Inv.toSendA (hstate : s.state = .getPrime)
    (hts : s.ts = some o) (hname : Event.setUsername ∈ s.log)
    (hlog : [.getPrime o.id].Sublist (session s.log)) : (setState srp host env s .sendA).Inv P := by
  obtain ⟨state, username, ts, numA, crypt, opened, crashed, log⟩ := s
  obtain rfl : state = .getPrime := hstate
  obtain rfl : ts = some o := hts
  exact ⟨hauth, .primed ⟨o.id, _⟩ rfl hname hlog⟩

lemma Server.Inv.toSendAuth (hstate : s.state = .sendA)
    (hts : s.ts = some o) (hname : Event.setUsername ∈ s.log)
    (hlog : [.sendA (some o.id), .getPrime o.id].Sublist (session s.log)) :
    (setState srp host env s .sendAuth).Inv P := by
  obtain ⟨state, username, ts, numA, crypt, opened, crashed, log⟩ := s
  obtain rfl : state = .sendA := hstate
  obtain rfl : ts = some o := hts
  rw [setState_advance (show EadType.sendA.code < EadType.sendAuth.code by decide)]
  unfold advance
  dsimp only
  obtain ⟨t, _ | skey⟩ := srp.tServergetkey o.content numA
  · -- the number is refused, and the state stays
    exact ⟨hauth, .primed ⟨o.id, t⟩ rfl hname ((sublist_cons_self _ _).trans hlog)⟩
  · refine ⟨hauth.cons nofun, .keyed ⟨o.id, t⟩ skey rfl (mem_cons_of_mem _ hname) ?_ rfl⟩
    exact hlog.cons_cons _

end

lemma Server.Inv.toSendCmd {skey : Mem} (hauth : Authentic P s.log)
    (hstate : s.state = .sendAuth) (hts : s.ts = some o) (hname : Event.setUsername ∈ s.log)
    (hlog : [.sendAuth o.id 0, .key o.id skey, .sendA (some o.id), .getPrime o.id].Sublist
    (session s.log))
    (hkey : s.crypt.key = fun i : Fin 32 => skey i) : (setState srp host env s .sendCmd).Inv P := by
  obtain ⟨state, username, ts, numA, crypt, opened, crashed, log⟩ := s
  obtain rfl : state = .sendAuth := hstate
  exact ⟨hauth, .verified o skey hts hname hlog hkey⟩

lemma Server.Inv.toSetUsername (hauth : Authentic P s.log)
    (h : Progress s.ts s.crypt.key s.log s.state) :
    (setState srp host env s .setUsername).Inv P := by
  rw [setState_setUsername h]
  exact ⟨hauth, .idle rfl⟩

end

/-! ## The handlers -/

lemma runHandler_of_eq {type : EadType} {s' : Server T} {msgs : List Msg}
    (h : handle P srp host env s pkt type = (s', nstate, msgs)) :
    (runHandler P srp host env s pkt type).1 =
      if s'.crashed then s' else setState srp host env s' nstate := by
  rw [runHandler, h]
  dsimp only
  split <;> rfl

variable (hrun : s.crashed = false)
include hrun

lemma Server.Inv.handleSetUsername (h : s.Inv P) :
    (runHandler P srp host env s pkt .setUsername).1.Inv P := by
  rw [runHandler_of_eq rfl]
  unfold Ead.handleSetUsername
  rw [setState_setUsername h.progress]
  rw [hrun, if_neg Bool.false_ne_true]
  exact .toGetPrime _ (h.authentic.cons nofun) rfl rfl mem_cons_self

lemma Server.Inv.handleGetPrime (h : s.Inv P) (hstate : s.state = .getPrime) :
    (runHandler P srp host env s pkt .getPrime).1.Inv P := by
  have hprogress := h.progress
  rw [hstate] at hprogress
  cases hprogress with
  | opened o hts hname =>
    have heq : Ead.handleGetPrime s = ({ s with log := .getPrime o.id :: s.log }, .sendA) := by
      rw [Ead.handleGetPrime, hts]
    rw [runHandler_of_eq rfl, heq]
    rw [hrun, if_neg Bool.false_ne_true]
    refine .toSendA _ (h.authentic.cons nofun) hstate hts (mem_cons_of_mem _ hname) ?_
    exact (nil_sublist _).cons_cons _

lemma Server.Inv.handleSendA (h : s.Inv P) (hstate : s.state = .sendA) :
    (runHandler P srp host env s pkt .sendA).1.Inv P := by
  have hprogress := h.progress
  rw [hstate] at hprogress
  cases hprogress with
  | primed o hts hname hlog =>
    rw [runHandler_of_eq rfl]
    by_cases hlong : MAXPARAMLEN + 1 < int (pkt.msgLen - 1)
    · have heq : Ead.handleSendA s pkt = (s, s.state) := if_pos hlong
      rw [heq, hrun, if_neg Bool.false_ne_true, setState_self]
      exact h
    by_cases hneg : int (pkt.msgLen - 1) < 0
    · have heq : Ead.handleSendA s pkt = (s.crash, s.state) := (if_neg hlong).trans (if_pos hneg)
      rw [heq]
      exact h.crash
    have heq : Ead.handleSendA s pkt = _ := (if_neg hlong).trans (if_neg hneg)
    rw [heq]
    rw [hrun, if_neg Bool.false_ne_true]
    refine .toSendAuth _ (h.authentic.cons nofun) hstate hts (mem_cons_of_mem _ hname) ?_
    rw [hts, session_cons rfl]
    exact hlog.cons_cons _

lemma Server.Inv.handleSendAuth (h : s.Inv P) (hstate : s.state = .sendAuth) :
    (runHandler P srp host env s pkt .sendAuth).1.Inv P := by
  have hprogress := h.progress
  rw [hstate] at hprogress
  cases hprogress with
  | keyed o skey hts hname hlog hkey =>
    obtain ⟨t, err, hres⟩ : ∃ t err, srp.tSerververify o.content (fun i => pkt.data i) = (t, err) :=
      ⟨_, _, rfl⟩
    have heq : Ead.handleSendAuth srp s pkt =
        ({ s with ts := some ⟨o.id, t⟩, log := .sendAuth o.id err :: s.log },
          if err ≠ 0 then .setUsername else .sendCmd) := by
      unfold Ead.handleSendAuth
      simp only [hts, hres]
      split <;> rfl
    rw [runHandler_of_eq rfl, heq]
    rw [hrun, if_neg Bool.false_ne_true]
    have hauth : Authentic P (.sendAuth o.id err :: s.log) := h.authentic.cons nofun
    have hmem : Event.setUsername ∈ .sendAuth o.id err :: s.log := mem_cons_of_mem _ hname
    by_cases herr : err = 0
    · subst herr
      refine .toSendCmd _ hauth hstate rfl hmem ?_ hkey
      exact hlog.cons_cons _
    rw [if_pos herr]
    refine .toSetUsername _ hauth ?_
    rw [hstate]
    refine .keyed ⟨o.id, t⟩ skey rfl hmem ?_ hkey
    rw [session_cons rfl]
    exact hlog.cons _

end

/-! ## Commands -/

variable (P : Primitives) (c : Crypt) {msg : Msg}

lemma eadDecryptMessage_key (msg : Msg) : (eadDecryptMessage P c msg).2.1.key = c.key := by
  obtain ⟨-, mem, h⟩ | ⟨-, ret, iv, mem, -, h, -⟩ := eadDecryptMessage_cases P c msg
  · rw [h]
  · rw [h]

lemma eadDecryptMessage_ne_zero {P : Primitives} {c : Crypt}
    (h : (eadDecryptMessage P c msg).1 ≠ 0) :
    msg.Reaches P c ∧ msg.HashOk P c.key ∧
      (eadDecryptMessage P c msg).1 =
      int (msg.len - ((msg.plain P c.key 24).toUInt32 + sizeofEncrypted)) := by
  obtain ⟨-, mem, hdec⟩ | ⟨hreach, ret, iv, mem, -, hdec, hok, hbad⟩ :=
    eadDecryptMessage_cases P c msg
  · rw [hdec] at h
    exact absurd rfl h
  rw [hdec] at h ⊢
  have hhash : msg.HashOk P c.key := by
    by_contra hhash
    exact h (hbad hhash)
  exact ⟨hreach, hhash, hok hhash⟩

/-- The messages that pass the check of their length; if the sum overflows, the length is a small
negative number. -/
def Fits (len : UInt32) : Prop := len.toNat < 2 ^ 31 ∨ 2 ^ 32 - sizeofPacket ≤ len.toNat

lemma fits_of_check {host : Host} {pkt : Packet}
    (h : ¬ pkt.len < (sizeofPacket + pkt.msgLen.toNat) % host.sizeMod) : Fits pkt.msgLen := by
  have hlen := pkt.len_lt
  unfold Host.sizeMod at h
  unfold Fits sizeofPacket at *
  split at h <;> omega

lemma toNat_sub_pad {len pad : UInt32} (hpad : pad.toNat < 64) :
    (len - (pad + sizeofEncrypted)).toNat = (2 ^ 32 - (pad.toNat + 25) + len.toNat) % 2 ^ 32 := by
  have h25 : sizeofEncrypted.toNat = 25 := rfl
  rw [UInt32.toNat_sub, UInt32.toNat_add, h25]
  omega

lemma bmod_nonpos {len pad : UInt32} (hfits : Fits len) (hlen : int len ≤ 0)
    (hpad : pad.toNat < 64) : (int (len - (pad + sizeofEncrypted)) - 3).bmod (2 ^ 32) ≤ 0 := by
  unfold Fits sizeofPacket at hfits
  unfold int at hlen ⊢
  rw [toNat_sub_pad hpad, bmod_def]
  split_ifs at hlen ⊢ <;> omega

lemma ne_zero_of_pos {P : Primitives} {c : Crypt}
    (hpos : ¬ ((eadDecryptMessage P c msg).1 - 3).bmod (2 ^ 32) ≤ 0) :
    (eadDecryptMessage P c msg).1 ≠ 0 := by
  intro h
  rw [h] at hpos
  exact hpos (by decide)

lemma hashMatches_of_pos {P : Primitives} {c : Crypt} (hfits : Fits msg.len)
    (hpos : ¬ ((eadDecryptMessage P c msg).1 - 3).bmod (2 ^ 32) ≤ 0) : HashMatches P c.key msg := by
  obtain ⟨⟨hsize, hpad, -⟩, hhash, hret⟩ := eadDecryptMessage_ne_zero (ne_zero_of_pos hpos)
  rw [hret] at hpos
  have hlen : 0 < int msg.len := by
    rw [← not_le]
    exact fun h => hpos (bmod_nonpos hfits h hpad)
  refine ⟨hlen, ?_, hhash⟩
  rw [not_or, tmod_eq_emod_of_nonneg hlen.le] at hsize
  omega

/-! The answers are encrypted under the same key, and are not empty. -/

def Msg.Sealed (P : Primitives) (key : Fin 32 → UInt8) (msg : Msg) : Prop :=
  ∃ c enc len, c.key = key ∧ 0 < len.toNat ∧ len.toNat < 2 ^ 31 ∧
    msg = (eadEncryptMessage P c enc len).2

lemma answer_sealed (buf : Mem) (done : UInt8) {data : List UInt8} (h : data.length ≤ 1024) :
    (answer P c buf done data).2.Sealed P c.key := by
  have hlen : (UInt32.ofNat (1 + data.length)).toNat = 1 + data.length := by
    rw [UInt32.toNat_ofNat']
    omega
  exact ⟨c, _, _, rfl, by omega, by omega, rfl⟩

lemma streamOutput_spec (outs : List (List UInt8)) (hlen : ∀ out ∈ outs, out.length ≤ 1024)
    (c : Crypt) (buf : Mem) : (streamOutput P c buf outs).1.key = c.key ∧
      ∀ msg ∈ (streamOutput P c buf outs).2.2, msg.Sealed P c.key := by
  induction outs generalizing c buf with
  | nil => exact ⟨rfl, nofun⟩
  | cons out outs ih =>
    obtain ⟨hkey, hsealed⟩ := ih (fun o ho => hlen o (mem_cons_of_mem out ho))
      (answer P c buf 0 out).1 (answer P c buf 0 out).2.enc
    refine ⟨hkey, fun msg hmsg => ?_⟩
    obtain rfl | hmsg := mem_cons.1 hmsg
    · exact answer_sealed P c buf 0 (hlen out mem_cons_self)
    · exact hsealed msg hmsg

lemma finish_spec (P : Primitives) (c : Crypt) (buf : Mem) {msgs : List Msg}
    (h : ∀ msg ∈ msgs, msg.Sealed P c.key) : (finish P c buf msgs).1.key = c.key ∧
      ∀ msg ∈ (finish P c buf msgs).2, msg.Sealed P c.key := by
  refine ⟨rfl, fun msg hmsg => ?_⟩
  obtain hmsg | hmsg := mem_append.1 hmsg
  · exact h msg hmsg
  · rw [mem_singleton.1 hmsg]
    exact answer_sealed P c buf 1 (Nat.zero_le 1024)

section

variable {T : Type} {P : Primitives} {srp : Srp T} {host : Host} {env : Env T} {s : Server T}
  {inst : Instance} {pkt : Packet}

lemma handleSendCmd_cases (msg : Msg) : ∃ crypt : Crypt, crypt.key = s.crypt.key ∧
    (∀ msg' ∈ (handleSendCmd P host env s msg).2, msg'.Sealed P s.crypt.key) ∧
    ((handleSendCmd P host env s msg).1 = { s with crypt } ∨
      ¬ ((eadDecryptMessage P s.crypt msg).1 - 3).bmod (2 ^ 32) ≤ 0 ∧
        (handleSendCmd P host env s msg).1 = { s with crypt, log := .fork msg :: s.log }) := by
  have hkey := eadDecryptMessage_key P s.crypt msg
  obtain ⟨ret, crypt, enc, hdec⟩ : ∃ ret crypt enc, eadDecryptMessage P s.crypt msg =
    (ret, crypt, enc) :=
    ⟨_, _, _, rfl⟩
  rw [hdec] at hkey
  unfold handleSendCmd
  rw [hdec, ← hkey]
  dsimp only
  by_cases hlen : (ret - 3).bmod (2 ^ 32) ≤ 0
  · rw [if_pos hlen]
    exact ⟨crypt, rfl, nofun, .inl rfl⟩
  rw [if_neg hlen]
  match cmdType host (enc 25) with
  | none => exact ⟨crypt, rfl, nofun, .inl rfl⟩
  | some .normal =>
    dsimp only
    split
    next => exact ⟨crypt, rfl, nofun, .inl rfl⟩
    next =>
      split
      next => exact ⟨crypt, rfl, nofun, .inr ⟨hlen, rfl⟩⟩
      next =>
        obtain ⟨hout, hsealed⟩ := streamOutput_spec P env.output env.output_le crypt env.pktbuf
        split
        next => exact ⟨_, hout, hsealed, .inr ⟨hlen, rfl⟩⟩
        next =>
          rw [← hout] at hsealed
          obtain ⟨hlast, hsealed⟩ :=
            finish_spec P _ (streamOutput P crypt env.pktbuf env.output).2.1 hsealed
          rw [hout] at hlast hsealed
          exact ⟨_, hlast, hsealed, .inr ⟨hlen, rfl⟩⟩
  | some .background =>
    dsimp only
    split
    next => exact ⟨crypt, rfl, nofun, .inr ⟨hlen, rfl⟩⟩
    next =>
      obtain ⟨hlast, hsealed⟩ := @finish_spec P crypt env.pktbuf [] nofun
      exact ⟨_, hlast, hsealed, .inr ⟨hlen, rfl⟩⟩

lemma Server.Inv.handleSendCmd (h : s.Inv P) (hrun : s.crashed = false)
    (hstate : s.state = .sendCmd) (hfits : Fits pkt.msgLen) :
    (runHandler P srp host env s pkt .sendCmd).1.Inv P := by
  have hprogress := h.progress
  rw [runHandler_of_eq rfl]
  obtain ⟨crypt, hkey, -, heq | ⟨hpos, heq⟩⟩ :=
    @handleSendCmd_cases T P host env s ⟨pkt.msgLen, pkt.data⟩
  · rw [heq, hrun, if_neg Bool.false_ne_true]
    rw [setState, if_pos rfl]
    refine ⟨h.authentic, ?_⟩
    rw [hkey]
    exact hprogress
  · rw [heq, hrun, if_neg Bool.false_ne_true]
    rw [setState, if_pos rfl]
    have hnext : Progress s.ts s.crypt.key (.fork ⟨pkt.msgLen, pkt.data⟩ :: s.log) s.state :=
      hprogress.log_cons rfl
    rw [hstate] at hprogress
    cases hprogress with
    | verified o skey hts hname hlog hskey =>
      refine ⟨⟨?_, h.authentic⟩, ?_⟩
      · rintro msg ⟨⟩
        refine ⟨hname, o.id, skey, hlog, ?_⟩
        rw [← hskey]
        exact hashMatches_of_pos hfits hpos
      · rw [hkey]
        exact hnext

/-! ## Packets -/

lemma typeOf_code {type : UInt32} {t : EadType} (h : typeOf type = some t) :
    t.code = int type := by
  simpa using find?_some h

lemma code_injective {t t' : EadType} (h : t.code = t'.code) : t = t' := by
  cases t <;> cases t' <;> first | rfl | cases h

lemma Server.Inv.parseMessage (h : s.Inv P) (hrun : s.crashed = false) (hfits : Fits pkt.msgLen) :
    (parseMessage P srp host inst env s pkt).1.Inv P := by
  unfold Ead.parseMessage
  split
  next => exact h
  next hstate =>
    split
    next => exact h
    next =>
      cases htype : typeOf pkt.type with
      | none => exact h
      | some type =>
        have hcode := typeOf_code htype
        -- the messages from `GET_PRIME` on are taken in their own state only
        have heq : EadType.getPrime.code ≤ type.code → s.state = type := by
          intro hle
          rw [← hcode, not_and, not_not] at hstate
          exact code_injective (hstate hle)
        dsimp only
        cases hmin : type.minLen with
        | none => exact h
        | some minLen =>
          dsimp only
          split
          next => exact h
          next =>
            match type with
            | .ping =>
              rw [runHandler_of_eq rfl, hrun, if_neg Bool.false_ne_true, setState_self]
              exact h
            | .setUsername => exact h.handleSetUsername hrun
            | .getPrime => exact h.handleGetPrime hrun (heq (by decide))
            | .sendA => exact h.handleSendA hrun (heq (by decide))
            | .sendAuth => exact h.handleSendAuth hrun (heq (by decide))
            | .sendCmd => exact h.handleSendCmd hrun (heq (by decide)) hfits
            | .pong | .ackUsername | .prime | .sendB | .doneAuth | .resultCmd => cases hmin

lemma Server.Inv.handlePacket (h : s.Inv P)
    (hrun : s.crashed = false) : (handlePacket P srp host inst env s pkt).1.Inv P := by
  unfold Ead.handlePacket
  split_ifs with h1 h2 h3 h4 h5 h6 hlen h8
  · exact h
  · exact h
  · exact h
  · exact h
  · exact h
  · exact h
  · exact h
  · exact h.parseMessage hrun (fits_of_check hlen)
  · exact h

lemma Server.Inv.step (h : s.Inv P) (input : Packet × Env T) :
    (s.step P srp host inst input).Inv P := by
  unfold Server.step
  split
  next => exact h
  next hrun => exact h.handlePacket (Bool.eq_false_iff.2 hrun)

end

def Server.start {T : Type} (crypt : Crypt) : Server T := { crypt }

/-- Every command that is executed was authenticated before, and a handler that uses an object of
the SRP library has one. -/
theorem commands_authenticated {T : Type} (P : Primitives) (srp : Srp T) (host : Host)
    (inst : Instance)
    (crypt : Crypt) (inputs : List (Packet × Env T)) : Always (Server.step P srp host inst)
      (fun s => Authentic P s.log ∧ (EadType.getPrime.code ≤ s.state.code → s.ts.isSome))
      (Server.start crypt) inputs := by
  have hobject : ∀ s : Server T, s.Inv P →
      Authentic P s.log ∧ (EadType.getPrime.code ≤ s.state.code → s.ts.isSome) := by
    intro s hs
    refine ⟨hs.authentic, fun hcode => ?_⟩
    obtain ⟨hstate, -⟩ | ⟨-, o, hts⟩ := hs.progress.object
    · rw [hstate] at hcode
      cases hcode
    · rw [hts]
      rfl
  have hstart : (Server.start crypt : Server T).Inv P := ⟨trivial, .idle rfl⟩
  exact always_of_step hobject (fun s input hs => hs.step input) inputs hstart

end SourceMaster.Ead
