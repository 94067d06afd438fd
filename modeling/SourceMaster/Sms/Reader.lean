import SourceMaster.Sms.Decode

/-!
# Reading the list of messages

The main program of `smsread.lua` goes through the answer of the modem line by line, decodes the PDU
behind every `+CMGL:` line, and writes the messages for the web interface.

A line is read at three points of the loop. `Point` says at which one the program stands, so that
the loop takes one line per step. The commands that the program starts and the list of the slots to
delete are left out.
-/

namespace SourceMaster.Sms

/-- The slots that were unread before, the option `modem.general.pin`, and which strings `tonumber`
makes 0 of. -/
structure Env where
  slottab : Str → Bool
  gpspin : Option Str
  isZero : Str → Bool

/-! ## Strings -/

def behind (pat : Str) : Str → Option Str
  | [] => if pat = [] then some [] else none
  | b :: s => if pat.isPrefixOf (b :: s) then some ((b :: s).drop pat.length) else behind pat s

def splitComma : Str → Option (Str × Str)
  | [] => none
  | b :: s => if b = 44 then some ([], s) else (splitComma s).map fun r => (b :: r.1, r.2)

def trim (s : Str) : Str := ((s.dropWhile isspace).reverse.dropWhile isspace).reverse

/-! ## A message -/

structure Entry where
  index : Str
  read : Str
  number : Str
  date : Option Str
  time : Option Str
  text : Option Str
  deriving DecidableEq

/-- `readpdu` behind `parse`: it makes an entry unless the PDU is malformed. -/
def enter (index read : Str) (flag : Int) : LuaM (Option Entry) :=
  if flag > 0 then do
    let number ← nonNil (← get).mNumber
    match (← get).mConcat with
    | none => pure ()
    | some concat =>
      let text ← nonNil (← get).mText
      modify fun v => { v with mText := some (concat ++ lit "\n" ++ text) }
    let v ← get
    return some ⟨index, read, number, v.mDate, v.mTime, v.mText⟩
  else return none

def readpdu (index read pdu : Str) : LuaM (Option Entry) := do
  modify fun v => { v with mPdu := pdu, mPduPtr := pdu }
  reset
  enter index read (← parse)

/-- Texts that are commands need no check; another text is cut, which fails on nil, and compared to
the option if it looks like a request for the position. -/
def checkCommand (env : Env) : LuaM Unit := do
  let text := (← get).mText
  if text = some (lit "::reboot!!") ∨ text = some (lit "::restartzt!!") ∨
    text = some (lit "::pwrtoggle!!") then
    return ()
  let text ← nonNil text
  if text.take 3 = lit "GPS" then
    if text = lit "GPS" ∧ env.gpspin = none then return ()
    let _ ← nonNil env.gpspin
    return ()

/-! ## The loop -/

/-- Where a line is read: at the top, behind `+CPMS:`, and behind `+CMGL:` with the status `m_r`,
slot and mark of the message. -/
inductive Point where
  | top
  | behindCounts
  | pdu (r index read : Str)
  deriving DecidableEq

structure Reader where
  vars : Vars
  usedMsg : Str
  maxMsg : Str
  entries : List Entry
  deriving DecidableEq

def Reader.counts (m : Reader) (rest : Str) : Reader :=
  match splitComma rest with
  | none => m
  | some (used, rest) =>
    match splitComma rest with
    | none => { m with usedMsg := trim used }
    | some (max, _) => { m with usedMsg := trim used, maxMsg := trim max }

/-- The mark of a message: two flags for a new one, one for an unseen one, and a tick. -/
def mark (env : Env) (r index : Str) : Str :=
  if r = lit "0" then (word2utf8 0 0x2691 (word2utf8 0 0x2691 []).1).1
  else if env.slottab index then (word2utf8 0 0x2691 (lit " ")).1
  else (word2utf8 0 0x2713 (lit " ")).1

/-- A line that may start a message: the state and the next point, missing if the loop is left. -/
def Reader.listing (env : Env) (m : Reader) (line : Str) : Option (Reader × Option Point) :=
  match behind (lit "+CMGL:") line with
  | none => some (m, some .top)
  | some rest =>
    match splitComma rest with
    | none => none
    | some (index, rest) =>
      match splitComma rest with
      | none => some (m, none)
      | some (r, _) =>
        some ({ m with vars := { m.vars with surrogate := 0 } },
          some (.pdu (trim r) (trim index) (mark env (trim r) (trim index))))

def message (env : Env) (r index read pdu : Str) : LuaM (Option Entry) := do
  let e ← readpdu index read pdu
  if r = lit "0" then checkCommand env
  return e

def onLine (env : Env) : Point → Str → Reader → Option (Reader × Option Point)
  | .top, line, m =>
    match behind (lit "+CPMS:") line with
    | some rest => some (m.counts rest, some .behindCounts)
    | none => m.listing env line
  | .behindCounts, line, m => m.listing env line
  | .pdu r index read, line, m =>
    (message env r index read line m.vars).map fun e =>
      ({ m with vars := e.2, entries := m.entries ++ e.1.toList }, some .top)

def mainLoop (env : Env) : List Str → Point → Reader → Option Reader
  | [], _, m => some m
  | line :: lines, p, m =>
    match onLine env p line m with
    | none => none
    | some (m, none) => some m
    | some (m, some p) => mainLoop env lines p m

/-! ## The writer -/

/-- The text with wide characters replaced, cut after `n` characters: the loop over `j`. -/
def shorten : Nat → Str → Str
  | 0, _ => []
  | _ + 1, [] => []
  | n + 1, ch :: s =>
    if ch = 10 ∨ ch = 13 then 32 :: shorten n s
    else if ch < 127 then ch :: shorten n s
    else
      let k := if ch < 0xE0 then 1 else if ch < 0xF0 then 2 else 3
      ch :: s.take k ++ shorten n (s.drop k)

structure Block where
  slot : Str
  phone : Str
  nline : Nat
  text : Str
  short : Str
  deriving DecidableEq

def Block.bytes (b : Block) : Str :=
  b.slot ++ lit "\n" ++ b.phone ++ lit "\n" ++ tostring b.nline ++ lit "\n" ++ b.text ++ lit "\n" ++
    b.short ++ lit "\n"

def ocount (x : Str) : Nat := x.count 10

def writeEntry (e : Entry) : Option Block := do
  let mtxt ← e.text
  let date ← e.date
  let time ← e.time
  let mn := (e.number ++ List.replicate 20 32).take 20
  let stxt := shorten 20 mtxt
  let stxt := if mtxt ≠ stxt then stxt ++ lit "  ..." else stxt
  return ⟨e.index, e.number, ocount mtxt + 1, mtxt,
    e.read ++ lit " " ++ mn ++ date ++ lit " " ++ time ++ lit "  " ++ stxt⟩

structure Written where
  used : Str
  max : Str
  blocks : List Block

def Written.bytes (w : Written) : Str :=
  w.used ++ lit "\n" ++ w.max ++ lit "\n" ++ w.blocks.flatMap Block.bytes

def write (env : Env) (m : Reader) : Option Written :=
  if env.isZero m.usedMsg then some ⟨m.usedMsg, m.maxMsg, []⟩
  else (m.entries.mapM writeEntry).map fun bs => ⟨m.usedMsg, m.maxMsg, bs⟩

def Reader.start : Reader := ⟨Vars.fresh, lit "0", lit "0", []⟩

/-- The program; `none` is a runtime error. -/
def smsread (env : Env) (lines : List Str) : Option Written :=
  (mainLoop env lines .top .start).bind (write env)

end SourceMaster.Sms
