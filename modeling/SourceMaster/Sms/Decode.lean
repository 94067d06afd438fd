import SourceMaster.Sms.Encode
import SourceMaster.Lib.Utf8

/-!
# Decoding a message

The functions of `smsread.lua` that read a PDU. The program keeps its state in global variables;
they are the fields of `Vars`, and a function that changes them is a program in the state monad
`LuaM`, in which `none` is a Lua runtime error. Functions report that a PDU is malformed by a number
below one. Variables that are set but never read (the service centre, the flags for reports,
replacement and flash messages) are left out.
-/

namespace SourceMaster.Sms

/-- The variables of the program that outlive a function call; `none` is nil. -/
structure Vars where
  surrogate : Nat
  gTableNbr : Option Nat
  mPdu : Str
  mPduPtr : Str
  mWithUdh : Nat
  mNumber : Option Str
  mAlphabet : Int
  mDcs : Option Nat
  mDate : Option Str
  mTime : Option Str
  mText : Option Str
  mConcat : Option Str
  deriving DecidableEq

abbrev LuaM := StateT Vars Option

def luaError {α : Type} : LuaM α := fun _ => none

def nonNil {α : Type} : Option α → LuaM α
  | none => luaError
  | some a => pure a

section Run

variable {α β : Type} (v : Vars)

@[simp] lemma run_pure (a : α) : (pure a : LuaM α) v = some (a, v) := rfl

@[simp] lemma run_bind (x : LuaM α) (f : α → LuaM β) : (x >>= f) v = (x v).bind fun r =>
    f r.1 r.2 := rfl

@[simp] lemma run_get : (get : LuaM Vars) v = some (v, v) := rfl

@[simp] lemma run_set (w : Vars) : (set w : LuaM PUnit) v = some ((), w) := rfl

@[simp] lemma run_modify (f : Vars → Vars) : (modify f : LuaM PUnit) v = some ((), f v) := rfl

@[simp] lemma run_luaError : (luaError : LuaM α) v = none := rfl

@[simp] lemma run_nonNil (o : Option α) : nonNil o v = o.map fun a => (a, v) := by
  cases o <;> rfl

@[simp] lemma run_ite (c : Prop) [Decidable c] (x y : LuaM α) :
    (if c then x else y) v = if c then x v else y v := by
  split_ifs <;> rfl

end Run

/-! ## Octets -/

def octet2bin (b1 b2 : Nat) : Nat :=
  (if b1 > 57 then b1 - 55 else b1 - 48) * 16 + (if b2 > 57 then b2 - 55 else b2 - 48)

/-- `octet2bin_check`: negative if there are no two hexadecimal digits. -/
def octet2binCheck (octet : Str) : Int :=
  match octet with
  | [] => -3
  | b1 :: rest =>
    if b1 = 0 then -1
    else if rest.head? = some 0 then -2
    else if !isxdigit b1 then -3
    else
      match rest with
      | [] => -4
      | b2 :: _ => if !isxdigit b2 then -4 else octet2bin b1 b2

def swapPairs : Str → Str
  | a :: b :: rest => b :: a :: swapPairs rest
  | _ => []

def swapchars (s : Str) : Option Str := if s.length < 2 then none else some (swapPairs s)

/-! ## Characters -/

def boxChar : Str := [0xe2, 0x96, 0xa1]

/-- `word2utf8`, with the variable `surrogate` as an argument and a result. -/
def word2utf8 (surrogate i : Nat) (txt : Str) : Str × Nat :=
  if surrogate > 0 then
    if i ≥ 0xDC00 ∧ i ≤ 0xDFFF then
      let ii := 0x10000 + bitand i 0x3FF + bitleft (bitand surrogate 0x3FF) 10
      (txt ++ [bitor 0xF0 (bitright (bitand ii 0x1C0000) 18),
        bitor 0x80 (bitright (bitand ii 0x3F000) 12),
        bitor 0x80 (bitright (bitand ii 0xFC0) 6), bitor 0x80 (bitand ii 0x3F)], 0)
    else (txt ++ boxChar, 0)
  else if i ≥ 0xD800 ∧ i ≤ 0xDBFF then (txt, i)
  else if i ≥ 0xDC00 ∧ i ≤ 0xDFFF then (txt ++ boxChar, surrogate)
  else if i < 0x80 then (txt ++ [i], surrogate)
  else if i < 0x800 then
    (txt ++ [bitor 0xC0 (bitright (bitand i 0x7C0) 6), bitor 0x80 (bitand i 0x3F)], surrogate)
  else if i = 0x2029 then (txt ++ [10], surrogate)
  else
    (txt ++ [bitor 0xE0 (bitright (bitand i 0xF000) 12), bitor 0x80 (bitright (bitand i 0xFC0) 6),
      bitor 0x80 (bitand i 0x3F)], surrogate)

def gTable1 : List (Nat × Nat) :=
  [(1, 163), (2, 36), (3, 165), (4, 232), (5, 233), (6, 249), (7, 236), (8, 242), (9, 199),
    (10, 10),
    (11, 216), (12, 248), (13, 13), (14, 197), (15, 229), (16, 0x394), (17, 95), (18, 0x3A6),
      (19, 0x393),
    (20, 0x39B), (21, 0x3A9), (22, 0x3A0), (23, 0x3A8), (24, 0x3A3), (25, 0x398), (26, 0x39E),
      (0, 64),
    (28, 198), (29, 230), (30, 223), (31, 201), (36, 164), (64, 161), (91, 196), (92, 214),
      (93, 209),
    (94, 220), (95, 167), (96, 191), (123, 228), (124, 246), (125, 241), (126, 252), (127, 224)]

def gTable2 : List (Nat × Nat) :=
  [(10, 10), (20, 94), (40, 123), (41, 125), (47, 92), (60, 91), (61, 126), (62, 93), (64, 124),
    (101, 0x20AC)]

/-- `gsm2byte`, with the global variable `g_table_nbr` as an argument and a result. -/
def gsm2byte (gTableNbr : Option Nat) (ch : Nat) : Nat × Option Nat :=
  if gTableNbr = some 2 then ((gTable2.lookup ch).getD 63, some 1)
  else if ch = 27 then (ch, some 2)
  else ((gTable1.lookup ch).getD ch, gTableNbr)

/-! ## User data -/

/-- `concatinfo`: the new value of `m_concat`. A round drops at least four characters. -/
def concatLoop : Nat → Str → Option Str → Option (Option Str)
  | 0, _, concat => some concat
  | n + 1, x, concat =>
    if x.length ≤ 9 then some concat
    else if x.take 4 = lit "0003" then
      if (x.drop 6).take 4 = lit "0101" then some concat
      else
        match tonumber16 ((x.drop 4).take 2), tonumber16 ((x.drop 8).take 2),
            tonumber16 ((x.drop 6).take 2) with
        | some num, some ord, some max => some (some (lit "Msg# " ++ tostring num ++ lit "," ++
            tostring ord ++ lit "/" ++ tostring max))
        | _, _, _ => none
    else if x.take 4 = lit "0804" then
      if (x.drop 8).take 4 = lit "0101" then some concat
      else
        match tonumber16 ((x.drop 4).take 4), tonumber16 ((x.drop 10).take 2),
            tonumber16 ((x.drop 8).take 2) with
        | some num, some ord, some max => some (some (lit "Msg# " ++ tostring num ++ lit "," ++
            tostring ord ++ lit "/" ++ tostring max))
        | _, _, _ => none
    else
      match tonumber16 ((x.drop 2).take 2) with
      | none => none
      | some iel => concatLoop n (x.drop (4 + iel * 2)) concat

def concatinfo (x : Str) : LuaM Unit := fun v =>
  (concatLoop x.length x v.mConcat).map fun c => ((), { v with mConcat := c })

def readUdh (pdu2 : Str) : LuaM Unit := do
  let udhl ← nonNil (tonumber16 (pdu2.take 2))
  concatinfo ((pdu2.take ((udhl + 1) * 2)).drop 2)

/-- The loop of `pdu2binary` over `n` octets: whether all of them were there, the text and the
surrogate. -/
def binaryLoop (pdu : Str) (alphabet : Int) : Nat → Nat → Nat → Str → Nat → Bool × Str × Nat
  | 0, _, _, txt, sur => (true, txt, sur)
  | n + 1, octetcounter, lastI, txt, sur =>
    let i := octet2binCheck (pdu.drop (octetcounter * 2))
    if i < 0 then (false, txt, sur)
    else if alphabet = 2 then
      if (2 + octetcounter) % 2 =
        0 then binaryLoop pdu alphabet n (octetcounter + 1) i.toNat txt sur
      else
        let w := word2utf8 sur (bitor (bitleft lastI 8) i) txt
        binaryLoop pdu alphabet n (octetcounter + 1) lastI w.1 w.2
    else
      let w := word2utf8 sur (if i < 32 ∨ i > 127 then 0x25A1 else i.toNat) txt
      binaryLoop pdu alphabet n (octetcounter + 1) lastI w.1 w.2

def binaryText (pdu : Str) (octets : Int) (skipOctets : Nat) : LuaM Int := do
  let v ← get
  let r := binaryLoop (pdu.drop (2 + skipOctets * 2)) v.mAlphabet (octets.toNat - skipOctets) 0 0
    [] v.surrogate
  set { v with mText := some r.2.1, surrogate := r.2.2 }
  if r.1 then return octets - skipOctets else return -1

def pdu2binary (pdu : Str) (withUdh : Nat) : LuaM Int := do
  modify fun v => { v with mText := some [] }
  let octets := octet2binCheck pdu
  if octets < 0 then return -1
  if withUdh > 0 then
    readUdh (pdu.drop 2)
    let udhsize := octet2binCheck (pdu.drop 2)
    if udhsize < 0 then return -1
    binaryText pdu octets (udhsize.toNat + 1)
  else binaryText pdu octets 0

/-- The octets are read one after the other; `binary` is the last one. -/
structure Unpack where
  bitposition : Nat
  binary : Nat
  octetcounter : Nat

/-- The loop that reads the octet of the next bit, unless read; `none` if it is missing. -/
def readOctets (pdu : Str) (octets byteposition : Nat) : Nat → Nat → Nat → Option (Nat × Nat)
  | 0, binary, octetcounter => some (binary, octetcounter)
  | n + 1, binary, octetcounter =>
    if byteposition ≥ octetcounter ∧ octetcounter < octets then
      let i := octet2binCheck (pdu.drop (octetcounter * 2 + 2))
      if i < 0 then none else readOctets pdu octets byteposition n i.toNat (octetcounter + 1)
    else some (binary, octetcounter)

/-- The loop over the bits of a septet, with `n` bits to go. -/
def septetLoop (pdu : Str) (octets : Nat) : Nat → Nat → Unpack → Option (Nat × Unpack)
  | 0, c, u => some (c, u)
  | n + 1, c, u =>
    match readOctets pdu octets (u.bitposition / 8) octets u.binary u.octetcounter with
    | none => none
    | some (binary, octetcounter) =>
      let c := if bitand binary (2 ^ (u.bitposition % 8) : Nat) > 0 then bitor c 128 else c
      septetLoop pdu octets n (bitand (c / 2 : Nat) 127) ⟨u.bitposition + 1, binary, octetcounter⟩

structure TextState where
  txt : Str
  surrogate : Nat
  gTableNbr : Option Nat

/-- What happens to a septet: those of a header are decoded but not shown. -/
def TextState.put (s : TextState) (shown : Bool) (c : Nat) : TextState :=
  let g := gsm2byte s.gTableNbr c
  if shown && g.1 ≠ 27 then
    let w := word2utf8 s.surrogate g.1 s.txt
    ⟨w.1, w.2, g.2⟩
  else { s with gTableNbr := g.2 }

/-- The loop of `pdu2text` over `n` characters, and whether all octets were there. -/
def charLoop (pdu : Str) (octets : Nat) (skip : Int) : Nat → Nat → Unpack → TextState →
    Bool × TextState
  | 0, _, _, s => (true, s)
  | n + 1, charcounter, u, s =>
    match septetLoop pdu octets 7 0 u with
    | none => (false, s)
    | some (c, u) => charLoop pdu octets skip n (charcounter + 1) u
      (s.put ((charcounter : Int) ≥ skip) c)

def septetText (pdu : Str) (septets skipCharacters : Int) : LuaM Int := do
  let v ← get
  let octets := (septets.toNat * 7 + 7) / 8
  let r := charLoop pdu octets skipCharacters septets.toNat 0 ⟨0, 0, 0⟩
    ⟨[], v.surrogate, v.gTableNbr⟩
  set { v with mText := some r.2.txt, surrogate := r.2.surrogate, gTableNbr := r.2.gTableNbr }
  if r.1 then return 1 else return -2

def pdu2text (pdu : Str) (withUdh : Nat) : LuaM Int := do
  modify fun v => { v with mText := some [] }
  let septets := octet2binCheck pdu
  if septets < 0 then return -1
  if withUdh > 0 then
    readUdh (pdu.drop 2)
    let udhsize := octet2binCheck (pdu.drop 2)
    septetText pdu septets (((udhsize + 1) * 8 + 6) / 7)
  else septetText pdu septets 0

/-! ## PDUs -/

def advance (n : Nat) : LuaM Unit := modify fun v => { v with mPduPtr := v.mPduPtr.drop n }

def ptr : LuaM Str := do return (← get).mPduPtr

@[simp] lemma run_advance (n : Nat) (v : Vars) :
    advance n v = some ((), { v with mPduPtr := v.mPduPtr.drop n }) := rfl

@[simp] lemma run_ptr (v : Vars) : ptr v = some (v.mPduPtr, v) := rfl

def maxSmsc : Int := 64

def maxNumber : Int := 64

def isdigit (b : Nat) : Bool := 48 ≤ b && b ≤ 57

/-- The checks of `parseSMSC` on the digits of the service centre. -/
def smscOk (addrType : Int) (length : Nat) (smsc : Str) : Bool :=
  if addrType < 0x90 then (List.range length).all fun j => (smsc[j]?).any isxdigit
  else (if smsc[length - 1]? = some 70 then smsc.take (length - 1) else smsc).all isdigit

def parseSMSC : LuaM Int := do
  modify fun v => { v with mPduPtr := v.mPdu }
  let pdu ← ptr
  let length := octet2binCheck pdu
  if length < 0 then return -1
  if length = 0 then
    advance 2
    return 1
  if length < 2 ∨ length > maxSmsc then return -1
  let length := length.toNat * 2 - 2
  if pdu.length < length + 4 then return -1
  advance 2
  let addrType := octet2binCheck (← ptr)
  if addrType < 0 then return -1
  if addrType < 0x80 then return -1
  advance 2
  let smsc ← nonNil (swapchars ((← ptr).take length))
  if !smscOk addrType length smsc then return -1
  advance length
  return 1

def swapped (sep : String) (s : Str) : Str :=
  let c := fun i => (s[i]?).toList
  c 1 ++ c 0 ++ lit sep ++ c 3 ++ c 2 ++ lit sep ++ c 5 ++ c 4

/-- The condition `not isdigit(...)` on six characters. It is never true, because 0 is true in Lua,
but fails on a missing character. -/
def digitsChecked (s : Str) : LuaM Unit := if s.length < 6 then luaError else pure ()

def quarter (n : Nat) : Str :=
  tostring (n / 4) ++ (match n % 4 with | 0 => [] | 1 => lit ".25" | 2 => lit ".5" | _ => lit ".75")

/-- The time zone behind the time, in hours. The two digits are joined in decimal notation. -/
def timezoneText (s : Str) : Option Str :=
  match tonumber16 ((s.drop 7).take 1), tonumber16 ((s.drop 6).take 1) with
  | some tens, some units =>
    let units := tostring units
    let value := fun t => ((tostring t ++ units).foldl (fun acc b => acc * 10 + (b - 48)) 0)
    let tz := if tens > 7 then lit "-" ++ quarter (value (tens - 8)) else lit "+" ++
      quarter (value tens)
    some (if tz.length = 2 then lit " " ++ tz else tz)
  | _, _ => none

variable (length : Nat)

/-- The length of the number for `pdu2text`: the septets that fit into the semi-octets. -/
def septetsOfSemiOctets : Str := fmtX 2 (length * 4 / 7)

/-- `string.format("%x", n)` with a leading zero, which has lower case letters. -/
def fmtLower (n : Nat) : Str := (fmtX 2 n).map fun b => if b > 57 then b + 32 else b

/-- The number in `m_pdu_ptr` if it consists of digits. -/
def digitNumber (length padding : Nat) (plus : Bool) : LuaM Unit := do
  let num ← nonNil (swapchars ((← ptr).take (length + padding + 1)))
  let num := if num[length + padding - 1]? = some 70 then num.take (length + padding - 1) else num
  modify fun v => { v with mNumber := some (if plus then lit "+" ++ num else num) }

/-- The sender of `parseDeliver`, up to the number; `false` to give up. -/
def deliverSender : LuaM Bool := do
  let padding := length % 2
  advance 2
  let addrType := octet2binCheck (← ptr)
  if addrType < 0x80 then return false
  advance 2
  if bitand addrType 112 = 80 then
    if (← ptr).length < length + padding then return false
    let res ← pdu2text (septetsOfSemiOctets length ++ (← ptr)) 0
    if res < 0 then return false
    let text ← nonNil (← get).mText
    modify fun v => { v with
      mNumber := some (text.map fun b => if b = 10 then 32 else b), mText := none }
  else digitNumber length padding (addrType = 145)
  advance (length + padding)
  return true

/-- The timestamp of `parseDeliver`; the result is `false` to give up. -/
def deliverTimestamp : LuaM Bool := do
  let date ← ptr
  digitsChecked date
  modify fun v => { v with mDate := some (swapped "-" date) }
  advance 6
  let time ← ptr
  digitsChecked time
  let tz ← nonNil (timezoneText time)
  modify fun v => { v with mTime := some (swapped ":" time ++ lit " " ++ tz ++ lit "h") }
  advance 6
  if octet2binCheck (← ptr) < 0 then return false
  advance 2
  return true

/-- The part of `parseDeliver` between the sender and the text. -/
def deliverHeader : LuaM Bool := do
  if (← ptr).length < 20 then return false
  if octet2binCheck (← ptr) < 0 then return false
  advance 2
  let byteBuf := octet2binCheck (← ptr)
  if byteBuf < 0 then return false
  let alphabet := bitand byteBuf 0x0C / 4
  modify fun v => { v with mAlphabet := alphabet }
  if alphabet = 3 then return false
  modify fun v => { v with
    mAlphabet := if alphabet = 0 then -1 else v.mAlphabet, mDcs := some byteBuf.toNat }
  advance 2
  deliverTimestamp

def parseDeliver : LuaM Int := do
  if (← ptr).length < 4 then return 0
  let length := octet2binCheck (← ptr)
  if length < 0 ∨ length > maxNumber then return 0
  if length = 0 then advance 4
  else if !(← deliverSender length.toNat) then return 0
  if !(← deliverHeader) then return 0
  let v ← get
  if v.mAlphabet ≤ 0 then pdu2text v.mPduPtr v.mWithUdh else pdu2binary v.mPduPtr v.mWithUdh

/-- The address of `parseStatusReport`, whose length has lower case letters. -/
def reportAddress : LuaM Bool := do
  let padding := length % 2
  advance 2
  let addrType := octet2binCheck (← ptr)
  if addrType < 0x80 then return false
  advance 2
  if bitand addrType 112 = 80 then
    if (← ptr).length < length + padding then return false
    let res ← pdu2text (fmtLower (length * 4 / 7) ++ (← ptr)) 0
    if res < 0 then return false
    modify fun v => { v with mNumber := v.mText, mText := none }
  else digitNumber length padding false
  advance (length + padding)
  return true

/-- A date and a time of `parseStatusReport`, and what is kept of them. -/
def reportTimestamp (keep : Str → Str → Vars → Vars) : LuaM (Option (Str × Str)) := do
  let date ← ptr
  digitsChecked date
  advance 6
  let time ← ptr
  digitsChecked time
  modify (keep (swapped "-" date) (swapped ":" time))
  advance 6
  if octet2binCheck (← ptr) < 0 then return none
  advance 2
  return some (swapped "-" date, swapped ":" time)

def parseStatusReport : LuaM Int := do
  if (← ptr).length < 6 then return 0
  let messageid := octet2binCheck (← ptr)
  if messageid < 0 then return 0
  advance 2
  let length := octet2binCheck (← ptr)
  if length < 1 ∨ length > maxNumber then return 0
  if !(← reportAddress length.toNat) then return 0
  if (← ptr).length < 14 then return 0
  match ← reportTimestamp fun date time v => { v with mDate := some date, mTime := some time } with
  | none => return 0
  | some _ =>
    match ← reportTimestamp fun _ _ v => v with
    | none => return 0
    | some (dDate, dTime) =>
      let status := octet2binCheck (← ptr)
      if status < 0 then return 0
      modify fun v => { v with mText := some (lit "Discharge Timestamp: " ++ dDate ++ lit " " ++
        dTime ++ lit "  Message ID: " ++ tostring messageid.toNat ++ lit "  Status: " ++
          tostring status.toNat) }
      return 1

def parse : LuaM Int := do
  let flag ← parseSMSC
  if flag ≠ 1 then return 0
  let tmp := octet2binCheck (← ptr)
  if tmp < 0 then return 0
  if bitand tmp 0x40 > 0 then modify fun v => { v with mWithUdh := 1 }
  if bitand tmp 3 = 0 then
    advance 2
    let result ← parseDeliver
    if result < 1 then return 0
    return 1
  else if bitand tmp 3 = 2 then
    advance 2
    parseStatusReport
  else return 0

def reset : LuaM Unit := modify fun v => { v with
  mWithUdh := 0, mNumber := none, mAlphabet := -1, mDate := none, mTime := none, mText := none
  mConcat := none }

def Vars.fresh : Vars :=
  ⟨0, none, [], [], 0, none, -1, none, none, none, none, none⟩

end SourceMaster.Sms
