import SourceMaster.Sms.Lua

/-!
# Encoding a message

`utf8togsm.chktxt` turns a UTF-8 text into hexadecimal digits: two for each septet of the GSM
default alphabet if every character has one, and four for each UTF-16 word otherwise.
`pack7bit.pack` puts eight septets into seven octets. `none` is a Lua runtime error.
-/

namespace SourceMaster.Sms

open Function

/-! ## `utf8togsm` -/

/-- The characters that are not their own septet; the extension table is behind an escape. -/
def g7t : List (Nat × Str) :=
  [(64, lit "00"), (163, lit "01"), (36, lit "02"), (165, lit "03"), (232, lit "04"),
    (233, lit "05"),
    (249, lit "06"), (236, lit "07"), (242, lit "08"), (199, lit "09"), (216, lit "0B"),
      (248, lit "0C"),
    (197, lit "0E"), (229, lit "0F"), (0x394, lit "10"), (95, lit "11"), (0x3A6, lit "12"),
    (0x393, lit "13"), (0x39B, lit "14"), (0x3A9, lit "15"), (0x3A0, lit "16"), (0x3A8, lit "17"),
    (0x3A3, lit "18"), (0x398, lit "19"), (0x39E, lit "1A"), (198, lit "1C"), (230, lit "1D"),
    (223, lit "1E"), (201, lit "1F"), (164, lit "24"), (161, lit "40"), (196, lit "5B"),
      (214, lit "5C"),
    (209, lit "5D"), (220, lit "5E"), (167, lit "5F"), (191, lit "60"), (228, lit "7B"),
      (246, lit "7C"),
    (241, lit "7D"), (252, lit "7E"), (224, lit "7F"), (94, lit "1B14"), (123, lit "1B28"),
    (125, lit "1B29"), (92, lit "1B2F"), (91, lit "1B3C"), (126, lit "1B3D"), (93, lit "1B3E"),
    (124, lit "1B40"), (0x20AC, lit "1B65")]

/-- One round of `chktxt`: the digits for `unicode`, those for `g7hex` (`none` clears `g7isok`), and
the rest. A missing byte is nil, on which `bitand` fails. -/
def chkChar : Str → Option (Str × Option Str × Str)
  | [] => none
  | ch :: txt =>
    if ch ≥ 0xF0 then
      match txt with
      | c1 :: c2 :: c3 :: txt =>
        let v := bitleft (bitand ch 7) 18
        let v := bitor (bitleft (bitand c1 0x3F) 12) v
        let v := bitor (bitleft (bitand c2 0x3F) 6) v
        let v : Int := (bitor (bitand c3 0x3F) v : Int) - 0x10000
        let w1 := bitor 0xD800 (bitright (bitand v 0xFFC00) 10)
        let w2 := bitor 0xDC00 (bitand v 0x3FF)
        some (fmtX 4 w1 ++ fmtX 4 w2, none, txt)
      | _ => none
    else if ch ≥ 0xE0 then
      match txt with
      | c1 :: c2 :: txt =>
        let v := bitleft (bitand ch 0xF) 12
        let v := bitor (bitleft (bitand c1 0x3F) 6) v
        let v := bitor (bitand c2 0x3F) v
        some (fmtX 4 v, g7t.lookup v, txt)
      | _ => none
    else if ch ≥ 0xC0 then
      match txt with
      | c1 :: txt =>
        let v := bitleft (bitand ch 0x3F) 6
        let v := bitor (bitand c1 0x3F) v
        some (fmtX 4 v, g7t.lookup v, txt)
      | _ => none
    else if ch = 0x60 then some (lit "0060", none, txt)
    else if ch ≤ 0x7F then some (fmtX 4 ch, some ((g7t.lookup ch).getD (fmtX 2 ch)), txt)
    else some (lit "003F", some (lit "3F"), txt)

structure ChkState where
  unicode : Str
  g7hex : Str
  g7isok : Bool

def ChkState.add (s : ChkState) (u : Str) : Option Str → ChkState
  | none => ⟨s.unicode ++ u, s.g7hex, false⟩
  | some g => ⟨s.unicode ++ u, s.g7hex ++ g, s.g7isok⟩

/-- The loop of `chktxt`; every round takes a byte, so that the length bounds the rounds. -/
def chkLoop : Nat → Str → ChkState → Option ChkState
  | 0, _, s => some s
  | n + 1, txt, s =>
    match chkChar txt with
    | none => none
    | some (u, g, txt) => if txt = [] then some (s.add u g) else chkLoop n txt (s.add u g)

/-- The data coding scheme; `unset` is the empty string. -/
inductive Dcs where
  | unset
  | gsm
  | ucs2
  deriving DecidableEq, Repr

def Dcs.text : Dcs → Str
  | unset => []
  | gsm => lit "00"
  | ucs2 => lit "08"

structure ChkTxt where
  msg : Option Str
  dcs : Dcs
  txt : Str
  deriving DecidableEq

def tostring (n : Nat) : Str := (Nat.toDigits 10 n).map Char.toNat

def chktxt (txt : Str) : Option ChkTxt :=
  (chkLoop (txt.length + 1) txt ⟨[], [], true⟩).map fun s =>
    if s.g7isok ∧ s.g7hex.length ≤ 320 then ⟨none, .gsm, s.g7hex⟩
    else if s.g7isok then
      ⟨some (lit "Processed text length = " ++ tostring (s.g7hex.length / 2) ++
        lit " 7-bit characters.\nCurrently ROOter supports 160 maximum per message."), .unset, txt⟩
    else if s.unicode.length ≤ 280 then ⟨none, .ucs2, s.unicode⟩
    else
      ⟨some (lit "Processed text length = " ++ tostring (s.unicode.length / 4) ++
        lit " 16-bit Unicode characters.\nCurrently ROOter supports 70 maximum per message."),
          .unset, txt⟩

/-! ## `pack7bit` -/

/-- A Lua table of numbers; `none` is nil. -/
abbrev Tab := Nat → Option Nat

/-- The second to the seventh septet: the low bits go to the octet before, the high bits begin a new
one. -/
def packMid (low shl high shr : Nat) (kk : Nat) (ch : Option Nat) (udtab : Tab) : Option Tab :=
  match ch, udtab kk with
  | some ch, some prev => some (update
      (update udtab kk (some (bitor (bitleft (bitand ch low) shl) prev)))
      (kk + 1) (some (bitright (bitand ch high) shr)))
  | _, _ => none

def packStep (ii kk : Nat) (ch : Option Nat) (udtab : Tab) : Option Tab :=
  if ii = 1 then some (update udtab (kk + 1) ch)
  else if ii = 2 then packMid 1 7 126 1 kk ch udtab
  else if ii = 3 then packMid 3 6 124 2 kk ch udtab
  else if ii = 4 then packMid 7 5 120 3 kk ch udtab
  else if ii = 5 then packMid 15 4 112 4 kk ch udtab
  else if ii = 6 then packMid 31 3 96 5 kk ch udtab
  else if ii = 7 then packMid 63 2 64 6 kk ch udtab
  else
    match ch, udtab kk with
    | some ch, some prev => some (update udtab kk (some (bitor (bitleft ch 1) prev)))
    | _, _ => none

def packLoop : Nat → Str → Nat → Nat → Tab → Option (Nat × Tab)
  | 0, _, _, kk, udtab => some (kk, udtab)
  | n + 1, txt, ii, kk, udtab =>
    match packStep ii kk (tonumber16 (txt.take 2)) udtab with
    | none => none
    | some udtab =>
      let ii' := if ii = 8 then 1 else ii + 1
      let kk' := if ii = 8 then kk else kk + 1
      if (txt.drop 2) = [] then some (kk', udtab) else packLoop n (txt.drop 2) ii' kk' udtab

/-- `table.concat` of the table, of which the first `maxb` numbers are formatted. -/
def concatUd (maxb : Nat) (udtab : Tab) : Nat → Option Str
  | 0 => some []
  | n + 1 =>
    match concatUd maxb udtab n, udtab (n + 1) with
    | some s, some v => some (s ++ if n + 1 ≤ maxb then fmtX 2 v else tostring v)
    | _, _ => none

/-- `pack7bit.pack`. Formatting an octet that is not there fails. -/
def pack (udl txt : Str) : Option Str :=
  match tonumber16 udl with
  | none => none
  | some septets =>
    let maxb := (septets * 7 + 7) / 8
    match packLoop (txt.length + 1) txt 1 0 (fun _ => none) with
    | none => none
    | some (kk, udtab) => concatUd maxb udtab (max maxb kk)

end SourceMaster.Sms
