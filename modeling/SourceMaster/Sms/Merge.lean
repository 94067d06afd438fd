import SourceMaster.Lib.Lines
import SourceMaster.Sms.Reader

/-!
# Merging the parts of long messages

`merge.lua` reads the file that `smsread.lua` has written, puts the parts of long messages together,
and writes the file again. A part is known by the line `Msg# n,o/m` in front of its text: part `o`
of the `m` parts of message `n`. The patterns are deterministic, so they are functions on the rest
of the line.

`tonumber10` knows decimal numbers only, as `smsread.lua` writes no others.
-/

namespace SourceMaster.Sms

open SourceMaster.Lines

/-! ## Patterns -/

variable (s : Str)

def tonumber10 : Option Nat :=
  let s := trim s
  if s ≠ [] ∧ s.all isdigit then some (s.foldl (fun acc b => 10 * acc + (b - 48)) 0) else none

def digits : Option (Str × Str) :=
  let d := s.takeWhile isdigit
  if d = [] then none else some (d, s.drop d.length)

def literal (p s : Str) : Option Str := if p.isPrefixOf s then some (s.drop p.length) else none

/-- The number of a long message, the number of the part, and how many there are. -/
structure Part where
  num : Str
  ord : Str
  max : Str
  deriving DecidableEq

/-- `Msg# (%d+),(%d+)/(%d+)` at the start of a string. -/
def partAt : Option Part := do
  let s ← literal (lit "Msg# ") s
  let (num, s) ← digits s
  let s ← literal (lit ",") s
  let (ord, s) ← digits s
  let s ← literal (lit "/") s
  let (max, _) ← digits s
  return ⟨num, ord, max⟩

def findPart : Str → Option Part
  | [] => none
  | b :: s =>
    match partAt (b :: s) with
    | some p => some p
    | none => findPart s

/-- What a match of `.*` and a pattern leaves: the string before the last match, and the rest behind
it. -/
def cutLast (pat : Str → Option Str) : Str → Option (Str × Str)
  | [] => none
  | b :: s =>
    match cutLast pat s with
    | some (p, r) => some (b :: p, r)
    | none => (pat (b :: s)).map fun r => ([], r)

/-- `Msg# %d+,%d+/%d%s*`, with one digit at the end. -/
def markAt : Option Str := do
  let s ← literal (lit "Msg# ") s
  let (_, s) ← digits s
  let s ← literal (lit ",") s
  let (_, s) ← digits s
  let s ← literal (lit "/") s
  match s with
  | b :: s => if isdigit b then return s.dropWhile isspace else none
  | [] => none

def cutMark (sht : Str) : Str :=
  match cutLast markAt sht with
  | some (sht1, sht2) => sht1 ++ sht2
  | none => sht

/-- ` %d+%-%d+%-%d+ %d+:%d+:%d+%s+[+-]%d+h `. -/
def dateAt : Option Str := do
  let s ← literal (lit " ") s
  let (_, s) ← digits s
  let s ← literal (lit "-") s
  let (_, s) ← digits s
  let s ← literal (lit "-") s
  let (_, s) ← digits s
  let s ← literal (lit " ") s
  let (_, s) ← digits s
  let s ← literal (lit ":") s
  let (_, s) ← digits s
  let s ← literal (lit ":") s
  let (_, s) ← digits s
  let rest := s.dropWhile isspace
  if rest.length = s.length then none
  match rest with
  | b :: rest =>
    if b = 43 ∨ b = 45 then
      let (_, s) ← digits rest
      literal (lit "h ") s
    else none
  | [] => none

def preshort (short : Str) : Option Str :=
  (cutLast dateAt short).map fun r => short.take (short.length - r.2.length)

/-! ## Reading -/

structure Message where
  slot : Str
  phone : Str
  nline : Str
  part : Option Part
  msg : Str
  short : Str
  deriving DecidableEq

def joinLines (first : Str) (ls : List Str) : Str :=
    ls.foldl (fun msg l => msg ++ lit "\n" ++ l) first

/-- A message behind the line with its slot, and the lines behind it. On a missing line some
operation fails.
-/
def readMessage (slot : Str) (ls : List Str) : Option (Message × List Str) :=
  match ls with
  | phone :: nline :: line :: ls =>
    match tonumber10 nline with
    | none => none
    | some nc =>
      match findPart line with
      | none =>
        if ls.length < nc - 1 then none
        else
          match ls.drop (nc - 1) with
          | sht :: rest => some (⟨slot, phone, nline, none, joinLines line (ls.take (nc - 1)),
            cutMark sht⟩, rest)
          | [] => none
      | some p =>
        match ls with
        | line :: ls =>
          if ls.length < nc - 2 then none
          else
            match ls.drop (nc - 2) with
            | sht :: rest =>
              some (⟨slot, phone, nline, some p, joinLines line (ls.take (nc - 2)), cutMark sht⟩,
                rest)
            | [] => none
        | [] => none
  | _ => none

structure Overall where
  table : Str → Option Message
  bound : Nat

def Overall.put (o : Overall) (m : Message) (slot : Nat) : Overall :=
  ⟨Function.update o.table m.slot (some m), max o.bound (slot + 1)⟩

/-- The loop over the messages of a file; every round takes a line. -/
def readMessages : Nat → List Str → Overall → Option Overall
  | 0, _, o => some o
  | _ + 1, [], o => some o
  | n + 1, slot :: ls, o =>
    match readMessage slot ls, tonumber10 slot with
    | some (m, ls), some k => readMessages n ls (o.put m k)
    | _, _ => none

/-! ## Merging -/

structure Record where
  slots : List Str
  phone : Str
  nline : Str
  msg : Str
  short : Str
  deriving DecidableEq

def Message.hasNum (num : Str) (m : Message) : Bool := m.part.any fun p => p.num = num

/-- The loop over the later slots: the parts with the number, taken out of the table. -/
def gather (num : Str) : Nat → Nat → (Str → Option Message) → List Message × (Str → Option Message)
  | 0, _, table => ([], table)
  | n + 1, j, table =>
    match table (tostring j) with
    | none => gather num n (j + 1) table
    | some m =>
      if m.hasNum num then
        let r := gather num n (j + 1) (Function.update table (tostring j) none)
        (m :: r.1, r.2)
      else gather num n (j + 1) table

def build (ms : List Message) : Str → Option (Str × Str) :=
  ms.foldl (fun t m => match m.part with
    | some p => Function.update t p.ord (some (m.msg, m.short))
    | none => t) fun _ => none

structure Assembled where
  msg : Str
  mflg : Bool
  short : Option Str

def assemble (t : Str → Option (Str × Str)) : Nat → Nat → Assembled → Assembled
  | 0, _, a => a
  | n + 1, j, a =>
    match t (tostring j) with
    | none => assemble t n (j + 1) { a with mflg := true }
    | some (msg, short) => assemble t n (j + 1) ⟨a.msg ++ msg, a.mflg, some (a.short.getD short)⟩

def squeeze : Str → Str
  | [] => []
  | [b] => [if isspace b then 32 else b]
  | b :: c :: s =>
    if isspace b then if isspace c then squeeze (c :: s) else 32 :: squeeze (c :: s)
    else b :: squeeze (c :: s)

def shortLine (short msg : Str) : Str :=
  match preshort short with
  | none => short
  | some pre =>
    let jj := if pre.head? = some 32 then 49 else 51
    (pre ++ lit "     ").take jj ++ shorten 20 msg ++ lit "  ..."

/-- The record of a message's parts, with `m` in the lowest slot. There must be a short line,
because it is matched. -/
def mergeParts (m : Message) (p : Part) (ms : List Message) : Option Record :=
  let a := assemble (build (m :: ms)) ((tonumber10 p.max).getD 0) 1 ⟨[], false, none⟩
  match a.short with
  | none => none
  | some short =>
    let msg := if a.mflg then lit "Partial Message : " ++ a.msg else a.msg
    let short := if a.mflg then lit "Partial Message " ++ squeeze short else shortLine short msg
    let msg := if msg.drop (msg.length - 2) = lit "\n\n" then msg.take (msg.length - 2) else msg
    some ⟨m.slot :: ms.map Message.slot, m.phone, tostring (msg.count 10 + 1), msg, short⟩

def outLoop : Nat → Nat → (Str → Option Message) → Option (List Record)
  | 0, _, _ => some []
  | n + 1, i, table =>
    match table (tostring i) with
    | none => outLoop n (i + 1) table
    | some m =>
      match m.part with
      | none => (outLoop n (i + 1) table).map fun rs =>
        ⟨[m.slot], m.phone, m.nline, m.msg, m.short⟩ :: rs
      | some p =>
        let g := gather p.num n (i + 1) table
        match mergeParts m p g.1 with
        | none => none
        | some r => (outLoop n (i + 1) g.2).map fun rs => r :: rs

structure Merged where
  used : Str
  max : Str
  records : List Record

/-- The program on the contents of the file; `none` is a runtime error. -/
def merge (file : Str) : Option Merged :=
  match lines 10 file with
  | maxused :: maxslots :: ls =>
    match readMessages ls.length ls ⟨fun _ => none, 0⟩ with
    | none => none
    | some o => (outLoop o.bound 0 o.table).map fun rs => ⟨maxused, maxslots, rs⟩
  | _ => none

end SourceMaster.Sms
