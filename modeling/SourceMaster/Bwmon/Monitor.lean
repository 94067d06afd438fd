import Mathlib.Algebra.BigOperators.Group.List.Basic
import Mathlib.Algebra.Order.Ring.Int

/-!
# The bandwidth monitor

`bwmon.sh` adds up the byte counters of the interfaces every ten seconds. It keeps totals for the
day and for the month, as a base value and an offset that is subtracted from the counters, and it
saves them from time to time. Numbers of the shell are taken as integers, so that everything is said
of counters and amounts whose sums fit into 64 bits.
-/

namespace SourceMaster.Bwmon

/-! ## Amounts -/

/-- Three variables that belong together, such as `montotal`, `monrx` and `montx`. -/
@[ext] structure Amount where
  total : Int
  rx : Int
  tx : Int
deriving DecidableEq

namespace Amount

instance : Zero Amount := ⟨⟨0, 0, 0⟩⟩
instance : Add Amount := ⟨fun a b => ⟨a.total + b.total, a.rx + b.rx, a.tx + b.tx⟩⟩
instance : Sub Amount := ⟨fun a b => ⟨a.total - b.total, a.rx - b.rx, a.tx - b.tx⟩⟩
instance : LE Amount := ⟨fun a b => a.total ≤ b.total ∧ a.rx ≤ b.rx ∧ a.tx ≤ b.tx⟩

variable (a b : Amount)

@[simp] lemma total_zero : (0 : Amount).total = 0 := rfl
@[simp] lemma rx_zero : (0 : Amount).rx = 0 := rfl
@[simp] lemma tx_zero : (0 : Amount).tx = 0 := rfl
@[simp] lemma total_add : (a + b).total = a.total + b.total := rfl
@[simp] lemma rx_add : (a + b).rx = a.rx + b.rx := rfl
@[simp] lemma tx_add : (a + b).tx = a.tx + b.tx := rfl
@[simp] lemma total_sub : (a - b).total = a.total - b.total := rfl
@[simp] lemma rx_sub : (a - b).rx = a.rx - b.rx := rfl
@[simp] lemma tx_sub : (a - b).tx = a.tx - b.tx := rfl

end Amount

/-! ## The script -/

inductive Interface
  /-- A modem -/
  | wanN (n : Nat)
  | wan
  | wwan2
  | wwan5
deriving DecidableEq

def interfaces (maxmodem : Nat) : List Interface :=
  (List.range maxmodem).map (fun i => .wanN (i + 1)) ++ [.wan, .wwan2, .wwan5]

structure Date where
  day : Nat
  month : Nat
  year : Nat
deriving DecidableEq

/-- The section `backup` of the configuration; without a date, its year is 0. -/
structure Backup where
  date : Option Date
  daily : Amount
  mon : Amount
  rollmon : Option Nat
  days : Int
deriving DecidableEq

structure Vars where
  date : Date
  basedaily : Amount
  basemon : Amount
  dailyoffset : Amount
  monoffset : Amount
  val : Amount
  currdaily : Amount
  currmon : Amount
  bstartime : Int
deriving DecidableEq

/-- What an iteration finds: the counters of the interfaces that are up, the amount of a reset,
date, time and configuration. -/
structure Env where
  device : Interface → Option (Nat × Nat)
  bwreset : Option Int
  date : Date
  time : Int
  rollover : Option Nat
  backup : Int
  enabled : Bool

variable (env : Env)

def Env.stats (i : Interface) : Nat × Nat := (env.device i).getD (0, 0)

def createAmt (date : Date) (time : Int) (saved : Backup) : Vars × Backup :=
  ({ date := saved.date.getD date, basedaily := saved.daily, basemon := saved.mon, dailyoffset := 0,
      monoffset := 0, val := 0, currdaily := 0, currmon := 0, bstartime := time },
    { saved with date := some (saved.date.getD date) })

def sumStats (l : List Interface) (stats : Interface → Nat × Nat) : Amount :=
  let rxval := (l.map fun i => ((stats i).1 : Int)).sum
  let txval := (l.map fun i => ((stats i).2 : Int)).sum
  ⟨rxval + txval, rxval, txval⟩

def update (maxmodem : Nat) (env : Env) (v : Vars) : Vars :=
  let val := sumStats (interfaces maxmodem) env.stats
  { v with
    val
    currdaily := val - v.dailyoffset + v.basedaily
    currmon := val - v.monoffset + v.basemon }

variable (v : Vars)

variable (saved : Backup)

def checkreset : Vars × Backup :=
  match env.bwreset with
  | none => (v, saved)
  | some newbw =>
    ({ v with basedaily := 0, basemon := ⟨newbw, newbw, 0⟩, dailyoffset := v.val, monoffset := v.val
      }, { saved with daily := 0, mon := ⟨newbw, newbw, 0⟩ })

def dayChange : Bool := v.date.day ≠ env.date.day

def newMonth : Bool :=
  let roll := env.rollover.getD 1
  roll = env.date.day || roll < env.date.day && saved.rollmon.getD env.date.month ≠ env.date.month

def checkTime : Vars × Backup :=
  if dayChange env v then
    let roll := newMonth env saved
    let v := { v with date := env.date, basedaily := 0, dailyoffset := v.val }
    let v := if roll then { v with basemon := 0, monoffset := v.val, currmon := 0 } else v
    let rollmon := if roll then some env.date.month else saved.rollmon
    (v, { saved with rollmon, days := saved.days + 1, date := some env.date })
  else (v, saved)

def backupDue : Bool := env.enabled && env.backup * 60 < env.time - v.bstartime

def checkBackup : Vars × Backup :=
  if backupDue env v then
    ({ v with bstartime := env.time },
      { saved with daily := v.currdaily, mon := v.currmon, date := some v.date })
  else (v, saved)

def iterate (maxmodem : Nat) (env : Env) (v : Vars) (saved : Backup) : Vars × Backup :=
  let v := update maxmodem env v
  let (v, saved) := checkreset env v saved
  let (v, saved) := checkTime env v saved
  checkBackup env v saved

end SourceMaster.Bwmon
