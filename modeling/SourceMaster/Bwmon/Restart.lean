import SourceMaster.Bwmon.Totals

/-!
# Restarts of the router

After a restart the monitor goes on with the totals that were saved last. These belong to the day
and the month at the time when they were computed, and a rollover or a change of the day does not
clear them: they are restored if the router restarts before the next backup (`restored_totals_iff`).
-/

namespace SourceMaster.Bwmon

open Runs Bwmon

/-! ## The script with restarts -/

/-- The function of the main loop that is called next. -/
inductive Pc
  | update
  | checkreset
  | checkTime
  | checkBackup
deriving DecidableEq

structure Copies where
  base : Amount
  curr : Amount
  saved : Amount
deriving DecidableEq

/-- The script, its backup, and what of each total was counted before the last rollover or change of
the day.
-/
structure Machine where
  pc : Pc
  vars : Vars
  saved : Backup
  monOld : Copies
  dayOld : Copies
  /-- The total of the month was saved before the last rollover. -/
  monStale : Bool
  /-- The saved total of the day was computed before the last change of the day. -/
  dayStale : Bool
  /-- The current total of the day was computed before the last change of the day. -/
  currStale : Bool

inductive Event
  /-- The next function is called. -/
  | call (env : Env)
  | restart (date : Date) (time : Int)

namespace Machine

def start (date : Date) (time : Int) (saved : Backup) : Machine where
  pc := .update
  vars := (createAmt date time saved).1
  saved := (createAmt date time saved).2
  monOld := ⟨0, 0, 0⟩
  dayOld := ⟨0, 0, 0⟩
  monStale := false
  dayStale := false
  currStale := false

section

variable (m : Machine)

def reset : Machine :=
  { m with
    monOld := { m.monOld with base := 0, saved := 0 }
    dayOld := { m.dayOld with base := 0, saved := 0 }
    monStale := false
    dayStale := false }

def newDay : Machine :=
  { m with dayOld := ⟨0, m.vars.currdaily, m.saved.daily⟩, dayStale := true, currStale := true }

/-- All that was counted belongs to the month before, but the current total is cleared. -/
def newMonth : Machine := { m with monOld := ⟨0, 0, m.saved.mon⟩, monStale := true }

def backup : Machine :=
  { m with
    monOld := { m.monOld with saved := m.monOld.curr }
    dayOld := { m.dayOld with saved := m.dayOld.curr }
    monStale := false
    dayStale := m.currStale }

end

variable (maxmodem : Nat)

def step (m : Machine) : Event → Machine
  | .call env =>
    match m.pc with
    | .update =>
      { m with
        pc := .checkreset
        vars := update maxmodem env m.vars
        -- what was read since then is new
        monOld := { m.monOld with curr := m.monOld.base }
        dayOld := { m.dayOld with curr := m.dayOld.base }
        currStale := false }
    | .checkreset =>
      let (vars, saved) := checkreset env m.vars m.saved
      { (if env.bwreset.isSome then m.reset else m) with pc := .checkTime, vars, saved }
    | .checkTime =>
      let (vars, saved) := checkTime env m.vars m.saved
      let m' := if dayChange env m.vars then m.newDay else m
      let m' := if dayChange env m.vars && Bwmon.newMonth env m.saved then m'.newMonth else m'
      { m' with pc := .checkBackup, vars, saved }
    | .checkBackup =>
      let (vars, saved) := checkBackup env m.vars m.saved
      { (if backupDue env m.vars then m.backup else m) with pc := .update, vars, saved }
  | .restart date time =>
    { m with
      pc := .update
      vars := (createAmt date time m.saved).1
      saved := (createAmt date time m.saved).2
      monOld := ⟨m.monOld.saved, 0, m.monOld.saved⟩
      dayOld := ⟨m.dayOld.saved, 0, m.dayOld.saved⟩
      currStale := false }

/-- The totals include nothing from before the last rollover or change of the day. -/
def Clean (m : Machine) : Prop := m.monOld.base = 0 ∧ m.dayOld.base = 0

/-- The totals were saved again or zero when the month or the day changed. -/
def Fresh (m : Machine) : Event → Prop
  | .call _ => True
  | .restart _ _ => (m.monStale → m.saved.mon = 0) ∧ (m.dayStale → m.saved.daily = 0)

/-! ## What each function does to the parts -/

structure Inv (m : Machine) : Prop where
  clean : m.Clean
  monCurr : m.monOld.curr = 0
  monSaved : m.monOld.saved = if m.monStale then m.saved.mon else 0
  dayCurr : m.dayOld.curr = if m.currStale then m.vars.currdaily else 0
  daySaved : m.dayOld.saved = if m.dayStale then m.saved.daily else 0

variable {maxmodem} {m : Machine} {env : Env}

lemma start_inv (date : Date) (time : Int) (saved : Backup) : (start date time saved).Inv :=
  ⟨⟨rfl, rfl⟩, rfl, rfl, rfl, rfl⟩

lemma checkreset_inv (h : m.Inv) (hpc : m.pc = .checkreset) :
    (m.step maxmodem (.call env)).Inv := by
  unfold step
  rw [hpc]
  cases hreset : env.bwreset with
  | none =>
    simp only [checkreset, hreset, Option.isSome_none, Bool.false_eq_true, if_false]
    exact ⟨h.clean, h.monCurr, h.monSaved, h.dayCurr, h.daySaved⟩
  | some newbw =>
    simp only [checkreset, hreset, Option.isSome_some, if_true]
    exact ⟨⟨rfl, rfl⟩, h.monCurr, rfl, h.dayCurr, rfl⟩

lemma checkTime_inv (h : m.Inv) (hpc : m.pc = .checkTime) :
    (m.step maxmodem (.call env)).Inv := by
  unfold step
  rw [hpc]
  cases hday : dayChange env m.vars with
  | false =>
    simp only [checkTime, hday, Bool.false_and, Bool.false_eq_true, if_false]
    exact ⟨h.clean, h.monCurr, h.monSaved, h.dayCurr, h.daySaved⟩
  | true =>
    cases hmonth : Bwmon.newMonth env m.saved with
    | false =>
      simp only [checkTime, hday, hmonth, Bool.true_and, Bool.false_eq_true, if_false, if_true]
      exact ⟨⟨h.clean.1, rfl⟩, h.monCurr, h.monSaved, rfl, rfl⟩
    | true =>
      simp only [checkTime, hday, hmonth, Bool.true_and, if_true]
      exact ⟨⟨rfl, rfl⟩, rfl, rfl, rfl, rfl⟩

lemma checkBackup_inv (h : m.Inv) (hpc : m.pc = .checkBackup) :
    (m.step maxmodem (.call env)).Inv := by
  unfold step
  rw [hpc]
  cases hdue : backupDue env m.vars with
  | false =>
    simp only [checkBackup, hdue, Bool.false_eq_true, if_false]
    exact ⟨h.clean, h.monCurr, h.monSaved, h.dayCurr, h.daySaved⟩
  | true =>
    simp only [checkBackup, hdue, if_true]
    exact ⟨h.clean, h.monCurr, h.monCurr, h.dayCurr, h.dayCurr⟩

lemma restart_clean_iff (h : m.Inv) (date : Date) (time : Int) :
    (m.step maxmodem (.restart date time)).Clean ↔ m.Fresh (.restart date time) := by
  have hpart {stale : Bool} {a old : Amount} (hold : old = if stale then a else 0) :
      old = 0 ↔ (stale → a = 0) := by
    cases stale with
    | false => exact ⟨fun _ => nofun, fun _ => hold⟩
    | true => exact ⟨fun hzero _ => hold.symm.trans hzero, fun hzero => hold.trans (hzero rfl)⟩
  exact and_congr (hpart h.monSaved) (hpart h.daySaved)

lemma step_inv (h : m.Inv) {e : Event} (hfresh : m.Fresh e) : (m.step maxmodem e).Inv := by
  cases e with
  | call env =>
    cases hpc : m.pc with
    | update =>
      unfold step
      rw [hpc]
      exact ⟨h.clean, h.clean.1, h.monSaved, h.clean.2, h.daySaved⟩
    | checkreset => exact checkreset_inv h hpc
    | checkTime => exact checkTime_inv h hpc
    | checkBackup => exact checkBackup_inv h hpc
  | restart date time =>
    exact ⟨(restart_clean_iff h date time).2 hfresh, rfl, h.monSaved, rfl, h.daySaved⟩

/-- No total holds what was counted before the last change of the day or rollover, in every state of
a run, iff every restart finds totals that were saved behind it, or zeros. -/
theorem restored_totals_iff (maxmodem : Nat) (date : Date) (time : Int) (saved : Backup)
    (events : List Event) : Always (step maxmodem) Clean (start date time saved) events ↔
      Each (step maxmodem) Fresh (start date time saved) events := by
  refine always_iff_each (D := fun _ => True) (fun m h => Inv.clean h)
    (fun m e _ h hfresh => step_inv h hfresh) ?_
    events (fun _ _ => trivial) (start_inv date time saved)
  intro m e _ h hfresh hclean
  cases e with
  | call env => exact hfresh trivial
  | restart date time => exact hfresh ((restart_clean_iff h date time).1 hclean)

/-! ## A month that is counted twice -/

def iteration (env : Env) : List Event := List.replicate 4 (.call env)

def rolloverRun : List Event :=
  iteration { reading (some (1000, 500)) with time := 2000 } ++
    iteration { reading (some (1000, 500))
      with time := 2010, date := ⟨11, 5, 2024⟩, rollover := some 11 } ++
    [.restart ⟨11, 5, 2024⟩ 2020]

/-- The totals of the last day and of the last month are restored. -/
theorem rollover_total_restored :
    (rolloverRun.foldl (step 0) (start ⟨10, 5, 2024⟩ 0 newBackup)).vars.basemon.total = 1500 ∧
      (rolloverRun.foldl (step 0) (start ⟨10, 5, 2024⟩ 0 newBackup)).vars.basedaily.total = 1500 ∧
      ¬ Always (step 0) Clean (start ⟨10, 5, 2024⟩ 0 newBackup) rolloverRun := by
  refine ⟨by decide, by decide, fun h => ?_⟩
  have hmon := h.last.1
  revert hmon
  decide

end Machine

end SourceMaster.Bwmon
