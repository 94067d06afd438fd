import Mathlib.Tactic.Common
import SourceMaster.Bwmon.Monitor
import SourceMaster.Lib.Runs

/-!
# The rollover of the month

The totals of the month start again on the rollover day. `checkTime` decides this from the day of
the month, the current month and the month of the last rollover, so a rollover that passes while the
router is off can be missed or counted twice (`month_resets_iff`).
-/

namespace SourceMaster.Bwmon

open Runs Date

def Date.monthNumber (d : Date) : Nat := d.year * 12 + d.month

def Date.number (d : Date) : Nat := d.monthNumber * 32 + d.day

def Date.Valid (d : Date) : Prop := 1 ≤ d.month ∧ d.month ≤ 12 ∧ 1 ≤ d.day ∧ d.day ≤ 31

/-- A rollover date lies after the first date and not after the second. -/
def RollsOver (roll : Nat) (prev date : Date) : Prop :=
  ∃ d : Date, d.Valid ∧ d.day = roll ∧ prev.number < d.number ∧ d.number ≤ date.number

def resets (env : Env) (s : Vars × Backup) : Bool := dayChange env s.1 && newMonth env s.2

variable (s : Vars × Backup)

/-- `checkTime` resets the totals of the month iff a rollover has passed, and else leaves them. -/
def ResetsRight (env : Env) : Prop :=
  (resets env s = true ↔ RollsOver (env.rollover.getD 1) s.1.date env.date) ∧
    let v := (checkTime env s.1 s.2).1
    (v.basemon, v.monoffset, v.currmon) =
      if resets env s then (0, s.1.val, 0) else (s.1.basemon, s.1.monoffset, s.1.currmon)

/-- The date is not before the last one, and the rollover day is in every month. -/
def OnTime (env : Env) : Prop :=
  env.date.Valid ∧ s.1.date.number ≤ env.date.number ∧ 1 ≤ env.rollover.getD 1 ∧
    env.rollover.getD 1 ≤ 28

/-- A day comes again only after a change of the day, before the rollover day no earlier rollover is
due, and behind it the remembered month is the current one iff the rollover was before the last
date. -/
def Remembered (env : Env) : Prop :=
  let roll := env.rollover.getD 1
  let prev := s.1.date
  let date := env.date
  if prev.day = date.day then prev.monthNumber = date.monthNumber
  else if date.day < roll then
    prev.monthNumber = date.monthNumber ∨ roll ≤ prev.day ∧ prev.monthNumber + 1 = date.monthNumber
  else roll = date.day ∨
    (s.2.rollmon.getD date.month = date.month ↔ prev.monthNumber = date.monthNumber ∧
      roll ≤ prev.day)

lemma rollsOver_iff {roll : Nat} {prev date : Date} (hprev : prev.Valid) (hdate : date.Valid)
    (hpos : 1 ≤ roll) (hle : roll ≤ 28) : RollsOver roll prev date ↔
      prev.monthNumber < date.monthNumber ∧
        (roll ≤ date.day ∨ prev.day < roll ∨ prev.monthNumber + 1 < date.monthNumber) ∨
      prev.monthNumber = date.monthNumber ∧ prev.day < roll ∧ roll ≤ date.day := by
  unfold Date.Valid at hprev hdate
  constructor
  · rintro ⟨d, hd, rfl, hafter, hbefore⟩
    unfold Date.Valid at hd
    unfold number at hafter hbefore
    omega
  · intro h
    unfold RollsOver Date.Valid number monthNumber at *
    by_cases hday : roll ≤ date.day
    · exact ⟨⟨roll, date.month,
        date.year⟩, by dsimp only; omega, rfl, by dsimp only; omega, by dsimp only; omega⟩
    by_cases hmonth : date.month = 1
    -- the rollover of the month before
    · exact ⟨⟨roll, 12, date.year - 1⟩,
        by dsimp only; omega, rfl, by dsimp only; omega, by dsimp only; omega⟩
    · exact ⟨⟨roll, date.month - 1,
        date.year⟩, by dsimp only; omega, rfl, by dsimp only; omega, by dsimp only; omega⟩

lemma resetsRight_iff {s : Vars × Backup} {env : Env} (hs : s.1.date.Valid) (h : OnTime s env) :
    ResetsRight s env ↔ Remembered s env := by
  obtain ⟨hdate, hafter, hpos, hle⟩ := h
  have hvars : let v := (checkTime env s.1 s.2).1
      (v.basemon, v.monoffset, v.currmon) =
        if resets env s then (0, s.1.val, 0) else (s.1.basemon, s.1.monoffset, s.1.currmon) := by
    unfold checkTime resets
    cases dayChange env s.1 <;> cases newMonth env s.2 <;> rfl
  rw [ResetsRight, and_iff_left hvars, rollsOver_iff hs hdate hpos hle]
  unfold resets dayChange newMonth Remembered
  unfold Date.Valid at hs hdate
  unfold number at hafter
  simp only [Bool.and_eq_true, decide_eq_true_eq, Bool.or_eq_true]
  split_ifs <;> omega

/-- **The totals of the month are reset** as the rollovers pass iff every date meets
`Remembered`. -/
theorem month_resets_iff {s : Vars × Backup} (hs : s.1.date.Valid) (envs : List Env)
    (h : Each (fun s env => checkTime env s.1 s.2) OnTime s envs) :
    Each (fun s env => checkTime env s.1 s.2) ResetsRight s envs ↔
      Each (fun s env => checkTime env s.1 s.2) Remembered s envs := by
  refine @each_congr _ _ _ (fun s => s.1.date.Valid) _ _ _ ?_ (fun _ _ hs h => resetsRight_iff hs h)
    envs _ hs h
  intro s env hs h
  unfold checkTime
  cases dayChange env s.1 <;> cases newMonth env s.2 <;> first | exact hs | exact h.1

def startedOn (date : Date) : Vars × Backup := createAmt date 0 ⟨none, 0, 0, some date.month, 0⟩

def onDate (date : Date) : Env := ⟨fun _ => none, none, date, 0, some 5, 0, true⟩

/-- From January 20 to March 3, the rollover of February 5 is missed. -/
theorem rollover_missed : resets (onDate ⟨3, 3, 2024⟩) (startedOn ⟨20, 1, 2024⟩) = false ∧
    RollsOver 5 ⟨20, 1, 2024⟩ ⟨3, 3, 2024⟩ :=
  ⟨by decide, ⟨5, 2, 2024⟩, by unfold Date.Valid; decide, rfl, by decide, by decide⟩

theorem month_resets_iff_march :
    Each (fun s env => checkTime env s.1 s.2) ResetsRight (startedOn ⟨20, 1, 2024⟩)
      [onDate ⟨3, 2, 2024⟩, onDate ⟨6, 2, 2024⟩, onDate ⟨5, 3, 2024⟩] := by
  refine (month_resets_iff ?_ _ ?_).2 ?_
  · unfold Date.Valid
    decide
  · simp only [Each, OnTime, Date.Valid]
    decide
  · simp only [Each, Remembered]
    decide

end SourceMaster.Bwmon
