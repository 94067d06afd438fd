import SourceMaster.Bwmon.Monitor
import SourceMaster.Lib.Runs

/-!
# The total of a month

The total should be the sum of all increments of the counters since the last rollover. But it is
computed from the current values of the counters, so everything that an interface has counted is
taken off when the interface is lost (`monthly_total_iff`).
-/

namespace SourceMaster.Bwmon

open Runs List Amount Int

/-! ## Increments -/

variable (old new : Nat)

/-- What was counted between two readings: a smaller counter has started again. -/
def increment : Nat := if old ≤ new then new - old else new

def lost : Nat := if old ≤ new then 0 else old

lemma increment_eq : (increment old new : Int) = new - old + lost old new := by
  unfold increment lost
  split <;> omega

variable (l : List Interface)

lemma sum_increment (old new : Interface → Nat) :
    (l.map fun i => (increment (old i) (new i) : Int)).sum =
      (l.map fun i => (new i : Int)).sum - (l.map fun i => (old i : Int)).sum +
        (l.map fun i => (lost (old i) (new i) : Int)).sum := by
  induction l with
  | nil => rfl
  | cons i l ih =>
    simp only [map_cons, sum_cons]
    rw [ih, increment_eq]
    omega

lemma sum_nonneg (f : Interface → Nat) : 0 ≤ (l.map fun i => (f i : Int)).sum := by
  induction l with
  | nil => exact le_refl 0
  | cons i l ih =>
    rw [map_cons, sum_cons]
    omega

lemma sum_lost_eq_zero {l : List Interface} {old new : Interface → Nat} :
    (l.map fun i => (lost (old i) (new i) : Int)).sum = 0 ↔ ∀ i ∈ l, old i ≤ new i := by
  induction l with
  | nil => exact ⟨fun _ => nofun, fun _ => rfl⟩
  | cons i l ih =>
    have hnonneg := sum_nonneg l fun i => lost (old i) (new i)
    have hlost : lost (old i) (new i) = 0 ↔ old i ≤ new i := by
      unfold lost
      split <;> omega
    rw [map_cons, sum_cons, forall_mem_cons, ← ih, ← hlost]
    omega

def increments (maxmodem : Nat) (old new : Interface → Nat × Nat) : Amount :=
  sumStats (interfaces maxmodem) fun i =>
    (increment (old i).1 (new i).1, increment (old i).2 (new i).2)

def losses (maxmodem : Nat) (old new : Interface → Nat × Nat) : Amount :=
  sumStats (interfaces maxmodem) fun i => (lost (old i).1 (new i).1, lost (old i).2 (new i).2)

lemma increments_eq (maxmodem : Nat) (old new : Interface → Nat × Nat) :
    increments maxmodem old new =
    sumStats (interfaces maxmodem) new - sumStats (interfaces maxmodem) old +
    losses maxmodem old new := by
  have hrx := sum_increment (interfaces maxmodem) (fun i => (old i).1) fun i => (new i).1
  have htx := sum_increment (interfaces maxmodem) (fun i => (old i).2) fun i => (new i).2
  ext
  · simp only [increments, losses, sumStats, total_add, total_sub, hrx, htx]
    omega
  · simp only [increments, losses, sumStats, rx_add, rx_sub, hrx]
  · simp only [increments, losses, sumStats, tx_add, tx_sub, htx]

lemma zero_le_sumStats (stats : Interface → Nat × Nat) : 0 ≤ sumStats l stats := by
  have hrx := sum_nonneg l fun i => (stats i).1
  have htx := sum_nonneg l fun i => (stats i).2
  exact ⟨add_nonneg hrx htx, hrx, htx⟩

lemma sumStats_eq_zero {l : List Interface} {stats : Interface → Nat × Nat}
    (h : (sumStats l stats).total = 0) : sumStats l stats = 0 := by
  obtain ⟨-, hrx, htx⟩ := zero_le_sumStats l stats
  have hsum : (sumStats l stats).total = (sumStats l stats).rx + (sumStats l stats).tx := rfl
  simp only [rx_zero, tx_zero] at hrx htx
  ext
  · exact h
  · rw [rx_zero]
    omega
  · rw [tx_zero]
    omega

lemma losses_eq_zero {maxmodem : Nat} {old new : Interface → Nat × Nat} :
    losses maxmodem old new = 0 ↔
    ∀ i ∈ interfaces maxmodem, (old i).1 ≤ (new i).1 ∧ (old i).2 ≤ (new i).2 := by
  have hrx := @sum_lost_eq_zero (interfaces maxmodem) (fun i => (old i).1) (fun i => (new i).1)
  have htx := @sum_lost_eq_zero (interfaces maxmodem) (fun i => (old i).2) (fun i => (new i).2)
  constructor
  · intro h i hi
    exact ⟨hrx.1 (congrArg rx h) i hi, htx.1 (congrArg tx h) i hi⟩
  intro h
  have hrx0 := hrx.2 fun i hi => (h i hi).1
  have htx0 := htx.2 fun i hi => (h i hi).2
  simp only [losses, sumStats, hrx0, htx0]
  rfl

/-! ## Runs -/

/-- The script, the counters read last, and what it should have counted in this month. -/
structure Watch where
  vars : Vars
  saved : Backup
  stats : Interface → Nat × Nat
  since : Amount

def Watch.start (date : Date) (time : Int) (saved : Backup) : Watch where
  vars := (createAmt date time saved).1
  saved := (createAmt date time saved).2
  stats _ := (0, 0)
  since := saved.mon

section

variable (maxmodem : Nat)

def Watch.step (w : Watch) (env : Env) : Watch where
  vars := (iterate maxmodem env w.vars w.saved).1
  saved := (iterate maxmodem env w.vars w.saved).2
  stats := env.stats
  since :=
    if dayChange env w.vars && newMonth env w.saved then 0
    else
      match env.bwreset with
      | some newbw => ⟨newbw, newbw, 0⟩
      | none => w.since + increments maxmodem w.stats env.stats

/-- The total of the month is the sum of all increments, and it has not become smaller. -/
def Watch.Counts (w : Watch) (env : Env) : Prop :=
  (update maxmodem env w.vars).currmon = w.since + increments maxmodem w.stats env.stats ∧
    w.since ≤ (update maxmodem env w.vars).currmon

/-- No counter is smaller than before: no interface was lost, and none has started again. -/
def Watch.Grows (w : Watch) (env : Env) : Prop :=
  ∀ i ∈ interfaces maxmodem, (w.stats i).1 ≤ (env.stats i).1 ∧ (w.stats i).2 ≤ (env.stats i).2

structure Watch.Inv (w : Watch) : Prop where
  val : w.vars.val = sumStats (interfaces maxmodem) w.stats
  since : w.vars.val - w.vars.monoffset + w.vars.basemon = w.since

end

variable {maxmodem : Nat} {w : Watch} {env : Env}

lemma Watch.start_inv (date : Date) (time : Int) (saved : Backup) :
    (Watch.start date time saved).Inv maxmodem := by
  have hzero (l : List Interface) : sumStats l (fun _ => (0, 0)) = 0 := by
    have hsum : (l.map fun _ => ((0 : Nat) : Int)).sum = 0 := by
      induction l with
      | nil => rfl
      | cons i l ih => rw [map_cons, sum_cons, ih, Int.natCast_zero, Int.add_zero]
    simp only [sumStats, hsum]
    rfl
  refine ⟨(hzero _).symm, ?_⟩
  ext <;> exact zero_add _

lemma update_currmon (h : w.Inv maxmodem) (env : Env) :
    (update maxmodem env w.vars).currmon + losses maxmodem w.stats env.stats =
      w.since + increments maxmodem w.stats env.stats := by
  have hval := h.val
  rw [← h.since, hval, increments_eq]
  ext <;>
  · simp only [update, total_add, total_sub, rx_add, rx_sub, tx_add, tx_sub]
    omega

lemma counts_iff (h : w.Inv maxmodem) : w.Counts maxmodem env ↔ w.Grows maxmodem env := by
  have hupdate := update_currmon h env
  constructor
  · rintro ⟨heq, -⟩
    refine losses_eq_zero.1 (sumStats_eq_zero ?_)
    have htotal := congrArg total hupdate
    rw [← heq, total_add] at htotal
    show (losses maxmodem w.stats env.stats).total = 0
    omega
  · intro hgrows
    have hzero := losses_eq_zero.2 hgrows
    have heq : (update maxmodem env w.vars).currmon =
      w.since + increments maxmodem w.stats env.stats := by
      rw [← hupdate, hzero]
      ext <;> exact (Int.add_zero _).symm
    refine ⟨heq, ?_⟩
    obtain ⟨htotal, hrx, htx⟩ := zero_le_sumStats (interfaces maxmodem) fun i =>
      (increment (w.stats i).1 (env.stats i).1, increment (w.stats i).2 (env.stats i).2)
    rw [heq]
    exact ⟨le_add_of_nonneg_right htotal, le_add_of_nonneg_right hrx, le_add_of_nonneg_right htx⟩

lemma iterate_mon (env : Env) (v : Vars) (saved : Backup) :
    (iterate maxmodem env v saved).1.val = sumStats (interfaces maxmodem) env.stats ∧
      (iterate maxmodem env v saved).1.val - (iterate maxmodem env v saved).1.monoffset +
          (iterate maxmodem env v saved).1.basemon = if dayChange env v &&
          newMonth env saved then 0 else
          match env.bwreset with
          | some newbw => ⟨newbw, newbw, 0⟩
          | none => (update maxmodem env v).currmon := by
  have hself (a b : Amount) : a - a + b = b := by
    ext <;>
    · simp only [total_add, total_sub, rx_add, rx_sub, tx_add, tx_sub]
      omega
  have hbackup (v : Vars) (saved : Backup) : (checkBackup env v saved).1.val = v.val ∧
      (checkBackup env v saved).1.monoffset = v.monoffset ∧
      (checkBackup env v saved).1.basemon = v.basemon := by
    unfold checkBackup
    split <;> exact ⟨rfl, rfl, rfl⟩
  unfold iterate
  dsimp only
  generalize hreset : checkreset env (update maxmodem env v) saved = r
  obtain ⟨hval, hoffset, hbase⟩ := hbackup (checkTime env r.1 r.2).1 (checkTime env r.1 r.2).2
  rw [hval, hoffset, hbase]
  have hr : r.1.val = sumStats (interfaces maxmodem) env.stats ∧ r.1.date = v.date ∧
      r.2.rollmon = saved.rollmon ∧ r.1.val - r.1.monoffset + r.1.basemon =
        match env.bwreset with
        | some newbw => ⟨newbw, newbw, 0⟩
        | none => (update maxmodem env v).currmon := by
    subst hreset
    unfold checkreset
    cases env.bwreset with
    | none => exact ⟨rfl, rfl, rfl, rfl⟩
    | some newbw => exact ⟨rfl, rfl, rfl, hself _ _⟩
  obtain ⟨hval', hdate, hrollmon, hmon⟩ := hr
  have hday : dayChange env r.1 = dayChange env v := by rw [dayChange, dayChange, hdate]
  have hmonth : newMonth env r.2 = newMonth env saved := by rw [newMonth, newMonth, hrollmon]
  rw [checkTime, hday, hmonth]
  cases dayChange env v with
  | false => exact ⟨hval', hmon⟩
  | true =>
    cases newMonth env saved with
    | false => exact ⟨hval', hmon⟩
    | true => exact ⟨hval', hself _ _⟩

lemma Watch.step_inv (h : w.Inv maxmodem) (hgrows : w.Grows maxmodem env) :
    (w.step maxmodem env).Inv maxmodem := by
  obtain ⟨hcurr, -⟩ := (counts_iff h).2 hgrows
  obtain ⟨hval, hmon⟩ := @iterate_mon maxmodem env w.vars w.saved
  rw [hcurr] at hmon
  exact ⟨hval, hmon⟩

/-- The total of the month is right in the whole run iff no counter ever becomes smaller. -/
theorem monthly_total_iff (maxmodem : Nat) (date : Date) (time : Int) (saved : Backup)
    (envs : List Env) :
    Each (Watch.step maxmodem) (Watch.Counts maxmodem) (.start date time saved) envs ↔
      Each (Watch.step maxmodem) (Watch.Grows maxmodem) (.start date time saved) envs :=
  each_iff_each (fun _ _ => Watch.step_inv) (fun _ _ => counts_iff) envs
    (Watch.start_inv date time saved)

def newBackup : Backup := ⟨none, 0, 0, none, 1⟩

def reading (wan : Option (Nat × Nat)) : Env where
  device i := if i = .wan then wan else none
  bwreset := none
  date := ⟨10, 5, 2024⟩
  time := 0
  rollover := none
  backup := 30
  enabled := true

/-- The total of the month falls back when the interface is lost. -/
theorem monthly_total_falls :
    (update 0 (reading (some (1000, 500)))
    (Watch.start ⟨10, 5, 2024⟩ 0 newBackup).vars).currmon.total = 1500 ∧
      (update 0 (reading none) ((Watch.start ⟨10, 5, 2024⟩ 0 newBackup).step 0
        (reading (some (1000, 500)))).vars).currmon.total = 0 ∧
      ¬ Each (Watch.step 0) (Watch.Counts 0) (.start ⟨10, 5, 2024⟩ 0 newBackup)
        [reading (some (1000, 500)), reading none] := by
  refine ⟨by decide, by decide, ?_⟩
  rintro ⟨-, ⟨heq, -⟩, -⟩
  revert heq
  decide

end SourceMaster.Bwmon
