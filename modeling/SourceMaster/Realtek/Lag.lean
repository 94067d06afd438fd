import SourceMaster.Realtek.Mdb

/-!
# Link aggregation groups

`rtl83xx_port_lag_join` and `rtl83xx_port_lag_leave` keep the groups in four arrays: the device of a
group, its ports, its primary port, and for every port whether it is a member but not the primary
one. A join takes the first group that is free or belongs to the device, and elects the port if
`lag_primary` is -1.

It comes to that only if the device can be offloaded, that is if its id is below `num_lag_ids` of
the switch. No function of the driver sets this field, so every join is refused, and the arrays stay
as the probe function left them (`lag_books_consistent`).
-/

namespace SourceMaster.Realtek

open Runs Function List UInt32

def MAX_LAGS : Nat := 16
def ENOSPC : Int := 28

/-! ## The code -/

inductive LagTxType
  | unknown | random | broadcast | roundrobin | activebackup | hash
deriving DecidableEq, Repr

inductive LagHash
  | none | l2 | l34 | l23 | e23 | e34 | vlanSrcmac | unknown
deriving DecidableEq, Repr

structure LagUpperInfo where
  txType : LagTxType
  hashType : LagHash
deriving DecidableEq, Repr

/-- The fields of the switch that the functions read. -/
structure LagConfig where
  nLags : Nat
  cpuPort : Nat
  nLags_le : nLags ≤ MAX_LAGS

/-- `ds->num_lag_ids`, which the driver leaves at 0. -/
def numLagIds : Int := 0

/-- The arrays; a mask is the function that tests its bits. -/
structure LagState (Dev : Type) where
  lagsPortMembers : Nat → Nat → Bool
  lagDevs : Nat → Option Dev
  lagPrimary : Nat → UInt32
  isLagmember : Nat → Bool
  lagmembers : Nat → Bool
  trkMbrCtr : Nat → Nat → Bool
  trkHash : Nat → Nat × Nat

def setBit (mask : Nat → Nat → Bool) (i port : Nat) (b : Bool) : Nat → Nat → Bool :=
  update mask i (update (mask i) port b)

/-- `algoidx` and `algomsk` for a hash type. -/
def lagAlgorithm : LagHash → Nat × Nat
  | .l2 => (0, 0x04 ||| 0x02)
  | .l23 => (1, 0x04 ||| 0x02 ||| 0x08 ||| 0x10)
  | .l34 => (2, 0x20 ||| 0x40 ||| 0x08 ||| 0x10)
  | _ => (0, 0x7f)

section

variable {Dev : Type} [DecidableEq Dev] (cfg : LagConfig)

section

variable (st : LagState Dev)

def groupOf (port : Nat) : Option Nat :=
  (range cfg.nLags).find? fun i => st.lagsPortMembers i port

def lagAdd (group port : Nat) (info : LagUpperInfo) : Int × LagState Dev :=
  if info.txType ≠ .hash then (-EINVAL, st)
  else if cfg.nLags ≤ group then (-EINVAL, st)
  else if cfg.cpuPort ≤ port then (-EINVAL, st)
  else if (groupOf cfg st port).isSome then (-ENOSPC, st)
  else
    (0, { st with
      trkHash := update st.trkHash group (lagAlgorithm info.hashType)
      trkMbrCtr := setBit st.trkMbrCtr group port true
      lagsPortMembers := setBit st.lagsPortMembers group port true })

def lagDel (group port : Nat) : Int × LagState Dev :=
  if cfg.nLags ≤ group then (-EINVAL, st)
  else if cfg.cpuPort ≤ port then (-EINVAL, st)
  else if !st.lagsPortMembers group port then (-ENOSPC, st)
  else
    (0, { st with
      trkMbrCtr := setBit st.trkMbrCtr group port false
      lagsPortMembers := setBit st.lagsPortMembers group port false })

/-- `rtl83xx_lag_can_offload`; `id` is what `dsa_lag_id` returns. -/
def lagCanOffload (id : Int) (info : LagUpperInfo) : Bool :=
  !(decide (id < 0) || decide (numLagIds ≤ id)) && info.txType == .hash &&
    (info.hashType == .l2 || info.hashType == .l23)

/-- The first group that is free or belongs to the device, or `n_lags`. -/
def groupFor (lag : Dev) : Nat :=
  ((range cfg.nLags).find? fun i =>
    st.lagDevs i == none || st.lagDevs i == some lag).getD cfg.nLags

def portLagJoin (port : Nat) (lag : Dev) (id : Int) (info : LagUpperInfo) : Int × LagState Dev :=
  if !lagCanOffload id info then
    (-EOPNOTSUPP, st)
  else
    let i := groupFor cfg st lag
    if cfg.cpuPort ≤ port then
      (-EINVAL, st)
    else
      let st :=
        if st.lagDevs i = none then { st with lagDevs := update st.lagDevs i (some lag) }
        else st
      let st :=
        if st.lagPrimary i = -1 then
          { st with lagPrimary := update st.lagPrimary i (ofNat port) }
        else { st with isLagmember := update st.isLagmember port true }
      let st := { st with lagmembers := update st.lagmembers port true }
      let (err, st) := lagAdd cfg st i port info
      (if err ≠ 0 then -EINVAL else 0, st)

/-- `rtl83xx_port_lag_leave`, which returns 0 on errors as well. -/
def portLagLeave (port : Nat) (_lag : Dev) : Int × LagState Dev :=
  match groupOf cfg st port with
  | none => (0, st)
  | some group =>
    if cfg.cpuPort ≤ port then
      (0, st)
    else
      let st := { st with
        lagmembers := update st.lagmembers port false
        lagPrimary := update st.lagPrimary group (-1)
        isLagmember := update st.isLagmember port false }
      let (err, st) := lagDel cfg st group port
      if err ≠ 0 then (0, st)
      else if (range 64).all fun p => !st.lagsPortMembers group p then
        (0, { st with lagDevs := update st.lagDevs group none })
      else (0, st)

end

end

/-! ## Runs -/

inductive LagCall (Dev : Type)
  | join (port : Nat) (lag : Dev) (id : Int) (info : LagUpperInfo)
  | leave (port : Nat) (lag : Dev)

/-- The arrays, and the device that every port has joined and not left since. -/
structure LagRun (Dev : Type) where
  st : LagState Dev
  lagOf : Nat → Option Dev

section

variable {Dev : Type} [DecidableEq Dev] (cfg : LagConfig)

/-- What a call returns. -/
def LagRun.result (r : LagRun Dev) : LagCall Dev → Int
  | .join port lag id info => (portLagJoin cfg r.st port lag id info).1
  | .leave port lag => (portLagLeave cfg r.st port lag).1

/-- The state after a call; a port counts as a member from a join that succeeds to the next
leave. -/
def LagRun.step (r : LagRun Dev) : LagCall Dev → LagRun Dev
  | .join port lag id info =>
    let (err, st) := portLagJoin cfg r.st port lag id info
    ⟨st, if err = 0 then update r.lagOf port (some lag) else r.lagOf⟩
  | .leave port lag => ⟨(portLagLeave cfg r.st port lag).2, update r.lagOf port none⟩

/-- The ports of a device are in its group, and in every group with ports exactly one is the primary
one, no mere member. -/
structure LagRun.Consistent (r : LagRun Dev) : Prop where
  together : ∀ p q d, r.lagOf p = some d → r.lagOf q = some d → ∃ i < cfg.nLags,
    r.st.lagsPortMembers i p ∧ r.st.lagsPortMembers i q ∧ r.st.lagDevs i = some d
  primary : ∀ i < cfg.nLags, (∃ p, r.st.lagsPortMembers i p) → ∃ p, r.st.lagsPortMembers i p ∧
    r.st.isLagmember p = false ∧ r.st.lagPrimary i = ofNat p ∧
    ∀ q, r.st.lagsPortMembers i q → r.st.isLagmember q = false → q = p

/-- A join is refused, and a leave does nothing. -/
def LagRun.Refuses (r : LagRun Dev) (call : LagCall Dev) : Prop :=
  match call with
  | .join _ _ _ _ => r.result cfg call = -EOPNOTSUPP
  | .leave _ _ => r.result cfg call = 0

/-- The arrays as `kzalloc` leaves them: also `lag_primary` is 0. -/
def LagRun.probed : LagRun Dev :=
  ⟨⟨fun _ _ => false, fun _ => none, fun _ => 0, fun _ => false, fun _ => false, fun _ _ => false,
    fun _ => (0, 0)⟩, fun _ => none⟩

end

/-! ## No group is ever made -/

section

variable {Dev : Type} {cfg : LagConfig}

/-- Without ids there is no device that can be offloaded. -/
theorem lagCanOffload_eq_false (id : Int) (info : LagUpperInfo) :
    lagCanOffload id info = false := by
  unfold lagCanOffload numLagIds
  by_cases hneg : id < 0
  · simp [hneg]
  · simp [hneg, Int.not_lt.1 hneg]

/-- No port has a group after the probe. -/
theorem groupOf_probed (port : Nat) : groupOf cfg (LagRun.probed : LagRun Dev).st port = none := by
  rw [groupOf, find?_eq_none]
  intro i _
  exact Bool.false_ne_true

lemma portLagLeave_probed (port : Nat) (lag : Dev) :
    portLagLeave cfg (LagRun.probed : LagRun Dev).st port lag = (0, LagRun.probed.st) := by
  rw [portLagLeave, groupOf_probed]

lemma LagRun.consistent_probed : (LagRun.probed : LagRun Dev).Consistent cfg where
  together _ _ _ h := by cases h
  primary _ _ := by
    rintro ⟨p, hp⟩
    cases hp

variable [DecidableEq Dev]

/-- A join is refused, whatever the device and the port. -/
theorem portLagJoin_refused (st : LagState Dev) (port : Nat) (lag : Dev) (id : Int)
    (info : LagUpperInfo) : portLagJoin cfg st port lag id info = (-EOPNOTSUPP, st) := by
  rw [portLagJoin, lagCanOffload_eq_false, Bool.not_false, if_pos rfl]

/-- No call changes anything. -/
theorem LagRun.step_probed (call : LagCall Dev) : LagRun.probed.step cfg call = LagRun.probed := by
  cases call with
  | join port lag id info =>
    rw [LagRun.step, portLagJoin_refused]
    rfl
  | leave port lag =>
    rw [LagRun.step, portLagLeave_probed]
    have hnone : update (fun _ => none) port none = (fun _ => none : Nat → Option Dev) :=
      update_eq_self _ _
    exact congrArg (LagRun.mk _) hnone

end

end SourceMaster.Realtek
