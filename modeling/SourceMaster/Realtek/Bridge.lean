import Mathlib.Data.Finset.Image
import SourceMaster.Lib.Runs

/-!
# Ports in bridges

The switch forwards from a port to the ports of its traffic row. `rtl83xx_port_bridge_join` and
`rtl83xx_port_bridge_leave` keep the rows of the enabled ports, and for every port the ports of its
bridge in `pm`, from which the row is made when the port is enabled. Over every run, the row of an
enabled port has the ports of its bridge and no others, if the row has a bit for every port of the
run (`rows_match_bridges`). On the RTL931x, which has 56 ports, a row is one word that starts with
port 0 at bit 3, so that the ports from 29 on are lost (`high_port_lost`).
-/

namespace SourceMaster.Realtek

open Runs Function

/-! ## Traffic rows -/

/-- How a family of switches stores a row: the bits of the word, and the bit of port 0. -/
structure RowFormat where
  width : Nat
  shift : Nat

def rtl838xRow : RowFormat := ⟨32, 0⟩
def rtl839xRow : RowFormat := ⟨64, 0⟩
def rtl930xRow : RowFormat := ⟨32, 3⟩
def rtl931xRow : RowFormat := ⟨32, 3⟩

namespace RowFormat

variable (t : RowFormat) (row : Finset Nat) (dest : Nat)

/-- The row has a bit for the port. -/
abbrev Fits (port : Nat) : Prop := port + t.shift < t.width

/-- `traffic_get`: the ports whose bits are set. -/
def trafficGet : Finset Nat :=
  (row.filter fun b => t.shift ≤ b ∧ b < t.width).image (· - t.shift)

/-- `traffic_set`: what is shifted out of the word is lost. -/
def trafficSet (destMatrix : Finset Nat) : Finset Nat :=
  (destMatrix.image (· + t.shift)).filter (· < t.width)

/-- The bit that `BIT(dest + shift)` sets. C does not define a shift by more than the width; the
machine takes the remainder. -/
def bit : Nat := (dest + t.shift) % t.width

def trafficEnable : Finset Nat := insert (t.bit dest) row

def trafficDisable : Finset Nat := row.erase (t.bit dest)

variable {t row dest} {j : Nat}

lemma mem_trafficGet : j ∈ t.trafficGet row ↔ t.Fits j ∧ j + t.shift ∈ row := by
  unfold trafficGet
  simp only [Finset.mem_image, Finset.mem_filter]
  constructor
  · rintro ⟨b, ⟨hb, hle, hlt⟩, rfl⟩
    rw [Fits, Nat.sub_add_cancel hle]
    exact ⟨hlt, hb⟩
  · rintro ⟨hlt, hmem⟩
    exact ⟨j + t.shift, ⟨hmem, Nat.le_add_left _ _, hlt⟩, Nat.add_sub_cancel _ _⟩

lemma mem_get_set (hj : t.Fits j) {m : Finset Nat} : j ∈ t.trafficGet (t.trafficSet m) ↔
    j ∈ m := by
  rw [mem_trafficGet, trafficSet, Finset.mem_filter, Finset.mem_image]
  constructor
  · rintro ⟨-, ⟨i, hi, heq⟩, -⟩
    rwa [← Nat.add_right_cancel heq]
  · intro hm
    exact ⟨hj, ⟨j, hm, rfl⟩, hj⟩

lemma bit_of_fits (h : t.Fits dest) : t.bit dest = dest + t.shift := Nat.mod_eq_of_lt h

lemma mem_get_enable (hj : t.Fits j) (hdest : t.Fits dest) :
    j ∈ t.trafficGet (t.trafficEnable row dest) ↔ j = dest ∨ j ∈ t.trafficGet row := by
  rw [mem_trafficGet, mem_trafficGet, trafficEnable, bit_of_fits hdest, Finset.mem_insert]
  simp [hj]

lemma mem_get_disable (hj : t.Fits j) (hdest : t.Fits dest) :
    j ∈ t.trafficGet (t.trafficDisable row dest) ↔ j ≠ dest ∧ j ∈ t.trafficGet row := by
  rw [mem_trafficGet, mem_trafficGet, trafficDisable, bit_of_fits hdest, Finset.mem_erase]
  simp [hj]

end RowFormat

/-! ## The calls -/

/-- The ports of a switch; `β` are the bridges. Masks of ports and words of rows are sets. -/
structure BridgeState (β : Type) where
  /-- `bridge_dev`, which belongs to the DSA core -/
  bridgeDev : Nat → Option β
  enable : Nat → Bool
  pm : Nat → Finset Nat
  /-- the bits of the rows -/
  traffic : Nat → Finset Nat

inductive PortEvent (β : Type)
  | enable (port : Nat)
  | disable (port : Nat)
  | join (port : Nat) (bridge : β)
  | leave (port : Nat) (bridge : β)

def PortEvent.port {β : Type} : PortEvent β → Nat
  | enable port | disable port | join port _ | leave port _ => port

namespace BridgeState

variable {β : Type} [DecidableEq β] (t : RowFormat) (users : Finset Nat) (cpuPort : Nat)
  (s : BridgeState β)
  (port : Nat)

def portEnable : BridgeState β :=
  let s := { s with enable := update s.enable port true }
  if port = cpuPort then s
  else
    let traffic := update s.traffic cpuPort (t.trafficEnable (s.traffic cpuPort) port)
    { s with traffic := update traffic port (t.trafficSet (t.trafficGet (traffic port) ∪ s.pm port))
      }

def portDisable : BridgeState β :=
  if port ∉ users then s
  else
    let traffic := update s.traffic cpuPort (t.trafficDisable (s.traffic cpuPort) port)
    { s with
      traffic := update traffic port (t.trafficSet (t.trafficGet (traffic port) \ s.pm port))
      enable := update s.enable port false }

/-- The ports that the loops of the next two functions do not pass over. -/
def peers (bridge : β) : Finset Nat := users.filter fun i => i ≠ port ∧ s.bridgeDev i = some bridge

def portBridgeJoin (bridge : β) : BridgeState β :=
  let peers := s.peers users port bridge
  let traffic i := if i ∈ peers ∧
    s.enable i then t.trafficEnable (s.traffic i) port else s.traffic i
  let pm i := if i ∈ peers then insert port (s.pm i) else s.pm i
  let portBitmap := insert cpuPort peers
  { s with
    traffic :=
      if s.enable port then
        let traffic := update traffic cpuPort (t.trafficEnable (traffic cpuPort) port)
        update traffic port (t.trafficSet (t.trafficGet (traffic port) ∪ portBitmap))
      else traffic
    pm := update pm port (pm port ∪ portBitmap) }

def portBridgeLeave (bridge : β) : BridgeState β :=
  let peers := s.peers users port bridge
  let traffic i := if i ∈ peers ∧
    s.enable i then t.trafficDisable (s.traffic i) port else s.traffic i
  let pm i := if i ∈ peers then (s.pm i).erase port else s.pm i
  { s with
    traffic :=
      if s.enable port then update traffic port (t.trafficSet (t.trafficGet (traffic port) \ peers))
      else traffic
    pm := update pm port (pm port \ peers) }

def setBridge (bridge : Option β) : BridgeState β :=
    { s with bridgeDev := update s.bridgeDev port bridge }

/-- `bridge_dev` is set before a port joins and cleared before a port leaves. -/
def step : PortEvent β → BridgeState β
  | .enable port => s.portEnable t cpuPort port
  | .disable port => s.portDisable t users cpuPort port
  | .join port bridge => (s.setBridge port (some bridge)).portBridgeJoin t users cpuPort port bridge
  | .leave port bridge => (s.setBridge port none).portBridgeLeave t users port bridge

/-- A port is in one bridge at a time: it joins when in none, and leaves the one it is in. -/
def Called : PortEvent β → Prop
  | .enable _ | .disable _ => True
  | .join port _ => s.bridgeDev port = none
  | .leave port bridge => s.bridgeDev port = some bridge

def SameBridge (i j : Nat) : Prop := ∃ bridge, s.bridgeDev i = some bridge ∧
    s.bridgeDev j = some bridge

/-- The row of an enabled port has another user port iff they are in the same bridge. -/
def RowsMatch : Prop :=
  ∀ i ∈ users, s.enable i → ∀ j ∈ users, j ≠ i → (j ∈ t.trafficGet (s.traffic i) ↔ s.SameBridge i j)

/-- The masks, and the rows of enabled ports, have the ports of the same bridge. Ports without a bit
are in no bridge. -/
structure Inv : Prop where
  pm : ∀ i ∈ users, ∀ j ∈ users, j ≠ i → (j ∈ s.pm i ↔ s.SameBridge i j)
  row : ∀ i ∈ users, ∀ j ∈ users, j ≠ i →
    (j ∈ t.trafficGet (s.traffic i) ↔ s.enable i ∧ s.SameBridge i j)
  unfit : ∀ j, ¬ t.Fits j → s.bridgeDev j = none

variable {t users cpuPort s}

section

omit [DecidableEq β]

lemma Inv.rowsMatch (h : s.Inv t users) : s.RowsMatch t users := by
  intro i hi henable j hj hne
  rw [h.row i hi j hj hne]
  exact and_iff_right henable

/-- The rows have only to be looked at where they have a bit. -/
theorem Inv.of_fits (hpm : ∀ i ∈ users, ∀ j ∈ users, j ≠ i → (j ∈ s.pm i ↔ s.SameBridge i j))
    (hrow : ∀ i ∈ users, ∀ j ∈ users, j ≠ i → t.Fits j →
      (j ∈ t.trafficGet (s.traffic i) ↔ s.enable i ∧ s.SameBridge i j))
    (hunfit : ∀ j, ¬ t.Fits j → s.bridgeDev j = none) : s.Inv t users := by
  refine ⟨hpm, fun i hi j hj hne => ?_, hunfit⟩
  by_cases hfits : t.Fits j
  · exact hrow i hi j hj hne hfits
  · refine iff_of_false (fun h => hfits (RowFormat.mem_trafficGet.1 h).1) ?_
    rintro ⟨-, bridge, -, hsome⟩
    rw [hunfit j hfits] at hsome
    cases hsome

lemma Inv.start (hcpu : cpuPort ∉ users) (hnone : ∀ i, s.bridgeDev i = none)
    (hpm : ∀ i ∈ users, s.pm i ⊆ {cpuPort})
    (htraffic : ∀ i ∈ users, t.trafficGet (s.traffic i) ⊆ {cpuPort}) : s.Inv t users := by
  have hsame (i j : Nat) : ¬ s.SameBridge i j := by simp [SameBridge, hnone]
  have hother (j : Nat) (hj : j ∈ users) : j ∉ ({cpuPort} : Finset Nat) := by
    simpa using ne_of_mem_of_not_mem hj hcpu
  refine ⟨fun i hi j hj _ => ?_, fun i hi j hj _ => ?_, fun j _ => hnone j⟩
  · exact iff_of_false (fun h => hother j hj (hpm i hi h)) (hsame i j)
  · exact iff_of_false (fun h => hother j hj (htraffic i hi h)) fun h => hsame i j h.2

variable {port}

lemma Inv.enable (h : s.Inv t users) (hcpu : cpuPort ∉ users) :
    (s.portEnable t cpuPort port).Inv t users := by
  unfold portEnable
  split
  next heq =>
    refine ⟨h.pm, fun i hi j hj hne => ?_, h.unfit⟩
    have hi' : i ≠ port := fun heq' => hcpu (heq ▸ heq' ▸ hi)
    have hsame : update s.enable port true i = s.enable i := update_of_ne hi' ..
    dsimp only
    rw [hsame]
    exact h.row i hi j hj hne
  next =>
    refine .of_fits h.pm (fun i hi j hj hne hfits => ?_) h.unfit
    have hi' : i ≠ cpuPort := fun heq => hcpu (heq ▸ hi)
    have hpm := h.pm i hi j hj hne
    have hrow := h.row i hi j hj hne
    change j ∈ t.trafficGet (update (update s.traffic cpuPort _) port _ i) ↔
      update s.enable port true i ∧ s.SameBridge i j
    obtain rfl | hip := eq_or_ne i port
    · simp [hi', hpm, hrow, RowFormat.mem_get_set hfits]
    · simp [hi', hip, hrow]

lemma Inv.disable (h : s.Inv t users) (hcpu : cpuPort ∉ users) :
    (s.portDisable t users cpuPort port).Inv t users := by
  unfold portDisable
  split
  · exact h
  refine .of_fits h.pm (fun i hi j hj hne hfits => ?_) h.unfit
  have hi' : i ≠ cpuPort := fun heq => hcpu (heq ▸ hi)
  have hpm := h.pm i hi j hj hne
  have hrow := h.row i hi j hj hne
  change j ∈ t.trafficGet (update (update s.traffic cpuPort _) port _ i) ↔
    update s.enable port false i ∧ s.SameBridge i j
  obtain rfl | hip := eq_or_ne i port
  · simp [hi', hpm, hrow, RowFormat.mem_get_set hfits]
  · simp [hi', hip, hrow]

end

section Linked

def Linked (s : BridgeState β) (users : Finset Nat) (port : Nat) (bridge : β) (i j : Nat) : Prop :=
  (i = port ∧ j ∈ s.peers users port bridge) ∨ (j = port ∧ i ∈ s.peers users port bridge)

variable (users s) {port} (bridge : β) {i j : Nat} (hne : j ≠ i)

section

variable (hfits : t.Fits j) (hport : t.Fits port)
include hne

lemma pm_join (hj : j ≠ cpuPort) :
    j ∈ (s.portBridgeJoin t users cpuPort port bridge).pm i ↔ j ∈ s.pm i ∨
    s.Linked users port bridge i j := by
  have hself : port ∉ s.peers users port bridge := by simp [peers]
  simp only [portBridgeJoin, Linked, update_apply]
  grind

lemma pm_leave :
    j ∈ (s.portBridgeLeave t users port bridge).pm i ↔ j ∈ s.pm i ∧
    ¬ s.Linked users port bridge i j := by
  have hself : port ∉ s.peers users port bridge := by simp [peers]
  simp only [portBridgeLeave, Linked, update_apply]
  grind

include hfits hport

lemma row_join (hi : i ≠ cpuPort) (hj : j ≠ cpuPort) :
    j ∈ t.trafficGet ((s.portBridgeJoin t users cpuPort port bridge).traffic i) ↔
      j ∈ t.trafficGet (s.traffic i) ∨ (s.enable i ∧ s.Linked users port bridge i j) := by
  have hself : port ∉ s.peers users port bridge := by simp [peers]
  have hset (m : Finset Nat) : j ∈ t.trafficGet (t.trafficSet m) ↔ j ∈ m :=
    RowFormat.mem_get_set hfits
  have henable (row : Finset Nat) : j ∈ t.trafficGet (t.trafficEnable row port) ↔
      j = port ∨ j ∈ t.trafficGet row := RowFormat.mem_get_enable hfits hport
  unfold portBridgeJoin Linked
  obtain rfl | hip := eq_or_ne i port
  · cases hen : s.enable i <;> simp [hen, hi, hj, hne, hself, hset]
  · by_cases hmem : i ∈ s.peers users port bridge ∧ s.enable i
    · cases s.enable port <;> simp [hip, hi, hmem, henable, or_comm]
    · cases s.enable port <;> simp [hip, hi, hmem] <;> grind

lemma row_leave : j ∈ t.trafficGet ((s.portBridgeLeave t users port bridge).traffic i) ↔
    j ∈ t.trafficGet (s.traffic i) ∧ ¬ (s.enable i ∧ s.Linked users port bridge i j) := by
  have hself : port ∉ s.peers users port bridge := by simp [peers]
  have hset (m : Finset Nat) : j ∈ t.trafficGet (t.trafficSet m) ↔ j ∈ m :=
    RowFormat.mem_get_set hfits
  have hdisable (row : Finset Nat) : j ∈ t.trafficGet (t.trafficDisable row port) ↔
      j ≠ port ∧ j ∈ t.trafficGet row := RowFormat.mem_get_disable hfits hport
  unfold portBridgeLeave Linked
  obtain rfl | hip := eq_or_ne i port
  · cases hen : s.enable i <;> simp [hen, hne, hself, hset]
  · by_cases hmem : i ∈ s.peers users port bridge ∧ s.enable i
    · cases hen : s.enable port <;> simp [hen, hip, hmem, hdisable, and_comm]
    · cases hen : s.enable port <;> simp [hen, hip, hmem] <;> grind

end

variable {users} (hi : i ∈ users) (hj : j ∈ users)
include hne hi hj

lemma sameBridge_join (hnone : s.bridgeDev port = none) :
    (s.setBridge port (some bridge)).SameBridge i j ↔
      s.SameBridge i j ∨ (s.setBridge port (some bridge)).Linked users port bridge i j := by
  unfold SameBridge Linked peers setBridge
  grind [update_apply]

lemma sameBridge_leave (hsome : s.bridgeDev port = some bridge) :
    (s.setBridge port none).SameBridge i j ↔
      s.SameBridge i j ∧ ¬ (s.setBridge port none).Linked users port bridge i j := by
  unfold SameBridge Linked peers setBridge
  grind [update_apply]

end Linked

omit [DecidableEq β] in
lemma unfit_setBridge {port : Nat} (h : ∀ j, ¬ t.Fits j → s.bridgeDev j = none)
    (hport : t.Fits port)
    (bridge : Option β) (j : Nat) (hj : ¬ t.Fits j) :
    (s.setBridge port bridge).bridgeDev j = none := by
  have hne : j ≠ port := fun heq => hj (heq ▸ hport)
  exact (update_of_ne hne ..).trans (h j hj)

lemma Inv.step (e : PortEvent β) (hcpu : cpuPort ∉ users) (he : t.Fits e.port) (h : s.Inv t users)
    (hcalled : s.Called e) : (s.step t users cpuPort e).Inv t users := by
  cases e with
  | enable port => exact h.enable hcpu
  | disable port => exact h.disable hcpu
  | join port bridge =>
    have hsame (i j : Nat) (hi : i ∈ users) (hj : j ∈ users) (hne : j ≠ i) :=
      sameBridge_join s bridge hne hi hj hcalled
    refine .of_fits (fun i hi j hj hne => ?_) (fun i hi j hj hne hfits => ?_)
      (unfit_setBridge h.unfit he (some bridge))
    · refine (pm_join users _ bridge hne (ne_of_mem_of_not_mem hj hcpu)).trans ?_
      exact (or_congr_left (h.pm i hi j hj hne)).trans (hsame i j hi hj hne).symm
    · refine (row_join users _ bridge hne hfits he (ne_of_mem_of_not_mem hi hcpu)
        (ne_of_mem_of_not_mem hj hcpu)).trans ?_
      refine (or_congr_left (h.row i hi j hj hne)).trans ?_
      exact and_or_left.symm.trans (and_congr_right' (hsame i j hi hj hne).symm)
  | leave port bridge =>
    have hport : t.Fits port := he
    have hsame (i j : Nat) (hi : i ∈ users) (hj : j ∈ users) (hne : j ≠ i) :=
      sameBridge_leave s bridge hne hi hj hcalled
    refine .of_fits (fun i hi j hj hne => ?_) (fun i hi j hj hne hfits => ?_)
      (unfit_setBridge h.unfit hport none)
    · refine (pm_leave users _ bridge hne).trans ?_
      exact (and_congr_left' (h.pm i hi j hj hne)).trans (hsame i j hi hj hne).symm
    · refine (row_leave users _ bridge hne hfits hport).trans ?_
      change j ∈ t.trafficGet (s.traffic i) ∧ ¬ (s.enable i ∧ _) ↔
        s.enable i ∧ (s.setBridge port none).SameBridge i j
      rw [h.row i hi j hj hne, hsame i j hi hj hne]
      grind

end BridgeState

open BridgeState

/-- **The rows of the enabled ports match the bridges** in every state of a run from no bridge, with
only the CPU port in the masks and rows, if the rows of the family have a bit for every port of the
run. -/
theorem rows_match_bridges {β : Type} [DecidableEq β] (t : RowFormat) {users : Finset Nat}
    {cpuPort : Nat}
    {s : BridgeState β} (hcpu : cpuPort ∉ users) (hnone : ∀ i, s.bridgeDev i = none)
    (hpm : ∀ i ∈ users, s.pm i ⊆ {cpuPort})
    (htraffic : ∀ i ∈ users, t.trafficGet (s.traffic i) ⊆ {cpuPort}) (es : List (PortEvent β))
    (hfits : ∀ e ∈ es, t.Fits e.port) (hes : Each (step t users cpuPort) Called s es) :
    Always (step t users cpuPort) (RowsMatch t users) s es := by
  have hstart : s.Inv t users := .start hcpu hnone hpm htraffic
  exact @always_of_each _ _ _ _ (BridgeState.Inv t users) _ (fun e => t.Fits e.port)
    (fun _ h => h.rowsMatch) (fun _ e he h hcalled => h.step e hcpu he hcalled) es hfits _ hstart
      hes

/-- The masks after the setup, and rows with the bit of the CPU port `cpu` alone. -/
def atSetup (t : RowFormat) (cpu : Nat) : BridgeState Unit where
  bridgeDev _ := none
  enable _ := false
  pm _ := {cpu}
  traffic _ := t.trafficSet {cpu}

/-- On an RTL930x, one port is enabled before, the other after they join the bridge, which the first
leaves. -/
theorem two_ports_match_bridges : let es :=
    [.enable 0, .join 0 (), .join 27 (), .enable 27, .leave 0 ()]
    Each (step rtl930xRow {0, 27} 28) Called (atSetup rtl930xRow 28) es ∧
      Always (step rtl930xRow {0, 27} 28) (RowsMatch rtl930xRow {0, 27})
        (atSetup rtl930xRow 28) es := by
  have hes : Each (step rtl930xRow {0, 27} 28) Called (atSetup rtl930xRow 28)
      [.enable 0, .join 0 (), .join 27 (), .enable 27, .leave 0 ()] :=
    ⟨trivial, rfl, rfl, trivial, rfl, trivial⟩
  have hrow : rtl930xRow.trafficGet (rtl930xRow.trafficSet {28}) ⊆ {28} := by decide
  exact ⟨hes, rows_match_bridges rtl930xRow (by decide) (fun _ => rfl) (fun _ _ => subset_rfl)
    (fun _ _ => hrow) _ (by decide) hes⟩

/-- On an RTL931x, the ports 5 and 29 join a bridge and port 5 is enabled: port 29 is not in its
row. -/
theorem high_port_lost :
    let s := [.join 5 (), .join 29 (),
    .enable 5].foldl (step rtl931xRow {5, 29} 56) (atSetup rtl931xRow 56)
    s.enable 5 ∧ s.bridgeDev 5 = some () ∧ s.bridgeDev 29 = some () ∧
      29 ∉ rtl931xRow.trafficGet (s.traffic 5) := by
  decide

end SourceMaster.Realtek
