import Mathlib.Logic.Function.Basic
import Mathlib.Algebra.Group.Nat.Defs

/-!
# Generated addresses

`macaddr_generate` makes the address of a BSS from that of the phy and an index. Where it adds the
index to the address, it adds it again to every byte that a carry reaches, so that the sum is right
only without a carry, or for the index 1 (`macaddr_add_iff`).
-/

namespace SourceMaster.Hostapd

open Function

/-- What `macaddr_split` makes of an address. -/
abbrev Macaddr := Fin 6 → Nat

inductive MacaddrType
  | b1
  | b5
  | add

/-- The loop of the type `add`, over the bytes that are left. -/
def macaddrAdd (idx : Nat) : List (Fin 6) → Macaddr → Macaddr
  | [], addr => addr
  | i :: bytes, addr =>
    let addr := update addr i (addr i + idx)
    if addr i < 256 then addr else macaddrAdd idx bytes (update addr i (addr i % 256))

def macaddrChange (mbssid : Bool) (idx : Nat) (addr : Macaddr) : MacaddrType → Macaddr
  | .b1 =>
    let idx := if addr 0 &&& 2 = 0 then idx - 1 else idx
    update addr 0 ((addr 0 ||| 2) ^^^ (idx <<< 2))
  | .b5 =>
    let addr := if mbssid then update addr 0 (addr 0 ||| 2) else addr
    update addr 5 (addr 5 ^^^ idx)
  | .add => macaddrAdd idx [5, 4, 3, 2, 1] addr

def macaddrType (mask : Macaddr) (mbssid : Bool) (idx : Nat) (numGlobal : Int) : MacaddrType :=
  if mbssid then .b5
  else if idx < numGlobal then .add
  else if 0 < mask 0 then .b1
  else if mask 5 < 0xff then .b5
  else .add

/-- `macaddr_generate`, with the files of the phy. -/
def macaddrGenerate (baseAddr baseMask : Option Macaddr) (addrs : List Macaddr) (mbssid : Bool)
    (idx : Nat) (numGlobal : Int) : Option Macaddr := do
  let addr ← baseAddr
  if idx = 0 ∧ !mbssid then return addr
  let mask ← baseMask
  let useAddrs := decide ((∀ i, mask i = 0) ∧ numGlobal ≤ idx)
  if h : useAddrs ∧ idx < addrs.length then return addrs[idx]
  let mask := if useAddrs then fun _ => 0xff else mask
  return macaddrChange mbssid idx addr (macaddrType mask mbssid idx numGlobal)

def lastBytes (addr : Macaddr) : Nat :=
    (((addr 1 * 256 + addr 2) * 256 + addr 3) * 256 + addr 4) * 256 + addr 5

/-- **The index is added to the address** if and only if it does not carry or is 1. -/
theorem macaddr_add_iff (mbssid : Bool) {idx : Nat} {addr : Macaddr} (hidx : idx < 256)
    (haddr : ∀ i, addr i < 256) :
    (lastBytes (macaddrChange mbssid idx addr .add) = (lastBytes addr + idx) % 2 ^ 40 ∧
      macaddrChange mbssid idx addr .add 0 = addr 0) ↔ addr 5 + idx < 256 ∨ idx = 1 := by
  have hmod : ∀ i, ¬ addr i + idx < 256 → (addr i + idx) % 256 = addr i + idx - 256 := by
    intro i hi
    have := haddr i
    omega
  have h1 := haddr 1
  have h2 := haddr 2
  have h3 := haddr 3
  have h4 := haddr 4
  have h5 := haddr 5
  unfold macaddrChange lastBytes
  -- one case for every byte at which the loop can stop
  by_cases c5 : addr 5 + idx < 256
  · simp [macaddrAdd, c5]
    omega
  by_cases c4 : addr 4 + idx < 256
  · simp [macaddrAdd, c5, c4, hmod]
    omega
  by_cases c3 : addr 3 + idx < 256
  · simp [macaddrAdd, c5, c4, c3, hmod]
    omega
  by_cases c2 : addr 2 + idx < 256
  · simp [macaddrAdd, c5, c4, c3, c2, hmod]
    omega
  by_cases c1 : addr 1 + idx < 256 <;> simp [macaddrAdd, c5, c4, c3, c2, c1, hmod] <;> omega

def lastFull : Macaddr := fun i => if i = 0 then 2 else if i = 5 then 255 else 0

/-- The index 2 is added to the byte that the carry reaches as well. -/
theorem macaddr_add_carries : lastBytes (macaddrChange false 2 lastFull .add) = 0x201 ∧
    (lastBytes lastFull + 2) % 2 ^ 40 = 0x101 := by decide

theorem macaddr_add_one : lastBytes (macaddrChange false 1 lastFull .add) = 0x100 ∧
    macaddrChange false 1 lastFull .add 0 = 2 :=
  (macaddr_add_iff false (by decide) (by decide)).2 (.inr rfl)

end SourceMaster.Hostapd
