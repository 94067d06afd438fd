import Mathlib.Algebra.Group.Nat.Defs

/-!
# Address ranges

`ipcalc.sh` computes the range of addresses that a DHCP server gives away (`ipcalc_range`). It works
on numbers; what it prints for an address is read as the same number again (`ip2int_int2ip`). The
text of an address is the list of the numbers between its dots.
-/

namespace SourceMaster.Ipcalc

open List

def bitcount (c : Nat) : Nat :=
  let c := (c >>> 1 &&& 0x55555555) + (c &&& 0x55555555)
  let c := (c >>> 2 &&& 0x33333333) + (c &&& 0x33333333)
  let c := (c >>> 4 &&& 0x0f0f0f0f) + (c &&& 0x0f0f0f0f)
  let c := (c >>> 8 &&& 0x00ff00ff) + (c &&& 0x00ff00ff)
  (c >>> 16 &&& 0x0000ffff) + (c &&& 0x0000ffff)

def ip2int (ip : List Nat) : Nat := ip.foldl (fun ret a => ret <<< 8 ||| a) 0

def int2ipLoop : Nat → Nat → List Nat → List Nat
  | 0, _, ret => ret
  | n + 1, ip, ret => int2ipLoop n (ip >>> 8) ((ip &&& 255) :: ret)

def int2ip (ip : Nat) : List Nat := int2ipLoop 3 (ip >>> 8) [ip &&& 255]

def compl32 (v : Nat) : Nat := v ^^^ 0xffffffff

/-- The second argument is a prefix length or a netmask. -/
inductive Mask
  | length (n : Nat)
  | dotted (netmask : Nat)

def Mask.netmask : Mask → Nat
  | length n => compl32 (2 ^ (32 - n) - 1)
  | dotted netmask => netmask

structure Printed where
  network : Nat
  broadcast : Nat
  prefixLen : Nat
  /-- START and END, or the exit status. -/
  range : Except Nat (Int × Int)

def firstAddress (ipaddr limit start : Nat) : Nat :=
  let start := if start < limit then limit else start
  if start = ipaddr then ipaddr + 1 else start

def lastAddress (ipaddr : Nat) (limit stop : Int) : Int :=
  let stop := if limit < stop then limit else stop
  if stop = ipaddr then ipaddr - 1 else stop

def ipcalc (ipaddr : Nat) (mask : Mask) (start : Nat) (size : Int) : Printed :=
  let netmask := mask.netmask
  let network := ipaddr &&& netmask
  let prefixLen := 32 - bitcount (compl32 netmask)
  let broadcast := network ||| compl32 netmask
  let first := firstAddress ipaddr (if prefixLen ≤ 30 then network + 1 else network)
    (network ||| start &&& compl32 netmask)
  let last := lastAddress ipaddr (if prefixLen ≤ 30 then broadcast - 1 else broadcast)
    (first + size - 1)
  ⟨network, broadcast, prefixLen, if last < first then .error 1 else .ok (first, last)⟩

lemma foldl_int2ipLoop (n : Nat) : ∀ ip ret,
    (int2ipLoop n ip ret).foldl (fun r a => r <<< 8 ||| a) 0 =
      ret.foldl (fun r a => r <<< 8 ||| a) (ip % 256 ^ n) := by
  induction n with
  | zero => simp [int2ipLoop, Nat.mod_one]
  | succ n ih =>
    intro ip ret
    have hmod : ip &&& 255 = ip % 256 := Nat.and_two_pow_sub_one_eq_mod ip 8
    have hjoin : (ip >>> 8 % 256 ^ n) <<< 8 ||| ip % 256 = ip % 256 ^ (n + 1) := by
      rw [← Nat.shiftLeft_add_eq_or_of_lt (by omega : ip % 256 < 2 ^ 8), Nat.shiftLeft_eq,
        Nat.shiftRight_eq_div_pow, Nat.pow_succ' (n := n) (m := 256), Nat.mod_mul,
        show 2 ^ 8 = 256 from rfl]
      omega
    rw [int2ipLoop, ih, foldl_cons, hmod, hjoin]

/-- What is printed for an address is read as the address. -/
theorem ip2int_int2ip {ip : Nat} (h : ip < 2 ^ 32) : ip2int (int2ip ip) = ip := by
  have hloop : int2ip ip = int2ipLoop 4 ip [] := rfl
  rw [ip2int, hloop, foldl_int2ipLoop, foldl_nil]
  exact Nat.mod_eq_of_lt h

def Mask.Contiguous : Mask → Prop
  | length n => n ≤ 32
  | dotted netmask => ∃ n ≤ 32, netmask = 2 ^ 32 - 2 ^ (32 - n)

lemma Mask.Contiguous.prefixLen_eq {mask : Mask} (h : mask.Contiguous) :
    32 - bitcount (compl32 mask.netmask) = (range 32).countP mask.netmask.testBit := by
  cases mask with
  | length n =>
    revert n
    unfold Contiguous netmask
    decide +kernel
  | dotted netmask =>
    obtain ⟨n, hn, rfl⟩ := h
    revert n
    unfold netmask
    decide +kernel

lemma firstAddress_spec (ipaddr limit start : Nat) :
    limit ≤ firstAddress ipaddr limit start ∧ firstAddress ipaddr limit start ≠ ipaddr := by
  unfold firstAddress
  grind

lemma lastAddress_spec (ipaddr : Nat) (limit stop : Int) : lastAddress ipaddr limit stop ≤ limit ∧
    lastAddress ipaddr limit stop ≤ stop ∧ lastAddress ipaddr limit stop ≠ ipaddr := by
  unfold lastAddress
  grind

/-- For every contiguous netmask the range is inside the network, neither begins nor ends at
the given address and has no more addresses than asked for, or else the program fails. -/
theorem ipcalc_range (ipaddr : Nat) {mask : Mask} (hmask : mask.Contiguous) (start : Nat)
    (size : Int) :
    let p := ipcalc ipaddr mask start size
    p.prefixLen = (range 32).countP mask.netmask.testBit ∧
      (p.range = .error 1 ∨ ∃ first last, p.range = .ok (first, last) ∧ first ≤ last ∧
        p.network ≤ first ∧ last ≤ p.broadcast ∧
        (p.prefixLen ≤ 30 → p.network < first ∧ last < p.broadcast) ∧
        first ≠ ipaddr ∧ last ≠ ipaddr ∧ last - first + 1 ≤ size) := by
  refine ⟨hmask.prefixLen_eq, ?_⟩
  dsimp only [ipcalc]
  generalize hf : firstAddress ipaddr _ _ = first
  generalize hl : lastAddress ipaddr _ _ = last
  have hfirst := hf ▸ firstAddress_spec ipaddr _ _
  have hlast := hl ▸ lastAddress_spec ipaddr _ _
  by_cases hsmall : last < first
  · exact .inl (if_pos hsmall)
  · exact .inr ⟨first, last, if_neg hsmall, by grind⟩

theorem ipcalc_range_home : (Mask.length 24).Contiguous ∧
    (ipcalc (ip2int [192, 168, 1, 1]) (.length 24) 100 150).prefixLen = 24 :=
  have hmask : (Mask.length 24).Contiguous := show 24 ≤ 32 by decide
  ⟨hmask, (ipcalc_range (ip2int [192, 168, 1, 1]) hmask 100 150).1⟩

end SourceMaster.Ipcalc
