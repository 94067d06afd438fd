import Mathlib.Algebra.Group.Nat.Defs
import Mathlib.Tactic.SplitIfs

/-!
# MAP port sets

`mapcalc` prints the ports that a customer edge may use. The first `offset` bits of a port are not
all 0, and the `psidlen` bits behind them are the identifier of the port set (`portsets_partition`).
-/

namespace SourceMaster.Mapcalc

open List

/-- The identifier is in the high bits of `psid`. -/
def portsets (offset psidlen psid : Nat) : List (Nat × Nat) :=
  let psid := psid >>> (16 - psidlen) <<< (16 - psidlen)
  let first := if offset ≠ 0 then 1 else 0
  (range' first (1 <<< offset - first)).filterMap fun k =>
    let start := k <<< (16 - offset) ||| psid >>> offset
    let stop := start + 1 <<< (16 - offset - psidlen) - 1
    let start := if start = 0 then 1 else start
    if start ≤ stop then some (start, stop) else none

def Printed (ranges : List (Nat × Nat)) (port : Nat) : Prop := ∃ r ∈ ranges, r.1 ≤ port ∧ port ≤ r.2

variable {a k n x p : Nat}

lemma start_eq (hak : a + k ≤ 16) (hx : x < 2 ^ k) :
    n <<< (16 - a) ||| x <<< (16 - k) >>> a = (n * 2 ^ k + x) * 2 ^ (16 - a - k) := by
  have hlow : x <<< (16 - k) >>> a = x * 2 ^ (16 - a - k) := by
    rw [show 16 - k = 16 - a - k +
      a by omega, Nat.shiftLeft_add, Nat.shiftLeft_shiftRight, Nat.shiftLeft_eq]
  have hpow := Nat.pow_sub_mul_pow 2 (Nat.le_sub_of_add_le' hak)
  have hlt : x * 2 ^ (16 - a - k) < 2 ^ (16 - a) := by
    rw [← hpow, Nat.mul_comm]
    exact Nat.mul_lt_mul_of_pos_left hx (Nat.two_pow_pos _)
  rw [hlow, ← Nat.shiftLeft_add_eq_or_of_lt hlt, Nat.shiftLeft_eq, ← hpow, Nat.add_mul,
    Nat.mul_right_comm, Nat.mul_assoc]

lemma range_iff {w s : Nat} (hw : 0 < w) :
    (if s * w = 0 then 1 else s * w) ≤ p ∧ p ≤ s * w + w - 1 ↔ 1 ≤ p ∧ p / w = s := by
  rw [Nat.div_eq_iff hw]
  grind

lemma printed_iff (hak : a + k ≤ 16) (hx : x < 2 ^ 16) : Printed (portsets a k x) p ↔
    (if a = 0 then 1 else 2 ^ (16 - a)) ≤ p ∧ p ≤ 65535 ∧
      p / 2 ^ (16 - a - k) % 2 ^ k = x >>> (16 - k) := by
  have hid : x >>> (16 - k) < 2 ^ k := by
    rwa [Nat.shiftRight_eq_div_pow, Nat.div_lt_iff_lt_mul (Nat.two_pow_pos _), Nat.mul_comm,
      Nat.pow_sub_mul_pow 2 (by omega)]
  unfold Printed portsets
  generalize x >>> (16 - k) = id at hid ⊢
  have hhigh : p / 2 ^ (16 - a) = p / 2 ^ (16 - a - k) / 2 ^ k := by
    rw [Nat.div_div_eq_div_mul, Nat.pow_sub_mul_pow 2 (by omega)]
  have hfirst : (if a ≠ 0 then 1 else 0) ≤ p / 2 ^ (16 - a) ∧ 1 ≤ p ↔
      (if a = 0 then 1 else 2 ^ (16 - a)) ≤ p := by
    have hpos := Nat.two_pow_pos (16 - a)
    by_cases ha : a = 0
    · simp [ha]
    · simp only [ha, ne_eq, not_false_eq_true, if_true, if_false, Nat.le_div_iff_mul_le hpos]
      omega
  have hlast : p / 2 ^ (16 - a) < 2 ^ a ↔ p ≤ 65535 := by
    rw [Nat.div_lt_iff_lt_mul (Nat.two_pow_pos _), Nat.mul_comm, Nat.pow_sub_mul_pow 2 (by omega)]
    exact Nat.lt_succ_iff
  simp only [mem_filterMap, mem_range'_1, start_eq hak hid, Nat.one_shiftLeft]
  constructor
  · rintro ⟨r, ⟨n, hn, hr⟩, hp⟩
    obtain ⟨-, hr⟩ := Option.ite_none_right_eq_some.1 hr
    rw [← Option.some.inj hr] at hp
    obtain ⟨hpos, hdiv⟩ := (range_iff (Nat.two_pow_pos _)).1 hp
    have hn' : p / 2 ^ (16 - a) = n := by
      rw [hhigh, hdiv, Nat.mul_comm, Nat.mul_add_div (Nat.two_pow_pos k), Nat.div_eq_of_lt hid,
        Nat.add_zero]
    refine ⟨hfirst.1 ⟨by omega, hpos⟩, hlast.1 (by omega), ?_⟩
    rw [hdiv, Nat.mul_add_mod_of_lt hid]
  · rintro ⟨hp, hmax, hmod⟩
    have hdiv : p / 2 ^ (16 - a - k) = p / 2 ^ (16 - a) * 2 ^ k + id := by
      rw [hhigh, ← hmod, Nat.div_add_mod']
    have hin := (range_iff (Nat.two_pow_pos _)).2 ⟨(hfirst.2 hp).2, hdiv⟩
    have hn := (hfirst.2 hp).1
    have hmax := hlast.2 hmax
    exact ⟨_, ⟨_, ⟨hn, by omega⟩, if_pos (Nat.le_trans hin.1 hin.2)⟩, hin⟩

/-- The port sets of different ids are disjoint, together they are all ports from the offset on. -/
theorem portsets_partition (hak : a + k ≤ 16) :
    (∀ x < 2 ^ 16, ∀ y < 2 ^ 16, x >>> (16 - k) ≠ y >>> (16 - k) →
      ∀ p, ¬ (Printed (portsets a k x) p ∧ Printed (portsets a k y) p)) ∧
    ∀ p, (∃ x < 2 ^ 16, Printed (portsets a k x) p) ↔
      (if a = 0 then 1 else 2 ^ (16 - a)) ≤ p ∧ p ≤ 65535 := by
  refine ⟨fun x hx y hy hne p ⟨hpx, hpy⟩ => hne ?_, fun p =>
    ⟨fun ⟨x, hx, hp⟩ => ?_, fun ⟨hp, hmax⟩ => ?_⟩⟩
  · rw [← ((printed_iff hak hx).1 hpx).2.2, ((printed_iff hak hy).1 hpy).2.2]
  · obtain ⟨hp, hmax, -⟩ := (printed_iff hak hx).1 hp
    exact ⟨hp, hmax⟩
  · obtain ⟨id, hid⟩ : ∃ id, p / 2 ^ (16 - a - k) % 2 ^ k = id := ⟨_, rfl⟩
    have hlt : id <<< (16 - k) < 2 ^ 16 := by
      rw [Nat.shiftLeft_eq, Nat.mul_comm, ← Nat.pow_sub_mul_pow 2 (show k ≤ 16 by omega), ← hid]
      exact Nat.mul_lt_mul_of_pos_left (Nat.mod_lt _ (Nat.two_pow_pos k)) (Nat.two_pow_pos _)
    refine ⟨_, hlt, (printed_iff hak hlt).2 ⟨hp, hmax, ?_⟩⟩
    rw [Nat.shiftLeft_shiftRight, hid]

theorem portsets_partition_default : ∃ x < 2 ^ 16, Printed (portsets 6 8 x) 2000 :=
  ((portsets_partition (a := 6) (k := 8) (by decide)).2 2000).2 (by decide)

/-! ## Rules -/

/-- The options with a number. -/
inductive Key
  | ealen | prefix4len | prefix6len | offset | psidlen | pdlen | psid
deriving DecidableEq

def Key.max : Key → Int
  | ealen => 48
  | prefix4len => 32
  | prefix6len | pdlen => 128
  | offset | psidlen => 16
  | psid => 65535

/-- The options that matter to the numbers. A number is what `strtoul` returns, as an `int`. -/
inductive Opt
  | type (lw4o6 : Bool)
  | fmr
  | number (key : Key) (intval : Int)

structure Rule where
  lw4o6 : Bool := false
  fmr : Bool := false
  value : Key → Int := fun key => if key = .prefix4len then 32 else -1

def Rule.option (r : Rule) : Opt → Rule
  | .type lw4o6 => { r with lw4o6 }
  | .fmr => { r with fmr := true }
  | .number key intval =>
    if intval ≤ key.max then { r with value := fun k => if k = key then intval else r.value k }
      else r

/-- The variables of the program when it checks the rule. -/
structure Vars where
  fmr : Bool
  ealen : Int
  prefix4len : Int
  prefix6len : Int
  offset : Int
  psidlen : Int
  pdlen : Int
  psid : Int

/-- `found` is the length of the prefix that `match_prefix` finds. -/
def Rule.vars (legacy : Bool) (found : Int) (r : Rule) : Vars :=
  let psidlen := if r.lw4o6 ∧ r.value .psidlen < 0 then 0 else r.value .psidlen
  let pdlen := if r.value .pdlen < 0 then found else r.value .pdlen
  let ealen := if r.lw4o6 then psidlen else r.value .ealen
  let ealen := if ealen < 0 ∧ 0 ≤ pdlen then pdlen - r.value .prefix6len else ealen
  { fmr := r.fmr, ealen, pdlen
    prefix4len := r.value .prefix4len
    prefix6len := r.value .prefix6len
    offset := if 0 ≤ r.value .offset then r.value .offset else if r.lw4o6 then 0 else if legacy
      then 4 else 6
    psidlen := if psidlen ≤ 0 then max 0 (ealen - (32 - r.value .prefix4len)) else psidlen
    psid := if psidlen ≤ 0 then -1 else r.value .psid }

inductive Op
  | shift (count : Int) (width : Nat)
  | bmemcpy (bits : Int) (size : Nat)
  /-- from the delegated prefix, of which it reads whole bytes -/
  | bmemcpys64 (frombits nbits : Int) (size : Nat)
deriving DecidableEq

def Op.InRange : Op → Prop
  | shift count width => 0 ≤ count ∧ count < width
  | bmemcpy bits size => 0 ≤ bits ∧ bits ≤ size
  | bmemcpys64 frombits nbits size => 0 ≤ frombits ∧ (frombits + nbits) / 8 < 16 ∧ 0 ≤ nbits ∧
    nbits ≤ size

namespace Vars

variable (v : Vars)

def skipped : Bool :=
  v.prefix4len < 0 || v.prefix6len < 0 || v.ealen < 0 || 16 < v.psidlen || v.ealen < v.psidlen

def printsPorts : Bool := (0 ≤ v.pdlen || v.fmr) && 0 < v.psidlen && (0 ≤ v.psid || 0 ≤ v.pdlen)

def ops : List Op :=
  (if v.psid < 0 ∧ 0 ≤ v.psidlen ∧ 0 ≤ v.pdlen then
    [.bmemcpys64 (v.prefix6len + v.ealen - v.psidlen) v.psidlen 16] else []) ++
  (if 0 < v.psidlen then [.shift (16 - v.psidlen) 32] else []) ++
  (if 0 ≤ v.pdlen ∨ v.ealen = v.psidlen then
    [.bmemcpys64 v.prefix6len (v.ealen - v.psidlen) 32, .shift v.prefix4len 32,
      .bmemcpy v.prefix4len 32]
    else []) ++ (if 0 ≤ v.pdlen then [.bmemcpy v.pdlen 128] else []) ++
  if v.printsPorts then [.shift v.offset 32, .shift (16 - v.offset) 32,
    .shift (16 - v.offset - v.psidlen) 32]
    else []

def Safe : Prop := (∀ op ∈ v.ops, op.InRange) ∧ (v.printsPorts → ∀ psid < 2 ^ 16,
  ∀ r ∈ portsets v.offset.toNat v.psidlen.toNat psid, 1 ≤ r.1 ∧ r.1 ≤ 65535 ∧ 1 ≤ r.2 ∧ r.2 ≤ 65535)

end Vars

lemma value_le (opts : List Opt) (key : Key) :
    (opts.foldl Rule.option {}).value key ≤ key.max := by
  refine foldlRecOn (motive := fun r => r.value key ≤ key.max) opts Rule.option ?_ fun r hr opt _ =>
    ?_
  · cases key <;> decide
  · cases opt with
    | type | fmr => exact hr
    | number key' intval =>
      unfold Rule.option
      grind

lemma port_bounds (hak : a + k ≤ 16) (hx : x < 2 ^ 16) {r : Nat × Nat} (hr : r ∈ portsets a k x) :
    1 ≤ r.1 ∧ r.1 ≤ 65535 ∧ 1 ≤ r.2 ∧ r.2 ≤ 65535 := by
  have hle : r.1 ≤ r.2 := by
    obtain ⟨n, -, hn⟩ := mem_filterMap.1 hr
    grind
  have hfirst := (printed_iff hak hx).1 ⟨r, hr, Nat.le_refl _, hle⟩
  have hlast := (printed_iff hak hx).1 ⟨r, hr, hle, Nat.le_refl _⟩
  have hpos := Nat.two_pow_pos (16 - a)
  grind

lemma forall_mem_ite {c : Prop} [Decidable c] {l : List Op} :
    (∀ op ∈ if c then l else [], op.InRange) ↔ (c → ∀ op ∈ l, op.InRange) := by
  split_ifs with h <;> simp [h]

/-- The shifts, copies and ports of a rule that is not skipped are in range iff its lengths fit. -/
theorem mapcalc_safe_iff (legacy : Bool) {found : Int} (hfound : found ≤ 128) (opts : List Opt) :
    let v := (opts.foldl Rule.option {}).vars legacy found
    v.skipped = false → (v.Safe ↔
      (0 ≤ v.pdlen → v.psid < 0 → v.prefix6len + v.ealen ≤ 127) ∧
      (0 ≤ v.pdlen ∨ v.ealen = v.psidlen → v.prefix4len < 32 ∧
        v.prefix6len + v.ealen - v.psidlen ≤ 127 ∧
        v.ealen - v.psidlen ≤ 32) ∧ (v.printsPorts → v.offset + v.psidlen ≤ 16)) := by
  intro v hskip
  have hprefix : v.prefix4len ≤ 32 := value_le opts .prefix4len
  have hpd : v.pdlen ≤ 128 ∧ 0 ≤ v.offset ∧ v.offset ≤ 16 ∧ 0 ≤ v.psidlen := by
    have hpd := value_le opts .pdlen
    have hoffset := value_le opts .offset
    simp only [v, Rule.vars, Key.max] at hpd hoffset ⊢
    grind
  simp only [Vars.skipped, Bool.or_eq_false_iff, decide_eq_false_iff_not] at hskip
  simp only [Vars.Safe, Vars.ops, forall_mem_append, forall_mem_ite, forall_mem_cons, not_mem_nil,
    false_imp_iff, implies_true, and_true]
  unfold Op.InRange
  constructor
  · rintro ⟨⟨⟨⟨⟨hread, -⟩, hcopy⟩, -⟩, hshift⟩, -⟩
    grind
  · rintro ⟨hread, hcopy, hshift⟩
    refine ⟨⟨⟨⟨⟨?_, ?_⟩, ?_⟩, ?_⟩, ?_⟩, fun h psid hpsid r hr => port_bounds ?_ hpsid hr⟩
    all_goals grind

/-- The default `prefix4len` makes the program shift 32 bits by 32. -/
theorem mapcalc_shifts_by_width : ∃ opts : List Opt,
    let v := (opts.foldl Rule.option {}).vars false (-1)
    v.skipped = false ∧ .shift 32 32 ∈ v.ops ∧ ¬ v.Safe := by
  refine ⟨[.number .ealen 16, .number .prefix6len 32, .number .pdlen 48],
    by decide, by decide, fun h => ?_⟩
  have hshift := (h.1 (.shift 32 32) (by decide)).2
  cases hshift

theorem mapcalc_safe_iff_class_a : let v :=
    ([.number .ealen 16, .number .prefix4len 24, .number .prefix6len 32,
    .number .pdlen 48].foldl Rule.option {}).vars false (-1)
    v.skipped = false ∧ v.Safe :=
  have hskip := by decide
  ⟨hskip, (mapcalc_safe_iff false (by decide) _ hskip).2 (by decide)⟩

end SourceMaster.Mapcalc
