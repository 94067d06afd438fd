import Mathlib.Data.Nat.Bitwise
import Mathlib.Data.Int.Basic
import Mathlib.Tactic.Ring

/-!
# Lua strings and numbers

The SMS programs are written in Lua. A Lua string is a list of bytes. The three programs share their
functions on bits, which are loops over the powers of two; here they are shown to be the operations
of `Nat` on numbers that are not negative.
-/

namespace SourceMaster.Sms

open Nat

abbrev Str := List Nat

def lit (s : String) : Str := s.toList.map Char.toNat

/-! ## Bits -/

def hasbit (x : Int) (p : Nat) : Bool := x % (p + p) ≥ p

def bitLoop (op : Bool → Bool → Bool) (x y : Int) : Nat → Nat → Nat → Nat
  | 0, _, z => z
  | n + 1, p, z =>
    if (p : Int) ≤ (if x > y then x else y) then
      bitLoop op x y n (p + p) (if op (hasbit x p) (hasbit y p) then z + p else z)
    else z

def bitRounds (x y : Int) : Nat := (if x > y then x else y).toNat + 1

def bitand (x y : Int) : Nat := bitLoop (· && ·) x y (bitRounds x y) 1 0

def bitor (x y : Int) : Nat := bitLoop (· || ·) x y (bitRounds x y) 1 0

variable (x y : Nat)

def bitleft : Nat := x * 2 ^ y

def bitright : Nat := x / 2 ^ y

lemma mod_two_pow_succ (x k : Nat) :
    x % 2 ^ (k + 1) = x % 2 ^ k + 2 ^ k * (x.testBit k).toNat := by
  rw [pow_succ, mod_mul, toNat_testBit]

lemma hasbit_natCast (x k : Nat) : hasbit x (2 ^ k) = x.testBit k := by
  have hpow : 2 ^ k + 2 ^ k = 2 ^ (k + 1) := by ring
  have hmod := mod_two_pow_succ x k
  have hcast : ((x : Int) % ((2 ^ k : Nat) + (2 ^ k : Nat) : Int)) =
    ((x % 2 ^ (k + 1) : Nat) : Int) := by
    rw [← hpow]
    rfl
  unfold hasbit
  rw [hcast, hmod]
  cases x.testBit k with
  | true =>
    simp only [Bool.toNat_true, mul_one, ge_iff_le, Int.ofNat_le, decide_eq_true_eq]
    omega
  | false =>
    simp only [Bool.toNat_false, mul_zero, add_zero, ge_iff_le, Int.ofNat_le,
      decide_eq_false_iff_not]
    omega

lemma bitLoop_natCast {op : Bool → Bool → Bool} {x y w : Nat}
    (hw : ∀ k, w.testBit k = op (x.testBit k) (y.testBit k)) (hle : ∀ k, x < 2 ^ k → y < 2 ^ k →
    w < 2 ^ k) : ∀ n k, max x y < 2 ^ (k + n) → bitLoop op x y n (2 ^ k) (w % 2 ^ k) = w := by
  have hmax : (if (x : Int) > y then (x : Int) else y) = ((max x y : Nat) : Int) := by
    split_ifs <;> omega
  intro n
  induction n with
  | zero =>
    intro k hk
    rw [add_zero] at hk
    exact mod_eq_of_lt (hle k (by omega) (by omega))
  | succ n ih =>
    intro k hk
    unfold bitLoop
    rw [hmax]
    split_ifs with hp hbit
    · rw [hasbit_natCast, hasbit_natCast, ← hw k] at hbit
      have hstep : w % 2 ^ k + 2 ^ k = w % 2 ^ (k + 1) := by
        rw [mod_two_pow_succ, hbit, Bool.toNat_true, mul_one]
      rw [hstep, show 2 ^ k + 2 ^ k = 2 ^ (k + 1) from by ring]
      exact ih (k + 1) (by rw [add_right_comm]; exact hk)
    · rw [hasbit_natCast, hasbit_natCast, ← hw k] at hbit
      have hstep : w % 2 ^ k = w % 2 ^ (k + 1) := by
        rw [mod_two_pow_succ, Bool.eq_false_iff.mpr hbit, Bool.toNat_false, mul_zero, add_zero]
      rw [hstep, show 2 ^ k + 2 ^ k = 2 ^ (k + 1) from by ring]
      exact ih (k + 1) (by rw [add_right_comm]; exact hk)
    · have hlt : max x y < 2 ^ k := by exact_mod_cast Int.not_le.mp hp
      exact mod_eq_of_lt (hle k (by omega) (by omega))

lemma bitRounds_natCast : max x y < 2 ^ (0 + bitRounds x y) := by
  have hrounds : bitRounds x y = max x y + 1 := by
    unfold bitRounds
    split_ifs <;> omega
  rw [hrounds, zero_add]
  exact Nat.lt_trans (Nat.lt_succ_self _) Nat.lt_two_pow_self

@[simp] lemma bitand_natCast : bitand x y = x &&& y := by
  have h := bitLoop_natCast (fun k => testBit_and x y k) (fun _ _ hy => and_lt_two_pow x hy) _ 0
    (bitRounds_natCast x y)
  rwa [pow_zero, mod_one] at h

@[simp] lemma bitor_natCast : bitor x y = x ||| y := by
  have h := bitLoop_natCast (fun k => testBit_or x y k) (fun _ hx hy => or_lt_two_pow hx hy) _ 0
    (bitRounds_natCast x y)
  rwa [pow_zero, mod_one] at h

/-! ## Digits -/

def isxdigit (b : Nat) : Bool :=
  (48 ≤ b && b ≤ 57) || (97 ≤ b && b ≤ 102) || (65 ≤ b && b ≤ 70)

def isspace (b : Nat) : Bool := b = 32 || (9 ≤ b && b ≤ 13)

def hexDigit (n : Nat) : Nat := if n < 10 then 48 + n else 55 + n

def fixedHex : Nat → Nat → Str
  | 0, _ => []
  | w + 1, n => fixedHex w (n / 16) ++ [hexDigit (n % 16)]

def hexWidth : Nat → Nat → Nat
  | 0, _ => 1
  | fuel + 1, n => if n < 16 then 1 else hexWidth fuel (n / 16) + 1

/-- `string.format("%0wX", n)`. -/
def fmtX (w n : Nat) : Str := fixedHex (max w (hexWidth n n)) n

@[simp] lemma length_fixedHex (w n : Nat) : (fixedHex w n).length = w := by
  induction w generalizing n with
  | zero => rfl
  | succ w ih => simp [fixedHex, ih]

lemma hexWidth_le : ∀ {w : Nat} (fuel : Nat) {n : Nat}, 0 < w → n < 16 ^ w →
    hexWidth fuel n ≤ w := by
  intro w fuel
  induction fuel generalizing w with
  | zero => intro n hw _; exact hw
  | succ fuel ih =>
    intro n hw hn
    unfold hexWidth
    split_ifs with hsmall
    · exact hw
    obtain ⟨w, rfl⟩ : ∃ v, w = v + 1 := ⟨w - 1, by omega⟩
    have hw' : 0 < w := by
      rcases Nat.eq_zero_or_pos w with rfl | h
      · omega
      · exact h
    have := ih hw' (n := n / 16) (by omega)
    omega

lemma fmtX_eq {w n : Nat} (hw : 0 < w) (hn : n < 16 ^ w) : fmtX w n = fixedHex w n := by
  unfold fmtX
  rw [max_eq_left (hexWidth_le n hw hn)]

def xdigitValue (b : Nat) : Nat :=
  if b ≤ 57 then b - 48 else if b ≤ 70 then b - 55 else b - 87

/-- `tonumber(s, 16)`, which is the function `strtoul` of a 32-bit target; `none` is nil. -/
def tonumber16 (s : Str) : Option Nat :=
  let s := (s.takeWhile (· ≠ 0)).dropWhile isspace
  let neg := s.head? = some 45
  let s := if s.head? = some 45 ∨ s.head? = some 43 then s.tail else s
  let s := match s with
    | 48 :: x :: h :: r => if (x = 120 ∨ x = 88) ∧ isxdigit h then h :: r else s
    | _ => s
  let ds := s.takeWhile isxdigit
  if ds = [] ∨ ¬ (s.drop ds.length).all isspace then none
  else
    let v := ds.foldl (fun acc b => acc * 16 + xdigitValue b) 0
    some (if neg then (2 ^ 32 - v % 2 ^ 32) % 2 ^ 32 else v)

end SourceMaster.Sms
