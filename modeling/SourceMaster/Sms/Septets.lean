import SourceMaster.Sms.Decode
import Mathlib.Algebra.Order.Floor.Div
import Mathlib.Tactic.IntervalCases

/-!
# Packing and unpacking septets

Bit `o` of octet `j` of packed user data is bit number `8 * j + o` of the stream in which septet `k`
has the bits from `7 * k` on. The packer and the unpacker are compared through this stream: one
writes it, the other one reads it. Between them stands `Holds`, which says what the octets have to
be: `pack` makes octets that hold the septets, and from octets that hold them the loops of
`pdu2text` get them back.
-/

namespace SourceMaster.Sms

open Function List Option Nat

def streamBit (ss : List Nat) (p : Nat) : Bool := ((ss[p / 7]?).getD 0).testBit (p % 7)

def octetBit (os : List Nat) (p : Nat) : Bool := ((os[p / 8]?).getD 0).testBit (p % 8)

/-- As few octets as possible hold the septets, the lowest bit first, and zeros behind. -/
structure Holds (os ss : List Nat) : Prop where
  length : os.length = 7 * ss.length ⌈/⌉ 8
  octet : ∀ o ∈ os, o < 256
  septet : ∀ k (hk : k < ss.length), ∀ i < 7, octetBit os (7 * k + i) = ss[k].testBit i
  fill : ∀ p, 7 * ss.length ≤ p → octetBit os p = false

variable {n : Nat} (os : List Nat) {ss : List Nat} {r k : Nat}

lemma Holds.length_eq {os : List Nat} (h : Holds os ss) : os.length =
    (ss.length * 7 + 7) / 8 := by
  rw [h.length, ceilDiv_eq_add_pred_div]
  omega

/-! ## Hexadecimal digits -/

lemma hexDigit_lt (h : n < 16) : isxdigit (hexDigit n) ∧ hexDigit n ≠ 0 := by
  revert n
  decide

lemma hexDigit_value (h : n < 16) :
    (if hexDigit n > 57 then hexDigit n - 55 else hexDigit n - 48) = n := by
  revert n
  decide

lemma octet2bin_hexDigit (h : n < 256) :
    octet2bin (hexDigit (n / 16)) (hexDigit (n % 16)) = n := by
  unfold octet2bin
  rw [hexDigit_value (by omega), hexDigit_value (by omega)]
  omega

lemma fixedHex_two (n : Nat) : fixedHex 2 n = [hexDigit (n / 16 % 16), hexDigit (n % 16)] := rfl

lemma octet2binCheck_take (s : Str) : octet2binCheck (s.take 2) = octet2binCheck s := by
  rcases s with _ | ⟨a, _ | ⟨b, s⟩⟩ <;> rfl

lemma octet2binCheck_hex (h : n < 256) (rest : Str) :
    octet2binCheck (fixedHex 2 n ++ rest) = n := by
  have h1 := hexDigit_lt (show n / 16 % 16 < 16 by omega)
  have h2 := hexDigit_lt (show n % 16 < 16 by omega)
  have hmod : n / 16 % 16 = n / 16 := by omega
  rw [fixedHex_two]
  unfold octet2binCheck
  simp only [cons_append, nil_append, head?_cons, some.injEq, h1, h2, if_false,
    Bool.not_true, Bool.false_eq_true]
  rw [hmod, octet2bin_hexDigit h]

def hexes (os : List Nat) : Str := os.flatMap (fixedHex 2)

@[simp] lemma hexes_nil : hexes [] = [] := rfl

@[simp] lemma hexes_cons (o : Nat) (os : List Nat) : hexes (o :: os) = fixedHex 2 o ++ hexes os :=
    rfl

@[simp] lemma hexes_append (os' : List Nat) : hexes (os ++ os') = hexes os ++ hexes os' := by
  simp [hexes]

@[simp] lemma length_hexes : (hexes os).length = 2 * os.length := by
  induction os with
  | nil => rfl
  | cons o os ih =>
    rw [hexes_cons, length_append, length_fixedHex, ih, length_cons]
    omega

lemma drop_hexes (rest : Str) (hk : k ≤ os.length) :
    (hexes os ++ rest).drop (2 * k) = hexes (os.drop k) ++ rest := by
  have hsplit : hexes os = hexes (os.take k) ++ hexes (os.drop k) := by
    rw [← hexes_append, take_append_drop]
  have hlen : (hexes (os.take k)).length = 2 * k := by
    rw [length_hexes, length_take, min_eq_left hk]
  rw [hsplit, append_assoc, ← hlen, drop_left]

lemma octet2binCheck_hexes {os : List Nat} (hos : ∀ o ∈ os, o < 256) (rest : Str)
    (hk : k < os.length) : octet2binCheck ((hexes os ++ rest).drop (2 * k)) = (os[k] : Nat) := by
  rw [drop_hexes os rest (le_of_lt hk), drop_eq_getElem_cons hk, hexes_cons, append_assoc]
  exact octet2binCheck_hex (hos _ (getElem_mem hk)) _

/-! ## The packer -/

lemma tonumber16_hex (h : n < 256) : tonumber16 (fixedHex 2 n) = some n := by
  revert n
  decide +kernel

lemma packStep_mid {kk : Nat} {ch : Option Nat} {udtab : Tab} (h1 : 1 ≤ r) (h6 : r ≤ 6) :
    packStep (r + 1) kk ch udtab =
      packMid (2 ^ r - 1) (8 - r) (127 - (2 ^ r - 1)) r kk ch udtab := by
  interval_cases r <;> rfl

/-- The table after `m` septets: the octets that have been begun, with the bits so far. -/
structure Packed (ss : List Nat) (m kk : Nat) (udtab : Tab) : Prop where
  count : kk = m - m / 8
  octet : ∀ j < kk, ∃ v, udtab (j + 1) = some v ∧ v < 256 ∧
    ∀ o < 8, v.testBit o = (decide (8 * j + o < 7 * m) && streamBit ss (8 * j + o))

lemma highBits {ch : Nat} (hch : ch < 128) (hr : r ≤ 6) :
    (ch &&& (127 - (2 ^ r - 1))) / 2 ^ r = ch / 2 ^ r := by
  have h : ∀ r ≤ 6, ∀ ch < 128,
    (ch &&& (127 - (2 ^ r - 1))) / 2 ^ r = ch / 2 ^ r := by decide +kernel
  exact h r hr ch hch

lemma testBit_septet {c o : Nat} (hc : c < 128) (ho : 7 ≤ o) : c.testBit o = false := by
  apply testBit_lt_two_pow
  calc c < 2 ^ 7 := hc
    _ ≤ 2 ^ o := Nat.pow_le_pow_right (by decide) ho

lemma streamBit_of_div {m p : Nat} (hm : m < ss.length) (hp : p / 7 = m) :
    streamBit ss p = ss[m].testBit (p % 7) := by
  unfold streamBit
  rw [hp, getElem?_eq_getElem hm, getD_some]

namespace Packed

variable {ss : List Nat} {m kk : Nat} {udtab : Tab}

section

variable (h : Packed ss m kk udtab)
include h

lemma old {udtab' : Tab} {j : Nat} (hj : j < kk) (hfull : 8 * j + 7 < 7 * m)
    (hsame : udtab' (j + 1) = udtab (j + 1)) : ∃ v, udtab' (j + 1) = some v ∧ v < 256 ∧
      ∀ o < 8, v.testBit o = (decide (8 * j + o < 7 * (m + 1)) && streamBit ss (8 * j + o)) := by
  obtain ⟨v, hv, hlt, hbits⟩ := h.octet j hj
  refine ⟨v, hsame.trans hv, hlt, ?_⟩
  intro o ho
  rw [hbits o ho, decide_eq_true (by omega), decide_eq_true (by omega)]

section

variable (hm : m < ss.length)
include hm

lemma first (hlt : ss[m] < 128) (hr : m % 8 = 0) :
    Packed ss (m + 1) (kk + 1) (update udtab (kk + 1) (some ss[m])) := by
  have hcount := h.count
  refine ⟨by omega, ?_⟩
  intro j hj
  by_cases hnew : j = kk
  · refine ⟨ss[m], by rw [hnew, update_self], by omega, ?_⟩
    intro o ho
    by_cases ho7 : o < 7
    · rw [decide_eq_true (by omega), Bool.true_and, streamBit_of_div hm (by omega)]
      congr 1
      omega
    · rw [decide_eq_false (by omega), Bool.false_and]
      exact testBit_septet hlt (by omega)
  · exact h.old (by omega) (by omega) (update_of_ne (by omega) _ _)

lemma completed {r : Nat} (hr : m % 8 = r) (h1 : 1 ≤ r) :
    ∃ v, udtab kk = some v ∧ (ss[m] % 2 ^ r * 2 ^ (8 - r) ||| v) < 256 ∧
      ∀ o < 8, (ss[m] % 2 ^ r * 2 ^ (8 - r) ||| v).testBit o =
        (decide (8 * (kk - 1) + o < 7 * (m + 1)) && streamBit ss (8 * (kk - 1) + o)) := by
  have hcount := h.count
  obtain ⟨v, hv, hlt, hbits⟩ := h.octet (kk - 1) (by omega)
  rw [show kk - 1 + 1 = kk from by omega] at hv
  refine ⟨v, hv, ?_, ?_⟩
  · apply or_lt_two_pow (n := 8) _ hlt
    calc ss[m] % 2 ^ r * 2 ^ (8 - r) < 2 ^ r * 2 ^ (8 - r) :=
          Nat.mul_lt_mul_of_pos_right (Nat.mod_lt _ (Nat.two_pow_pos r)) (Nat.two_pow_pos _)
      _ = 2 ^ 8 := by rw [← pow_add, show r + (8 - r) = 8 from by omega]
  · intro o ho
    rw [testBit_or, ← shiftLeft_eq, testBit_shiftLeft, testBit_mod_two_pow, hbits o ho]
    by_cases hlow : o < 8 - r
    · rw [decide_eq_false (by omega : ¬ o ≥ 8 - r), Bool.false_and, Bool.false_or,
        decide_eq_true (by omega), decide_eq_true (by omega)]
    rw [decide_eq_true (by omega : o ≥ 8 - r), decide_eq_true (by omega : o - (8 - r) < r),
      decide_eq_false (by omega), decide_eq_true (by omega), Bool.false_and, Bool.or_false,
      Bool.true_and, Bool.true_and, Bool.true_and, streamBit_of_div hm (by omega)]
    congr 1
    omega

lemma mid (hlt : ss[m] < 128) {r : Nat} (hr : m % 8 = r) (h1 : 1 ≤ r) (h6 : r ≤ 6) :
    ∃ udtab', packMid (2 ^ r - 1) (8 - r) (127 - (2 ^ r - 1)) r kk (some ss[m]) udtab =
    some udtab' ∧ Packed ss (m + 1) (kk + 1) udtab' := by
  have hcount := h.count
  obtain ⟨v, hv, hv256, hbits⟩ := h.completed hm hr h1
  unfold packMid
  rw [hv]
  refine ⟨_, rfl, by omega, ?_⟩
  intro j hj
  simp only [bitand_natCast, bitor_natCast, bitleft, bitright, and_two_pow_sub_one_eq_mod]
  by_cases hnew : j = kk
  · refine ⟨ss[m] / 2 ^ r, ?_, ?_, ?_⟩
    · rw [hnew, update_self, highBits hlt h6]
    · exact lt_of_le_of_lt (div_le_self _ _) (by omega)
    intro o ho
    rw [← shiftRight_eq_div_pow, testBit_shiftRight]
    by_cases ho7 : r + o < 7
    · rw [decide_eq_true (by omega), Bool.true_and, streamBit_of_div hm (by omega)]
      congr 1
      omega
    · rw [decide_eq_false (by omega), Bool.false_and]
      exact testBit_septet hlt (by omega)
  · rw [update_of_ne (by omega)]
    by_cases hlast : j = kk - 1
    · refine ⟨_, ?_, hv256, ?_⟩
      · rw [hlast, show kk - 1 + 1 = kk from by omega, update_self]
      · rw [hlast]
        exact hbits
    · exact h.old (by omega) (by omega) (update_of_ne (by omega) _ _)

lemma last (hlt : ss[m] < 128) (hr : m % 8 = 7) :
    ∃ udtab', packStep 8 kk (some ss[m]) udtab = some udtab' ∧ Packed ss (m + 1) kk udtab' := by
  have hcount := h.count
  obtain ⟨v, hv, hv256, hbits⟩ := h.completed hm hr (by decide)
  rw [mod_eq_of_lt (show ss[m] < 2 ^ 7 from hlt)] at hv256 hbits
  unfold packStep
  simp only [hv, bitor_natCast, bitleft, show ¬ (8 = 1) from by decide, if_false,
    show ¬ (8 = 5) from by decide, show ¬ (8 = 6) from by decide, show ¬ (8 = 7) from by decide]
  refine ⟨_, rfl, by omega, ?_⟩
  intro j hj
  by_cases hlast : j = kk - 1
  · refine ⟨_, ?_, hv256, ?_⟩
    · rw [hlast, show kk - 1 + 1 = kk from by omega, update_self]
    · rw [hlast]
      exact hbits
  · exact h.old (by omega) (by omega) (update_of_ne (by omega) _ _)

lemma step (hlt : ss[m] < 128) :
    ∃ udtab', packStep (m % 8 + 1) kk (some ss[m]) udtab = some udtab' ∧
      Packed ss (m + 1) (if m % 8 + 1 = 8 then kk else kk + 1) udtab' := by
  by_cases h0 : m % 8 = 0
  · rw [h0]
    exact ⟨_, rfl, h.first hm hlt h0⟩
  by_cases h7 : m % 8 = 7
  · rw [h7]
    exact h.last hm hlt h7
  · rw [packStep_mid (by omega) (by omega), if_neg (by omega)]
    exact h.mid hm hlt rfl (by omega) (by omega)

end

end

end Packed

lemma packLoop_spec (hss : ∀ c ∈ ss, c < 128) (n m kk : Nat) (udtab : Tab)
    (h : Packed ss m kk udtab) (hm : m < ss.length) (hn : ss.length - m ≤ n) :
    ∃ kk' udtab', packLoop n (hexes (ss.drop m)) (m % 8 + 1) kk udtab = some (kk', udtab') ∧
      Packed ss ss.length kk' udtab' := by
  induction n generalizing m kk udtab with
  | zero => omega
  | succ n ih =>
    have hlt : ss[m] < 128 := hss _ (getElem_mem hm)
    obtain ⟨udtab', hstep, h'⟩ := h.step hm hlt
    have hdrop : hexes (ss.drop m) = fixedHex 2 ss[m] ++ hexes (ss.drop (m + 1)) := by
      rw [drop_eq_getElem_cons hm, hexes_cons]
    have htake : (hexes (ss.drop m)).take 2 = fixedHex 2 ss[m] := by
      rw [hdrop, take_left' (length_fixedHex 2 _)]
    have hrest : (hexes (ss.drop m)).drop 2 = hexes (ss.drop (m + 1)) := by
      rw [hdrop, drop_left' (length_fixedHex 2 _)]
    unfold packLoop
    rw [htake, tonumber16_hex (by omega), hstep, hrest]
    dsimp only
    by_cases hlast : m + 1 < ss.length
    · have hne : hexes (ss.drop (m + 1)) ≠ [] := by
        intro hnil
        have hlen := congrArg length hnil
        rw [length_hexes, length_drop, length_nil] at hlen
        omega
      have hii : (if m % 8 + 1 = 8 then 1 else m % 8 + 1 + 1) = (m + 1) % 8 + 1 := by
        split_ifs <;> omega
      rw [if_neg hne, hii]
      exact ih (m + 1) _ udtab' h' hlast (by omega)
    · have hend : ss.length = m + 1 := by omega
      rw [if_pos (by rw [drop_of_length_le (by omega)]; rfl)]
      refine ⟨_, _, rfl, ?_⟩
      rw [hend]
      exact h'

lemma concatUd_spec (maxb : Nat) (udtab : Tab) : ∀ n ≤ maxb,
    (∀ j < n, ∃ v, udtab (j + 1) = some v ∧ v < 256) →
    ∃ os : List Nat, os.length = n ∧ (∀ o ∈ os, o < 256) ∧ (∀ j < n, udtab (j + 1) = os[j]?) ∧
      concatUd maxb udtab n = some (hexes os) := by
  intro n
  induction n with
  | zero => intro _ _; exact ⟨[], rfl, by simp, by simp, rfl⟩
  | succ n ih =>
    intro hn h
    obtain ⟨os, hlen, hlt, hos, hconcat⟩ := ih (by omega) (fun j hj => h j (by omega))
    obtain ⟨v, hv, hv256⟩ := h n (lt_succ_self n)
    refine ⟨os ++ [v], by simp [hlen], ?_, ?_, ?_⟩
    · intro o ho
      rcases mem_append.mp ho with ho | ho
      · exact hlt o ho
      · rw [mem_singleton.mp ho]
        exact hv256
    · intro j hj
      by_cases hjn : j < n
      · rw [getElem?_append_left (by omega)]
        exact hos j hjn
      · rw [show j = n from by omega, hv, ← hlen, getElem?_concat_length]
    · unfold concatUd
      rw [hconcat, hv]
      dsimp only
      rw [if_pos hn, fmtX_eq (by decide) hv256, hexes_append, hexes_cons, hexes_nil, append_nil]

lemma streamBit_of_le {p : Nat} (hp : 7 * ss.length ≤ p) : streamBit ss p = false := by
  unfold streamBit
  rw [getElem?_eq_none (by omega), getD_none, zero_testBit]

lemma Holds.of_stream {os : List Nat} (hlen : os.length = (ss.length * 7 + 7) / 8)
    (hos : ∀ o ∈ os, o < 256)
    (hbits : ∀ p, p < 8 * os.length → octetBit os p = streamBit ss p) : Holds os ss where
  length := by
    rw [hlen, ceilDiv_eq_add_pred_div]
    omega
  octet := hos
  septet := by
    intro k hk i hi
    rw [hbits _ (by omega), streamBit_of_div hk (by omega), show (7 * k + i) % 7 = i from by omega]
  fill := by
    intro p hp
    by_cases hin : p < 8 * os.length
    · rw [hbits p hin, streamBit_of_le hp]
    · unfold octetBit
      rw [getElem?_eq_none (by omega), getD_none, zero_testBit]

lemma pack_spec (hne : ss ≠ []) (hss : ∀ c ∈ ss, c < 128) (hlen : ss.length < 256) :
    ∃ os : List Nat, pack (fixedHex 2 ss.length) (hexes ss) = some (hexes os) ∧ Holds os ss := by
  have hpos : 0 < ss.length := length_pos_of_ne_nil hne
  have hinit : Packed ss 0 0 (fun _ => none) := ⟨rfl, fun j hj => absurd hj (not_lt_zero j)⟩
  obtain ⟨kk, udtab, hloop, hpacked⟩ := packLoop_spec hss ((hexes ss).length + 1) 0 0 _ hinit hpos
    (by rw [length_hexes]; omega)
  rw [drop_zero] at hloop
  have hcount := hpacked.count
  have hkk : kk = (ss.length * 7 + 7) / 8 := by omega
  obtain ⟨os, hoslen, hos256, hos, hconcat⟩ := concatUd_spec kk udtab kk (le_refl _) (fun j hj => by
      obtain ⟨v, hv, hlt, _⟩ := hpacked.octet j hj
      exact ⟨v, hv, hlt⟩)
  refine ⟨os, ?_, .of_stream (by omega) hos256 ?_⟩
  · unfold pack
    rw [tonumber16_hex hlen]
    rw [hloop]
    dsimp only
    rw [← hkk, max_self]
    exact hconcat
  · intro p hp
    obtain ⟨v, hv, _, hbits⟩ := hpacked.octet (p / 8) (by omega)
    unfold octetBit
    rw [← hos (p / 8) (by omega), hv, getD_some, hbits (p % 8) (Nat.mod_lt _ (by decide)),
      show 8 * (p / 8) + p % 8 = p from by omega]
    -- the packer has not written the bits behind the last septet, and the stream has none there
    by_cases hin : p < 7 * ss.length
    · rw [decide_eq_true hin, Bool.true_and]
    · rw [decide_eq_false hin, Bool.false_and, streamBit_of_le (by omega)]

/-! ## The unpacker -/

/-- The septets that the loop of `pdu2text` finds, and whether all octets were there. -/
def septetsLoop (pdu : Str) (octets : Nat) : Nat → Unpack → Bool × List Nat
  | 0, _ => (true, [])
  | n + 1, u =>
    match septetLoop pdu octets 7 0 u with
    | none => (false, [])
    | some (c, u) =>
      let r := septetsLoop pdu octets n u
      (r.1, c :: r.2)

section Octets

variable {pdu : Str} {os : List Nat}
  (hos : ∀ k (hk : k < os.length), octet2binCheck (pdu.drop (k * 2 + 2)) = (os[k] : Nat))

include hos

lemma readOctets_spec {p : Nat} {binary : Nat} (hp : p / 8 < os.length)
    (hbinary : p % 8 ≠ 0 → os[p / 8]? = some binary) :
    readOctets pdu os.length (p / 8) os.length binary ((p + 7) / 8) =
    some (os[p / 8], p / 8 + 1) := by
  obtain ⟨n, hn⟩ : ∃ n, os.length = n + 1 := ⟨os.length - 1, by omega⟩
  have hdone : ∀ m, readOctets pdu os.length (p / 8) m os[p / 8] (p / 8 + 1) =
      some (os[p / 8], p / 8 + 1) := by
    intro m
    cases m with
    | zero => rfl
    | succ m =>
      unfold readOctets
      rw [if_neg (by omega)]
  by_cases hfirst : p % 8 = 0
  · have hcount : (p + 7) / 8 = p / 8 := by omega
    rw [hcount]
    nth_rewrite 2 [hn]
    unfold readOctets
    rw [if_pos ⟨le_refl _, hp⟩, hos _ hp]
    exact hdone n
  · have hcount : (p + 7) / 8 = p / 8 + 1 := by omega
    have hread := hbinary hfirst
    rw [getElem?_eq_getElem hp, some.injEq] at hread
    rw [hcount, ← hread]
    exact hdone _

def septetBit (os : List Nat) (n c p i : Nat) : Bool :=
  if i + n < 7 then c.testBit (i + n) else ((os[(p + (i + n - 7)) / 8]?).getD 0).testBit
    ((p + (i + n - 7)) % 8)

omit hos in
lemma shiftIn (c : Nat) (hc : c < 128) (b : Bool) :
    (((if b then c ||| 128 else c) / 2) &&& 127) < 128 ∧
      ∀ i < 7, (((if b then c ||| 128 else c) / 2) &&& 127).testBit i =
      if i < 6 then c.testBit (i + 1) else b := by
  have h : ∀ c < 128, ∀ b : Bool, (((if b then c ||| 128 else c) / 2) &&& 127) < 128 ∧
      ∀ i < 7, (((if b then c ||| 128 else c) / 2) &&& 127).testBit i =
        if i < 6 then c.testBit (i + 1) else b := by decide +kernel
  exact h c hc b

lemma septetLoop_spec (n c p binary : Nat) (hn : n ≤ 7) (hc : c < 128)
    (hlen : (p + n + 7) / 8 ≤ os.length) (hbinary : (p % 8 ≠ 0 → os[p / 8]? = some binary)) :
    ∃ c' binary', septetLoop pdu os.length n c ⟨p, binary, (p + 7) / 8⟩ =
      some (c', ⟨p + n, binary', (p + n + 7) / 8⟩) ∧
      c' < 128 ∧ ((p + n) % 8 ≠ 0 → os[(p + n) / 8]? = some binary') ∧ ∀ i < 7,
      c'.testBit i = septetBit os n c p i := by
  induction n generalizing c p binary with
  | zero =>
    refine ⟨c, binary, rfl, hc, hbinary, ?_⟩
    intro i hi
    rw [septetBit, if_pos (by omega), add_zero]
  | succ n ih =>
    have hp : p / 8 < os.length := by omega
    have hbit : (bitand (os[p / 8] : Nat) (2 ^ (p % 8) : Nat) > 0) ↔ os[p / 8].testBit (p % 8) := by
      rw [bitand_natCast, and_two_pow]
      cases os[p / 8].testBit (p % 8) <;> simp
    obtain ⟨hc1, hbits1⟩ := shiftIn c hc (os[p / 8].testBit (p % 8))
    unfold septetLoop
    rw [readOctets_spec hos hp hbinary]
    dsimp only
    have hnext : (if bitand (os[p / 8] : Nat) (2 ^ (p % 8) : Nat) > 0 then bitor c 128 else c) =
        if os[p / 8].testBit (p % 8) then c ||| 128 else c := by
      rw [if_congr hbit (show bitor c 128 = c ||| 128 from bitor_natCast c 128) rfl]
    have hand : ∀ x : Nat, bitand (x / 2 : Nat) 127 = x / 2 &&& 127 :=
      fun x => bitand_natCast (x / 2) 127
    rw [hnext, hand]
    have hbinary1 : (p + 1) % 8 ≠ 0 → os[(p + 1) / 8]? = some os[p / 8] := by
      intro h
      rw [show (p + 1) / 8 = p / 8 from by omega]
      exact getElem?_eq_getElem hp
    obtain ⟨c', binary', hloop, hc', hbinary', hbits⟩ :=
      ih _ (p + 1) os[p / 8] (by omega) hc1 (by omega) hbinary1
    rw [show p + 1 + n = p + (n + 1) from by omega] at hloop hbinary'
    rw [show p / 8 + 1 = (p + 1 + 7) / 8 from by omega]
    refine ⟨c', binary', hloop, hc', hbinary', ?_⟩
    intro i hi
    rw [hbits i hi]
    unfold septetBit
    by_cases hlow : i + n < 7
    · rw [if_pos hlow, hbits1 _ hlow]
      by_cases h6 : i + n < 6
      · rw [if_pos h6, if_pos (by omega), add_assoc]
      · rw [if_neg h6, if_neg (by omega), show p + (i + (n + 1) - 7) = p from by omega,
          getElem?_eq_getElem hp, getD_some]
    · rw [if_neg hlow, if_neg (by omega), show p + 1 + (i + n - 7) = p +
        (i + (n + 1) - 7) from by omega]

lemma septetsLoop_bits (n k binary : Nat) (hlen : (7 * (k + n) + 7) / 8 ≤ os.length)
    (hbinary : (7 * k % 8 ≠ 0 → os[7 * k / 8]? = some binary)) :
    ∃ ss, septetsLoop pdu os.length n ⟨7 * k, binary, (7 * k + 7) / 8⟩ = (true, ss) ∧
    ss.length = n ∧
      ∀ j (hj : j < ss.length), ss[j] < 128 ∧
      ∀ i < 7, ss[j].testBit i = octetBit os (7 * (k + j) + i) := by
  induction n generalizing k binary with
  | zero => exact ⟨[], rfl, rfl, nofun⟩
  | succ n ih =>
    obtain ⟨c, binary', hloop, hc, hbinary', hbits⟩ :=
      septetLoop_spec hos 7 0 (7 * k) binary (by omega) (by omega) (by omega) hbinary
    obtain ⟨ss, hss, hlength, hrest⟩ := ih (k + 1) binary' (by omega) hbinary'
    refine ⟨c :: ss, ?_, by rw [length_cons, hlength], fun j hj => ?_⟩
    · unfold septetsLoop
      rw [hloop]
      exact congrArg (fun r : Bool × List Nat => (r.1, c :: r.2)) hss
    cases j with
    | zero =>
      refine ⟨hc, fun i hi => ?_⟩
      rw [getElem_cons_zero, hbits i hi, septetBit, if_neg (by omega), Nat.add_sub_cancel]
      rfl
    | succ j =>
      rw [← add_assoc, add_right_comm]
      exact hrest j (lt_of_succ_lt_succ hj)

end Octets

lemma charLoop_eq (pdu : Str) (octets : Nat) (skip : Int) (n k : Nat) (u : Unpack)
    (s : TextState) :
    charLoop pdu octets skip n k u s = ((septetsLoop pdu octets n u).1,
      ((septetsLoop pdu octets n u).2.zipIdx k).foldl (fun s c => s.put ((c.2 : Int) ≥ skip) c.1)
      s) := by
  induction n generalizing k u s with
  | zero => rfl
  | succ n ih =>
    unfold charLoop septetsLoop
    cases septetLoop pdu octets 7 0 u with
    | none => rfl
    | some r =>
      dsimp only
      rw [ih, zipIdx_cons, foldl_cons]

section Unpacker

variable {hd : Str} (rest : Str) {os ss : List Nat} (hhd : hd.length = 2) (hss : ∀ c ∈ ss, c < 128)
  (h : Holds os ss)

include hhd hss h

lemma septetsLoop_spec :
    septetsLoop (hd ++ (hexes os ++ rest)) ((ss.length * 7 + 7) / 8) ss.length ⟨0, 0, 0⟩ =
    (true, ss) := by
  have hlen := h.length_eq
  have hread : ∀ k (hk : k < os.length),
      octet2binCheck ((hd ++ (hexes os ++ rest)).drop (k * 2 + 2)) = (os[k] : Nat) := by
    intro k hk
    rw [add_comm, ← drop_drop, drop_left' hhd, mul_comm]
    exact octet2binCheck_hexes h.octet rest hk
  obtain ⟨ss', hloop, hlength, hbits⟩ := septetsLoop_bits hread ss.length 0 0 (by omega) (by omega)
  have heq : ss' = ss := by
    refine ext_getElem hlength fun k hk hk' => eq_of_testBit_eq fun i => ?_
    obtain ⟨hlt, hbit⟩ := hbits k hk
    by_cases hi : i < 7
    · rw [hbit i hi, zero_add, h.septet k hk' i hi]
    · rw [testBit_septet hlt (by omega), testBit_septet (hss _ (getElem_mem hk')) (by omega)]
  rw [← hlen, hloop, heq]

lemma charLoop_spec (s : TextState) :
    charLoop (hd ++ (hexes os ++ rest)) ((ss.length * 7 + 7) / 8) 0 ss.length 0 ⟨0, 0, 0⟩ s =
      (true, ss.foldl (fun s c => s.put true c) s) := by
  have hshown : ∀ k : Nat, decide ((k : Int) ≥ 0) := fun k => decide_eq_true (Int.natCast_nonneg k)
  rw [charLoop_eq, septetsLoop_spec rest hhd hss h]
  simp only [hshown]
  rw [← foldl_map, zipIdx_map_fst]

end Unpacker

/-- Any list of septets that fits into a message is packed and read back. -/
theorem septets_round_trip (ss : List Nat) (hpos : 1 ≤ ss.length) (hlen : ss.length ≤ 160)
    (hss : ∀ c ∈ ss, c < 128) :
    ∃ os : List Nat, pack (fixedHex 2 ss.length) (hexes ss) = some (hexes os) ∧ Holds os ss ∧
      ∀ rest : Str, septetsLoop (fixedHex 2 ss.length ++ (hexes os ++ rest))
      ((ss.length * 7 + 7) / 8)
        ss.length ⟨0, 0, 0⟩ = (true, ss) := by
  obtain ⟨os, hpack, h⟩ := pack_spec (ne_nil_of_length_pos hpos) hss (by omega)
  exact ⟨os, hpack, h, fun rest => septetsLoop_spec rest (length_fixedHex 2 _) hss h⟩

/-- Nine septets, of which the last one begins a second round of the packer. -/
theorem septets_round_trip_nine :
    ∃ os : List Nat, pack (lit "09") (hexes [127, 1, 64, 0, 27, 60, 85, 42, 99]) = some (hexes os) ∧
      Holds os [127, 1, 64, 0, 27, 60, 85, 42, 99] ∧
      ∀ rest : Str, septetsLoop (lit "09" ++ (hexes os ++ rest)) 8 9 ⟨0, 0, 0⟩ =
        (true, [127, 1, 64, 0, 27, 60, 85, 42, 99]) :=
  septets_round_trip [127, 1, 64, 0, 27, 60, 85, 42, 99] (by decide) (by decide) (by decide)

end SourceMaster.Sms
