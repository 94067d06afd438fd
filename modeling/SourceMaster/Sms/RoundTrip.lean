import Mathlib.Data.Bool.AllAny
import SourceMaster.Sms.Septets

/-!
# Texts that are encoded and decoded again

What `chktxt` does with a character depends on its scalar value only: the septets `gsmSeptets` of
the default alphabet, or one or two UTF-16 words. On the other side `pdu2text` and `pdu2binary`
append a character after the other. A control character other than a line feed or a carriage return
is sent as the septet with its number, which stands for another character.
-/

namespace SourceMaster.Sms

open Utf8 List Option Nat ChkState TextState ChkTxt Vars

/-! ## Arithmetic of bit fields -/

lemma bitand_low (x w : Nat) : bitand x (2 ^ w - 1 : Nat) = x % 2 ^ w := by
  rw [bitand_natCast, and_two_pow_sub_one_eq_mod]

variable {ws : List Nat} (c : Char) (cs : List Char) {n : Nat} {t : Str} (a : Nat) {w : Nat}
  {ss : List Nat} {b : Nat} {s : TextState}

lemma bitright_bitand {x mask k : Nat} (hmask : mask >>> k = 2 ^ w - 1) :
    bitright (bitand x mask) k = x / 2 ^ k % 2 ^ w := by
  rw [bitand_natCast, bitright, ← shiftRight_eq_div_pow, shiftRight_and_distrib, hmask,
    and_two_pow_sub_one_eq_mod, shiftRight_eq_div_pow]

lemma bitor_add (hb : b < 2 ^ w) : bitor (2 ^ w * a : Nat) b = 2 ^ w * a + b := by
  rw [bitor_natCast, two_pow_add_eq_or_of_lt hb]

lemma bitor_add_left (hb : b < 2 ^ w) : bitor b (2 ^ w * a : Nat) = 2 ^ w * a + b := by
  rw [bitor_natCast, lor_comm, two_pow_add_eq_or_of_lt hb]

lemma bitor_field {x mask k v : Nat} (hmask : mask >>> k = 2 ^ w - 1) (hw : w ≤ v) :
    bitor (2 ^ v * a : Nat) (bitright (bitand x mask) k) = 2 ^ v * a + x / 2 ^ k % 2 ^ w := by
  rw [bitright_bitand hmask]
  exact bitor_add a (Nat.lt_of_lt_of_le (Nat.mod_lt _ (Nat.two_pow_pos w))
    (Nat.pow_le_pow_right (by decide) hw))

lemma bitleft_lead {q k : Nat} (hq : q < 2 ^ w) :
    bitleft (bitand (2 ^ w * a + q : Nat) (2 ^ w - 1 : Nat)) k = 2 ^ k * q := by
  rw [bitand_low, mul_add_mod, mod_eq_of_lt hq, bitleft, mul_comm]

lemma bitor_continuation (n k : Nat) :
    bitor (bitleft (bitand (0x80 + n / 2 ^ k % 64 : Nat) 0x3F) k)
    (2 ^ (k + 6) * (n / 2 ^ (k + 6)) : Nat) = 2 ^ k * (n / 2 ^ k) := by
  have hq : n / 2 ^ k % 64 < 2 ^ 6 := Nat.mod_lt _ (by decide)
  rw [show bitleft (bitand (0x80 + n / 2 ^ k % 64 : Nat) 0x3F) k =
    2 ^ k * (n / 2 ^ k % 64) from bitleft_lead 2 hq,
    bitor_add_left _ (by rw [Nat.pow_add]; exact Nat.mul_lt_mul_of_pos_left hq (Nat.two_pow_pos k)),
      Nat.pow_add, ← Nat.div_div_eq_div_mul, Nat.mul_assoc, ← Nat.mul_add]
  exact congrArg _ (div_add_mod ..)

section

variable (n : Nat)

lemma bitor_last : bitor (bitand (0x80 + n % 64 : Nat) 0x3F) (2 ^ 6 * (n / 64) : Nat) = n := by
  have := bitor_continuation n 0
  simpa [bitleft] using this

/-! ## Decoding words -/

lemma word2utf8_append (sur i : Nat) (txt : Str) :
    word2utf8 sur i txt = (txt ++ (word2utf8 sur i []).1, (word2utf8 sur i []).2) := by
  unfold word2utf8
  split_ifs <;> simp

lemma word2utf8_scalar {i : Nat} (hlt : i < 0x10000) (hsur : i < 0xD800 ∨ 0xDFFF < i)
    (hsep : i ≠ 0x2029) (txt : Str) : word2utf8 0 i txt = (txt ++ encode i, 0) := by
  unfold word2utf8 encode
  rw [if_neg (by decide), if_neg (by omega), if_neg (by omega)]
  have hlow : bitor 0x80 (bitand i 0x3F) = 0x80 + i % 64 := by
    rw [show bitand i 0x3F = i % 64 from bitand_low i 6]
    exact bitor_add (w := 6) 2 (by omega)
  by_cases h1 : i < 0x80
  · rw [if_pos h1, if_pos h1]
  rw [if_neg h1, if_neg h1]
  by_cases h2 : i < 0x800
  · have hlead : bitor 0xC0 (bitright (bitand i 0x7C0) 6) = 0xC0 + i / 64 % 32 :=
      bitor_field (w := 5) (v := 6) 3 (by decide) (by decide)
    rw [mod_eq_of_lt (by omega)] at hlead
    rw [if_pos h2, if_pos h2, hlead, hlow]
  · have hlead : bitor 0xE0 (bitright (bitand i 0xF000) 12) = 0xE0 + i / 4096 % 16 :=
      bitor_field (w := 4) (v := 4) 14 (by decide) (by decide)
    have hmid : bitor 0x80 (bitright (bitand i 0xFC0) 6) = 0x80 + i / 64 % 64 :=
      bitor_field (w := 6) (v := 6) 2 (by decide) (by decide)
    rw [mod_eq_of_lt (by omega)] at hlead
    rw [if_neg h2, if_neg h2, if_neg hsep, if_pos hlt, hlead, hmid, hlow]

def highSurrogate : Nat := 0xD800 + (n - 0x10000) / 1024

def lowSurrogate : Nat := 0xDC00 + (n - 0x10000) % 1024

lemma word2utf8_pair (hge : 0x10000 ≤ n) (hlt : n < 0x110000) (txt : Str) :
    word2utf8 0 (highSurrogate n) txt = (txt, highSurrogate n) ∧
      word2utf8 (highSurrogate n) (lowSurrogate n) txt = (txt ++ encode n, 0) := by
  have hhi : highSurrogate n % 1024 = (n - 0x10000) / 1024 := by
    unfold highSurrogate
    omega
  have hlo : lowSurrogate n % 1024 = (n - 0x10000) % 1024 := by
    unfold lowSurrogate
    omega
  have hii :
    0x10000 + bitand (lowSurrogate n) 0x3FF + bitleft (bitand (highSurrogate n) 0x3FF) 10 = n := by
    rw [show bitand (lowSurrogate n) 0x3FF = lowSurrogate n % 1024 from bitand_low _ 10,
      show bitand (highSurrogate n) 0x3FF = highSurrogate n % 1024 from bitand_low _ 10, hhi, hlo,
        bitleft]
    omega
  constructor
  · unfold word2utf8
    rw [if_neg (by decide), if_pos (by unfold highSurrogate; omega)]
  unfold word2utf8 encode
  rw [if_pos (by unfold highSurrogate; omega), if_pos (by unfold lowSurrogate; omega),
    if_neg (by omega), if_neg (by omega), if_neg (by omega)]
  dsimp only
  rw [hii]
  have hlead : bitor 0xF0 (bitright (bitand n 0x1C0000) 18) = 0xF0 + n / 262144 % 8 :=
    bitor_field (w := 3) (v := 4) 15 (by decide) (by decide)
  have h2 : bitor 0x80 (bitright (bitand n 0x3F000) 12) = 0x80 + n / 4096 % 64 :=
    bitor_field (w := 6) (v := 6) 2 (by decide) (by decide)
  have h3 : bitor 0x80 (bitright (bitand n 0xFC0) 6) = 0x80 + n / 64 % 64 :=
    bitor_field (w := 6) (v := 6) 2 (by decide) (by decide)
  rw [mod_eq_of_lt (by omega)] at hlead
  have h4 : bitor 0x80 (bitand n 0x3F) = 0x80 + n % 64 := by
    rw [show bitand n 0x3F = n % 64 from bitand_low n 6]
    exact bitor_add (w := 6) 2 (by omega)
  rw [hlead, h2, h3, h4]

/-! ## Encoding characters -/

def utf16 : List Nat := if n < 0x10000 then [n] else [highSurrogate n, lowSurrogate n]

def hexes4 (ws : List Nat) : Str := ws.flatMap (fixedHex 4)

def gsmHex : Option Str :=
  if n ≥ 0x10000 ∨ n = 0x60 then none
  else if n < 0x80 then some ((g7t.lookup n).getD (fixedHex 2 n))
  else g7t.lookup n

end

lemma chkChar_encode_ascii (hn : n < 0x80) (rest : Str) :
    chkChar (encode n ++ rest) = some (hexes4 (utf16 n), gsmHex n, rest) := by
  unfold encode chkChar utf16 gsmHex
  rw [if_pos hn, if_pos (by omega)]
  simp only [cons_append, nil_append, hexes4, flatMap_cons, flatMap_nil, append_nil]
  rw [if_neg (by omega), if_neg (by omega), if_neg (by omega)]
  by_cases h60 : n = 0x60
  · rw [if_pos h60, if_pos (Or.inr h60), h60]
    rfl
  · rw [if_neg h60, if_pos (by omega), if_neg (by omega), if_pos hn, fmtX_eq (by decide) (by omega),
      fmtX_eq (by decide) (by omega)]

lemma chkChar_encode_two (h1 : 0x80 ≤ n) (h2 : n < 0x800) (rest : Str) :
    chkChar (encode n ++ rest) = some (hexes4 (utf16 n), gsmHex n, rest) := by
  have hv : bitor (bitand (0x80 + n % 64 : Nat) 0x3F)
    (bitleft (bitand (0xC0 + n / 64 : Nat) 0x3F) 6) = n := by
    rw [show bitleft (bitand (0xC0 + n / 64 : Nat) 0x3F) 6 = 2 ^ 6 * (n / 64) from bitleft_lead
      (w := 6) 3 (by omega), bitor_last]
  unfold encode chkChar utf16 gsmHex
  rw [if_neg (by omega), if_pos h2, if_pos (by omega)]
  simp only [cons_append, nil_append, hexes4, flatMap_cons, flatMap_nil, append_nil]
  rw [if_neg (by omega), if_neg (by omega), if_pos (by omega), hv, fmtX_eq (by decide) (by omega),
    if_neg (by omega), if_neg (by omega)]

lemma chkChar_encode_three (h1 : 0x800 ≤ n) (h2 : n < 0x10000) (rest : Str) :
    chkChar (encode n ++ rest) = some (hexes4 (utf16 n), gsmHex n, rest) := by
  have hv : bitor (bitand (0x80 + n % 64 : Nat) 0x3F)
    (bitor (bitleft (bitand (0x80 + n / 64 % 64 : Nat) 0x3F) 6)
      (bitleft (bitand (0xE0 + n / 4096 : Nat) 0xF) 12)) = n := by
    rw [show bitleft (bitand (0xE0 + n / 4096 : Nat) 0xF) 12 = 2 ^ 12 * (n / 4096) from
        bitleft_lead (w := 4) 14 (by omega),
      show bitor (bitleft (bitand (0x80 + n / 64 % 64 : Nat) 0x3F) 6) (2 ^ 12 * (n / 4096) : Nat) =
        2 ^ 6 * (n / 64) from
        bitor_continuation n 6, bitor_last]
  unfold encode chkChar utf16 gsmHex
  rw [if_neg (by omega), if_neg (by omega), if_pos h2, if_pos h2]
  simp only [cons_append, nil_append, hexes4, flatMap_cons, flatMap_nil, append_nil]
  rw [if_neg (by omega), if_pos (by omega), hv, fmtX_eq (by decide) (by omega), if_neg (by omega),
    if_neg (by omega)]

lemma chkChar_encode_four (h1 : 0x10000 ≤ n) (h2 : n < 0x110000) (rest : Str) :
    chkChar (encode n ++ rest) = some (hexes4 (utf16 n), gsmHex n, rest) := by
  have hv : bitor (bitand (0x80 + n % 64 : Nat) 0x3F)
    (bitor (bitleft (bitand (0x80 + n / 64 % 64 : Nat) 0x3F) 6)
      (bitor (bitleft (bitand (0x80 + n / 4096 % 64 : Nat) 0x3F) 12)
        (bitleft (bitand (0xF0 + n / 262144 : Nat) 7) 18))) = n := by
    rw [show bitleft (bitand (0xF0 + n / 262144 : Nat) 7) 18 = 2 ^ 18 * (n / 262144) from
        bitleft_lead (w := 3) 30 (by omega),
      show bitor (bitleft (bitand (0x80 + n / 4096 % 64 : Nat) 0x3F) 12)
        (2 ^ 18 * (n / 262144) : Nat) =
        2 ^ 12 * (n / 4096) from bitor_continuation n 12,
      show bitor (bitleft (bitand (0x80 + n / 64 % 64 : Nat) 0x3F) 6) (2 ^ 12 * (n / 4096) : Nat) =
        2 ^ 6 * (n / 64) from
        bitor_continuation n 6, bitor_last]
  have hsub : ((n : Int) - 0x10000) = ((n - 0x10000 : Nat) : Int) := by omega
  have hw1 : bitor 0xD800 (bitright (bitand (n - 0x10000 : Nat) 0xFFC00) 10) = highSurrogate n := by
    rw [highSurrogate, ← mod_eq_of_lt (show (n - 0x10000) / 1024 < 1024 by omega)]
    exact bitor_field (w := 10) (v := 10) 54 (by decide) (by decide)
  have hw2 : bitor 0xDC00 (bitand (n - 0x10000 : Nat) 0x3FF) = lowSurrogate n := by
    rw [show bitand (n - 0x10000 : Nat) 0x3FF = (n - 0x10000) % 1024 from bitand_low _ 10]
    exact bitor_add (w := 10) 55 (by omega)
  have hhi : highSurrogate n < 0x10000 := by
    unfold highSurrogate
    omega
  have hlo : lowSurrogate n < 0x10000 := by
    unfold lowSurrogate
    omega
  unfold encode chkChar utf16 gsmHex
  rw [if_neg (by omega), if_neg (by omega), if_neg (by omega), if_neg (by omega)]
  simp only [cons_append, nil_append, hexes4, flatMap_cons, flatMap_nil, append_nil]
  rw [if_pos (by omega), hv, hsub, hw1, hw2, fmtX_eq (by decide) hhi, fmtX_eq (by decide) hlo,
    if_pos (Or.inl h1)]

lemma chkChar_encode (rest : Str) :
    chkChar (encode c.toNat ++ rest) = some (hexes4 (utf16 c.toNat), gsmHex c.toNat, rest) := by
  have hscalar := scalar c
  by_cases h1 : c.toNat < 0x80
  · exact chkChar_encode_ascii h1 rest
  by_cases h2 : c.toNat < 0x800
  · exact chkChar_encode_two (by omega) h2 rest
  by_cases h3 : c.toNat < 0x10000
  · exact chkChar_encode_three (by omega) h3 rest
  · exact chkChar_encode_four (by omega) (by omega) rest

def ChkState.addAll (s : ChkState) (cs : List Char) : ChkState :=
  cs.foldl (fun s c => s.add (hexes4 (utf16 c.toNat)) (gsmHex c.toNat)) s

lemma chkLoop_encodeAll : ∀ (n : Nat) (s : ChkState), cs ≠ [] → cs.length ≤ n →
    chkLoop n (encodeAll cs) s = some (s.addAll cs) := by
  induction cs with
  | nil => intro n s hne _; exact absurd rfl hne
  | cons c cs ih =>
    intro n s _ hn
    obtain ⟨n, rfl⟩ : ∃ k, n = k + 1 := ⟨n - 1, by simp at hn; omega⟩
    unfold chkLoop
    rw [encodeAll_cons, chkChar_encode]
    dsimp only
    by_cases hcs : cs = []
    · rw [if_pos (encodeAll_eq_nil.mpr hcs), hcs]
      rfl
    · rw [if_neg (fun h => hcs (encodeAll_eq_nil.mp h))]
      exact ih n _ hcs (by simpa using hn)

lemma length_le_encodeAll : cs.length ≤ (encodeAll cs).length := by
  induction cs with
  | nil => exact le_refl _
  | cons c cs ih =>
    have hpos : 0 < (encode c.toNat).length := length_pos_of_ne_nil (encode_ne_nil _)
    rw [encodeAll_cons, length_cons, length_append]
    omega

lemma addAll_unicode : ∀ s : ChkState,
    (s.addAll cs).unicode = s.unicode ++ hexes4 (cs.flatMap fun c => utf16 c.toNat) := by
  induction cs with
  | nil => intro s; simp [addAll, hexes4]
  | cons c cs ih =>
    intro s
    show ((s.add _ _).addAll cs).unicode = _
    rw [ih]
    cases gsmHex c.toNat <;> simp [add, hexes4]

lemma addAll_gsm : ∀ s : ChkState, (s.addAll cs).g7isok → (∀ c ∈ cs, (gsmHex c.toNat).isSome) ∧
      (s.addAll cs).g7hex = s.g7hex ++ cs.flatMap fun c => (gsmHex c.toNat).getD [] := by
  have hclear : ∀ (cs : List Char) (s : ChkState), s.g7isok = false →
    (s.addAll cs).g7isok = false := by
    intro cs
    induction cs with
    | nil => intro s hs; exact hs
    | cons c cs ih =>
      intro s hs
      apply ih
      show (s.add _ (gsmHex c.toNat)).g7isok = false
      cases gsmHex c.toNat with
      | none => rfl
      | some g => exact hs
  induction cs with
  | nil => intro s _; simp [addAll]
  | cons c cs ih =>
    intro s hok
    have hok' : ((s.add (hexes4 (utf16 c.toNat)) (gsmHex c.toNat)).addAll cs).g7isok := hok
    obtain ⟨hall, hhex⟩ := ih _ hok'
    show _ ∧ ((s.add _ _).addAll cs).g7hex = _
    rw [hhex]
    cases hg : gsmHex c.toNat with
    | none =>
      rw [hg] at hok'
      exact absurd hok' (Bool.eq_false_iff.mp (hclear cs _ rfl))
    | some g => simpa [hg, add] using hall

lemma chktxt_encodeAll {cs : List Char} (hne : cs ≠ []) :
    chkLoop ((encodeAll cs).length + 1) (encodeAll cs) ⟨[], [], true⟩ =
      some (addAll ⟨[], [], true⟩ cs) := by
  have hlen := length_le_encodeAll cs
  exact chkLoop_encodeAll cs _ _ hne (by omega)

lemma chktxt_nil : chktxt [] = none := rfl

/-- The user data with its length in front, as the senders put it together. -/
def userData (dcs : Dcs) (txt : Str) : Option Str :=
  let udl := fmtX 2 (txt.length / 2)
  if dcs = .gsm then (pack udl txt).map (udl ++ ·) else some (udl ++ txt)

/-! ## UTF-16 -/

lemma fixedHex_four (w : Nat) : fixedHex 4 w = hexes [w / 256, w % 256] := by
  have h3 : w / 16 / 16 / 16 % 16 = w / 256 / 16 % 16 := by omega
  have h2 : w / 16 / 16 % 16 = w / 256 % 16 := by omega
  have h1 : w / 16 % 16 = w % 256 / 16 % 16 := by omega
  have h0 : w % 16 = w % 256 % 16 := by omega
  show [hexDigit (w / 16 / 16 / 16 % 16), hexDigit (w / 16 / 16 % 16), hexDigit (w / 16 % 16),
    hexDigit (w % 16)] =
    [hexDigit (w / 256 / 16 % 16), hexDigit (w / 256 % 16), hexDigit (w % 256 / 16 % 16),
      hexDigit (w % 256 % 16)]
  rw [h3, h2, h1, h0]

def octetsOf (ws : List Nat) : List Nat := ws.flatMap fun w => [w / 256, w % 256]

lemma hexes4_eq (hws : ∀ w ∈ ws, w < 0x10000) : hexes4 ws = hexes (octetsOf ws) := by
  induction ws with
  | nil => rfl
  | cons w ws ih =>
    have htail := ih fun w' hw' => hws w' (mem_cons_of_mem w hw')
    show fixedHex 4 w ++ hexes4 ws = hexes ([w / 256, w % 256] ++ octetsOf ws)
    rw [hexes_append, ← fixedHex_four, htail]

lemma length_octetsOf (ws : List Nat) : (octetsOf ws).length = 2 * ws.length := by
  induction ws with
  | nil => rfl
  | cons w ws ih =>
    show ([w / 256, w % 256] ++ octetsOf ws).length = _
    rw [length_append, ih, length_cons, length_cons, length_cons, length_nil]
    omega

lemma binaryLoop_words (pdu : Str) (ws : List Nat) (k last : Nat) (txt : Str) (sur : Nat)
    (hws : ∀ w ∈ ws, w < 0x10000) (heven : k % 2 = 0) (hpdu : (pdu.drop (k * 2) = hexes4 ws)) :
    binaryLoop pdu 2 (2 * ws.length) k last txt sur = (true,
      ws.foldl (fun r w => word2utf8 r.2 w r.1) (txt, sur)) := by
  induction ws generalizing k last txt sur with
  | nil => rfl
  | cons w ws ih =>
    have hw := hws w (mem_cons_self ..)
    have hdigits : pdu.drop (k * 2) = fixedHex 2 (w / 256) ++
      (fixedHex 2 (w % 256) ++ hexes4 ws) := by
      rw [hpdu]
      show fixedHex 4 w ++ hexes4 ws = _
      rw [fixedHex_four, hexes_cons, hexes_cons, hexes_nil, append_nil, append_assoc]
    have hnext : pdu.drop ((k + 1) * 2) = fixedHex 2 (w % 256) ++ hexes4 ws := by
      rw [succ_mul, ← drop_drop, hdigits, drop_left' (length_fixedHex 2 _)]
    have hrest : pdu.drop ((k + 1 + 1) * 2) = hexes4 ws := by
      rw [succ_mul (k + 1), ← drop_drop, hnext, drop_left' (length_fixedHex 2 _)]
    have hword : bitor (bitleft (w / 256) 8) (w % 256 : Nat) = w := by
      rw [bitleft, mul_comm, bitor_add (w := 8) _ (by omega)]
      omega
    rw [length_cons, show 2 * (ws.length + 1) = 2 * ws.length + 1 + 1 from by omega]
    unfold binaryLoop
    rw [hdigits, octet2binCheck_hex (by omega)]
    rw [if_neg (by omega), if_pos rfl, if_pos (by omega), Int.toNat_natCast]
    unfold binaryLoop
    rw [hnext, octet2binCheck_hex (by omega)]
    dsimp only
    rw [if_neg (by omega), if_pos rfl, if_neg (by omega), hword]
    exact ih (k + 1 + 1) _ _ _ (fun w' hw' => hws w' (mem_cons_of_mem w hw')) (by omega) hrest

lemma utf16_lt : ∀ w ∈ utf16 c.toNat, w < 0x10000 := by
  have hscalar := scalar c
  intro w hw
  unfold utf16 at hw
  split_ifs at hw with h
  · rw [mem_singleton.mp hw]
    exact h
  · unfold highSurrogate lowSurrogate at hw
    simp only [mem_cons, not_mem_nil, or_false] at hw
    omega

def shown (c : Char) : Str := if c.toNat = 0x2029 then [10] else encode c.toNat

lemma shown_all {cs : List Char} (hsep : ∀ c ∈ cs, c.toNat ≠ 0x2029) :
    cs.flatMap shown = encodeAll cs :=
  flatMap_congr fun c hc => if_neg (hsep c hc)

lemma word2utf8_utf16 (txt : Str) :
    (utf16 c.toNat).foldl (fun r w => word2utf8 r.2 w r.1) (txt, 0) = (txt ++ shown c, 0) := by
  have hscalar := scalar c
  by_cases hsep : c.toNat = 0x2029
  · unfold shown
    rw [hsep, if_pos rfl]
    rfl
  unfold utf16 shown
  split_ifs with h
  · rw [foldl_cons, foldl_nil, word2utf8_scalar h (by omega) hsep txt]
  · obtain ⟨hhigh, hlow⟩ := word2utf8_pair (n := c.toNat) (by omega) (by omega) txt
    rw [foldl_cons, foldl_cons, foldl_nil, hhigh, hlow]

lemma word2utf8_all : ∀ txt : Str,
    (cs.flatMap fun c => utf16 c.toNat).foldl (fun r w => word2utf8 r.2 w r.1) (txt, 0) =
      (txt ++ cs.flatMap shown, 0) := by
  induction cs with
  | nil => intro txt; simp
  | cons c cs ih =>
    intro txt
    rw [flatMap_cons, foldl_append, word2utf8_utf16, ih, flatMap_cons, append_assoc]

lemma chktxt_ucs2 {cs : List Char} (h : chktxt (encodeAll cs) = some ⟨none, .ucs2, t⟩) :
    t = hexes4 (cs.flatMap fun c => utf16 c.toNat) ∧ t.length ≤ 280 := by
  have hne : cs ≠ [] := by
    rintro rfl
    exact absurd h (by rw [encodeAll_nil, chktxt_nil]; simp)
  unfold chktxt at h
  rw [chktxt_encodeAll hne, map_some, some.injEq] at h
  have hunicode := addAll_unicode cs ⟨[], [], true⟩
  split_ifs at h with h1 h2 h3
  · exact absurd (congrArg dcs h) (by simp)
  · exact absurd (congrArg dcs h) (by simp)
  · have ht : (addAll ⟨[], [], true⟩ cs).unicode = t := congrArg ChkTxt.txt h
    rw [ht] at hunicode h3
    exact ⟨hunicode, h3⟩
  · exact absurd (congrArg dcs h) (by simp)

lemma pdu2binary_words (hws : ∀ w ∈ ws, w < 0x10000) (hlen : ws.length ≤ 70) {v : Vars}
    (hal : v.mAlphabet = 2) : pdu2binary (fixedHex 2 (2 * ws.length) ++ hexes4 ws) 0 v =
      some (((2 * ws.length : Nat) : Int), { v with
        mText := some (ws.foldl (fun r w => word2utf8 r.2 w r.1) ([], v.surrogate)).1
        surrogate := (ws.foldl (fun r w => word2utf8 r.2 w r.1) ([], v.surrogate)).2 }) := by
  have hoctets : octet2binCheck (fixedHex 2 (2 * ws.length) ++ hexes4 ws) = (2 * ws.length : Nat) :=
    octet2binCheck_hex (by omega) _
  have hdrop : (fixedHex 2 (2 * ws.length) ++ hexes4 ws).drop (2 + 0 * 2) = hexes4 ws :=
    drop_left' (length_fixedHex 2 _)
  have hloop := binaryLoop_words (hexes4 ws) ws 0 0 [] v.surrogate hws rfl rfl
  unfold pdu2binary binaryText
  simp only [run_bind, run_modify, run_ite, run_pure, run_get, run_set, bind_some, hoctets]
  rw [if_neg (by omega), if_neg (by omega)]
  simp only [hdrop, hal, Int.toNat_natCast, Nat.sub_zero, hloop, if_true, Nat.cast_zero,
    Int.sub_zero]

lemma utf16_all_lt : ∀ w ∈ cs.flatMap fun c => utf16 c.toNat, w < 0x10000 := by
  intro w hw
  obtain ⟨c, _, hw⟩ := mem_flatMap.mp hw
  exact utf16_lt c w hw

lemma length_hexes4 (hws : ∀ w ∈ ws, w < 0x10000) : (hexes4 ws).length = 4 * ws.length := by
  rw [hexes4_eq hws, length_hexes, length_octetsOf]
  omega

/-- A text in UTF-16 is read back. U+2029 is excepted, which is shown as a line feed. -/
theorem ucs2_round_trip (cs : List Char) (t : Str)
    (h : chktxt (encodeAll cs) = some ⟨none, .ucs2, t⟩)
    (hsep : ∀ c ∈ cs, c.toNat ≠ 0x2029) : ∃ ud octets v, userData .ucs2 t = some ud ∧
      pdu2binary ud 0 { fresh with mAlphabet := 2 } = some (octets, v) ∧
      v.mText = some (encodeAll cs) := by
  obtain ⟨ht, hlen⟩ := chktxt_ucs2 h
  have hws := utf16_all_lt cs
  generalize hws' : (cs.flatMap fun c => utf16 c.toNat) = ws at ht hws
  have hlen4 : t.length = 4 * ws.length := by rw [ht, length_hexes4 hws]
  have hud : userData .ucs2 t = some (fixedHex 2 (2 * ws.length) ++ hexes4 ws) := by
    unfold userData
    rw [if_neg (by decide), hlen4, show 4 * ws.length / 2 = 2 * ws.length from by omega,
      fmtX_eq (by decide) (by omega), ht]
  refine ⟨_, _, _, hud, pdu2binary_words hws (by omega) rfl, ?_⟩
  have hall := word2utf8_all cs []
  rw [hws', nil_append, shown_all hsep] at hall
  exact congrArg (fun r => some r.1) hall

/-- A character outside the basic plane and a grave accent. -/
theorem ucs2_round_trip_emoji : ∃ ud octets v, userData .ucs2 (lit "D83DDE000060") = some ud ∧
      pdu2binary ud 0 { fresh with mAlphabet := 2 } = some (octets, v) ∧
      v.mText = some (encodeAll ['😀', Char.ofNat 0x60]) :=
  ucs2_round_trip ['😀', Char.ofNat 0x60] (lit "D83DDE000060") (by decide +kernel)
    (all_iff_forall_prop.1 (by decide))

/-! ## The default alphabet -/

/-- No control characters but line feed and carriage return. -/
def TextChar (n : Nat) : Prop := (0x20 ≤ n ∧ n ≠ 0x7F) ∨ n = 10 ∨ n = 13

instance (n : Nat) : Decidable (TextChar n) := inferInstanceAs (Decidable (_ ∨ _ ∨ _))

def unhex : Str → List Nat
  | a :: b :: rest => octet2bin a b :: unhex rest
  | _ => []

/-- The septets of a character: of the first table, or of the second behind an escape. -/
def decodes (n : Nat) : List Nat → Bool
  | [c] => c ≠ 27 && c < 128 && n ≠ 27 && (gTable1.lookup c).getD c = n
  | [e, c] => e = 27 && c < 128 && n ≠ 27 && gTable2.lookup c = some n
  | _ => false

lemma g7t_decodes : ∀ e ∈ g7t, e.2 = hexes (unhex e.2) ∧ decodes e.1 (unhex e.2) ∧ e.1 < 0x2029 ∨
    e.1 = 0x20AC ∧ e.2 = hexes (unhex e.2) ∧ decodes e.1 (unhex e.2) := by
  decide +kernel

lemma ascii_decodes : ∀ n < 128, g7t.lookup n = none → n ≠ 0x60 → TextChar n → decodes n [n] := by
  decide +kernel

lemma control_decodes : ∀ n < 128, ¬ TextChar n → g7t.lookup n = none ∧
    (n = 27 ∨ (encode ((gTable1.lookup n).getD n)).head? ≠ some n ∧
    (gTable1.lookup n).getD n ≠ 27) := by
  decide +kernel

lemma mem_of_lookup {α β : Type} [BEq α] [LawfulBEq α] {l : List (α × β)} {a : α} {b : β}
    (h : l.lookup a = some b) : (a, b) ∈ l := by
  induction l with
  | nil => cases h
  | cons e l ih =>
    rw [lookup_cons] at h
    split at h
    next heq =>
      rw [← some.inj h, eq_of_beq heq]
      exact mem_cons_self ..
    next => exact mem_cons_of_mem e (ih h)

structure GsmChar (n : Nat) (ss : List Nat) : Prop where
  septet : ∀ c ∈ ss, c < 128
  decodes : TextChar n → decodes n ss
  lt : n < 0x2029 ∨ n = 0x20AC

lemma decodes_lt (h : decodes n ss) : ∀ c ∈ ss, c < 128 := by
  unfold decodes at h
  split at h
  · simp only [Bool.and_eq_true, decide_eq_true_eq] at h
    simpa using h.1.1.2
  · simp only [Bool.and_eq_true, decide_eq_true_eq] at h
    obtain ⟨⟨⟨rfl, h2⟩, _⟩, _⟩ := h
    simpa using h2
  · cases h

lemma gsmHex_some {g : Str} (h : gsmHex n = some g) : g = hexes (unhex g) ∧
    GsmChar n (unhex g) := by
  have htable : ∀ g, g7t.lookup n = some g → g = hexes (unhex g) ∧ GsmChar n (unhex g) := by
    intro g hlookup
    rcases g7t_decodes (n, g) (mem_of_lookup hlookup) with ⟨h1, h2, h3⟩ | ⟨h1, h2, h3⟩
    · exact ⟨h1, decodes_lt h2, fun _ => h2, Or.inl h3⟩
    · exact ⟨h2, decodes_lt h3, fun _ => h3, Or.inr h1⟩
  unfold gsmHex at h
  split_ifs at h with h1 h2
  · cases hlookup : g7t.lookup n with
    | some g' =>
      rw [hlookup, getD_some, some.injEq] at h
      rw [← h]
      exact htable g' hlookup
    | none =>
      rw [hlookup, getD_none, some.injEq] at h
      have hunhex : unhex g = [n] := by
        rw [← h, fixedHex_two, mod_eq_of_lt (show n / 16 < 16 by omega)]
        show [octet2bin _ _] = [n]
        rw [octet2bin_hexDigit (by omega)]
      rw [hunhex]
      refine ⟨by rw [← h, hexes_cons, hexes_nil, append_nil], ?_, ?_, Or.inl (by omega)⟩
      · intro c hc
        rw [mem_singleton.mp hc]
        exact h2
      · intro htext
        exact ascii_decodes n h2 hlookup (fun h60 => h1 (Or.inr h60)) htext
  · exact htable g h

def gsmSeptets (n : Nat) : List Nat := unhex ((gsmHex n).getD [])

lemma chktxt_gsm {cs : List Char} (h : chktxt (encodeAll cs) = some ⟨none, .gsm, t⟩) :
    cs ≠ [] ∧ (∀ c ∈ cs, GsmChar c.toNat (gsmSeptets c.toNat)) ∧
      t = hexes (cs.flatMap fun c => gsmSeptets c.toNat) ∧ t.length ≤ 320 := by
  have hne : cs ≠ [] := by
    rintro rfl
    exact absurd h (by rw [encodeAll_nil, chktxt_nil]; simp)
  unfold chktxt at h
  rw [chktxt_encodeAll hne, map_some, some.injEq] at h
  split_ifs at h with h1 h2 h3
  · have ht : (addAll ⟨[], [], true⟩ cs).g7hex = t := congrArg ChkTxt.txt h
    obtain ⟨hall, hhex⟩ := addAll_gsm cs ⟨[], [], true⟩ h1.1
    rw [nil_append, ht] at hhex
    rw [ht] at h1
    have hchar : ∀ c ∈ cs, (gsmHex c.toNat).getD [] = hexes (gsmSeptets c.toNat) ∧
        GsmChar c.toNat (gsmSeptets c.toNat) := by
      intro c hc
      obtain ⟨g, hg⟩ := isSome_iff_exists.mp (hall c hc)
      obtain ⟨hg1, hg2⟩ := gsmHex_some hg
      unfold gsmSeptets
      rw [hg, getD_some]
      exact ⟨hg1, hg2⟩
    refine ⟨hne, fun c hc => (hchar c hc).2, ?_, h1.2⟩
    rw [hhex]
    clear hhex hall ht h1 h hne
    induction cs with
    | nil => rfl
    | cons c cs ih =>
      rw [flatMap_cons, flatMap_cons, hexes_append, (hchar c (mem_cons_self ..)).1,
        ih fun c' hc' => hchar c' (mem_cons_of_mem c hc')]
  · exact absurd (congrArg dcs h) (by simp)
  · exact absurd (congrArg dcs h) (by simp)
  · exact absurd (congrArg dcs h) (by simp)

def putAll (s : TextState) (ss : List Nat) : TextState := ss.foldl (fun s c => s.put true c) s

lemma putAll_append (s : TextState) (ss ss' : List Nat) :
    putAll s (ss ++ ss') = putAll (putAll s ss) ss' := foldl_append ..

lemma putAll_txt (ss : List Nat) : ∀ s : TextState,
    (putAll s ss).txt = s.txt ++ (putAll { s with txt := [] } ss).txt := by
  induction ss with
  | nil => intro s; exact (append_nil _).symm
  | cons c ss ih =>
    intro s
    have hput : s.put true c = { put { s with txt := [] } true c with
        txt := s.txt ++ (put { s with txt := [] } true c).txt } := by
      unfold put
      dsimp only
      split_ifs
      · rw [word2utf8_append]
      · rw [append_nil]
    show (putAll (s.put true c) ss).txt = s.txt ++ (putAll (put { s with txt := [] } true c) ss).txt
    rw [ih (put { s with txt := [] } true c), hput, ih, append_assoc]

lemma put_char {c : Nat} {nbr : Option Nat} (hsur : s.surrogate = 0)
    (hg : gsm2byte s.gTableNbr c = (n, nbr)) (h27 : n ≠ 27) (hn : n < 0x2029 ∨ n = 0x20AC) :
    s.put true c = ⟨s.txt ++ encode n, 0, nbr⟩ := by
  unfold put
  rw [hg, if_pos (by simpa using h27), hsur, word2utf8_scalar (by omega) (by omega) (by omega)]

lemma putAll_decodes (h : decodes n ss) (hn : n < 0x2029 ∨ n = 0x20AC) (hsur : s.surrogate = 0)
    (hnbr : s.gTableNbr ≠ some 2) : ∃ nbr, nbr ≠ some 2 ∧
    putAll s ss = ⟨s.txt ++ encode n, 0, nbr⟩ := by
  unfold decodes at h
  split at h
  next c =>
    simp only [Bool.and_eq_true, decide_eq_true_eq] at h
    obtain ⟨⟨⟨hc, _⟩, h27⟩, hlookup⟩ := h
    have hg : gsm2byte s.gTableNbr c = (n, s.gTableNbr) := by
      unfold gsm2byte
      rw [if_neg hnbr, if_neg hc, hlookup]
    exact ⟨s.gTableNbr, hnbr, put_char hsur hg h27 hn⟩
  next e c =>
    simp only [Bool.and_eq_true, decide_eq_true_eq] at h
    obtain ⟨⟨⟨rfl, _⟩, h27⟩, hlookup⟩ := h
    have hesc : s.put true 27 = { s with gTableNbr := some 2 } := by
      unfold put gsm2byte
      rw [if_neg hnbr]
      rfl
    have hg : gsm2byte (some 2) c = (n, some 1) := by
      unfold gsm2byte
      rw [if_pos rfl, hlookup, getD_some]
    refine ⟨some 1, by decide, ?_⟩
    show (s.put true 27).put true c = _
    rw [hesc]
    exact put_char (s := { s with gTableNbr := some 2 }) hsur hg h27 hn
  next => cases h

lemma putAll_text (hcs : ∀ c ∈ cs, GsmChar c.toNat (gsmSeptets c.toNat))
    (htext : ∀ c ∈ cs, TextChar c.toNat) : ∀ s : TextState, s.surrogate = 0 → s.gTableNbr ≠ some 2 →
    ∃ nbr, nbr ≠ some 2 ∧
      putAll s (cs.flatMap fun c => gsmSeptets c.toNat) = ⟨s.txt ++ encodeAll cs, 0, nbr⟩ := by
  induction cs with
  | nil =>
    intro s hsur hnbr
    refine ⟨s.gTableNbr, hnbr, ?_⟩
    show s = _
    rw [encodeAll_nil, append_nil, ← hsur]
  | cons c cs ih =>
    intro s hsur hnbr
    obtain ⟨_, hdec, hlt⟩ := hcs c (mem_cons_self ..)
    obtain ⟨nbr, hnbr', hput⟩ := putAll_decodes (hdec (htext c (mem_cons_self ..))) hlt hsur hnbr
    obtain ⟨nbr', hnbr'', hrest⟩ := ih (fun c' hc' => hcs c' (mem_cons_of_mem c hc'))
      (fun c' hc' => htext c' (mem_cons_of_mem c hc')) ⟨s.txt ++ encode c.toNat, 0, nbr⟩ rfl hnbr'
    refine ⟨nbr', hnbr'', ?_⟩
    rw [flatMap_cons, putAll_append, hput, hrest, encodeAll_cons, append_assoc]

lemma escaped_head : ∀ c < 128, (encode ((gTable2.lookup c).getD 63)).head? ≠ some 27 ∧
    (gTable2.lookup c).getD 63 ≠ 27 ∧
    ((gTable2.lookup c).getD 63 < 0x2029 ∨ (gTable2.lookup c).getD 63 = 0x20AC) := by
  decide +kernel

lemma gTable1_lt : ∀ c < 128, (gTable1.lookup c).getD c < 0x2029 := by
  decide +kernel

lemma putAll_control (hn : n < 128) (hcontrol : ¬ TextChar n) (hss : ∀ c ∈ ss, c < 128)
    (hsur : s.surrogate = 0) (hnbr : s.gTableNbr ≠ some 2) (w : Str) :
    (putAll s (n :: ss)).txt ≠ s.txt ++ n :: w := by
  have hhead : ∀ m, (encode m).head? ≠ some n →
    ∀ w', s.txt ++ encode m ++ w' ≠ s.txt ++ n :: w := by
    intro m hm w' heq
    rw [append_assoc, append_cancel_left_eq] at heq
    apply hm
    have happend : (encode m ++ w').head? = (encode m).head? :=
      head?_append_of_ne_nil (encode m) (encode_ne_nil m)
    rw [← happend, heq, head?_cons]
  rcases (control_decodes n hn hcontrol).2 with rfl | ⟨hdiff, h27⟩
  · -- an escape is not shown, and the next septet is taken from the second table
    have hesc : s.put true 27 = { s with gTableNbr := some 2 } := by
      unfold put gsm2byte
      rw [if_neg hnbr]
      rfl
    show (putAll (s.put true 27) ss).txt ≠ _
    rw [hesc]
    cases ss with
    | nil =>
      intro heq
      have hlen := congrArg length heq
      rw [length_append, length_cons] at hlen
      exact absurd hlen (by show s.txt.length ≠ _; omega)
    | cons c ss =>
      obtain ⟨hne, hx27, hlt⟩ := escaped_head c (hss c (mem_cons_self ..))
      have hput : put { s with gTableNbr := some 2 } true c =
          ⟨s.txt ++ encode ((gTable2.lookup c).getD 63), 0, some 1⟩ :=
        put_char (s := { s with gTableNbr := some 2 }) hsur (by unfold gsm2byte; rw [if_pos rfl])
          hx27 hlt
      show (putAll (put { s with gTableNbr := some 2 } true c) ss).txt ≠ _
      rw [hput, putAll_txt]
      exact hhead _ hne _
  · have hput : s.put true n = ⟨s.txt ++ encode ((gTable1.lookup n).getD n), 0, s.gTableNbr⟩ := by
      apply put_char hsur _ h27 (Or.inl (gTable1_lt n hn))
      unfold gsm2byte
      rw [if_neg hnbr, if_neg]
      rintro rfl
      exact h27 rfl
    show (putAll (s.put true n) ss).txt ≠ _
    rw [hput, putAll_txt]
    exact hhead _ hdiff _

lemma gsmSeptets_control (hn : n < 128) (hcontrol : ¬ TextChar n) : gsmSeptets n = [n] := by
  have hlookup := (control_decodes n hn hcontrol).1
  have h60 : n ≠ 0x60 := by
    rintro rfl
    exact hcontrol (by decide)
  unfold gsmSeptets gsmHex
  rw [if_neg (by omega), if_pos hn, hlookup, getD_none, getD_some, fixedHex_two,
    mod_eq_of_lt (show n / 16 < 16 by omega)]
  show [octet2bin _ _] = [n]
  rw [octet2bin_hexDigit (by omega)]

lemma gsmSeptets_ne_nil (h : GsmChar n (gsmSeptets n)) : gsmSeptets n ≠ [] := by
  intro hnil
  by_cases htext : TextChar n
  · have hdec := h.decodes htext
    rw [hnil] at hdec
    exact absurd hdec (by simp [decodes])
  have hlt : n < 128 := by
    by_contra hge
    exact htext (Or.inl ⟨by omega, by omega⟩)
  rw [gsmSeptets_control hlt htext] at hnil
  cases hnil

lemma putAll_eq_iff {cs : List Char} (hcs : ∀ c ∈ cs, GsmChar c.toNat (gsmSeptets c.toNat))
    (hsur : s.surrogate = 0) (hnbr : s.gTableNbr ≠ some 2) :
    (putAll s (cs.flatMap fun c => gsmSeptets c.toNat)).txt = s.txt ++ encodeAll cs ↔
      ∀ c ∈ cs, TextChar c.toNat := by
  constructor
  · intro heq
    by_contra hnot
    -- split the text at the first control character
    have hsplit : ∃ pre c post, cs = pre ++ c :: post ∧ (∀ c' ∈ pre, TextChar c'.toNat) ∧
        ¬ TextChar c.toNat := by
      clear heq hcs
      induction cs with
      | nil => exact absurd (by simp) hnot
      | cons c cs ih =>
        by_cases hc : TextChar c.toNat
        · obtain ⟨pre, c', post, hcs, hpre, hc'⟩ := ih fun h => hnot (forall_mem_cons.mpr ⟨hc, h⟩)
          refine ⟨c :: pre, c', post, by rw [hcs]; rfl, ?_, hc'⟩
          intro x hx
          rcases mem_cons.mp hx with rfl | hx
          · exact hc
          · exact hpre x hx
        · exact ⟨[], c, cs, rfl, by simp, hc⟩
    obtain ⟨pre, c, post, rfl, hpre, hc⟩ := hsplit
    have hlt : c.toNat < 128 := by
      by_contra h
      exact hc (Or.inl ⟨by omega, by omega⟩)
    obtain ⟨nbr, hnbr', hput⟩ :=
      putAll_text pre (fun c' hc' => hcs c' (mem_append_left _ hc')) hpre s
      hsur hnbr
    have hrest : ∀ x ∈ post.flatMap fun c => gsmSeptets c.toNat, x < 128 := by
      intro x hx
      obtain ⟨c', hc', hx⟩ := mem_flatMap.mp hx
      exact (hcs c' (mem_append_right _ (mem_cons_of_mem c hc'))).septet x hx
    rw [flatMap_append, putAll_append, hput, flatMap_cons, gsmSeptets_control hlt hc,
      encodeAll_append,
      encodeAll_cons, ← append_assoc, show encode c.toNat = [c.toNat] from if_pos hlt] at heq
    exact putAll_control hlt hc hrest rfl hnbr' _ heq
  · intro htext
    obtain ⟨nbr, _, hput⟩ := putAll_text cs hcs htext s hsur hnbr
    rw [hput]

lemma pdu2text_packed (hne : ss ≠ []) (hss : ∀ c ∈ ss, c < 128) (hlen : ss.length < 256) :
    ∃ os : List Nat, pack (fixedHex 2 ss.length) (hexes ss) = some (hexes os) ∧
      os.length = (ss.length * 7 + 7) / 8 ∧ ∀ (rest : Str) (v : Vars),
        pdu2text (fixedHex 2 ss.length ++ (hexes os ++ rest)) 0 v = some (1, { v with
          mText := some (putAll ⟨[], v.surrogate, v.gTableNbr⟩ ss).txt
          surrogate := (putAll ⟨[], v.surrogate, v.gTableNbr⟩ ss).surrogate
          gTableNbr := (putAll ⟨[], v.surrogate, v.gTableNbr⟩ ss).gTableNbr }) := by
  obtain ⟨os, hpack, hos⟩ := pack_spec hne hss hlen
  refine ⟨os, hpack, hos.length_eq, ?_⟩
  intro rest v
  have hseptets : octet2binCheck (fixedHex 2 ss.length ++ (hexes os ++ rest)) = ss.length :=
    octet2binCheck_hex hlen _
  have hloop := charLoop_spec rest (length_fixedHex 2 ss.length) hss hos
    ⟨[], v.surrogate, v.gTableNbr⟩
  unfold pdu2text septetText
  simp only [run_bind, run_modify, run_ite, run_pure, run_get, run_set, bind_some, hseptets]
  simp only [Int.toNat_natCast]
  rw [hloop]
  rfl

lemma userData_gsm {cs : List Char} (h : chktxt (encodeAll cs) = some ⟨none, .gsm, t⟩) :
    ∃ ss : List Nat, ss = (cs.flatMap fun c => gsmSeptets c.toNat) ∧ t = hexes ss ∧ ss ≠ [] ∧
      (∀ c ∈ ss, c < 128) ∧ ss.length ≤ 160 ∧ (∀ c ∈ cs, GsmChar c.toNat (gsmSeptets c.toNat)) := by
  obtain ⟨hne, hchars, ht, hlen⟩ := chktxt_gsm h
  refine ⟨_, rfl, ht, ?_, ?_, ?_, hchars⟩
  · cases cs with
    | nil => exact absurd rfl hne
    | cons c cs =>
      exact append_ne_nil_of_left_ne_nil (gsmSeptets_ne_nil (hchars c (mem_cons_self ..))) _
  · intro x hx
    obtain ⟨c, hc, hx⟩ := mem_flatMap.mp hx
    exact (hchars c hc).septet x hx
  · rw [ht, length_hexes] at hlen
    omega

/-- A text in the default alphabet is read back exactly if it has no control characters but line
feeds and carriage returns. -/
theorem gsm_round_trip_iff (cs : List Char) (t : Str)
    (h : chktxt (encodeAll cs) = some ⟨none, .gsm, t⟩) :
    ∃ ud v, userData .gsm t = some ud ∧ pdu2text ud 0 fresh = some (1, v) ∧
      (v.mText = some (encodeAll cs) ↔ ∀ c ∈ cs, TextChar c.toNat) := by
  obtain ⟨ss, hss, ht, hne, hlt, hlen, hchars⟩ := userData_gsm h
  have hiff := putAll_eq_iff hchars (s := ⟨[], 0, none⟩) rfl (by decide)
  obtain ⟨os, hpack, _, hdec⟩ := pdu2text_packed hne hlt (by omega)
  have hud : userData .gsm t = some (fixedHex 2 ss.length ++ (hexes os ++ [])) := by
    unfold userData
    rw [if_pos rfl, ht, length_hexes, Nat.mul_div_cancel_left _ (by decide),
      fmtX_eq (by decide) (by omega), hpack, append_nil]
    rfl
  refine ⟨_, _, hud, hdec [] fresh, ?_⟩
  rw [← hss, nil_append] at hiff
  rw [← hiff]
  exact some_inj

/-- An accented letter, a bracket behind an escape and a line feed. -/
theorem gsm_round_trip_iff_escape : ∃ ud v, userData .gsm (lit "051B3C0A") = some ud ∧
    pdu2text ud 0 fresh = some (1, v) ∧
    (v.mText = some (encodeAll ['é', '[', '\n']) ↔ ∀ c ∈ ['é', '[', '\n'], TextChar c.toNat) :=
  gsm_round_trip_iff ['é', '[', '\n'] (lit "051B3C0A") (by decide +kernel)

/-- A tabulator is sent as the septet of another character, and comes back as that one. -/
theorem gsm_tab_comes_back_changed : chktxt (encodeAll ['\t']) = some ⟨none, .gsm, lit "09"⟩ ∧
    ((userData .gsm (lit "09")).bind fun ud => pdu2text ud 0 fresh).map (fun r => r.2.mText) =
      some (some (encodeAll ['Ç'])) ∧ encodeAll ['Ç'] ≠ encodeAll ['\t'] := by
  decide +kernel

end SourceMaster.Sms
