import SourceMaster.Sms.RoundTrip

/-!
# Arbitrary words decoded

`word2utf8` remembers a high surrogate in a global variable until the next word. Whatever words it
is given, the text stays a sequence of encoded characters: `readWords` says which. An unpaired
surrogate becomes a box, together with the word behind it if it is a high one, and a high surrogate
at the end is shown as nothing.
-/

namespace SourceMaster.Sms

open Utf8 List

def IsHigh (w : Nat) : Prop := 0xD800 ≤ w ∧ w ≤ 0xDBFF

def IsLow (w : Nat) : Prop := 0xDC00 ≤ w ∧ w ≤ 0xDFFF

instance (w : Nat) : Decidable (IsHigh w) := inferInstanceAs (Decidable (_ ∧ _))

instance (w : Nat) : Decidable (IsLow w) := inferInstanceAs (Decidable (_ ∧ _))

def pairChar (high low : Nat) : Char := .ofNat (0x10000 + (high - 0xD800) * 1024 + (low - 0xDC00))

def readWords : Nat → List Nat → List Char
  | _, [] => []
  | sur, w :: ws =>
    if sur > 0 then (if IsLow w then pairChar sur w else '□') :: readWords 0 ws
    else if IsHigh w then readWords w ws
    else if IsLow w then '□' :: readWords 0 ws
    else (if w = 0x2029 then '\n' else .ofNat w) :: readWords 0 ws

def decodeWords (r : Str × Nat) (ws : List Nat) : Str × Nat :=
  ws.foldl (fun r w => word2utf8 r.2 w r.1) r

def Pending (sur : Nat) : Prop := sur = 0 ∨ IsHigh sur

lemma toNat_ofNat {n : Nat} (h : n < 0xD800 ∨ (0xDFFF < n ∧ n < 0x110000)) :
    (Char.ofNat n).toNat = n := by
  unfold Char.ofNat
  rw [dif_pos (show n.isValidChar from h)]
  rfl

lemma word2utf8_low {sur w : Nat} (hsur : IsHigh sur) (hw : IsLow w) (txt : Str) :
    word2utf8 sur w txt = (txt ++ encode (pairChar sur w).toNat, 0) := by
  obtain ⟨hs₁, hs₂⟩ := hsur
  obtain ⟨hw₁, hw₂⟩ := hw
  generalize hn : 0x10000 + (sur - 0xD800) * 1024 + (w - 0xDC00) = n
  have hhigh : highSurrogate n = sur := by
    unfold highSurrogate
    omega
  have hlow : lowSurrogate n = w := by
    unfold lowSurrogate
    omega
  obtain ⟨-, hpair⟩ := word2utf8_pair (n := n) (by omega) (by omega) txt
  rw [hhigh, hlow] at hpair
  rw [hpair, pairChar, hn, toNat_ofNat (by omega)]

lemma word2utf8_step {sur w : Nat} (hsur : Pending sur) (hw : w < 0x10000) (txt : Str) :
    ∃ cs sur', word2utf8 sur w txt = (txt ++ encodeAll cs, sur') ∧ Pending sur' ∧
      ∀ ws, readWords sur (w :: ws) = cs ++ readWords sur' ws := by
  have hbox : boxChar = encodeAll ['□'] := by decide
  rcases hsur with rfl | hsur
  · by_cases hhigh : IsHigh w
    · refine ⟨[], w, ?_, .inr hhigh, fun ws => ?_⟩
      · rw [word2utf8, if_neg (by decide), if_pos (show w ≥ 0xD800 ∧ w ≤ 0xDBFF from hhigh),
          encodeAll_nil, append_nil]
      · rw [readWords, if_neg (by decide), if_pos hhigh, nil_append]
    by_cases hlow : IsLow w
    · refine ⟨['□'], 0, ?_, .inl rfl, fun ws => ?_⟩
      · rw [word2utf8, if_neg (by decide), if_neg (show ¬ (w ≥ 0xD800 ∧ w ≤ 0xDBFF) from hhigh),
          if_pos (show w ≥ 0xDC00 ∧ w ≤ 0xDFFF from hlow), hbox]
      · rw [readWords, if_neg (by decide), if_neg hhigh, if_pos hlow, singleton_append]
    refine ⟨[if w = 0x2029 then '\n' else .ofNat w], 0, ?_, .inl rfl, fun ws => ?_⟩
    · have hscalar : w < 0xD800 ∨ 0xDFFF < w := by
        unfold IsHigh at hhigh
        unfold IsLow at hlow
        omega
      split_ifs with hsep
      · subst hsep
        rfl
      · rw [word2utf8_scalar hw hscalar hsep, encodeAll_cons, encodeAll_nil, append_nil,
          toNat_ofNat (by omega)]
    · rw [readWords, if_neg (by decide), if_neg hhigh, if_neg hlow, singleton_append]
  · have hpos : sur > 0 := by
      obtain ⟨hs, -⟩ := hsur
      omega
    refine ⟨[if IsLow w then pairChar sur w else '□'], 0, ?_, .inl rfl, fun ws => ?_⟩
    · split_ifs with hlow
      · rw [word2utf8_low hsur hlow, encodeAll_cons, encodeAll_nil, append_nil]
      · rw [word2utf8, if_pos hpos, if_neg (show ¬ (w ≥ 0xDC00 ∧ w ≤ 0xDFFF) from hlow), hbox]
    · rw [readWords, if_pos hpos, singleton_append]

lemma decodeWords_eq {ws : List Nat} (hws : ∀ w ∈ ws, w < 0x10000) {sur : Nat}
    (hsur : Pending sur)
    (txt : Str) : (decodeWords (txt, sur) ws).1 = txt ++ encodeAll (readWords sur ws) := by
  induction ws generalizing sur txt with
  | nil => exact (append_nil txt).symm
  | cons w ws ih =>
    obtain ⟨cs, sur', hstep, hsur', hread⟩ := word2utf8_step hsur (hws w mem_cons_self) txt
    rw [decodeWords, foldl_cons, hstep, hread, encodeAll_append, ← append_assoc]
    exact ih (fun w' hw' => hws w' (mem_cons_of_mem w hw')) hsur' _

def lineFeed (c : Char) : Char := if c = '\u2029' then '\n' else c

lemma encode_lineFeed (c : Char) : encode (lineFeed c).toNat = shown c := by
  have hiff : c = '\u2029' ↔ c.toNat = 0x2029 := by
    rw [← Char.toNat_inj]
    rfl
  unfold lineFeed shown
  by_cases h : c = '\u2029'
  · rw [if_pos h, if_pos (hiff.1 h)]
    rfl
  · rw [if_neg h, if_neg fun h' => h (hiff.2 h')]

/-- The text decoded from any words is valid UTF-8, and a text in UTF-16 comes back, with line feeds
for its paragraph separators. -/
theorem decodeWords_utf8 (ws : List Nat) (hws : ∀ w ∈ ws, w < 0x10000) :
    (∀ sur, Pending sur → ∃ cs, (decodeWords ([], sur) ws).1 = encodeAll cs) ∧
      ∀ cs : List Char, ws = (cs.flatMap fun c => utf16 c.toNat) →
        (decodeWords ([], 0) ws).1 = encodeAll (cs.map lineFeed) := by
  refine ⟨fun sur hsur => ⟨readWords sur ws, decodeWords_eq hws hsur []⟩, ?_⟩
  rintro cs rfl
  have hall := word2utf8_all cs []
  rw [decodeWords, hall, nil_append, encodeAll, flatMap_map]
  exact flatMap_congr fun c _ => (encode_lineFeed c).symm

/-- A pair of surrogates, a separator, and a high surrogate before a letter. -/
theorem decodeWords_utf8_unpaired :
    (decodeWords ([], 0) [0xD83D, 0xDE00, 0x2029]).1 = encodeAll ['😀', '\n'] ∧
      ∃ cs, (decodeWords ([], 0) [0xD83D, 0x41, 0xDE00, 0xD83D]).1 = encodeAll cs :=
  ⟨(decodeWords_utf8 _ (by decide)).2 ['😀', '\u2029'] (by decide),
    (decodeWords_utf8 _ (by decide)).1 0 (.inl rfl)⟩

end SourceMaster.Sms
