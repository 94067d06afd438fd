import SourceMaster.Sms.Stateless
import SourceMaster.Sms.RoundTrip

/-!
# The user data header and the text

In the default alphabet the header in front of a text takes up whole septets, which `pdu2text` runs
through `gsm2byte` like those of the text, only that it does not show them. What the header can do
to the text is therefore small: it can stop the program, if `concatinfo` fails, and it can end in an
escape. Both are said of two messages that differ in the octets of the header only.
-/

namespace SourceMaster.Sms

open Utf8 List Option Nat Vars TextState

section

variable (ud : Str)

def textOctets : Nat := ((octet2binCheck ud).toNat * 7 + 7) / 8

def headerLength : Nat := (octet2binCheck (ud.drop 2)).toNat

/-- The septets of the header, its length and the fill bits included. -/
def headerSeptets : Nat := ((headerLength ud + 1) * 8 + 6) / 7

structure CompleteData (ud : Str) : Prop where
  length : 0 ≤ octet2binCheck ud
  header : 0 ≤ octet2binCheck (ud.drop 2)
  octet : ∀ k < textOctets ud, 0 ≤ octet2binCheck (ud.drop (k * 2 + 2))

/-- The two differ in nothing but octets of the header. -/
structure HeaderChanged (ud ud' : Str) : Prop where
  lengths : ud.take 4 = ud'.take 4
  text : ud.drop (4 + headerLength ud * 2) = ud'.drop (4 + headerLength ud * 2)

/-! ## The septets -/

def septetsOf : List Nat :=
  (septetsLoop ud (textOctets ud) (octet2binCheck ud).toNat ⟨0, 0, 0⟩).2

def announcedOctets : List Nat :=
  (range (textOctets ud)).map fun k => (octet2binCheck (ud.drop (k * 2 + 2))).toNat

end

lemma CompleteData.septets {ud : Str} (h : CompleteData ud) :
    septetsLoop ud (textOctets ud) (octet2binCheck ud).toNat ⟨0, 0, 0⟩ = (true, septetsOf ud) ∧
      (septetsOf ud).length = (octet2binCheck ud).toNat ∧
      ∀ j (hj : j < (septetsOf ud).length), (septetsOf ud)[j] < 128 ∧
        ∀ i < 7, (septetsOf ud)[j].testBit i = octetBit (announcedOctets ud) (7 * j + i) := by
  have hlen : (announcedOctets ud).length = textOctets ud := by simp [announcedOctets]
  have hread : ∀ k (hk : k < (announcedOctets ud).length),
      octet2binCheck (ud.drop (k * 2 + 2)) = ((announcedOctets ud)[k] : Nat) := by
    intro k hk
    simp only [announcedOctets, getElem_map, getElem_range]
    exact (Int.toNat_of_nonneg (h.octet k (hlen ▸ hk))).symm
  have hroom : (7 * (0 + (octet2binCheck ud).toNat) + 7) / 8 ≤ (announcedOctets ud).length := by
    rw [hlen, textOctets, zero_add, mul_comm]
  obtain ⟨ss, hloop, hlength, hbits⟩ :=
    septetsLoop_bits hread (octet2binCheck ud).toNat 0 0 hroom (by omega)
  rw [hlen] at hloop
  have hss : septetsOf ud = ss := congrArg Prod.snd hloop
  simp only [hss, zero_add] at hbits ⊢
  exact ⟨hloop, hlength, hbits⟩

namespace HeaderChanged

variable {ud ud' : Str} (h : HeaderChanged ud ud')

include h

lemma length_eq : octet2binCheck ud = octet2binCheck ud' := by
  rw [← octet2binCheck_take ud, ← octet2binCheck_take ud', show 2 = min 2 4 from rfl, ← take_take,
    h.lengths, take_take]

lemma header_eq : octet2binCheck (ud.drop 2) = octet2binCheck (ud'.drop 2) := by
  have htake : ∀ s : Str, (s.drop 2).take 2 = (s.take 4).drop 2 := fun s => by rw [drop_take]
  rw [← octet2binCheck_take, ← octet2binCheck_take (ud'.drop 2), htake, htake, h.lengths]

lemma septets_eq (hud : CompleteData ud) (hud' : CompleteData ud') :
    (septetsOf ud).drop (headerSeptets ud) = (septetsOf ud').drop (headerSeptets ud) := by
  obtain ⟨-, hlength, hbits⟩ := hud.septets
  obtain ⟨-, hlength', hbits'⟩ := hud'.septets
  have heq : (septetsOf ud).length =
    (septetsOf ud').length := by rw [hlength, hlength', h.length_eq]
  have hbit : ∀ p, (headerLength ud + 1) * 8 ≤ p →
    octetBit (announcedOctets ud) p = octetBit (announcedOctets ud') p := by
    intro p hp
    have hdrop : ud.drop (p / 8 * 2 + 2) = ud'.drop (p / 8 * 2 + 2) := by
      rw [show p / 8 * 2 + 2 = 4 + headerLength ud * 2 +
        (p / 8 - headerLength ud - 1) * 2 by omega, ← drop_drop, h.text, drop_drop]
    unfold octetBit announcedOctets textOctets
    rw [getElem?_map, getElem?_map, h.length_eq]
    cases hget : (range (((octet2binCheck ud').toNat * 7 + 7) / 8))[p / 8]? with
    | none => rfl
    | some k =>
      obtain ⟨_, hk⟩ := List.getElem?_eq_some_iff.mp hget
      rw [getElem_range] at hk
      rw [map_some, map_some, ← hk, hdrop]
  refine ext_getElem (by rw [length_drop, length_drop, heq]) fun j hj hj' => ?_
  rw [getElem_drop, getElem_drop]
  obtain ⟨hlt, hb⟩ := hbits (headerSeptets ud + j) (by rw [length_drop] at hj; omega)
  obtain ⟨hlt', hb'⟩ := hbits' (headerSeptets ud + j) (by rw [length_drop] at hj'; omega)
  refine eq_of_testBit_eq fun i => ?_
  by_cases hi : i < 7
  · rw [hb i hi, hb' i hi, hbit _ (by unfold headerSeptets; omega)]
  · rw [testBit_septet hlt (by omega), testBit_septet hlt' (by omega)]

end HeaderChanged

/-! ## The text -/

/-- Whether `gsm2byte` looks into the second table behind the septets. -/
def shiftAfter (shift : Bool) (ss : List Nat) : Bool :=
    ss.foldl (fun shift c => !shift && c == 27) shift

lemma foldl_put_hidden (ss : List Nat) (s : TextState) :
    ∃ nbr, ss.foldl (fun s c => s.put false c) s = { s with gTableNbr := nbr } ∧
      decide (nbr = some 2) = shiftAfter (decide (s.gTableNbr = some 2)) ss := by
  induction ss generalizing s with
  | nil => exact ⟨s.gTableNbr, rfl, rfl⟩
  | cons c ss ih =>
    obtain ⟨nbr, hput, hnbr⟩ := ih (s.put false c)
    refine ⟨nbr, hput, hnbr.trans (congrArg (shiftAfter · ss) ?_)⟩
    show decide ((gsm2byte s.gTableNbr c).2 = some 2) = (!decide (s.gTableNbr = some 2) && c == 27)
    unfold gsm2byte
    split_ifs with hshift hc <;> simp [*]

lemma foldl_put_zipIdx (skip : Nat) (ss : List Nat) (k : Nat) (s : TextState) :
    (ss.zipIdx k).foldl (fun s c => s.put ((c.2 : Int) ≥ (skip : Int)) c.1) s =
      putAll ((ss.take (skip - k)).foldl (fun s c => s.put false c) s) (ss.drop (skip - k)) := by
  induction ss generalizing k s with
  | nil => simp [putAll]
  | cons c ss ih =>
    rw [zipIdx_cons, foldl_cons, ih]
    by_cases hk : skip ≤ k
    · rw [Nat.sub_eq_zero_of_le hk, Nat.sub_eq_zero_of_le (by omega), decide_eq_true (by omega)]
      rfl
    · rw [show skip - k = skip - (k + 1) + 1 by omega, decide_eq_false (by omega)]
      rfl

lemma putAll_shift {nbr nbr' : Option Nat} (h : nbr = some 2 ↔ nbr' = some 2) (ss : List Nat)
    (txt : Str)
    (sur : Nat) : (putAll ⟨txt, sur, nbr⟩ ss).txt = (putAll ⟨txt, sur, nbr'⟩ ss).txt := by
  induction ss generalizing nbr nbr' txt sur with
  | nil => rfl
  | cons c ss ih =>
    obtain ⟨hch, hnbr⟩ := gsm2byte_shift h c
    show (putAll (put ⟨txt, sur, nbr⟩ true c) ss).txt =
      (putAll (put ⟨txt, sur, nbr'⟩ true c) ss).txt
    unfold put
    dsimp only
    rw [hch]
    split_ifs
    · exact ih hnbr _ _
    · exact ih hnbr _ _

def textOf (ud : Str) (v : Vars) : Option (Option Str) := (pdu2text ud 1 v).map fun r => r.2.mText

/-- The septets behind the header look the same in both tables: pairs of escapes, and behind them
nothing, or a line feed or a question mark. While a surrogate is pending, every first character is
shown as a box. -/
def LooksTheSame (sur : Nat) : List Nat → Prop
  | [] => True
  | 27 :: 27 :: ss => LooksTheSame 0 ss
  | c :: _ => c ≠ 27 ∧ (0 < sur ∨ c = 10 ∨ c = 63)

/-- What is shown for `n`, a box behind a surrogate. -/
def glyph (sur n : Nat) : Str := if 0 < sur then boxChar else encode n

lemma put_glyph {sur c n : Nat} {nbr nbr' : Option Nat} (hg : gsm2byte nbr c = (n, nbr'))
    (h27 : n ≠ 27) (hn : n < 0x2029 ∨ n = 0x20AC) :
    put ⟨[], sur, nbr⟩ true c = ⟨glyph sur n, 0, nbr'⟩ := by
  unfold glyph
  split_ifs with hsur
  · unfold put word2utf8
    rw [hg, if_pos (by simpa using h27), if_pos hsur, if_neg (by omega)]
    rfl
  · exact put_char (s := ⟨[], sur, nbr⟩) (Nat.eq_zero_of_not_pos hsur) hg h27 hn

lemma putAll_second {c : Nat} (hc : c < 128) (sur : Nat) (ss : List Nat) :
    (putAll ⟨[], sur, some 2⟩ (c :: ss)).txt =
      glyph sur ((gTable2.lookup c).getD 63) ++ (putAll ⟨[], 0, none⟩ ss).txt := by
  obtain ⟨-, h27, hlt⟩ := escaped_head c hc
  have hg : gsm2byte (some 2) c = ((gTable2.lookup c).getD 63, some 1) := if_pos rfl
  show (putAll (put ⟨[], sur, some 2⟩ true c) ss).txt = _
  rw [put_glyph hg h27 hlt, putAll_txt, putAll_shift (by decide : some 1 = some 2 ↔ none = some 2)]

lemma putAll_first {c : Nat} (hc : c < 128) (h27 : c ≠ 27) (sur : Nat) (ss : List Nat) :
    (putAll ⟨[], sur, none⟩ (c :: ss)).txt =
      glyph sur ((gTable1.lookup c).getD c) ++ (putAll ⟨[], 0, none⟩ ss).txt := by
  have hne : ∀ c < 128, c ≠ 27 → (gTable1.lookup c).getD c ≠ 27 := by decide +kernel
  show (putAll (put ⟨[], sur, none⟩ true c) ss).txt = _
  have hg : gsm2byte none c = ((gTable1.lookup c).getD c, none) := by
    unfold gsm2byte
    rw [if_neg (by decide), if_neg h27]
  rw [put_glyph hg (hne c hc h27) (.inl (gTable1_lt c hc)), putAll_txt]

lemma glyph_eq_iff {c : Nat} (hc : c < 128) (h27 : c ≠ 27) (sur : Nat) :
    glyph sur ((gTable2.lookup c).getD 63) = glyph sur ((gTable1.lookup c).getD c) ↔
      0 < sur ∨ c = 10 ∨ c = 63 := by
  have hsame : ∀ c < 128, c ≠ 27 →
      (encode ((gTable2.lookup c).getD 63) = encode ((gTable1.lookup c).getD c) ↔
        c = 10 ∨ c = 63) := by
    decide +kernel
  unfold glyph
  split_ifs with hsur
  · simp [hsur]
  · rw [hsame c hc h27]
    simp [hsur]

lemma glyph_append_ne {c : Nat} (hc : c < 128) (sur : Nat) :
    glyph sur 63 ++ glyph 0 ((gTable1.lookup c).getD c) ≠
      glyph sur ((gTable2.lookup c).getD 63) := by
  have hne : ∀ c < 128, encode 63 ++ encode ((gTable1.lookup c).getD c) ≠
      encode ((gTable2.lookup c).getD 63) := by
    decide +kernel
  unfold glyph
  rw [if_neg (lt_irrefl 0)]
  split_ifs
  · simp [encode_ne_nil]
  · exact hne c hc

lemma looksTheSame_iff {ss : List Nat} (h : ∀ c ∈ ss, c < 128) (sur : Nat) :
    (putAll ⟨[], sur, some 2⟩ ss).txt = (putAll ⟨[], sur, none⟩ ss).txt ↔ LooksTheSame sur ss := by
  have hesc : ∀ sur ss, putAll ⟨[], sur, none⟩ (27 :: ss) = putAll ⟨[], sur, some 2⟩ ss :=
    fun _ _ => rfl
  fun_induction LooksTheSame sur ss with
  | case1 => simp [putAll]
  | case2 sur ss ih =>
    rw [putAll_second (by decide), hesc, hesc, putAll_second (by decide), append_cancel_left_eq]
    exact ih fun c hc => h c (by simp [hc])
  | case3 sur c ss hpair =>
    have hc := h c mem_cons_self
    rw [putAll_second hc]
    by_cases h27 : c = 27
    · subst h27
      -- an escape alone: a question mark against the character behind it
      refine iff_of_false ?_ fun h => h.1 rfl
      rw [hesc]
      cases ss with
      | nil =>
        unfold glyph
        split_ifs <;> simp [boxChar, encode_ne_nil, putAll]
      | cons c' ss =>
        have hc' := h c' (by simp)
        have h27' : c' ≠ 27 := fun h => hpair ss rfl (by rw [h])
        rw [putAll_first hc' h27', putAll_second hc', ← append_assoc, append_cancel_right_eq]
        exact glyph_append_ne hc' sur
    · rw [putAll_first hc h27, append_cancel_right_eq, glyph_eq_iff hc h27]
      simp [h27]

lemma textOf_eq {ud : Str} (h : CompleteData ud) (v : Vars) : ∃ nbr, decide (nbr = some 2) =
        shiftAfter (decide (v.gTableNbr = some 2)) ((septetsOf ud).take (headerSeptets ud)) ∧
      textOf ud v = if (readUdh (ud.drop 2) v).isSome then
        some (some (putAll ⟨[], v.surrogate, nbr⟩ ((septetsOf ud).drop (headerSeptets ud))).txt)
        else none := by
  obtain ⟨nbr, hput, hnbr⟩ :=
    foldl_put_hidden ((septetsOf ud).take (headerSeptets ud)) ⟨[], v.surrogate, v.gTableNbr⟩
  refine ⟨nbr, hnbr, ?_⟩
  have hskip : ((octet2binCheck (ud.drop 2) + 1) * 8 + 6) / 7 = (headerSeptets ud : Int) := by
    have := h.header
    unfold headerSeptets headerLength
    omega
  have hchars : ∀ s, charLoop ud (textOctets ud) (headerSeptets ud) (octet2binCheck ud).toNat 0
    ⟨0, 0, 0⟩ s =
      (true, putAll (((septetsOf ud).take (headerSeptets ud)).foldl (fun s c => s.put false c) s)
        ((septetsOf ud).drop (headerSeptets ud))) := by
    intro s
    rw [charLoop_eq, h.septets.1, foldl_put_zipIdx, Nat.sub_zero]
  have hudh : ∀ w : Vars, readUdh (ud.drop 2) w =
    ((tonumber16 ((ud.drop 2).take 2)).bind fun udhl =>
      concatLoop (((ud.drop 2).take ((udhl + 1) * 2)).drop 2).length
        (((ud.drop 2).take ((udhl + 1) * 2)).drop 2)
        w.mConcat).map fun c => ((), { w with mConcat := c }) := by
    intro w
    unfold readUdh concatinfo
    cases tonumber16 ((ud.drop 2).take 2) <;> rfl
  unfold textOf pdu2text
  simp only [run_bind, run_modify, bind_some, if_neg (not_lt.mpr h.length), if_pos zero_lt_one,
    hskip]
  rw [hudh, hudh v]
  dsimp only
  cases (tonumber16 ((ud.drop 2).take 2)).bind _ with
  | none => rfl
  | some c =>
    unfold septetText
    simp only [map_some, bind_some, run_bind, run_get, run_set, run_ite, run_pure]
    rw [show ((octet2binCheck ud).toNat * 7 + 7) / 8 = textOctets ud from rfl, hchars, hput]
    rfl

/-- **What the header does to the text.** If only the header changes, the text is the same iff
`concatinfo` fails in both or in neither, and both leave `gsm2byte` in the same table, unless the
text looks the same in both. -/
theorem header_hidden_iff {ud ud' : Str} (v : Vars) (hud : CompleteData ud)
    (hud' : CompleteData ud') (h : HeaderChanged ud ud') :
    textOf ud v = textOf ud' v ↔ (readUdh (ud.drop 2) v).isSome = (readUdh (ud'.drop 2) v).isSome ∧
      ((readUdh (ud.drop 2) v).isSome →
        shiftAfter (decide (v.gTableNbr = some 2)) ((septetsOf ud).take (headerSeptets ud)) =
            shiftAfter (decide (v.gTableNbr = some 2)) ((septetsOf ud').take (headerSeptets ud)) ∨
          LooksTheSame v.surrogate ((septetsOf ud).drop (headerSeptets ud))) := by
  obtain ⟨nbr, hnbr, htext⟩ := textOf_eq hud v
  obtain ⟨nbr', hnbr', htext'⟩ := textOf_eq hud' v
  have hskip : headerSeptets ud' = headerSeptets ud := by
    unfold headerSeptets headerLength
    rw [h.header_eq]
  rw [hskip] at hnbr' htext'
  rw [htext, htext', ← hnbr, ← hnbr', ← h.septets_eq hud hud']
  cases (readUdh (ud.drop 2) v).isSome with
  | false => cases (readUdh (ud'.drop 2) v).isSome <;> simp
  | true =>
    cases (readUdh (ud'.drop 2) v).isSome with
    | false => simp
    | true =>
      have hlt : ∀ c ∈ (septetsOf ud).drop (headerSeptets ud), c < 128 := fun c hc => by
        obtain ⟨j, hj, rfl⟩ := getElem_of_mem (mem_of_mem_drop hc)
        exact (hud.septets.2.2 j hj).1
      rw [← looksTheSame_iff hlt]
      generalize (septetsOf ud).drop (headerSeptets ud) = ss
      have hfirst : ∀ {m : Option Nat}, m ≠ some 2 →
          (putAll ⟨[], v.surrogate, m⟩ ss).txt = (putAll ⟨[], v.surrogate, none⟩ ss).txt :=
        fun hm => putAll_shift (by simp [hm]) ss [] v.surrogate
      simp only [if_true, some.injEq, true_and, forall_const, decide_eq_decide]
      by_cases h2 : nbr = some 2 <;> by_cases h2' : nbr' = some 2
      · simp [h2, h2']
      · simp only [hfirst h2', h2, h2', iff_false, not_true_eq_false, false_or]
      · simp only [hfirst h2, h2, h2', false_iff, not_true_eq_false, false_or, eq_comm]
      · simp only [hfirst h2, hfirst h2', h2, h2', true_or]

def letterData (header : String) : Str := lit "0805" ++ lit header ++ lit "82"

def letterMessage (header : String) : Str := lit "0044028110000042102030405060" ++ letterData header

/-- Part number 108 ends in an escape, so the letter is looked up in the second table. A cut
reference in two octets stops the program. -/
theorem header_changes_text :
    (parse (fresh.before (letterMessage "0003010201"))).map (fun r => (r.1, r.2.mText)) =
        some (1, some (lit "A")) ∧
      (parse (fresh.before (letterMessage "000301026C"))).map (fun r => (r.1, r.2.mText)) =
        some (1, some (lit "?")) ∧ parse (fresh.before (letterMessage "0804010201")) = none := by
  decide +kernel

/-- Another reference and another part number. -/
theorem header_hidden_iff_letter :
    textOf (letterData "0003010201") fresh = textOf (letterData "0003FF0202") fresh :=
  (header_hidden_iff fresh ⟨by decide, by decide, by decide +kernel⟩
    ⟨by decide, by decide, by decide +kernel⟩
    ⟨by decide, by decide⟩).mpr ⟨by decide +kernel, fun _ => .inl (by decide +kernel)⟩

end SourceMaster.Sms
