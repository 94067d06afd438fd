import SourceMaster.Sms.Septets

/-!
# What an accepted message consists of

`parse` checks the digits of a PDU in many places, but not all of them: the semi-octets of a sender
are copied, as are the digits of the date and of the time, where the test `not isdigit(...)` is
never true; the type of an empty sender is skipped, and so is the header of a text that is not in
septets. The module says which characters of an accepted message are left unchecked.
-/

namespace SourceMaster.Sms

open List Int Nat Prod

/-! ## Fields -/

/-- The string has at least `n` characters, and the first `n` of them satisfy `P`. -/
def Starts (P : Nat → Bool) (n : Nat) (s : Str) : Prop := n ≤ s.length ∧ (s.take n).all P

instance (P : Nat → Bool) (n : Nat) (s : Str) : Decidable (Starts P n s) :=
    inferInstanceAs (Decidable (_ ∧ _))

variable {P : Nat → Bool} {s : Str}

lemma starts_zero : Starts P 0 s := ⟨zero_le _, by simp⟩

lemma starts_add {m n : Nat} : Starts P (m + n) s ↔ Starts P m s ∧ Starts P n (s.drop m) := by
  unfold Starts
  rw [take_add, all_append, Bool.and_eq_true, length_drop]
  constructor
  · rintro ⟨hlength, hm, hn⟩
    exact ⟨⟨by omega, hm⟩, by omega, hn⟩
  · rintro ⟨⟨hlength, hm⟩, hlength', hn⟩
    refine ⟨?_, hm, hn⟩
    rcases Nat.eq_zero_or_pos n with rfl | hpos <;> omega

lemma starts_octets {n : Nat} (h : ∀ k < n, Starts P 2 (s.drop (k * 2))) :
    Starts P (n * 2) s := by
  induction n with
  | zero => exact starts_zero
  | succ n ih =>
    rw [succ_mul]
    exact starts_add.mpr ⟨ih fun k hk => h k (by omega), h n (by omega)⟩

def Capital (s : Str) : Prop := ∀ b ∈ s, ¬ (97 ≤ b ∧ b ≤ 122)

instance (s : Str) : Decidable (Capital s) := inferInstanceAs (Decidable (∀ b ∈ s, _))

def announced (s : Str) : Nat := xdigitValue (s.headD 48) * 16 + xdigitValue (s.tail.headD 48)

/-- The behaviour of `octet2bin_check` on digits: lower case letters count 32 too much. -/
theorem octet2binCheck_digits (h : 0 ≤ octet2binCheck s) :
    Starts isxdigit 2 s ∧ (octet2binCheck s).toNat % 32 = announced s % 32 ∧
      (Capital (s.take 2) → (octet2binCheck s).toNat = announced s) := by
  match s with
  | [] => cases h
  | [a] =>
    unfold octet2binCheck at h
    dsimp only at h
    split_ifs at h <;> cases h
  | a :: b :: rest =>
    unfold octet2binCheck at h ⊢
    dsimp only at h ⊢
    split_ifs at h with h0 h1 ha hb
    · cases h
    · cases h
    · cases h
    · cases h
    · rw [if_neg h0, if_neg h1, if_neg ha, if_neg hb, toNat_natCast]
      rw [Bool.not_eq_true, Bool.not_eq_false'] at ha hb
      refine ⟨⟨by simp, by simp [ha, hb]⟩, ?_⟩
      have hdigit : ∀ c, isxdigit c → 48 ≤ c ∧ c ≤ 57 ∨ 97 ≤ c ∧ c ≤ 102 ∨ 65 ≤ c ∧ c ≤ 70 := by
        intro c hc
        simpa [isxdigit, or_assoc] using hc
      have ha := hdigit a ha
      have hb := hdigit b hb
      show octet2bin a b % 32 = (xdigitValue a * 16 + xdigitValue b) % 32 ∧
        (Capital [a, b] → octet2bin a b = xdigitValue a * 16 + xdigitValue b)
      unfold octet2bin xdigitValue
      refine ⟨by split_ifs <;> omega, fun hcap => ?_⟩
      have ha' := hcap a (by simp)
      have hb' := hcap b (by simp)
      split_ifs <;> omega

lemma octet2binCheck_masks (h : 0 ≤ octet2binCheck s) :
    bitand (octet2binCheck s) 0x0C / 4 = announced s / 4 % 4 ∧
    bitand (octet2binCheck s) 3 = announced s % 4 := by
  obtain ⟨_, hmod, _⟩ := octet2binCheck_digits h
  rw [← toNat_of_nonneg h]
  generalize (octet2binCheck s).toNat = x at hmod ⊢
  have h12 : bitand x (12 : Nat) / 4 = x / 4 % 4 := by
    rw [bitand_natCast, show 4 = 2 ^ 2 from rfl, and_div_two_pow]
    exact and_two_pow_sub_one_eq_mod _ 2
  have h3 : bitand x (3 : Nat) = x % 4 := by
    rw [bitand_natCast]
    exact and_two_pow_sub_one_eq_mod x 2
  exact ⟨h12.trans (by omega), h3.trans (by omega)⟩

/-! ## The service centre -/

lemma swapPairs_perm (s : Str) (heven : s.length % 2 = 0) : (swapPairs s).Perm s := by
  induction s using swapPairs.induct with
  | case1 a b rest ih =>
    rw [length_cons, length_cons] at heven
    exact (List.Perm.swap a b _).trans (((ih (by omega)).cons b).cons a)
  | case2 s hs =>
    match s with
    | [] => exact .refl _
    | [a] => exact absurd heven one_ne_zero
    | a :: b :: rest => exact absurd rfl (hs a b rest)

lemma isxdigit_of_isdigit {b : Nat} (h : isdigit b) : isxdigit b := by
  unfold isdigit at h
  unfold isxdigit
  rw [h]
  rfl

lemma smscOk_digits {addrType : Int} {smsc : Str} (h : smscOk addrType smsc.length smsc) :
    smsc.all isxdigit := by
  rw [all_eq_true]
  intro b hb
  obtain ⟨i, hi, rfl⟩ := mem_iff_getElem.mp hb
  unfold smscOk at h
  split_ifs at h with htype hlast
  · have := all_eq_true.mp h i (mem_range.mpr hi)
    rwa [getElem?_eq_getElem hi] at this
  · by_cases hend : i = smsc.length - 1
    · subst hend
      rw [getElem?_eq_getElem hi] at hlast
      rw [Option.some.inj hlast]
      rfl
    · refine isxdigit_of_isdigit (all_eq_true.mp h _ ?_)
      exact mem_take_iff_getElem.mpr ⟨i, by omega, rfl⟩
  · exact isxdigit_of_isdigit (all_eq_true.mp h _ (getElem_mem hi))

lemma parseSMSC_accepted {v w : Vars} (h : parseSMSC v = some (1, w)) :
    0 ≤ octet2binCheck v.mPdu ∧ Starts isxdigit (2 + (octet2binCheck v.mPdu).toNat * 2) v.mPdu ∧
      w = { v with mPduPtr := v.mPdu.drop (2 + (octet2binCheck v.mPdu).toNat * 2) } := by
  unfold parseSMSC at h
  simp only [run_bind, run_modify, run_ptr, run_ite, run_pure, run_advance, run_nonNil,
    Option.bind_some] at h
  generalize hn : octet2binCheck v.mPdu = n at h ⊢
  split_ifs at h with hneg hzero hrange hroom htype hlow
  · cases h
  · obtain ⟨rfl⟩ := h
    subst hzero
    exact ⟨le_refl _, (octet2binCheck_digits hn.ge).1, rfl⟩
  · cases h
  · cases h
  · cases h
  · cases h
  · obtain ⟨k, rfl⟩ : ∃ k : Nat, n = k + 2 := ⟨n.toNat - 2, by omega⟩
    have hsize : (k + 2 : Int).toNat * 2 - 2 = k * 2 + 2 := by omega
    rw [hsize] at h hroom
    generalize hdigits : (v.mPdu.drop 2 |>.drop 2).take (k * 2 + 2) = digits at h
    have hlength : digits.length = k * 2 + 2 := by
      rw [← hdigits, length_take, length_drop, length_drop]
      omega
    have hperm := swapPairs_perm digits (by omega)
    rw [swapchars, if_neg (by omega), Option.map_some, Option.bind_some] at h
    split_ifs at h with hbad
    · cases h
    obtain ⟨rfl⟩ := h
    rw [Bool.not_eq_true, Bool.not_eq_false', ← hlength, ← hperm.length_eq] at hbad
    have hall := (hperm.all_eq (f := isxdigit)).symm.trans (smscOk_digits hbad)
    have htail : Starts isxdigit (k * 2 + 2) (v.mPdu.drop 2 |>.drop 2) := by
      refine ⟨?_, by rw [hdigits]; exact hall⟩
      rw [length_drop, length_drop]
      omega
    have htype' := (octet2binCheck_digits (not_lt.mp htype)).1
    have hcount : 2 + (k + 2 : Int).toNat * 2 = 2 + (2 + (k * 2 + 2)) := by omega
    rw [hcount]
    refine ⟨by omega, starts_add.mpr
      ⟨(octet2binCheck_digits (by omega)).1, starts_add.mpr ⟨htype', htail⟩⟩, ?_⟩
    simp only [drop_drop, add_assoc]

/-! ## The user data -/

def Dated (v : Vars) : Prop := v.mDate.isSome ∧ v.mTime.isSome

def Shown (v : Vars) : Prop := Dated v ∧ v.mText.isSome

section Septets

variable {pdu : Str} {octets : Nat}

/-- The octets read are there, and every bit up to the current one is in such an octet. -/
structure Unpack.Read (pdu : Str) (octets : Nat) (u : Unpack) : Prop where
  digits : ∀ k < u.octetcounter, Starts isxdigit 2 (pdu.drop (k * 2 + 2))
  bits : ∀ j < u.bitposition, j / 8 < octets → j / 8 < u.octetcounter

lemma Unpack.Read.start : Unpack.Read pdu octets ⟨0, 0, 0⟩ :=
  ⟨fun _ hk => absurd hk (not_lt_zero _), fun _ hj => absurd hj (not_lt_zero _)⟩

lemma readOctets_read {byteposition : Nat} : ∀ (n binary c : Nat) {binary' c' : Nat},
    (∀ k < c, Starts isxdigit 2 (pdu.drop (k * 2 + 2))) →
    readOctets pdu octets byteposition n binary c = some (binary', c') →
    c ≤ c' ∧ (∀ k < c', Starts isxdigit 2 (pdu.drop (k * 2 + 2))) ∧
      (byteposition < octets → byteposition < c + n → byteposition < c') := by
  intro n
  induction n with
  | zero =>
    rintro binary c binary' c' hread ⟨rfl, rfl⟩
    exact ⟨le_refl _, hread, fun _ h => h⟩
  | succ n ih =>
    intro binary c binary' c' hread h
    unfold readOctets at h
    dsimp only at h
    split_ifs at h with hmore hneg
    · have hread' : ∀ k < c + 1, Starts isxdigit 2 (pdu.drop (k * 2 + 2)) := by
        intro k hk
        rcases Nat.lt_succ_iff_lt_or_eq.mp hk with hk | rfl
        · exact hread k hk
        · exact (octet2binCheck_digits (not_lt.mp hneg)).1
      obtain ⟨hle, hdigits, hlt⟩ := ih _ _ hread' h
      exact ⟨by omega, hdigits, fun ho hc => hlt ho (by omega)⟩
    · obtain ⟨rfl, rfl⟩ := h
      exact ⟨le_refl _, hread, fun ho _ => by omega⟩

lemma septetLoop_read : ∀ (n c : Nat) (u : Unpack) {r : Nat × Unpack}, u.Read pdu octets →
    septetLoop pdu octets n c u = some r → r.2.Read pdu octets ∧
    r.2.bitposition = u.bitposition + n := by
  intro n
  induction n with
  | zero =>
    rintro c u r hu ⟨rfl⟩
    exact ⟨hu, rfl⟩
  | succ n ih =>
    intro c u r hu h
    unfold septetLoop at h
    split at h
    · cases h
    rename_i binary octetcounter hoctets
    obtain ⟨hle, hdigits, hlt⟩ := readOctets_read _ _ _ hu.digits hoctets
    have hnext : Unpack.Read pdu octets ⟨u.bitposition + 1, binary, octetcounter⟩ := by
      refine ⟨hdigits, fun j hj ho => ?_⟩
      rcases Nat.lt_succ_iff_lt_or_eq.mp hj with hj | rfl
      · exact lt_of_lt_of_le (hu.bits j hj ho) hle
      · exact hlt ho (by omega)
    obtain ⟨hread, hpos⟩ := ih _ _ hnext h
    exact ⟨hread, hpos.trans (by dsimp only; omega)⟩

lemma charLoop_read {skip : Int} (n charcounter : Nat) (u : Unpack) (s : TextState)
    (hu : u.Read pdu octets) (h : (charLoop pdu octets skip n charcounter u s).1) :
    ∃ u' : Unpack, u'.Read pdu octets ∧ u'.bitposition = u.bitposition + n * 7 := by
  induction n generalizing charcounter u s with
  | zero => exact ⟨u, hu, by omega⟩
  | succ n ih =>
    unfold charLoop at h
    split at h
    · cases h
    · rename_i c u' hseptet
      obtain ⟨hread, hpos⟩ := septetLoop_read _ _ _ hu hseptet
      obtain ⟨u'', hread', hpos'⟩ := ih _ _ _ hread h
      exact ⟨u'', hread', by rw [hpos', hpos]; omega⟩

end Septets

/-- The variables that the functions that decode the user data leave as they are. -/
def Vars.read (v : Vars) : Str × Nat × Option Str × Option Str :=
    (v.mPduPtr, v.mWithUdh, v.mDate, v.mTime)

variable {pdu : Str} {withUdh : Nat} {w v : Vars} {r : Int × Vars}

lemma readUdh_read {pdu2 : Str} {r : Unit × Vars} (h : readUdh pdu2 v = some r) :
    r.2.read = v.read := by
  unfold readUdh concatinfo at h
  rw [run_bind, run_nonNil] at h
  obtain ⟨a, ha, h⟩ := Option.bind_eq_some_iff.mp h
  obtain ⟨udhl, _, rfl⟩ := Option.map_eq_some_iff.mp ha
  obtain ⟨c, _, rfl⟩ := Option.map_eq_some_iff.mp h
  rfl

lemma septetText_accepted {septets : Nat} {skip : Int}
    (h : septetText pdu septets skip v = some r) :
    r.2.read = v.read ∧ r.2.mText.isSome ∧
    (0 ≤ r.1 → Starts isxdigit ((septets * 7 + 7) / 8 * 2) (pdu.drop 2)) := by
  unfold septetText at h
  simp only [run_bind, run_get, run_set, Option.bind_some, run_ite, run_pure, toNat_natCast] at h
  split_ifs at h with hok
  · obtain ⟨rfl⟩ := h
    obtain ⟨u, hread, hpos⟩ := charLoop_read _ _ _ _ .start hok
    refine ⟨rfl, rfl, fun _ => starts_octets fun k hk => ?_⟩
    rw [drop_drop, add_comm 2]
    have hbit := hread.bits (k * 8) (by rw [hpos]; dsimp only; omega) (by omega)
    exact hread.digits k (by omega)
  · obtain ⟨rfl⟩ := h
    exact ⟨rfl, rfl, fun hr => absurd hr (show ¬ (0 : Int) ≤ -2 by decide)⟩

lemma pdu2text_accepted (h : pdu2text pdu withUdh v = some r) :
    r.2.read = v.read ∧ r.2.mText.isSome ∧ (0 ≤ r.1 → 0 ≤ octet2binCheck pdu ∧
      Starts isxdigit (2 + ((octet2binCheck pdu).toNat * 7 + 7) / 8 * 2) pdu) := by
  unfold pdu2text at h
  simp only [run_bind, run_modify, run_ite, run_pure, Option.bind_some] at h
  generalize hn : octet2binCheck pdu = n at h ⊢
  split_ifs at h with hneg hudh
  · obtain ⟨rfl⟩ := h
    exact ⟨rfl, rfl, fun hr => absurd hr (show ¬ (0 : Int) ≤ -1 by decide)⟩
  all_goals
    obtain ⟨n, rfl⟩ : ∃ k : Nat, n = k := ⟨n.toNat, by omega⟩
    have hlength := (octet2binCheck_digits (s := pdu) (by omega)).1
  · obtain ⟨a, ha, h⟩ := Option.bind_eq_some_iff.mp h
    obtain ⟨hread, hsome, htext⟩ := septetText_accepted h
    have hudh := readUdh_read ha
    exact ⟨hread.trans hudh, hsome, fun hr => ⟨by omega, starts_add.mpr ⟨hlength, htext hr⟩⟩⟩
  · obtain ⟨hread, hsome, htext⟩ := septetText_accepted h
    exact ⟨hread, hsome, fun hr => ⟨by omega, starts_add.mpr ⟨hlength, htext hr⟩⟩⟩

lemma binaryLoop_accepted {alphabet : Int} (n octetcounter lastI : Nat) (txt : Str) (sur : Nat)
    (h : (binaryLoop pdu alphabet n octetcounter lastI txt sur).1) :
    ∀ k < n, Starts isxdigit 2 (pdu.drop ((octetcounter + k) * 2)) := by
  induction n generalizing octetcounter lastI txt sur with
  | zero =>
    intro k hk
    cases hk
  | succ n ih =>
    intro k hk
    unfold binaryLoop at h
    dsimp only at h
    have hnext : ∀ {lastI' txt' sur'},
      (binaryLoop pdu alphabet n (octetcounter + 1) lastI' txt' sur').1 →
        0 < k → Starts isxdigit 2 (pdu.drop ((octetcounter + k) * 2)) := by
      intro lastI' txt' sur' hrest hpos
      obtain ⟨k, rfl⟩ : ∃ j, k = j + 1 := ⟨k - 1, by omega⟩
      rw [← add_assoc, add_right_comm]
      exact ih _ _ _ _ hrest k (by omega)
    rcases Nat.eq_zero_or_pos k with rfl | hpos
    · split_ifs at h with hneg
      all_goals exact (octet2binCheck_digits (not_lt.mp hneg)).1
    · split_ifs at h
      all_goals exact hnext h hpos

lemma binaryText_accepted {octets : Int} {skip : Nat} (h : binaryText pdu octets skip v = some r)
    (hr : 0 < r.1) :
    r.2.read = v.read ∧ r.2.mText.isSome ∧ skip < octets.toNat ∧
    Starts isxdigit ((octets.toNat - skip) * 2) (pdu.drop (2 + skip * 2)) := by
  unfold binaryText at h
  simp only [run_bind, run_get, run_set, Option.bind_some, run_ite, run_pure] at h
  split_ifs at h with hok
  · obtain ⟨rfl⟩ := h
    refine ⟨rfl, rfl, by dsimp only at hr; omega, starts_octets fun k hk => ?_⟩
    have := binaryLoop_accepted _ _ _ _ _ hok k hk
    rwa [zero_add] at this
  · obtain ⟨rfl⟩ := h
    exact absurd hr (show ¬ (0 : Int) < -1 by decide)

/-- Without septets, the octets of the header behind its length are not read. -/
theorem pdu2binary_accepted (h : pdu2binary pdu withUdh v = some r) (hr : 0 < r.1) :
    r.2.read = v.read ∧ r.2.mText.isSome ∧ 0 ≤ octet2binCheck pdu ∧
    (Starts isxdigit (2 + (octet2binCheck pdu).toNat * 2) pdu ↔
      (withUdh > 0 → Starts isxdigit ((octet2binCheck (pdu.drop 2)).toNat * 2) (pdu.drop 4))) := by
  unfold pdu2binary at h
  simp only [run_bind, run_modify, run_ite, run_pure, Option.bind_some] at h
  split_ifs at h with hneg hudh hudhl
  · obtain ⟨rfl⟩ := h
    exact absurd hr (show ¬ (0 : Int) < -1 by decide)
  · obtain ⟨a, _, h⟩ := Option.bind_eq_some_iff.mp h
    obtain ⟨rfl⟩ := h
    exact absurd hr (show ¬ (0 : Int) < -1 by decide)
  · obtain ⟨a, ha, h⟩ := Option.bind_eq_some_iff.mp h
    obtain ⟨hread, hsome, hlt, hstarts⟩ := binaryText_accepted h hr
    have hlength := (octet2binCheck_digits (not_lt.mp hneg)).1
    have hheader := (octet2binCheck_digits (not_lt.mp hudhl)).1
    generalize (octet2binCheck (pdu.drop 2)).toNat = header at hlt hstarts ⊢
    have hsize : 2 + (octet2binCheck pdu).toNat * 2 =
        2 + (2 + (header * 2 + ((octet2binCheck pdu).toNat - (header + 1)) * 2)) := by omega
    rw [show 2 + (header + 1) * 2 = 2 + 2 + header * 2 by omega, ← drop_drop] at hstarts
    have hudhRead := readUdh_read ha
    refine ⟨hread.trans hudhRead, hsome, by omega, ?_⟩
    rw [hsize, starts_add, starts_add, starts_add, drop_drop]
    exact ⟨fun h _ => h.2.2.1, fun h => ⟨hlength, hheader, h hudh, hstarts⟩⟩
  · obtain ⟨hread, hsome, _, hstarts⟩ := binaryText_accepted h hr
    refine ⟨hread, hsome, by omega, fun _ hudh' => absurd hudh' hudh, fun _ => ?_⟩
    exact starts_add.mpr ⟨(octet2binCheck_digits (not_lt.mp hneg)).1, hstarts⟩

/-! ## The fields of a message -/

/-- The characters of a sender that `parseDeliver` checks: none of an empty sender, type and septets
of a name, the type of a number. -/
def senderChecked (sender : Str) (length : Nat) : Nat :=
  if length = 0 then 0
  else if bitand (octet2binCheck (sender.drop 2)) 112 = 80 then 2 + (length * 4 / 7 * 7 + 7) / 8 * 2
  else 2

lemma digitNumber_read {length padding : Nat} {plus : Bool} {r : Unit × Vars}
    (h : digitNumber length padding plus v = some r) : r.2.read = v.read := by
  unfold digitNumber at h
  simp only [run_bind, run_ptr, run_nonNil, run_modify, Option.bind_some] at h
  obtain ⟨a, ha, h⟩ := Option.bind_eq_some_iff.mp h
  obtain ⟨num, _, rfl⟩ := Option.map_eq_some_iff.mp ha
  obtain ⟨rfl⟩ := h
  rfl

lemma deliverSender_accepted {length : Nat} (hpos : 0 < length) (hle : length ≤ 64)
    (h : deliverSender length v = some (true, w)) :
    w.mPduPtr = v.mPduPtr.drop (4 + (length + length % 2)) ∧ w.mWithUdh = v.mWithUdh ∧
      Starts isxdigit (senderChecked v.mPduPtr length) (v.mPduPtr.drop 2) := by
  unfold deliverSender at h
  simp only [run_bind, run_advance, run_ptr, run_ite, run_pure, run_get, run_nonNil, run_modify,
    Option.bind_some] at h
  by_cases htype : octet2binCheck (v.mPduPtr.drop 2) < 128
  · rw [if_pos htype] at h
    cases h
  have htypeHex := (octet2binCheck_digits (s := v.mPduPtr.drop 2) (by omega)).1
  unfold senderChecked
  rw [if_neg (by omega)]
  split_ifs at h with halpha hroom
  · cases h
  · rw [if_pos halpha]
    obtain ⟨res, hres, h⟩ := Option.bind_eq_some_iff.mp h
    obtain ⟨hread, _, htext⟩ := pdu2text_accepted hres
    obtain ⟨hptr, hudh, _⟩ := mk.inj hread |>.imp_right mk.inj
    split_ifs at h with hneg
    · cases h
    obtain ⟨a, ha, h⟩ := Option.bind_eq_some_iff.mp h
    obtain ⟨text, _, rfl⟩ := Option.map_eq_some_iff.mp ha
    obtain ⟨rfl⟩ := h
    have hseptets : septetsOfSemiOctets length = fixedHex 2 (length * 4 / 7) :=
      fmtX_eq (by decide) (by omega)
    obtain ⟨_, htext⟩ := htext (by omega)
    rw [hseptets, octet2binCheck_hex (by omega), toNat_natCast, starts_add,
      drop_left' (length_fixedHex 2 _)] at htext
    refine ⟨?_, hudh, starts_add.mpr ⟨htypeHex, htext.2⟩⟩
    rw [hptr]
    simp only [drop_drop]
  · rw [if_neg halpha]
    obtain ⟨a, ha, h⟩ := Option.bind_eq_some_iff.mp h
    obtain ⟨rfl⟩ := h
    obtain ⟨hptr, hudh, _⟩ := mk.inj (digitNumber_read ha) |>.imp_right mk.inj
    refine ⟨?_, hudh, htypeHex⟩
    rw [hptr]
    simp only [drop_drop]

lemma deliverTimestamp_accepted (h : deliverTimestamp v = some (true, w)) :
    Starts isxdigit 2 (v.mPduPtr.drop 12) ∧ w.mPduPtr = v.mPduPtr.drop 14 ∧
    w.mWithUdh = v.mWithUdh ∧ w.mAlphabet = v.mAlphabet ∧ Dated w := by
  unfold deliverTimestamp digitsChecked at h
  simp only [run_bind, run_advance, run_ptr, run_ite, run_pure, run_nonNil, run_modify,
    run_luaError, Option.bind_some] at h
  obtain ⟨a, ha, h⟩ := Option.bind_eq_some_iff.mp h
  split_ifs at ha
  obtain ⟨rfl⟩ := ha
  obtain ⟨a, ha, h⟩ := Option.bind_eq_some_iff.mp h
  split_ifs at ha
  obtain ⟨rfl⟩ := ha
  obtain ⟨a, ha, h⟩ := Option.bind_eq_some_iff.mp h
  obtain ⟨tz, _, rfl⟩ := Option.map_eq_some_iff.mp ha
  split_ifs at h with hneg
  · cases h
  obtain ⟨rfl⟩ := h
  have hzone := (octet2binCheck_digits (not_lt.mp hneg)).1
  rw [drop_drop] at hzone
  refine ⟨hzone, ?_, rfl, rfl, rfl, rfl⟩
  simp only [drop_drop]

lemma deliverHeader_accepted (h : deliverHeader v = some (true, w)) :
    20 ≤ v.mPduPtr.length ∧ Starts isxdigit 4 v.mPduPtr ∧ Starts isxdigit 2 (v.mPduPtr.drop 16) ∧
      w.mPduPtr = v.mPduPtr.drop 18 ∧ w.mWithUdh = v.mWithUdh ∧
      (w.mAlphabet ≤ 0 ↔ announced (v.mPduPtr.drop 2) / 4 % 4 = 0) ∧ Dated w := by
  unfold deliverHeader at h
  simp only [run_bind, run_advance, run_ptr, run_ite, run_pure, run_modify, Option.bind_some] at h
  split_ifs at h with hlength hpid hdcs hthree hzero
  all_goals first
    | cases h
    | skip
  all_goals
    obtain ⟨hzone, hptr, hudh, halphabet, hdated⟩ := deliverTimestamp_accepted h
    simp only [drop_drop, Nat.reduceAdd] at hzone hptr
    have hdigits := starts_add.mpr ⟨(octet2binCheck_digits (not_lt.mp hpid)).1,
      (octet2binCheck_digits (not_lt.mp hdcs)).1⟩
    refine ⟨by omega, hdigits, hzone, hptr, hudh, ?_, hdated⟩
    rw [halphabet, ← (octet2binCheck_masks (not_lt.mp hdcs)).1]
    dsimp only
    omega

/-- The octets of user data of a length; `s` is the message behind the sender. -/
def textSize (s : Str) (length : Nat) : Nat :=
  if announced (s.drop 2) / 4 % 4 = 0 then (length * 7 + 7) / 8 else length

/-- The octets of a header in front of a text that is not in septets are digits. -/
def HeaderDigits (withUdh : Nat) (s : Str) : Prop :=
  announced (s.drop 2) / 4 % 4 ≠ 0 → withUdh > 0 →
    Starts isxdigit ((octet2binCheck (s.drop 20)).toNat * 2) (s.drop 22)

structure TextChecked (withUdh : Nat) (s : Str) : Prop where
  room : 20 ≤ s.length
  protocol : Starts isxdigit 4 s
  zone : Starts isxdigit 2 (s.drop 16)
  length : 0 ≤ octet2binCheck (s.drop 18)
  text : Starts isxdigit (2 + textSize s (octet2binCheck (s.drop 18)).toNat * 2) (s.drop 18) ↔
    HeaderDigits withUdh s

lemma deliverText_accepted {u : Vars} {r : Int} (hr : 0 < r) (h : ((deliverHeader u).bind fun a =>
    if (!a.1) then some (0, a.2) else if a.2.mAlphabet ≤ 0 then pdu2text a.2.mPduPtr a.2.mWithUdh
    a.2 else pdu2binary a.2.mPduPtr a.2.mWithUdh a.2) = some (r, w)) :
    TextChecked u.mWithUdh u.mPduPtr ∧ Shown w := by
  have hshown : ∀ {u' : Vars}, Dated u' → w.read = u'.read → w.mText.isSome → Shown w := by
    intro u' hdated hread hsome
    obtain ⟨_, _, hdate, htime⟩ := mk.inj hread |>.imp_right fun h => mk.inj h |>.imp_right mk.inj
    exact ⟨⟨by rw [hdate]; exact hdated.1, by rw [htime]; exact hdated.2⟩, hsome⟩
  obtain ⟨⟨ok, u'⟩, hheader, h⟩ := Option.bind_eq_some_iff.mp h
  cases ok with
  | false =>
    obtain ⟨rfl⟩ := h
    exact absurd hr (lt_irrefl 0)
  | true =>
    obtain ⟨hroom, hprotocol, hzone, hptr, hudh, halphabet, hdated⟩ :=
      deliverHeader_accepted hheader
    dsimp only at h
    rw [if_neg (by decide), hptr, hudh] at h
    split_ifs at h with hseptets
    · obtain ⟨hread, hsome, htext⟩ := pdu2text_accepted h
      obtain ⟨hlength, hstarts⟩ := htext hr.le
      refine ⟨⟨hroom, hprotocol, hzone, hlength, ?_⟩, hshown hdated hread hsome⟩
      have hzero := halphabet.mp hseptets
      rw [textSize, if_pos hzero]
      exact ⟨fun _ hne => absurd hzero hne, fun _ => hstarts⟩
    · obtain ⟨hread, hsome, hlength, hstarts⟩ := pdu2binary_accepted h hr
      refine ⟨⟨hroom, hprotocol, hzone, hlength, ?_⟩, hshown hdated hread hsome⟩
      have hne := fun hzero => hseptets (halphabet.mpr hzero)
      rw [textSize, if_neg hne, hstarts, drop_drop, drop_drop]
      exact ⟨fun h _ => h, fun h => h hne⟩

structure DeliverChecked (withUdh : Nat) (s : Str) : Prop where
  length : 0 ≤ octet2binCheck s
  sender : Starts isxdigit (senderChecked s (octet2binCheck s).toNat) (s.drop 2)
  rest : TextChecked withUdh
    (s.drop (4 + ((octet2binCheck s).toNat + (octet2binCheck s).toNat % 2)))

lemma parseDeliver_accepted {r : Int} (h : parseDeliver v = some (r, w)) (hr : 0 < r) :
    DeliverChecked v.mWithUdh v.mPduPtr ∧ Shown w := by
  unfold parseDeliver at h
  simp only [run_bind, run_advance, run_ptr, run_ite, run_pure, run_get, Option.bind_some] at h
  split_ifs at h with hshort hrange hzero
  · obtain ⟨rfl⟩ := h
    exact absurd hr (lt_irrefl 0)
  · obtain ⟨rfl⟩ := h
    exact absurd hr (lt_irrefl 0)
  · obtain ⟨htext, hshown⟩ := deliverText_accepted hr h
    exact ⟨⟨hzero.ge, by rw [hzero]; exact starts_zero, by rw [hzero]; exact htext⟩, hshown⟩
  · obtain ⟨⟨ok, u⟩, hsender, h⟩ := Option.bind_eq_some_iff.mp h
    cases ok with
    | false =>
      obtain ⟨rfl⟩ := h
      exact absurd hr (lt_irrefl 0)
    | true =>
      have hle : octet2binCheck v.mPduPtr ≤ 64 := not_lt.mp fun hgt => hrange (.inr hgt)
      obtain ⟨hptr, hudh, hstarts⟩ := deliverSender_accepted (by omega) (by omega) hsender
      obtain ⟨htext, hshown⟩ := deliverText_accepted hr h
      rw [hptr, hudh] at htext
      exact ⟨⟨by omega, hstarts, htext⟩, hshown⟩

/-! ## Complete messages -/

variable (p : Str)

def behindCentre : Str := p.drop (2 + announced p * 2)

def fromSender : Str := (behindCentre p).drop 2

def senderSize : Nat := 4 + (announced (fromSender p) + announced (fromSender p) % 2)

def behindSender : Str := (fromSender p).drop (senderSize p)

/-- All announced fields are there, in hexadecimal digits, and those of the timestamp are decimal
but for the sign of the time zone. -/
structure FieldsPresent (p : Str) : Prop where
  centre : Starts isxdigit (2 + announced p * 2) p
  firstOctet : Starts isxdigit 2 (behindCentre p)
  sender : Starts isxdigit (senderSize p) (fromSender p)
  protocol : Starts isxdigit 4 (behindSender p)
  timestamp : Starts isxdigit 14 ((behindSender p).drop 4)
  decimal : Starts isdigit 13 ((behindSender p).drop 4)
  text : Starts isxdigit (2 + textSize (behindSender p) (announced ((behindSender p).drop 18)) * 2)
    ((behindSender p).drop 18)

/-- The length octets have no lower case letters, which `octet2bin` gets wrong. -/
structure CapitalLengths (p : Str) : Prop where
  centre : Capital (p.take 2)
  sender : Capital ((fromSender p).take 2)
  text : Capital (((behindSender p).drop 18).take 2)

/-- The unchecked characters are digits: those of the sender, the date and the time, and of a header
in front of a text not in septets. -/
structure UncheckedDigits (withUdh : Nat) (p : Str) : Prop where
  sender : Starts isxdigit (senderSize p - 2 - senderChecked (fromSender p)
    (announced (fromSender p)))
    ((fromSender p).drop (2 + senderChecked (fromSender p) (announced (fromSender p))))
  decimal : Starts isdigit 13 ((behindSender p).drop 4)
  header : HeaderDigits (if bitand (octet2binCheck (behindCentre p)) 0x40 > 0 then 1 else withUdh)
    (behindSender p)

lemma senderChecked_le (s : Str) (length : Nat) :
    senderChecked s length ≤ 2 + (length + length % 2) := by
  unfold senderChecked
  split_ifs <;> omega

lemma parse_accepted (h : parse v = some (1, w)) (hcapital : Capital (v.mPdu.take 2))
    (hdeliver : announced (behindCentre v.mPdu) % 4 = 0) :
    Starts isxdigit (2 + announced v.mPdu * 2) v.mPdu ∧ Starts isxdigit 2 (behindCentre v.mPdu) ∧
      DeliverChecked (if bitand (octet2binCheck (behindCentre v.mPdu)) 0x40 > 0 then 1
      else v.mWithUdh) (fromSender v.mPdu) := by
  have hrest : ∀ {u : Vars}, ((parseDeliver u).bind fun r =>
      if r.1 < 1 then some ((0 : Int), r.2) else some (1, r.2)) = some (1, w) →
      DeliverChecked u.mWithUdh u.mPduPtr := by
    intro u h
    obtain ⟨⟨r, w'⟩, hparse, h⟩ := Option.bind_eq_some_iff.mp h
    split_ifs at h with hr
    · cases h
    · exact (parseDeliver_accepted hparse (by dsimp only at hr; omega)).1
  unfold parse at h
  simp only [run_bind, run_ptr, run_ite, run_pure, run_modify, run_advance, Option.bind_some] at h
  obtain ⟨⟨flag, u⟩, hcentre, h⟩ := Option.bind_eq_some_iff.mp h
  by_cases hflag : flag = 1
  · subst hflag
    obtain ⟨hlength, hstarts, hu⟩ := parseSMSC_accepted hcentre
    rw [(octet2binCheck_digits hlength).2.2 hcapital] at hstarts hu
    have hptr : u.mPduPtr = behindCentre v.mPdu := by rw [hu]; rfl
    have hudh : u.mWithUdh = v.mWithUdh := by rw [hu]
    rw [if_neg (fun hne => hne rfl), hptr, hudh] at h
    by_cases hneg : octet2binCheck (behindCentre v.mPdu) < 0
    · rw [if_pos hneg] at h
      cases h
    rw [if_neg hneg, (octet2binCheck_masks (not_lt.mp hneg)).2, hdeliver, if_pos rfl, if_pos rfl]
      at h
    refine ⟨hstarts, (octet2binCheck_digits (not_lt.mp hneg)).1, ?_⟩
    split_ifs at h ⊢
    · have hchecked := hrest h
      exact hchecked
    · have hchecked := hrest h
      exact hchecked
  · rw [if_pos hflag] at h
    cases h

/-- An accepted message is complete iff the unchecked characters are digits. -/
theorem accepted_fields_iff {v w : Vars} (h : parse v = some (1, w))
    (hlengths : CapitalLengths v.mPdu) (hdeliver : announced (behindCentre v.mPdu) % 4 = 0) :
    FieldsPresent v.mPdu ↔ UncheckedDigits v.mWithUdh v.mPdu := by
  obtain ⟨hcentre, hfirst, hlength, hsender, htext⟩ := parse_accepted h hlengths.centre hdeliver
  rw [(octet2binCheck_digits hlength).2.2 hlengths.sender] at hsender htext
  have htextDigits := htext.text
  rw [(octet2binCheck_digits htext.length).2.2 hlengths.text] at htextDigits
  have hsplit : senderSize v.mPdu = 2 + senderChecked (fromSender v.mPdu)
    (announced (fromSender v.mPdu)) +
      (senderSize v.mPdu - 2 -
        senderChecked (fromSender v.mPdu) (announced (fromSender v.mPdu))) := by
    have := senderChecked_le (fromSender v.mPdu) (announced (fromSender v.mPdu))
    unfold senderSize
    omega
  constructor
  · intro hc
    refine ⟨?_, hc.decimal, htextDigits.mp hc.text⟩
    have := hc.sender
    rw [hsplit] at this
    exact (starts_add.mp this).2
  · intro hu
    refine ⟨hcentre, hfirst, ?_, htext.protocol, ?_, hu.decimal, htextDigits.mpr hu.header⟩
    · rw [hsplit]
      exact starts_add.mpr ⟨starts_add.mpr ⟨(octet2binCheck_digits hlength).1, hsender⟩, hu.sender⟩
    have hzone := htext.zone
    refine starts_add (m := 12) |>.mpr ⟨?_, by rwa [drop_drop]⟩
    obtain ⟨hroom, hall⟩ := (starts_add (m := 12) (n := 1) |>.mp hu.decimal).1
    refine ⟨hroom, ?_⟩
    rw [all_eq_true] at hall ⊢
    exact fun b hb => isxdigit_of_isdigit (hall b hb)

def letterFrom (year : String) : Vars :=
  { Vars.fresh with mPdu := lit "00040281100000" ++ lit year ++ lit "1020304050600141" }

/-- A year that is not a number is accepted. -/
theorem letter_year_accepted : (parse (letterFrom "Z!")).map fst = some 1 ∧
    CapitalLengths (letterFrom "Z!").mPdu ∧
    announced (behindCentre (letterFrom "Z!").mPdu) % 4 = 0 ∧
    ¬ FieldsPresent (letterFrom "Z!").mPdu := by
  refine ⟨by decide +kernel, ⟨by decide, by decide, by decide⟩, by decide, fun h => ?_⟩
  exact absurd h.decimal (by decide)

theorem accepted_fields_letter : ∃ w, parse (letterFrom "42") = some (1, w) ∧
    FieldsPresent (letterFrom "42").mPdu := by
  have hflag : (parse (letterFrom "42")).map fst = some 1 := by decide +kernel
  obtain ⟨⟨flag, w⟩, hparse, rfl⟩ := Option.map_eq_some_iff.mp hflag
  exact ⟨w, hparse, (accepted_fields_iff hparse ⟨by decide, by decide, by decide⟩ (by decide)).mpr
    ⟨by decide, by decide, fun h => absurd (by decide) h⟩⟩

end SourceMaster.Sms
