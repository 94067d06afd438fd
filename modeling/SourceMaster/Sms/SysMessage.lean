import SourceMaster.Sms.Stateless
import SourceMaster.Sms.RoundTrip

/-!
# Messages of the system

`sys2sms.lua` writes a PDU as if a message with the given sender name and text had come in, which
`smsread.lua` then reads. The length of a sender name is given in semi-octets, from which the reader
has to find out how many septets there are. Writer and reader agree on this for up to 14 septets
(`name_length`).

The name and the text are arguments of the command line, and the date is the text that `os.date`
returns.
-/

namespace SourceMaster.Sms

open SourceMaster.Utf8 List Option ChkState Nat

/-! ## The program -/

def usage : Str := lit "Usage: /usr/lib/sms/sys2sms.sh 'from' 'text to write here'"

/-- The name that is written: an empty one is replaced, and a blank at the end is dropped. -/
def senderName (oaddr : Str) : Str :=
  let oaddr := if oaddr.length = 0 ∨ oaddr = lit " " then lit "ROOter" else oaddr
  if oaddr.getLast? = some 32 then oaddr.dropLast else oaddr

/-- The length of the name in semi-octets, from the number of its hexadecimal digits. -/
def nameLength (oaddrl : Nat) : Nat :=
  if oaddrl > 6 ∧ oaddrl < 16 then oaddrl - 1 else if oaddrl > 14 then oaddrl - 2 else oaddrl

def twoDigits (s : Str) : Nat := s.foldl (fun acc b => acc * 10 + (b - 48)) 0

/-- The digits of a time zone, the last one first. The sign is a bit of the first digit. -/
def zoneText (negative : Bool) (quarters : Nat) : Str :=
  let tz := if quarters < 10 then lit "0" ++ tostring quarters else tostring quarters
  if negative then (tz[1]?).toList ++ fmtX 1 (twoDigits (tz.take 1) + 8)
  else (tz[1]?).toList ++ (tz[0]?).toList

def zoneDigits (dtg : Str) : Str :=
  let tz := dtg.drop (dtg.length - 4)
  zoneText (dtg[12]? = some 45) (twoDigits (tz.take 2) * 4 + twoDigits ((tz.drop 2).take 2) / 15)

/-- The program: the PDU, if there is one. A runtime error is `none`. -/
def sys2sms (oaddr txt dtg : Str) : Option (Option Str) :=
  let txt := if oaddr.length > 11 then oaddr ++ lit " " ++ txt else txt
  let oaddr := if oaddr.length > 11 then lit "ROOter" else oaddr
  let txt := if txt.length = 0 then usage else txt
  match chktxt txt with
  | none => none
  | some text =>
    let udl := fmtX 2 (text.txt.length / 2)
    match (if text.msg = none ∧ text.dcs = .gsm then pack udl text.txt else some text.txt) with
    | none => none
    | some ud =>
      match chktxt (senderName oaddr) with
      | none => none
      | some name =>
        match pack (fmtX 2 (name.txt.length / 2)) name.txt with
        | none => none
        | some addr =>
          if text.msg = none ∧ name.dcs ≠ .ucs2 then
            some (some (lit "0004" ++
              (fmtX 2 (nameLength name.txt.length) ++ (lit "D0" ++ (addr ++ (lit "00" ++
              (text.dcs.text ++ (swapPairs (dtg.take 12) ++ (zoneDigits dtg ++ (udl ++ ud))))))))))
          else some none

/-! ## Reading the PDU -/

/-- The date has twelve digits, a sign, and a time zone of less than 20 hours. -/
structure DateText (dtg : Str) : Prop where
  length : dtg.length = 17
  hour : twoDigits ((dtg.drop 13).take 2) < 20
  minute : twoDigits ((dtg.drop 15).take 2) < 60

lemma name_length : ∀ n < 15, 0 < n →
    nameLength (2 * n) + nameLength (2 * n) % 2 = 2 * ((n * 7 + 7) / 8) ∧
    nameLength (2 * n) * 4 / 7 = n ∧ 0 < nameLength (2 * n) ∧ nameLength (2 * n) ≤ 64 := by
  decide

lemma parseSMSC_none {v : Vars} {rest : Str} (h : v.mPdu = lit "00" ++ rest) :
    parseSMSC v = some (1, { v with mPduPtr := rest }) := by
  have hlength : octet2binCheck (lit "00" ++ rest) = 0 :=
    octet2binCheck_hex (n := 0) (by decide) rest
  have hrest : (lit "00" ++ rest).drop 2 = rest := rfl
  unfold parseSMSC
  simp only [run_bind, run_modify, run_ptr, run_ite, run_pure, run_advance, bind_some, h, hlength,
    hrest]
  rw [if_neg (by decide), if_pos trivial]

lemma zoneText_octet : ∀ quarters < 80, ∀ negative : Bool, zoneText negative quarters =
    fixedHex 2 (quarters % 10 * 16 + (quarters / 10 + if negative then 8 else 0)) := by
  decide +kernel

lemma zoneDigits_octet {dtg : Str} (h : DateText dtg) :
    ∃ n < 256, zoneDigits dtg = fixedHex 2 n := by
  have hhour := h.hour
  have hminute := h.minute
  simp only [zoneDigits, h.length, drop_drop, reduceSub, reduceAdd]
  refine ⟨_, ?_, zoneText_octet _ (by omega) _⟩
  split <;> omega

lemma tonumber16_digit : ∀ d < 16, (tonumber16 [hexDigit d]).isSome := by
  decide +kernel

lemma timezoneText_octet {time : Str} (htime : time.length = 6) (n : Nat) (rest : Str) :
    ∃ tz, timezoneText (time ++ (fixedHex 2 n ++ rest)) = some tz := by
  have hdrop : (time ++ (fixedHex 2 n ++ rest)).drop 6 = fixedHex 2 n ++ rest := drop_left' htime
  have hunits : ((time ++ (fixedHex 2 n ++ rest)).drop 6).take 1 = [hexDigit (n / 16 % 16)] := by
    rw [hdrop]; rfl
  have htens : ((time ++ (fixedHex 2 n ++ rest)).drop 7).take 1 = [hexDigit (n % 16)] := by
    rw [show 7 = 6 + 1 from rfl, ← drop_drop, hdrop]; rfl
  obtain ⟨units, hu⟩ := isSome_iff_exists.mp (tonumber16_digit (n / 16 % 16) (by omega))
  obtain ⟨tens, ht⟩ := isSome_iff_exists.mp (tonumber16_digit (n % 16) (by omega))
  unfold timezoneText
  rw [hunits, htens, hu, ht]
  exact ⟨_, rfl⟩

section Header

variable {date time rest : Str} {n dcs : Nat} {v : Vars}

lemma deliverTimestamp_octet (hptr : v.mPduPtr = date ++ (time ++ (fixedHex 2 n ++ rest)))
    (hdate : date.length = 6) (htime : time.length = 6) (hn : n < 256) :
    ∃ d t, deliverTimestamp v =
    some (true, { v with mPduPtr := rest, mDate := some d, mTime := some t }) := by
  obtain ⟨tz, htz⟩ := timezoneText_octet htime n rest
  have hdrop1 : (date ++ (time ++ (fixedHex 2 n ++ rest))).drop 6 = time ++
    (fixedHex 2 n ++ rest) :=
    drop_left' hdate
  have hdrop2 : (time ++ (fixedHex 2 n ++ rest)).drop 6 = fixedHex 2 n ++ rest := drop_left' htime
  have hdrop3 : (fixedHex 2 n ++ rest).drop 2 = rest := drop_left' (length_fixedHex 2 n)
  have hoctet : ¬ octet2binCheck (fixedHex 2 n ++ rest) < 0 := by
    rw [octet2binCheck_hex hn]
    omega
  have hchecked : ∀ s t : Str, s.length = 6 → digitsChecked (s ++ t) = pure () := by
    intro s t hs
    unfold digitsChecked
    rw [if_neg (by rw [length_append]; omega)]
  unfold deliverTimestamp
  simp only [run_bind, run_modify, run_ptr, run_ite, run_pure, run_advance, run_nonNil, bind_some,
    hptr, hchecked _ _ hdate, hchecked _ _ htime, hdrop1, hdrop2, hdrop3, htz, map_some]
  rw [if_neg hoctet]
  exact ⟨_, _, rfl⟩

lemma deliverHeader_octets
    (hptr : v.mPduPtr = lit "00" ++ (fixedHex 2 dcs ++ (date ++ (time ++ (fixedHex 2 n ++ rest)))))
    (hdate : date.length = 6) (htime : time.length = 6) (hn : n < 256) (hrest : 2 ≤ rest.length)
    (hdcs : dcs = 0 ∨ dcs = 8) : ∃ d t, deliverHeader v = some (true, { v with
      mPduPtr := rest, mAlphabet := if dcs = 0 then -1 else 2, mDcs := some dcs, mDate := some d
      mTime := some t }) := by
  obtain ⟨stamp, hstamp⟩ : ∃ stamp, date ++ (time ++ (fixedHex 2 n ++ rest)) = stamp := ⟨_, rfl⟩
  rw [hstamp] at hptr
  have hlong : ¬ (lit "00" ++ (fixedHex 2 dcs ++ stamp)).length < 20 := by
    simp only [← hstamp, length_append, length_fixedHex, hdate, htime]
    have : (lit "00").length = 2 := rfl
    omega
  have hpid : ¬ octet2binCheck (lit "00" ++ (fixedHex 2 dcs ++ stamp)) < 0 := by
    rw [show lit "00" = fixedHex 2 0 from rfl, octet2binCheck_hex (by decide)]
    decide
  have hdrop1 : (lit "00" ++ (fixedHex 2 dcs ++ stamp)).drop 2 = fixedHex 2 dcs ++ stamp := rfl
  have hdcs' : octet2binCheck (fixedHex 2 dcs ++ stamp) = dcs := octet2binCheck_hex (by omega) _
  have hdrop2 : (fixedHex 2 dcs ++ stamp).drop 2 = stamp := drop_left' (length_fixedHex 2 dcs)
  unfold deliverHeader
  simp only [run_bind, run_modify, run_ptr, run_ite, run_pure, run_advance, bind_some, hptr, hdrop1,
    hdcs', hdrop2]
  rw [if_neg hlong, if_neg hpid, if_neg (by omega)]
  rcases hdcs with rfl | rfl
  · rw [if_neg (by decide)]
    exact @deliverTimestamp_octet date time rest n { v with
      mPduPtr := stamp, mAlphabet := -1, mDcs := some 0 } hstamp.symm hdate htime hn
  · rw [if_neg (by decide)]
    exact @deliverTimestamp_octet date time rest n { v with
      mPduPtr := stamp, mAlphabet := 2, mDcs := some 8 } hstamp.symm hdate htime hn

end Header

section Sender

variable {L : Nat} {ss os : List Nat} {rest : Str} {v : Vars}

lemma deliverSender_name (hptr : v.mPduPtr = fixedHex 2 L ++ (lit "D0" ++ (hexes os ++ rest)))
    (hcover : L + L % 2 = 2 * os.length) (hsept : L * 4 / 7 = ss.length) (hlen : ss.length < 256)
    (hdec : ∀ v : Vars, pdu2text (fixedHex 2 ss.length ++ (hexes os ++ rest)) 0 v =
    some (1, { v with
      mText := some (putAll ⟨[], v.surrogate, v.gTableNbr⟩ ss).txt
      surrogate := (putAll ⟨[], v.surrogate, v.gTableNbr⟩ ss).surrogate
      gTableNbr := (putAll ⟨[], v.surrogate, v.gTableNbr⟩ ss).gTableNbr })) :
    deliverSender L v = some (true, { v with
      mPduPtr := rest
      mNumber := some ((putAll ⟨[], v.surrogate, v.gTableNbr⟩ ss).txt.map fun b =>
        if b = 10 then 32 else b)
      mText := none
      surrogate := (putAll ⟨[], v.surrogate, v.gTableNbr⟩ ss).surrogate
      gTableNbr := (putAll ⟨[], v.surrogate, v.gTableNbr⟩ ss).gTableNbr }) := by
  have hdrop1 : v.mPduPtr.drop 2 = lit "D0" ++ (hexes os ++ rest) := by
    rw [hptr, drop_left' (length_fixedHex 2 L)]
  have hdrop2 : (lit "D0" ++ (hexes os ++ rest)).drop 2 = hexes os ++ rest := rfl
  have htype : octet2binCheck (lit "D0" ++ (hexes os ++ rest)) = 208 :=
    octet2binCheck_hex (n := 208) (by decide) _
  have hdrop3 : (hexes os ++ rest).drop (L + L % 2) = rest :=
    drop_left' (by rw [length_hexes, hcover])
  have hroom : ¬ (hexes os ++ rest).length < L + L % 2 := by
    rw [length_append, length_hexes]
    omega
  have hseptets : septetsOfSemiOctets L = fixedHex 2 ss.length := by
    unfold septetsOfSemiOctets
    rw [hsept, fmtX_eq (by decide) hlen]
  unfold deliverSender
  simp only [run_bind, run_modify, run_ptr, run_ite, run_pure, run_advance, run_get, run_nonNil,
    bind_some, hdrop1, htype, hdrop2, hdrop3, hseptets, hdec, map_some]
  rw [if_neg (by decide), if_pos (by decide), if_neg hroom, if_neg (by decide)]

end Sender

/-! ## The round trip -/

def shownName (cs : List Char) : Str := (encodeAll cs).map fun b => if b = 10 then 32 else b

section Parse

variable {name : List Char} {os : List Nat} {date time body text : Str} {n dcs : Nat}

def sysPdu (L : Nat) (os : List Nat) (dcs : Nat) (date time : Str) (n : Nat) (body : Str) : Str :=
  lit "0004" ++ (fixedHex 2 L ++ (lit "D0" ++ (hexes os ++ (lit "00" ++ (fixedHex 2 dcs ++
    (date ++ (time ++ (fixedHex 2 n ++ body))))))))

/-- Up to the text, the PDU is read as it has been written; `htext` is about the text. -/
theorem parse_sysPdu {ss : List Nat} (hss : ss = name.flatMap fun c => gsmSeptets c.toNat)
    (hchars : ∀ c ∈ name, GsmChar c.toNat (gsmSeptets c.toNat))
    (hname : ∀ c ∈ name, TextChar c.toNat)
    (hpos : 0 < ss.length) (hlen : ss.length < 15) (hos : os.length = (ss.length * 7 + 7) / 8)
    (hdec : ∀ (rest : Str) (v : Vars), pdu2text (fixedHex 2 ss.length ++ (hexes os ++ rest)) 0 v =
    some (1, { v with
      mText := some (putAll ⟨[], v.surrogate, v.gTableNbr⟩ ss).txt
      surrogate := (putAll ⟨[], v.surrogate, v.gTableNbr⟩ ss).surrogate
      gTableNbr := (putAll ⟨[], v.surrogate, v.gTableNbr⟩ ss).gTableNbr }))
    (hdate : date.length = 6) (htime : time.length = 6) (hn : n < 256) (hdcs : dcs = 0 ∨ dcs = 8)
    (hbody : 2 ≤ body.length) (htext : ∀ v : Vars, v.surrogate = 0 → v.gTableNbr ≠ some 2 →
      v.mAlphabet = (if dcs = 0 then -1 else 2) →
      ∃ flag w, (if v.mAlphabet ≤ 0 then pdu2text body 0 else pdu2binary body 0) v =
        some (flag, w) ∧ 1 ≤ flag ∧
        w.mNumber = v.mNumber ∧ w.mText = some text) :
    ∃ w, parse (Vars.fresh.before (sysPdu (nameLength (2 * ss.length)) os dcs date time n body)) =
      some (1, w) ∧ w.mNumber = some (shownName name) ∧ w.mText = some text := by
  obtain ⟨hcover, hsept, hLpos, hLle⟩ := name_length ss.length hlen hpos
  generalize nameLength (2 * ss.length) = L at hcover hsept hLpos hLle
  -- the sender is decoded to the name
  obtain ⟨nbr, hnbr, hput⟩ := putAll_text name hchars hname ⟨[], 0, none⟩ rfl (by decide)
  rw [← hss, nil_append] at hput
  set v0 := Vars.fresh.before (sysPdu L os dcs date time n body) with hv0
  set tail := lit "00" ++ (fixedHex 2 dcs ++ (date ++ (time ++ (fixedHex 2 n ++ body)))) with htail
  have hsender := @deliverSender_name L ss os tail
    { v0 with mPduPtr := fixedHex 2 L ++ (lit "D0" ++ (hexes os ++ tail)) } rfl
    (by rw [hos]; exact hcover) hsept (by omega) (hdec tail)
  have hstate : putAll ⟨[], v0.surrogate, v0.gTableNbr⟩ ss = ⟨encodeAll name, 0, nbr⟩ := hput
  rw [hstate] at hsender
  dsimp only at hsender
  rw [show ((encodeAll name).map fun b => if b = 10 then 32 else b) = shownName name from rfl]
    at hsender
  obtain ⟨d, t, hheader⟩ := @deliverHeader_octets date time body n dcs { v0 with
    mPduPtr := tail, mNumber := some (shownName name), mText := none, surrogate := 0,
      gTableNbr := nbr }
    rfl hdate htime hn hbody hdcs
  obtain ⟨flag, w, hrun, hflag, hnumber, hwtext⟩ := htext { v0 with
    mPduPtr := body, mNumber := some (shownName name), mText := none, surrogate := 0,
      gTableNbr := nbr
    mAlphabet := if dcs = 0 then -1 else 2, mDcs := some dcs, mDate := some d, mTime := some t } rfl
      hnbr rfl
  have hdeliver : parseDeliver
    { v0 with mPduPtr := fixedHex 2 L ++ (lit "D0" ++ (hexes os ++ tail)) } = some (flag, w) := by
    have hoctet : octet2binCheck (fixedHex 2 L ++ (lit "D0" ++ (hexes os ++ tail))) = L :=
      octet2binCheck_hex (by omega) _
    have hlong : ¬ (fixedHex 2 L ++ (lit "D0" ++ (hexes os ++ tail))).length < 4 := by
      simp only [length_append, length_fixedHex]
      have : (lit "D0").length = 2 := rfl
      omega
    unfold parseDeliver
    simp only [run_bind, run_ptr, run_ite, run_pure, run_advance, run_get, bind_some, hoctet,
      Int.toNat_natCast, hsender]
    rw [if_neg hlong, if_neg (by unfold maxNumber; omega), if_neg (by omega), if_neg (by decide)]
    rw [run_ite] at hrun
    rw [hheader, bind_some]
    exact hrun
  have hsmsc : parseSMSC v0 = some (1, { v0 with
      mPduPtr := lit "04" ++ (fixedHex 2 L ++ (lit "D0" ++ (hexes os ++ tail))) }) :=
        parseSMSC_none rfl
  have hfirst : octet2binCheck (lit "04" ++ (fixedHex 2 L ++ (lit "D0" ++ (hexes os ++ tail)))) =
    4 :=
    octet2binCheck_hex (n := 4) (by decide) _
  have hdrop : (lit "04" ++ (fixedHex 2 L ++ (lit "D0" ++ (hexes os ++ tail)))).drop 2 =
      fixedHex 2 L ++ (lit "D0" ++ (hexes os ++ tail)) := rfl
  refine ⟨w, ?_, hnumber, hwtext⟩
  unfold parse
  simp only [run_bind, run_ptr, run_ite, run_pure, run_advance, run_modify, bind_some, hsmsc,
    hfirst, hdrop, hdeliver]
  rw [if_neg (by decide), if_neg (by decide), if_neg (by decide), if_pos (by decide),
    if_neg (by omega)]

end Parse

def cleanName (name : List Char) : List Char :=
  let name := if name = [] ∨ name = [' '] then "ROOter".toList else name
  if name.getLast? = some ' ' then name.dropLast else name

def cleanText (text : List Char) : List Char :=
  if text = [] then "Usage: /usr/lib/sms/sys2sms.sh 'from' 'text to write here'".toList else text

lemma encode_getLast {c : Char} : (encode c.toNat).getLast? = some 32 ↔ c = ' ' := by
  constructor
  · intro h
    unfold encode at h
    have h32 : c.toNat = 32 := by
      split_ifs at h <;> simp only [getLast?_cons_cons, getLast?_singleton, some.injEq] at h <;>
        omega
    exact Char.toNat_inj.mp h32
  · rintro rfl
    rfl

lemma encodeAll_getLast (cs : List Char) : (encodeAll cs).getLast? = some 32 ↔
    cs.getLast? = some ' ' := by
  rcases eq_nil_or_concat' cs with rfl | ⟨init, c, rfl⟩
  · simp
  · rw [encodeAll_append, getLast?_append_of_ne_nil _ (by simp [encode_ne_nil]), encodeAll_cons,
      encodeAll_nil, append_nil, encode_getLast]
    simp

lemma encodeAll_dropLast {cs : List Char} (h : cs.getLast? = some ' ') :
    (encodeAll cs).dropLast = encodeAll cs.dropLast := by
  rcases eq_nil_or_concat' cs with rfl | ⟨init, c, rfl⟩
  · cases h
  · obtain rfl : c = ' ' := by simpa using h
    simp [encodeAll_cons, encode]

lemma encodeAll_blank (cs : List Char) : encodeAll cs = lit " " ↔ cs = [' '] := by
  constructor
  · intro h
    have hlast : cs.getLast? = some ' ' := (encodeAll_getLast cs).mp (by rw [h]; rfl)
    have hinit := encodeAll_dropLast hlast
    rw [h] at hinit
    have hnil : cs.dropLast = [] := encodeAll_eq_nil.mp hinit.symm
    rw [← dropLast_append_getLast? _ hlast, hnil]
    rfl
  · rintro rfl
    rfl

lemma senderName_encodeAll (name : List Char) :
    senderName (encodeAll name) = encodeAll (cleanName name) := by
  have hroot : lit "ROOter" = encodeAll "ROOter".toList := by decide
  have hlast : ∀ cs : List Char,
    (if (encodeAll cs).getLast? = some 32 then (encodeAll cs).dropLast else encodeAll cs) =
      encodeAll (if cs.getLast? = some ' ' then cs.dropLast else cs) := by
    intro cs
    by_cases h : cs.getLast? = some ' '
    · rw [if_pos h, if_pos ((encodeAll_getLast cs).mpr h), encodeAll_dropLast h]
    · rw [if_neg h, if_neg (fun h' => h ((encodeAll_getLast cs).mp h'))]
  unfold senderName cleanName
  have hempty : ((encodeAll name).length = 0 ∨ encodeAll name = lit " ") ↔
    (name = [] ∨ name = [' ']) := by
    rw [length_eq_zero_iff, encodeAll_eq_nil, encodeAll_blank]
  by_cases h : name = [] ∨ name = [' ']
  · rw [if_pos h, if_pos (hempty.mpr h), hroot]
    exact hlast _
  · rw [if_neg h, if_neg (fun h' => h (hempty.mp h'))]
    exact hlast _

lemma cleanName_ne_nil (name : List Char) : cleanName name ≠ [] := by
  unfold cleanName
  dsimp only
  by_cases h : name = [] ∨ name = [' ']
  · rw [if_pos h]
    decide
  rw [if_neg h]
  split_ifs with hlast
  · intro hnil
    rw [← dropLast_append_getLast? _ hlast, hnil] at h
    exact h (Or.inr rfl)
  · exact fun hnil => h (Or.inl hnil)

lemma chktxt_dcs {txt : Str} {u : ChkTxt} (h : chktxt txt = some u) (hmsg : u.msg = none) :
    ∃ t, u = ⟨none, .gsm, t⟩ ∨ u = ⟨none, .ucs2, t⟩ := by
  obtain ⟨s, _, rfl⟩ := map_eq_some_iff.mp h
  by_cases h1 : s.g7isok ∧ s.g7hex.length ≤ 320
  · rw [if_pos h1]
    exact ⟨_, .inl rfl⟩
  rw [if_neg h1] at hmsg ⊢
  by_cases h2 : s.g7isok
  · rw [if_pos h2] at hmsg
    cases hmsg
  rw [if_neg h2] at hmsg ⊢
  by_cases h3 : s.unicode.length ≤ 280
  · rw [if_pos h3]
    exact ⟨_, .inr rfl⟩
  · rw [if_neg h3] at hmsg
    cases hmsg

lemma g7t_length : ∀ e ∈ g7t, e.2.length ≤ 4 := by decide

lemma gsmHex_length {n : Nat} {g : Str} (h : gsmHex n = some g) : g.length ≤ 4 := by
  unfold gsmHex at h
  split_ifs at h
  · cases hlookup : g7t.lookup n with
    | none =>
      rw [hlookup, getD_none, some.injEq] at h
      rw [← h, length_fixedHex]
      decide
    | some g' =>
      rw [hlookup, getD_some, some.injEq] at h
      rw [← h]
      exact g7t_length _ (mem_of_lookup hlookup)
  · exact g7t_length _ (mem_of_lookup h)

lemma length_utf16_le (n : Nat) : (utf16 n).length ≤ 2 := by
  unfold utf16
  split_ifs
  · exact le_succ 1
  · exact le_refl 2

lemma length_flatMap_le {α β : Type} {f : α → List β} {k : Nat} {l : List α}
    (h : ∀ a ∈ l, (f a).length ≤ k) : (l.flatMap f).length ≤ k * l.length := by
  induction l with
  | nil => simp
  | cons a l ih =>
    have hhead := h a mem_cons_self
    have htail := ih fun a' ha' => h a' (mem_cons_of_mem a ha')
    rw [flatMap_cons, length_append, length_cons, mul_succ]
    omega

lemma chktxt_short {cs : List Char} {u : ChkTxt} (hne : cs ≠ []) (hlen : cs.length ≤ 11)
    (h : chktxt (encodeAll cs) = some u) (hdcs : u.dcs ≠ .ucs2) : ∃ t, u = ⟨none, .gsm, t⟩ := by
  unfold chktxt at h
  rw [chktxt_encodeAll hne, map_some, some.injEq] at h
  by_cases hok : (addAll ⟨[], [], true⟩ cs).g7isok
  · obtain ⟨hall, hhex⟩ := addAll_gsm cs ⟨[], [], true⟩ hok
    have hshort : (addAll ⟨[], [], true⟩ cs).g7hex.length ≤ 320 := by
      rw [hhex, nil_append]
      refine (length_flatMap_le (k := 4) fun c hc => ?_).trans (by omega)
      obtain ⟨g, hg⟩ := isSome_iff_exists.mp (hall c hc)
      rw [hg]
      exact gsmHex_length hg
    rw [if_pos ⟨hok, hshort⟩] at h
    exact ⟨_, h.symm⟩
  · have hshort : (addAll ⟨[], [], true⟩ cs).unicode.length ≤ 280 := by
      rw [addAll_unicode, nil_append, length_hexes4 (utf16_all_lt cs)]
      have := length_flatMap_le (f := fun c : Char => utf16 c.toNat) (k := 2) (l := cs)
        fun c _ => length_utf16_le c.toNat
      omega
    rw [if_neg (fun h' => hok h'.1), if_neg hok, if_pos hshort] at h
    rw [← h] at hdcs
    exact absurd rfl hdcs

lemma length_cleanName {name : List Char} (h : (encodeAll name).length ≤ 11) :
    (cleanName name).length ≤ 11 := by
  have hname : name.length ≤ 11 := (length_le_encodeAll name).trans h
  unfold cleanName
  dsimp only
  split_ifs
  · decide
  · decide
  · rw [length_dropLast]; omega
  · exact hname

section Text

variable {cs : List Char} {t : Str}

lemma text_gsm (h : chktxt (encodeAll cs) = some ⟨none, .gsm, t⟩)
    (htext : ∀ c ∈ cs, TextChar c.toNat) :
    ∃ ud, pack (fmtX 2 (t.length / 2)) t = some ud ∧ ∀ v : Vars, v.surrogate = 0 →
    v.gTableNbr ≠ some 2 →
      ∃ w, pdu2text (fmtX 2 (t.length / 2) ++ ud) 0 v = some (1, w) ∧ w.mNumber = v.mNumber ∧
        w.mText = some (cs.flatMap shown) := by
  obtain ⟨ss, hss, ht, hne, hlt, hlen, hchars⟩ := userData_gsm h
  obtain ⟨os, hpack, _, hdec⟩ := pdu2text_packed hne hlt (by omega)
  have hudl : fmtX 2 (t.length / 2) = fixedHex 2 ss.length := by
    rw [ht, length_hexes, Nat.mul_div_cancel_left _ (by decide), fmtX_eq (by decide) (by omega)]
  refine ⟨hexes os, by rw [hudl, ht, hpack], fun v hsur hnbr => ?_⟩
  obtain ⟨nbr, _, hput⟩ := putAll_text cs hchars htext ⟨[], v.surrogate, v.gTableNbr⟩ hsur hnbr
  have hread := hdec [] v
  rw [append_nil, ← hudl, hss, hput] at hread
  refine ⟨_, hread, rfl, ?_⟩
  have hsep : ∀ c ∈ cs, c.toNat ≠ 0x2029 := fun c hc h2029 => by
    have := (hchars c hc).lt
    omega
  rw [shown_all hsep]
  rfl

lemma text_ucs2 (h : chktxt (encodeAll cs) = some ⟨none, .ucs2, t⟩) (v : Vars)
    (hsur : v.surrogate = 0) (hal : v.mAlphabet = 2) :
    ∃ octets w, pdu2binary (fmtX 2 (t.length / 2) ++ t) 0 v = some (octets, w) ∧ 1 ≤ octets ∧
      w.mNumber = v.mNumber ∧ w.mText = some (cs.flatMap shown) := by
  obtain ⟨ht, hlen⟩ := chktxt_ucs2 h
  have hall := word2utf8_all cs []
  have hws := utf16_all_lt cs
  have hpos : (cs.flatMap fun c => utf16 c.toNat) ≠ [] := by
    cases cs with
    | nil => exact absurd h (by rw [encodeAll_nil, chktxt_nil]; simp)
    | cons c cs =>
      rw [flatMap_cons]
      refine append_ne_nil_of_left_ne_nil ?_ _
      unfold utf16
      split_ifs <;> simp
  generalize (cs.flatMap fun c => utf16 c.toNat) = ws at ht hall hws hpos
  have hlen4 : t.length = 4 * ws.length := by rw [ht, length_hexes4 hws]
  have hone : 1 ≤ ws.length := length_pos_of_ne_nil hpos
  have hudl : fmtX 2 (t.length / 2) = fixedHex 2 (2 * ws.length) := by
    rw [hlen4, show 4 * ws.length / 2 = 2 * ws.length from by omega, fmtX_eq (by decide) (by omega)]
  have hread := pdu2binary_words hws (by omega) hal
  rw [← hudl, ← ht, hsur, hall] at hread
  exact ⟨_, _, hread, by omega, rfl, by rw [nil_append]⟩

lemma chktxt_gsmHex (h : chktxt (encodeAll cs) = some ⟨none, .gsm, t⟩) : ∀ c ∈ cs,
    (gsmHex c.toNat).isSome := by
  have hne : cs ≠ [] := (chktxt_gsm h).1
  unfold chktxt at h
  rw [chktxt_encodeAll hne, map_some, some.injEq] at h
  by_cases hok : (addAll ⟨[], [], true⟩ cs).g7isok
  · exact (addAll_gsm cs ⟨[], [], true⟩ hok).1
  · have hdcs := congrArg ChkTxt.dcs h
    rw [if_neg (fun h' => hok h'.1), if_neg hok] at hdcs
    split_ifs at hdcs

end Text

lemma sys2sms_some {oaddr txt dtg pdu : Str} (hshort : oaddr.length ≤ 11)
    (h : sys2sms oaddr txt dtg = some (some pdu)) :
    ∃ text ud name addr, chktxt (if txt.length = 0 then usage else txt) = some text ∧
    text.msg = none ∧
      (if text.msg = none ∧ text.dcs = .gsm then pack (fmtX 2 (text.txt.length / 2)) text.txt
        else some text.txt) = some ud ∧ chktxt (senderName oaddr) = some name ∧ name.dcs ≠ .ucs2 ∧
      pack (fmtX 2 (name.txt.length / 2)) name.txt = some addr ∧
      pdu = lit "0004" ++ (fmtX 2 (nameLength name.txt.length) ++ (lit "D0" ++ (addr ++ (lit "00" ++
        (text.dcs.text ++ (swapPairs (dtg.take 12) ++ (zoneDigits dtg ++
          (fmtX 2 (text.txt.length / 2) ++ ud)))))))) := by
  unfold sys2sms at h
  simp only [if_neg (show ¬ oaddr.length > 11 by omega)] at h
  cases hchk : chktxt (if txt.length = 0 then usage else txt) with
  | none => rw [hchk] at h; cases h
  | some text =>
  rw [hchk] at h
  dsimp only at h
  cases hud : (if text.msg = none ∧
    text.dcs = .gsm then pack (fmtX 2 (text.txt.length / 2)) text.txt
      else some text.txt) with
  | none => rw [hud] at h; cases h
  | some ud =>
  rw [hud] at h
  cases hname : chktxt (senderName oaddr) with
  | none => rw [hname] at h; cases h
  | some name =>
  rw [hname] at h
  dsimp only at h
  cases hpack : pack (fmtX 2 (name.txt.length / 2)) name.txt with
  | none => rw [hpack] at h; cases h
  | some addr =>
  rw [hpack] at h
  split_ifs at h with hok
  · exact ⟨text, ud, name, addr, rfl, hok.1, hud, rfl, hok.2, hpack, (some.inj (some.inj h)).symm⟩
  · cases h

lemma length_swapPairs (s : Str) : (swapPairs s).length = s.length / 2 * 2 := by
  fun_induction swapPairs s with
  | case1 a b rest ih =>
    rw [length_cons, length_cons, ih, length_cons, length_cons]
    omega
  | case2 s hs =>
    match s with
    | [] => rfl
    | [a] => show 0 = 1 / 2 * 2; decide
    | a :: b :: rest => exact absurd rfl (hs a b rest)

lemma cleanText_encodeAll (text : List Char) :
    (if (encodeAll text).length = 0 then usage else encodeAll text) =
    encodeAll (cleanText text) := by
  unfold cleanText
  by_cases hnil : text = []
  · rw [if_pos hnil, if_pos (by rw [hnil]; rfl)]
    decide
  · rw [if_neg hnil, if_neg (fun h => hnil (encodeAll_eq_nil.mp (length_eq_zero_iff.mp h)))]

/-- **A message of the system is read back**, the name with blanks for line feeds, and the text with
line feeds for U+2029. -/
theorem sys2sms_reads_back (name text : List Char) (dtg pdu : Str) (hdate : DateText dtg)
    (hshort : (encodeAll name).length ≤ 11) (hname : ∀ c ∈ cleanName name, TextChar c.toNat)
    (hsept : ((cleanName name).flatMap fun c => gsmSeptets c.toNat).length ≤ 14)
    (htext : (∀ c ∈ text, (gsmHex c.toNat).isSome) → ∀ c ∈ text, TextChar c.toNat)
    (h : sys2sms (encodeAll name) (encodeAll text) dtg = some (some pdu)) :
    ∃ v, parse (Vars.fresh.before pdu) = some (1, v) ∧
    v.mNumber = some (shownName (cleanName name)) ∧
      v.mText = some ((cleanText text).flatMap shown) := by
  obtain ⟨u, ud, a, addr, hu, hmsg, hud, ha, hdcs, haddr, hpdu⟩ := sys2sms_some hshort h
  rw [cleanText_encodeAll] at hu
  rw [senderName_encodeAll] at ha
  have htext' : (∀ c ∈ cleanText text, (gsmHex c.toNat).isSome) →
    ∀ c ∈ cleanText text, TextChar c.toNat := by
    unfold cleanText
    split_ifs
    · exact fun _ => all_iff_forall_prop.1 (by decide)
    · exact htext
  -- the name
  obtain ⟨ta, rfl⟩ := chktxt_short (cleanName_ne_nil name) (length_cleanName hshort) ha hdcs
  obtain ⟨ss, hss, hta, hne, hlt, _, hchars⟩ := userData_gsm ha
  obtain ⟨os, hpack, hos, hdec⟩ := pdu2text_packed hne hlt (by rw [hss]; omega)
  have hpos : 0 < ss.length := length_pos_of_ne_nil hne
  have hlen : ss.length < 15 := by rw [hss]; omega
  have hname14 := name_length ss.length hlen hpos
  have haddr' : addr = hexes os := by
    rw [hta, length_hexes, Nat.mul_div_cancel_left _ (by decide), fmtX_eq (by decide) (by omega),
      hpack] at haddr
    exact (some.inj haddr).symm
  -- the date
  obtain ⟨n, hn, hzone⟩ := zoneDigits_octet hdate
  have hswap : (swapPairs (dtg.take 12)).length = 12 := by
    rw [length_swapPairs, length_take, hdate.length]
    decide
  generalize hd : swapPairs (dtg.take 12) = d at hpdu hswap
  have hpdu' : ∀ {dcs : Nat} {body : Str}, u.dcs.text = fixedHex 2 dcs →
    fmtX 2 (u.txt.length / 2) ++ ud = body →
      pdu = sysPdu (nameLength (2 * ss.length)) os dcs (d.take 6) (d.drop 6) n body := by
    intro dcs body hdcstext hbody
    rw [hpdu, hta, length_hexes, fmtX_eq (by decide) (by omega), haddr', hdcstext, hzone, hbody,
      sysPdu, ← append_assoc (d.take 6), take_append_drop]
  have hd1 : (d.take 6).length = 6 := by rw [length_take]; omega
  have hd2 : (d.drop 6).length = 6 := by rw [length_drop]; omega
  have hbody : ∀ (m : Nat) (s : Str), 2 ≤ (fmtX 2 m ++ s).length := fun m s => by
    rw [length_append]
    unfold fmtX
    rw [length_fixedHex]
    omega
  -- the text
  obtain ⟨t, rfl | rfl⟩ := chktxt_dcs hu hmsg
  · obtain ⟨ud', hpackt, hread⟩ := text_gsm hu (htext' (chktxt_gsmHex hu))
    obtain rfl : ud' = ud := by
      rw [if_pos ⟨rfl, rfl⟩, hpackt] at hud
      exact some.inj hud
    rw [@hpdu' 0 _ rfl rfl]
    refine parse_sysPdu hss hchars hname hpos hlen hos hdec hd1 hd2 hn (.inl rfl) (hbody _ _)
      fun v hsur hnbr hal => ?_
    obtain ⟨w, hw, hnumber, hwtext⟩ := hread v hsur hnbr
    exact ⟨1, w, by rw [if_pos (by rw [hal]; decide), hw], by decide, hnumber, hwtext⟩
  · obtain rfl : t = ud := by
      exact some.inj hud
    rw [@hpdu' 8 _ rfl rfl]
    refine parse_sysPdu hss hchars hname hpos hlen hos hdec hd1 hd2 hn (.inr rfl) (hbody _ _)
      fun v hsur hnbr hal => ?_
    obtain ⟨octets, w, hw, hone, hnumber, hwtext⟩ := text_ucs2 hu v hsur hal
    exact ⟨octets, w, by rw [if_neg (by rw [hal]; decide), hw], hone, hnumber, hwtext⟩

def newYear : Str := lit "250101120000-0930"

/-- A name with a blank at the end, and a text with U+2029. -/
theorem sys2sms_reads_back_blank :
    (∃ v, parse (Vars.fresh.before (lit "000404D0613100085210102100008B06260E202900E9")) =
    some (1, v) ∧
      v.mNumber = some (shownName (cleanName ['a', 'b', ' '])) ∧
      v.mText = some ((cleanText ['☎', Char.ofNat 0x2029, 'é']).flatMap shown)) :=
  sys2sms_reads_back ['a', 'b', ' '] ['☎', Char.ofNat 0x2029, 'é'] newYear
    _ ⟨by decide, by decide, by decide⟩
    (by decide) (all_iff_forall_prop.1 (by decide +kernel)) (by decide +kernel)
    (fun _ => all_iff_forall_prop.1 (by decide +kernel)) (by decide +kernel)

def readSender (name : Str) : Option (Option Str) :=
  ((sys2sms name (lit "A") newYear).bind fun pdu => pdu.bind fun pdu =>
    parse (Vars.fresh.before pdu)).map
    fun r => r.2.mNumber

/-- A blank at the end is dropped, an empty name is replaced, a line feed becomes a blank, and 15
septets with seven escapes come back with another character. -/
theorem sys2sms_changes_name :
    readSender (lit "ab ") = some (some (lit "ab")) ∧ readSender [] = some (some (lit "ROOter")) ∧
      readSender (lit "a\nb") = some (some (lit "a b")) ∧
      readSender (lit "[[[[[[[a") = some (some (lit "[[[[[[[a@")) := by
  decide +kernel

end SourceMaster.Sms
