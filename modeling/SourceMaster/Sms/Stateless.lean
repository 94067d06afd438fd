import SourceMaster.Lib.Failing
import SourceMaster.Sms.Reader

/-!
# What a message leaves behind

The variables of the program outlive a message, and `reset` does not reset all of them. Which of
them can influence a later message is a statement about two runs: `Agree` relates states that differ
in nothing that matters, and every function respects it.

If the relation is not `exact`, it relates any two states after `reset`: whether a PDU is accepted,
or fails, does not depend on earlier messages. If it is `exact`, the texts are the same, and the
states agree on the `surrogate` and on whether `gsm2byte` looks into the second table.
-/

namespace SourceMaster.Sms

open SourceMaster.Failing Respects Vars Prod

structure Agree (exact : Prop) (v w : Vars) : Prop where
  pdu : v.mPdu = w.mPdu
  ptr : v.mPduPtr = w.mPduPtr
  withUdh : v.mWithUdh = w.mWithUdh
  alphabet : v.mAlphabet = w.mAlphabet
  date : v.mDate = w.mDate
  time : v.mTime = w.mTime
  concat : v.mConcat = w.mConcat
  hasNumber : v.mNumber.isSome = w.mNumber.isSome
  hasText : v.mText.isSome = w.mText.isSome
  number : exact → v.mNumber = w.mNumber
  text : exact → v.mText = w.mText
  surrogate : exact → v.surrogate = w.surrogate
  shift : exact → (v.gTableNbr = some 2 ↔ w.gTableNbr = some 2)

variable {exact : Prop}

/-! ## The functions of the program -/

section Functions

variable {α : Type}

lemma respects_nonNil (o : Option α) : Respects (Agree exact) (nonNil o) := by
  cases o
  · exact fun _ _ _ => .none
  · exact .pure _

lemma respects_advance (n : Nat) : Respects (Agree exact) (advance n) :=
  .modify fun _ _ h => { h with ptr := by rw [h.ptr] }

lemma respects_ptr : Respects (Agree exact) ptr := .read (fun _ _ h => h.ptr) .pure

lemma respects_check {c : Str → Prop} [∀ s, Decidable (c s)] {a : α} {f : Str → LuaM α}
    (h : ∀ s, Respects (Agree exact) (f s)) :
    Respects (Agree exact) (ptr >>= fun s => if c s then pure a else f s) :=
  .bind respects_ptr fun s => .stops (h s)

lemma respects_readUdh (pdu2 : Str) : Respects (Agree exact) (readUdh pdu2) := by
  refine .bind (respects_nonNil _) fun udhl => ?_
  intro v w h
  unfold concatinfo
  rw [h.concat]
  cases concatLoop _ _ w.mConcat with
  | none => exact .none
  | some c => exact .some ⟨rfl, { h with concat := rfl }⟩

variable (pdu : Str) (withUdh : Nat) {nbr nbr' : Option Nat}

lemma Agree.decoded {v w : Vars} (h : Agree exact v w) {txt txt' : Str} {sur sur' : Nat}
    (htxt : exact → txt = txt') (hsur : exact → sur = sur') (hnbr : exact →
    (nbr = some 2 ↔ nbr' = some 2)) :
    Agree exact { v with mText := some txt, surrogate := sur, gTableNbr := nbr }
      { w with mText := some txt', surrogate := sur', gTableNbr := nbr' } :=
  { h with
    hasText := rfl
    text := fun he => congrArg some (htxt he)
    surrogate := hsur
    shift := hnbr }

lemma gsm2byte_shift (h : nbr = some 2 ↔ nbr' = some 2) (ch : Nat) :
    (gsm2byte nbr ch).1 = (gsm2byte nbr' ch).1 ∧
      ((gsm2byte nbr ch).2 = some 2 ↔ (gsm2byte nbr' ch).2 = some 2) := by
  unfold gsm2byte
  by_cases hn : nbr = some 2
  · rw [if_pos hn, if_pos (h.mp hn)]
    exact ⟨rfl, Iff.rfl⟩
  · rw [if_neg hn, if_neg (fun h' => hn (h.mpr h'))]
    split_ifs
    · exact ⟨rfl, Iff.rfl⟩
    · exact ⟨rfl, h⟩

lemma charLoop_shift {pdu : Str} {octets : Nat} {skip : Int} (n charcounter : Nat) (u : Unpack)
    (s t : TextState) (htxt : s.txt = t.txt) (hsur : s.surrogate = t.surrogate)
    (hnbr : (s.gTableNbr = some 2 ↔ t.gTableNbr = some 2)) :
    (charLoop pdu octets skip n charcounter u s).2.txt =
    (charLoop pdu octets skip n charcounter u t).2.txt ∧
      (charLoop pdu octets skip n charcounter u s).2.surrogate =
      (charLoop pdu octets skip n charcounter u t).2.surrogate ∧
      ((charLoop pdu octets skip n charcounter u s).2.gTableNbr = some 2 ↔
      (charLoop pdu octets skip n charcounter u t).2.gTableNbr = some 2) := by
  induction n generalizing charcounter u s t with
  | zero => exact ⟨htxt, hsur, hnbr⟩
  | succ n ih =>
    unfold charLoop
    cases septetLoop pdu octets 7 0 u with
    | none => exact ⟨htxt, hsur, hnbr⟩
    | some r =>
      obtain ⟨hch, hnbr'⟩ := gsm2byte_shift hnbr r.1
      refine ih _ _ _ _ ?_ ?_ ?_ <;> unfold TextState.put <;> dsimp only <;> rw [hch]
      · split_ifs
        · rw [htxt, hsur]
        · exact htxt
      · split_ifs
        · rw [htxt, hsur]
        · exact hsur
      · split_ifs <;> exact hnbr'

lemma charLoop_ok {pdu : Str} {octets : Nat} {skip : Int} (n charcounter : Nat) (u : Unpack)
    (s t : TextState) :
    (charLoop pdu octets skip n charcounter u s).1 =
    (charLoop pdu octets skip n charcounter u t).1 := by
  induction n generalizing charcounter u s t with
  | zero => exact rfl
  | succ n ih =>
    unfold charLoop
    cases septetLoop pdu octets 7 0 u with
    | none => rfl
    | some r => exact ih _ _ _ _

lemma respects_septetText (septets skip : Int) :
    Respects (Agree exact) (septetText pdu septets skip) := by
  refine .get fun v w h => ?_
  simp only [run_bind, run_set, Option.bind_some, run_ite, run_pure]
  have hshift := fun he => @charLoop_shift pdu ((septets.toNat * 7 + 7) / 8) skip septets.toNat 0
    ⟨0, 0, 0⟩
    ⟨[], v.surrogate, v.gTableNbr⟩ ⟨[], w.surrogate, w.gTableNbr⟩ rfl (h.surrogate he) (h.shift he)
  exact Together.ite (by rw [charLoop_ok]) (h.decoded (fun he => (hshift he).1)
    (fun he => (hshift he).2.1) (fun he => (hshift he).2.2))

lemma respects_pdu2text : Respects (Agree exact) (pdu2text pdu withUdh) := by
  refine .bind (.modify fun v w h => { h with hasText := rfl, text := fun _ => rfl }) fun _ => ?_
  refine .stops <| .ite (fun _ => ?_) fun _ => respects_septetText _ _ _
  exact .bind (respects_readUdh _) fun _ => respects_septetText _ _ _

lemma binaryLoop_ok {pdu : Str} {alphabet : Int} (n octetcounter lastI : Nat) (txt txt' : Str)
    (sur sur' : Nat) :
    (binaryLoop pdu alphabet n octetcounter lastI txt sur).1 =
      (binaryLoop pdu alphabet n octetcounter lastI txt' sur').1 := by
  induction n generalizing octetcounter lastI txt txt' sur sur' with
  | zero => exact rfl
  | succ n ih =>
    unfold binaryLoop
    dsimp only
    split_ifs
    · rfl
    all_goals exact ih _ _ _ _ _ _

lemma respects_binaryText (octets : Int) (skip : Nat) :
    Respects (Agree exact) (binaryText pdu octets skip) := by
  refine .get fun v w h => ?_
  simp only [run_bind, run_set, Option.bind_some, run_ite, run_pure]
  refine Together.ite (by rw [h.alphabet, binaryLoop_ok])
    (h.decoded (fun he => ?_) (fun he => ?_) h.shift)
  · rw [h.alphabet, h.surrogate he]
  · rw [h.alphabet, h.surrogate he]

lemma respects_pdu2binary : Respects (Agree exact) (pdu2binary pdu withUdh) := by
  refine .bind (.modify fun v w h => { h with hasText := rfl, text := fun _ => rfl }) fun _ => ?_
  refine .stops <| .ite (fun _ => ?_) fun _ => respects_binaryText _ _ _
  exact .bind (respects_readUdh _) fun _ => .stops <| respects_binaryText _ _ _

lemma respects_parseSMSC : Respects (Agree exact) parseSMSC := by
  unfold parseSMSC
  refine .bind (.modify fun v w h => { h with ptr := h.pdu }) fun _ => .bind respects_ptr fun pdu =>
    ?_
  refine .stops ?_
  refine .ite (fun _ => .bind (respects_advance _) fun _ => .pure _) fun _ => ?_
  refine .stops <| .stops ?_
  refine .bind (respects_advance _) fun _ => .bind respects_ptr fun _ => ?_
  refine .stops <| .stops ?_
  refine .bind (respects_advance _) fun _ => .bind respects_ptr fun _ => ?_
  refine .bind (respects_nonNil _) fun smsc => .stops ?_
  exact .bind (respects_advance _) fun _ => .pure _

lemma respects_digitNumber (length padding : Nat) (plus : Bool) :
    Respects (Agree exact) (digitNumber length padding plus) := by
  refine .bind respects_ptr fun _ => .bind (respects_nonNil _) fun num => ?_
  exact .modify fun v w h => { h with hasNumber := rfl, number := fun _ => rfl }

lemma respects_deliverSender (length : Nat) : Respects (Agree exact) (deliverSender length) := by
  -- the decoded sender is moved from `m_text` to `m_number`
  have hmove : Respects (Agree exact) (do
      let text ← nonNil (← get).mText
      modify fun v => { v with
        mNumber := some (text.map fun b => if b = 10 then 32 else b), mText := none } :
          LuaM Unit) := by
    refine .get fun v w h => ?_
    have hsome := h.hasText
    cases hv : v.mText with
    | none =>
      cases hw : w.mText with
      | none => exact .none
      | some _ => rw [hv, hw] at hsome; contradiction
    | some text =>
      cases hw : w.mText with
      | none => rw [hv, hw] at hsome; contradiction
      | some text' =>
        refine .some ⟨rfl, { h with
          hasNumber := rfl, hasText := rfl, number := fun he => ?_, text := fun _ => rfl }⟩
        have htext : text = text' := by simpa [hv, hw] using h.text he
        rw [htext]
  have hend : Respects (Agree exact) (do advance (length + length % 2); return true : LuaM Bool) :=
    .bind (respects_advance _) fun _ => .pure _
  unfold deliverSender
  refine .bind (respects_advance _) fun _ => .bind respects_ptr fun _ => ?_
  refine .stops <| .bind (respects_advance _) fun _ => ?_
  refine .ite (fun _ => ?_) fun _ => .bind (respects_digitNumber _ _ _) fun _ => hend
  refine respects_check fun _ => ?_
  refine .bind respects_ptr fun _ => .bind (respects_pdu2text _ _) fun _ => .stops ?_
  have := bind hmove fun _ => hend
  simpa only [bind_assoc] using this

lemma respects_digitsChecked (s : Str) : Respects (Agree exact) (digitsChecked s) :=
  .ite (fun _ _ _ _ => .none) fun _ => .pure _

lemma respects_deliverTimestamp : Respects (Agree exact) deliverTimestamp := by
  refine .bind respects_ptr fun date => .bind (respects_digitsChecked _) fun _ => ?_
  refine .bind (.modify fun v w h => { h with date := rfl }) fun _ =>
    .bind (respects_advance _) fun _ => ?_
  refine .bind respects_ptr fun time => .bind (respects_digitsChecked _) fun _ => ?_
  refine .bind (respects_nonNil _) fun tz =>
    .bind (.modify fun v w h => { h with time := rfl }) fun _ => ?_
  refine .bind (respects_advance _) fun _ => respects_check fun _ => ?_
  exact .bind (respects_advance _) fun _ => .pure _

lemma respects_deliverHeader : Respects (Agree exact) deliverHeader := by
  refine respects_check fun _ => ?_
  refine respects_check fun _ => ?_
  refine .bind (respects_advance _) fun _ => respects_check fun _ => ?_
  refine .bind (.modify fun v w h => { h with alphabet := rfl }) fun _ => .stops ?_
  refine .bind (.modify fun v w h => { h with alphabet := ?_ }) fun _ => ?_
  · rw [h.alphabet]
  · exact .bind (respects_advance _) fun _ => respects_deliverTimestamp

lemma respects_parseDeliver : Respects (Agree exact) parseDeliver := by
  have htail : Respects (Agree exact) (do
      if !(← deliverHeader) then return 0
      let v ← get
      if v.mAlphabet ≤ 0 then pdu2text v.mPduPtr v.mWithUdh else pdu2binary v.mPduPtr v.mWithUdh :
        LuaM Int) := by
    refine .bind respects_deliverHeader fun _ => .stops <| .get fun v w h => ?_
    rw [h.alphabet, h.ptr, h.withUdh]
    exact ite (fun _ => respects_pdu2text _ _) (fun _ => respects_pdu2binary _ _) v w h
  unfold parseDeliver
  refine respects_check fun _ => ?_
  refine respects_check fun _ => ?_
  refine .ite (fun _ => .bind (respects_advance _) fun _ => htail) fun _ => ?_
  exact .bind (respects_deliverSender _) fun _ => .stops htail

lemma respects_reportAddress (length : Nat) : Respects (Agree exact) (reportAddress length) := by
  have hend : Respects (Agree exact) (do advance (length + length % 2); return true : LuaM Bool) :=
    .bind (respects_advance _) fun _ => .pure _
  unfold reportAddress
  refine .bind (respects_advance _) fun _ => .bind respects_ptr fun _ => ?_
  refine .stops <| .bind (respects_advance _) fun _ => ?_
  refine .ite (fun _ => ?_) fun _ => .bind (respects_digitNumber _ _ _) fun _ => hend
  refine respects_check fun _ => ?_
  refine .bind respects_ptr fun _ => .bind (respects_pdu2text _ _) fun _ => .stops ?_
  exact .bind (.modify fun v w h => { h with
    hasNumber := h.hasText, hasText := rfl, number := h.text, text := fun _ => rfl }) fun _ => hend

lemma respects_reportTimestamp {keep : Str → Str → Vars → Vars}
    (hkeep : ∀ date time v w, Agree exact v w → Agree exact (keep date time v) (keep date time w)) :
    Respects (Agree exact) (reportTimestamp keep) := by
  refine .bind respects_ptr fun date => .bind (respects_digitsChecked _) fun _ => ?_
  refine .bind (respects_advance _) fun _ => .bind respects_ptr fun time => ?_
  refine .bind (respects_digitsChecked _) fun _ => .bind (.modify (hkeep _ _)) fun _ => ?_
  refine .bind (respects_advance _) fun _ => respects_check fun _ => ?_
  exact .bind (respects_advance _) fun _ => .pure _

lemma respects_parseStatusReport : Respects (Agree exact) parseStatusReport := by
  unfold parseStatusReport
  refine respects_check fun _ => ?_
  refine respects_check fun _ => ?_
  refine .bind (respects_advance _) fun _ => respects_check fun _ => ?_
  refine .bind (respects_reportAddress _) fun _ => .stops ?_
  refine respects_check fun _ => ?_
  refine .bind (respects_reportTimestamp fun _ _ _ _ h => { h with date := rfl, time := rfl })
    fun r => ?_
  rcases r with _ | ⟨_, _⟩
  · exact .pure _
  refine .bind (respects_reportTimestamp fun _ _ _ _ h => h) fun r => ?_
  rcases r with _ | ⟨dDate, dTime⟩
  · exact .pure _
  refine respects_check fun _ => ?_
  exact .bind (.modify fun v w h => { h with hasText := rfl, text := fun _ => rfl }) fun _ =>
    .pure _

lemma respects_parse : Respects (Agree exact) parse := by
  have htail : ∀ tmp : Int, Respects (Agree exact) (
      if bitand tmp 3 = 0 then do
        advance 2
        let result ← parseDeliver
        if result < 1 then return 0
        return 1
      else if bitand tmp 3 = 2 then do
        advance 2
        parseStatusReport
      else return 0 : LuaM Int) := by
    intro tmp
    refine .ite (fun _ => .bind (respects_advance _) fun _ => .bind respects_parseDeliver fun _ =>
      ?_) fun _ => ?_
    · exact .stops <| .pure _
    · exact .ite (fun _ => .bind (respects_advance _) fun _ => respects_parseStatusReport) fun _ =>
        .pure _
  unfold parse
  refine .bind respects_parseSMSC fun _ => .stops ?_
  refine respects_check fun _ => ?_
  exact .ite (fun _ => .bind (.modify fun v w h => { h with withUdh := rfl }) fun _ => htail _)
    fun _ => htail _

end Functions

/-! ## A message -/

def Vars.before (v : Vars) (pdu : Str) : Vars :=
  { v with
    mPdu := pdu, mPduPtr := pdu, mWithUdh := 0, mNumber := none, mAlphabet := -1, mDate := none
    mTime := none, mText := none, mConcat := none }

lemma agree_before {v w : Vars} {pdu : Str} (hsur : exact → v.surrogate = w.surrogate)
    (hshift : exact → (v.gTableNbr = some 2 ↔ w.gTableNbr = some 2)) :
    Agree exact (v.before pdu) (w.before pdu) :=
  ⟨rfl, rfl, rfl, rfl, rfl, rfl, rfl, rfl, rfl, fun _ => rfl, fun _ => rfl, hsur, hshift⟩

lemma readpdu_eq (index read pdu : Str) (v : Vars) :
    readpdu index read pdu v = (parse >>= enter index read) (v.before pdu) := rfl

/-- The text with the part number in front, which fails if there is no text; see `enter`. -/
def Vars.shownText (v : Vars) : Option (Option Str) :=
  match v.mConcat with
  | none => some v.mText
  | some concat => v.mText.map fun text => some (concat ++ lit "\n" ++ text)

variable (index read : Str)

variable (flag : Int)

lemma enter_eq (v : Vars) : enter index read flag v = if flag > 0 then
        v.mNumber.bind fun number => v.shownText.map fun text =>
          (some ⟨index, read, number, v.mDate, v.mTime, text⟩, { v with mText := text })
      else some (none, v) := by
  unfold enter shownText
  split_ifs
  · obtain ⟨_, _, _, _, _, number, _, _, _, _, text, concat⟩ := v
    cases number <;> cases concat <;> cases text <;> rfl
  · rfl

lemma respects_enter : Respects (Agree True) (enter index read flag) := by
  have hend : ∀ number : Str, Respects (Agree True) (do
      let v ← get
      return some ⟨index, read, number, v.mDate, v.mTime, v.mText⟩ : LuaM (Option Entry)) := by
    intro number
    refine .get fun v w h => ?_
    rw [h.date, h.time, h.text trivial]
    exact .some ⟨rfl, h⟩
  refine .ite (fun _ => ?_) fun _ => .pure _
  refine .get fun v w h => ?_
  rw [h.number trivial]
  refine bind (respects_nonNil _) (fun number => .get fun v w h => ?_) v w h
  rw [h.concat]
  cases w.mConcat with
  | none => exact hend number v w h
  | some concat =>
    refine get (fun v w h => ?_) v w h
    rw [h.text trivial]
    refine bind (respects_nonNil _) (fun text => .bind (.modify fun v w h => ?_) fun _ =>
      hend number)
      v w h
    exact { h with hasText := rfl, text := fun _ => rfl }

lemma readpdu_together {v w : Vars} (index read pdu : Str) (hsur : v.surrogate = w.surrogate)
    (hshift : v.gTableNbr = some 2 ↔ w.gTableNbr = some 2) :
    Together (Agree True) (readpdu index read pdu v) (readpdu index read pdu w) := by
  exact bind respects_parse (respects_enter index read) _ _
    (agree_before (fun _ => hsur) fun _ => hshift)

/-! ## A run -/

/-- The loop has read the lines, and stands at the point in the state. -/
inductive HasRead (env : Env) : List Str → Point → Reader → Prop
  | start : HasRead env [] .top .start
  | line {lines : List Str} {p p' : Point} {m m' : Reader} {line : Str} :
      HasRead env lines p m → onLine env p line m = some (m', some p') →
      HasRead env (lines ++ [line]) p' m'

/-- What is seen of a message: the entry and the text. A runtime error is `none`. -/
def decoded (r : Option (Option Entry × Vars)) : Option (Option Entry × Option Str) :=
  r.map fun r => (r.1, r.2.mText)

lemma decoded_together {a b : Option (Option Entry × Vars)} (h : Together (Agree True) a b) :
    decoded a = decoded b := by
  cases h with
  | none => rfl
  | some h => exact congrArg some (Prod.ext h.1 (h.2.text trivial))

lemma HasRead.surrogate_eq {env : Env} {lines : List Str} {r index read : Str} {m : Reader}
    (h : HasRead env lines (.pdu r index read) m) : m.vars.surrogate = 0 := by
  have hlisting : ∀ {m m' : Reader} {line : Str},
      m.listing env line = some (m', some (.pdu r index read)) → m'.vars.surrogate = 0 := by
    intro m m' line h
    unfold Reader.listing at h
    split at h
    · cases h
    split at h
    · cases h
    · split at h
      · cases h
      · cases h; rfl
  cases h with
  | @line lines p _ m' _ line _ h =>
    cases p with
    | top =>
      simp only [onLine] at h
      split at h
      · cases h
      · exact hlisting h
    | behindCounts => exact hlisting h
    | pdu => simp [onLine] at h

lemma enter_vars (v : Vars) :
    (enter index read flag v).map snd = (enter [] [] flag v).map snd := by
  rw [enter_eq, enter_eq]
  split_ifs
  · simp [Option.map_bind, Function.comp_def]
  · rfl

lemma readpdu_vars (index read pdu : Str) (v : Vars) :
    (readpdu index read pdu v).map snd = (readpdu [] [] pdu v).map snd := by
  rw [readpdu_eq, readpdu_eq, run_bind, run_bind]
  cases parse (v.before pdu) with
  | none => rfl
  | some r => exact enter_vars index read r.1 r.2

/-- A message that consists of an escape, and one that consists of the letter A. -/
def escapePdu : Str := lit "0004028110000042102030405060011B"

def letterPdu : Str := lit "00040281100000421020304050600141"

/-- **What a message looks like does not depend on earlier ones, unless one ended in an escape.** -/
theorem decoding_stateless_iff {env : Env} {lines : List Str} {r index read : Str} {m : Reader}
    (h : HasRead env lines (.pdu r index read) m) :
    (∀ pdu, decoded (readpdu index read pdu m.vars) = decoded (readpdu index read pdu fresh)) ↔
      m.vars.gTableNbr ≠ some 2 := by
  constructor
  · intro hall hnbr
    -- the letter is looked up in the second table, which has no entry for it
    have hshifted := decoded_together (@readpdu_together m.vars { fresh with gTableNbr := some 2 }
      index read letterPdu h.surrogate_eq (by simp [hnbr]))
    have htext : ∀ v, (decoded (readpdu index read letterPdu v)).map snd =
        ((readpdu [] [] letterPdu v).map snd).map mText := by
      intro v
      rw [← readpdu_vars index read]
      simp [decoded, Function.comp_def]
    have hsame := congrArg (Option.map snd) (hshifted.symm.trans (hall letterPdu))
    rw [htext, htext] at hsame
    exact absurd hsame (by decide +kernel)
  · intro hnbr pdu
    exact decoded_together (readpdu_together index read pdu h.surrogate_eq (by simp [hnbr, fresh]))

def quietEnv : Env := ⟨fun _ => false, none, fun s => s == lit "0"⟩

def tick : Str := [32, 0xE2, 0x9C, 0x93]

def afterLetter : Reader :=
  ⟨⟨0, none, letterPdu, lit "0141", 0, some (lit "01"), -1, some 0, some (lit "24-01-02"),
      some (lit "03:04:05 +1.5h"), some (lit "A"), none⟩, lit "0", lit "0",
    [⟨lit "1", tick, lit "01", some (lit "24-01-02"), some (lit "03:04:05 +1.5h"), some (lit "A")⟩]⟩

theorem decoding_stateless_iff_second :
    decoded (readpdu (lit "2") tick escapePdu afterLetter.vars) =
      decoded (readpdu (lit "2") tick escapePdu fresh) := by
  have h1 : HasRead quietEnv [lit "+CMGL: 1,1,,16"] (.pdu (lit "1") (lit "1") tick) .start :=
    .line .start (by decide +kernel)
  have h2 : HasRead quietEnv [lit "+CMGL: 1,1,,16", letterPdu] .top afterLetter :=
    .line h1 (by decide +kernel)
  have h3 : HasRead quietEnv [lit "+CMGL: 1,1,,16", letterPdu, lit "+CMGL: 2,1,,16"]
      (.pdu (lit "1") (lit "2") tick) afterLetter :=
    .line h2 (by decide +kernel)
  exact (decoding_stateless_iff h3).mpr (by decide) escapePdu

def texts (lines : List Str) : Option (List Str) :=
  (smsread quietEnv lines).map fun w => w.blocks.map Block.text

/-- The letter A behind a message that consists of an escape, and alone. -/
theorem escape_changes_next_message :
    texts [lit "+CPMS: 2,20,", lit "+CMGL: 1,1,,16", escapePdu, lit "+CMGL: 2,1,,16", letterPdu] =
        some [[], lit "?"] ∧
      texts [lit "+CPMS: 1,20,", lit "+CMGL: 2,1,,16", letterPdu] = some [lit "A"] := by
  decide +kernel

end SourceMaster.Sms
