import Mathlib.Data.List.Forall2
import SourceMaster.Sms.Accepted
import SourceMaster.Sms.Stateless

/-!
# Which files are read to the end

`smsread` must not fail on whatever the modem answers, and every message whose PDU is accepted must
be written. The file is seen as a list of items, announcements of the counts and messages, by the
syntax of the lines alone (`items`); `mainLoop_eq` says that the loop goes through them one by one.
Whether it survives a message depends on the message only, because of the two-run results for
`parse`.
-/

namespace SourceMaster.Sms

open SourceMaster.Failing List Option

/-! ## What is set when a PDU is accepted -/

variable {env : Env} {P : Vars → Prop} {w : Vars} {r : Str} {w' v : Vars} {pdu : Str} {index : Str}
  {flag : Int}

lemma ensures_ptr : Ensures P ptr fun _ => P := by
  rintro v hv r ⟨rfl⟩
  exact hv

lemma ensures_advance (hP : ∀ v : Vars, ∀ n, P v → P { v with mPduPtr := v.mPduPtr.drop n })
    (n : Nat) : Ensures P (advance n) fun _ => P :=
  .modify fun v hv => hP v n hv

lemma ensures_digitsChecked (s : Str) : Ensures P (digitsChecked s) fun _ => P :=
  .ite (fun _ _ _ _ hr => by cases hr) fun _ => .pure fun _ h => h

lemma ensures_zero : Ensures P (pure 0 : LuaM Int) fun flag v => flag > 0 → Shown v :=
  .pure nofun

lemma ensures_reportTimestamp {keep : Str → Str → Vars → Vars}
    (hP : ∀ v : Vars, ∀ n, P v → P { v with mPduPtr := v.mPduPtr.drop n })
    (hkeep : ∀ date time v, P v → Dated (keep date time v)) :
    Ensures P (reportTimestamp keep) fun _ => Dated := by
  have hboth : ∀ n, Ensures Dated (advance n) fun _ => Dated := ensures_advance fun v n h => h
  refine .bind ensures_ptr fun date => .bind (ensures_digitsChecked _) fun _ => ?_
  refine .bind (ensures_advance hP _) fun _ => .bind ensures_ptr fun time => ?_
  refine .bind (ensures_digitsChecked _) fun _ =>
    .bind (Q := fun _ => Dated) (.modify (hkeep _ _)) fun _ => ?_
  refine .bind (hboth _) fun _ => .bind ensures_ptr fun _ =>
    .ite (fun _ => .pure fun _ h => h) fun _ => ?_
  exact .bind (hboth _) fun _ => .pure fun _ h => h

lemma ensures_parseStatusReport :
    Ensures (fun _ => True) parseStatusReport fun flag v => flag > 0 → Shown v := by
  have hany : ∀ n, Ensures (fun _ => True) (advance n) fun _ _ => True :=
    ensures_advance fun _ _ h => h
  refine .bind ensures_ptr fun _ => .ite (fun _ => ensures_zero) fun _ => ?_
  refine .bind ensures_ptr fun _ => .ite (fun _ => ensures_zero) fun _ => ?_
  refine .bind (hany _) fun _ => .bind ensures_ptr fun _ => .ite (fun _ => ensures_zero) fun _ => ?_
  refine .bind (Q := fun _ _ => True) (fun _ _ _ _ => trivial) fun _ => ?_
  refine .ite (fun _ => ensures_zero) fun _ => ?_
  refine .bind ensures_ptr fun _ => .ite (fun _ => ensures_zero) fun _ => ?_
  refine .bind (ensures_reportTimestamp (fun _ _ h => h) fun _ _ _ _ => ⟨rfl, rfl⟩) fun r => ?_
  rcases r with _ | ⟨_, _⟩
  · exact ensures_zero
  refine .bind (ensures_reportTimestamp (fun _ _ h => h) fun _ _ _ h => h) fun r => ?_
  rcases r with _ | ⟨dDate, dTime⟩
  · exact ensures_zero
  refine .bind ensures_ptr fun _ => .ite (fun _ => ensures_zero) fun _ => ?_
  exact .bind (Q := fun _ => Shown) (.modify fun _ h => ⟨h, rfl⟩) fun _ => .pure fun _ h _ => h

lemma ensures_parse : Ensures (fun _ => True) parse fun flag v => flag > 0 → Shown v := by
  have hany : ∀ n, Ensures (fun _ => True) (advance n) fun _ _ => True :=
    ensures_advance fun _ _ h => h
  have hdeliver : Ensures (fun _ => True) parseDeliver fun flag v => flag > 0 → Shown v :=
    fun _ _ _ hr hflag => (parseDeliver_accepted hr hflag).2
  have htail : ∀ tmp : Int, Ensures (fun _ => True) (
      if bitand tmp 3 = 0 then do
        advance 2
        let result ← parseDeliver
        if result < 1 then return 0
        return 1
      else if bitand tmp 3 = 2 then do
        advance 2
        parseStatusReport
      else return 0 : LuaM Int) fun flag v => flag > 0 → Shown v := by
    intro tmp
    refine .ite (fun _ => .bind (hany _) fun _ => .bind hdeliver fun flag => ?_) fun _ => ?_
    · exact .ite (fun _ => ensures_zero) fun hflag => .pure fun _ h _ => h (by omega)
    · exact .ite (fun _ => .bind (hany _) fun _ => ensures_parseStatusReport) fun _ => ensures_zero
  unfold parse
  refine .bind (Q := fun _ _ => True) (fun _ _ _ _ => trivial) fun _ =>
    .ite (fun _ => ensures_zero) fun _ => ?_
  refine .bind ensures_ptr fun _ => .ite (fun _ => ensures_zero) fun _ => ?_
  refine .ite (fun _ => ?_) fun _ => htail _
  exact .bind (Q := fun _ _ => True) (.modify fun _ _ => trivial) fun _ => htail _

/-! ## The items of a file -/

/-- The commas behind `+CMGL:`, which separate the slot, the status and the rest. -/
inductive Header where
  | noComma
  | oneComma
  | fields (r index : Str)
  deriving DecidableEq

def header (rest : Str) : Header :=
  match splitComma rest with
  | none => .noComma
  | some (index, rest) =>
    match splitComma rest with
    | none => .oneComma
    | some (r, _) => .fields (trim r) (trim index)

/-- A `+CPMS:` line, or a `+CMGL:` line with the line behind it. -/
inductive Item where
  | counts (rest : Str)
  | listed (header : Header) (pdu : Option Str)
  deriving DecidableEq

/-- The items of a file. The line behind a `+CPMS:` line is not looked at for another one. -/
def items (behindCounts : Bool) : List Str → List Item
  | [] => []
  | line :: lines =>
    match (if behindCounts then none else behind (lit "+CPMS:") line) with
    | some rest => .counts rest :: items true lines
    | none =>
      match behind (lit "+CMGL:") line with
      | none => items false lines
      | some rest =>
        match lines with
        | [] => [.listed (header rest) none]
        | pdu :: lines => .listed (header rest) (some pdu) :: items false lines

def runItems (env : Env) : List Item → Reader → Option Reader
  | [], m => some m
  | .counts rest :: is, m => runItems env is (m.counts rest)
  | .listed .noComma _ :: _, _ => none
  | .listed .oneComma _ :: _, m => some m
  | .listed (.fields _ _) none :: is, m =>
    runItems env is { m with vars := { m.vars with surrogate := 0 } }
  | .listed (.fields r index) (some pdu) :: is, m =>
    match message env r index (mark env r index) pdu { m.vars with surrogate := 0 } with
    | none => none
    | some e => runItems env is { m with vars := e.2, entries := m.entries ++ e.1.toList }

lemma listing_eq (env : Env) (m : Reader) (line : Str) : m.listing env line =
      match behind (lit "+CMGL:") line with
      | none => some (m, some .top)
      | some rest =>
        match header rest with
        | .noComma => none
        | .oneComma => some (m, none)
        | .fields r index => some ({ m with vars := { m.vars with surrogate := 0 } },
            some (.pdu r index (mark env r index))) := by
  unfold Reader.listing header
  cases behind (lit "+CMGL:") line with
  | none => rfl
  | some rest =>
    dsimp only
    cases splitComma rest with
    | none => rfl
    | some p =>
      dsimp only
      cases splitComma p.2 <;> rfl

def linePoint (behindCounts : Bool) : Point := if behindCounts then .behindCounts else .top

lemma onLine_linePoint {behindCounts : Bool} {line : Str} {m : Reader}
    (h : (if behindCounts then none else behind (lit "+CPMS:") line) = none) :
    onLine env (linePoint behindCounts) line m = m.listing env line := by
  cases behindCounts with
  | true => rfl
  | false =>
    show (match behind (lit "+CPMS:") line with
      | some rest => some (m.counts rest, some Point.behindCounts)
      | none => m.listing env line) = _
    rw [show behind (lit "+CPMS:") line = none from h]

lemma mainLoop_eq (env : Env) (behindCounts : Bool) (lines : List Str) : ∀ m : Reader,
    mainLoop env lines (linePoint behindCounts) m = runItems env (items behindCounts lines) m := by
  fun_induction items behindCounts lines with
  | case1 => exact fun m => rfl
  | case2 behindCounts line lines rest hrest ih =>
    intro m
    have hcounts : onLine env (linePoint behindCounts) line m =
      some (m.counts rest, some .behindCounts) := by
      cases behindCounts with
      | true => cases hrest
      | false =>
        show (match behind (lit "+CPMS:") line with
          | some rest => some (m.counts rest, some Point.behindCounts)
          | none => m.listing env line) = _
        rw [show behind (lit "+CPMS:") line = some rest from hrest]
    rw [mainLoop, hcounts]
    exact ih _
  | case3 behindCounts line lines hnone hline ih =>
    intro m
    rw [mainLoop, onLine_linePoint hnone, listing_eq, hline]
    exact ih m
  | case4 behindCounts line hnone rest hline =>
    intro m
    rw [mainLoop, onLine_linePoint hnone, listing_eq, hline]
    dsimp only
    cases header rest <;> rfl
  | case5 behindCounts line hnone rest hline pdu lines ih =>
    intro m
    rw [mainLoop, onLine_linePoint hnone, listing_eq, hline]
    dsimp only
    cases header rest with
    | noComma => rfl
    | oneComma => rfl
    | fields r index =>
      dsimp only
      rw [mainLoop, runItems]
      dsimp only [onLine]
      cases message env r index (mark env r index) pdu { m.vars with surrogate := 0 } with
      | none => rfl
      | some e => exact ih _

/-! ## A message -/

def parseAlone (pdu : Str) : Option (Int × Vars) := parse (Vars.fresh.before pdu)

def accepted (pdu : Str) : Bool :=
  match parseAlone pdu with
  | none => false
  | some (flag, _) => flag > 0

/-- `parse` does not fail, an accepted message has a sender, and one that has just come in has a
text. -/
def readable (r pdu : Str) : Bool :=
  match parseAlone pdu with
  | none => false
  | some (flag, v) => (flag > 0 → v.mNumber.isSome) ∧ (r = lit "0" → v.mText.isSome)

/-- The block written for a message: from any state, `readpdu` makes an entry. -/
def BlockOf (env : Env) (r index pdu : Str) (b : Block) : Prop :=
  ∃ v v' e, readpdu index (mark env r index) pdu v = some (some e, v') ∧ writeEntry e = some b

lemma parse_alone (v : Vars) (pdu : Str) : parse (v.before pdu) = none ∧ parseAlone pdu = none ∨
      ∃ flag w w', parse (v.before pdu) = some (flag, w) ∧ parseAlone pdu = some (flag, w') ∧
        Agree False w w' := by
  have h : Together (Agree False) (parse (v.before pdu)) (parseAlone pdu) :=
    respects_parse _ _ (agree_before (fun h => h.elim) fun h => h.elim)
  generalize parse (v.before pdu) = a at h
  generalize parseAlone pdu = b at h
  cases h with
  | none => exact .inl ⟨rfl, rfl⟩
  | @some a b h =>
    obtain ⟨flag, w⟩ := a
    obtain ⟨_, w'⟩ := b
    obtain ⟨rfl, h⟩ := h
    exact .inr ⟨flag, w, w', rfl, rfl, h⟩

/-- A text that starts with `GPS` is compared to the option, which fails without one; only the text
`GPS` is let through. -/
def stopsAtText (env : Env) (text : Str) : Bool :=
  env.gpspin = none && text.take 3 = lit "GPS" && text ≠ lit "GPS"

lemma checkCommand_eq (env : Env) (v : Vars) : checkCommand env v =
    v.mText.bind fun text => if stopsAtText env text then none else some ((), v) := by
  unfold checkCommand
  cases hv : v.mText with
  | none => simp [hv]
  | some text =>
    simp only [run_bind, run_get, bind_some, run_ite, run_pure, run_nonNil, hv, some.injEq,
      map_some]
    by_cases hcommand : text = lit "::reboot!!" ∨ text = lit "::restartzt!!" ∨
      text = lit "::pwrtoggle!!"
    · have hgps : text.take 3 ≠ lit "GPS" := by
        obtain rfl | rfl | rfl := hcommand <;> decide
      simp [hcommand, stopsAtText, hgps]
    rw [if_neg hcommand]
    by_cases hgps : text.take 3 = lit "GPS"
    · rw [if_pos hgps]
      cases hpin : env.gpspin with
      | none => by_cases htext : text = lit "GPS" <;> simp [stopsAtText, hgps, htext, hpin]
      | some pin => simp [stopsAtText, hpin]
    · simp [stopsAtText, hgps]

lemma shownText_of_shown (h : v.mText.isSome) : ∃ text, v.shownText = some (some text) := by
  obtain ⟨text, h⟩ := isSome_iff_exists.mp h
  unfold Vars.shownText
  rw [h]
  cases v.mConcat <;> exact ⟨_, rfl⟩

lemma readpdu_survives (index read : Str) (hparse : parse (v.before pdu) = some (flag, w))
    (halone : parseAlone pdu = some (flag, w')) (hagree : Agree False w w')
    (hnumber : flag > 0 → w'.mNumber.isSome) :
    ∃ e x, readpdu index read pdu v = some (e, x) ∧ x.mText.isSome = w'.mText.isSome ∧
      e.isSome = accepted pdu ∧ ∀ en ∈ e, ∃ b, writeEntry en = some b := by
  have haccepted : accepted pdu = decide (flag > 0) := by unfold accepted; rw [halone]
  rw [readpdu_eq, run_bind, hparse, bind_some, enter_eq, haccepted]
  by_cases hflag : flag > 0
  · obtain ⟨⟨hdate, htime⟩, htext⟩ : Shown w := ensures_parse _ trivial _ hparse hflag
    obtain ⟨number, hnumber⟩ := isSome_iff_exists.mp (hagree.hasNumber.trans (hnumber hflag))
    obtain ⟨text, hshown⟩ := shownText_of_shown htext
    obtain ⟨date, hdate⟩ := isSome_iff_exists.mp hdate
    obtain ⟨time, htime⟩ := isSome_iff_exists.mp htime
    rw [if_pos hflag, hnumber, bind_some, hshown, map_some]
    refine ⟨_, _, rfl, hagree.hasText ▸ htext.symm, by simp [hflag], ?_⟩
    rintro en ⟨rfl⟩
    rw [hdate, htime]
    exact ⟨_, rfl⟩
  · rw [if_neg hflag]
    exact ⟨none, w, rfl, hagree.hasText, by simp [hflag], fun _ h => by cases h⟩

lemma readpdu_fails (index read : Str) (hparse : parse (v.before pdu) = some (flag, w))
    (hagree : Agree False w w') (hnumber : ¬ (flag > 0 → w'.mNumber.isSome)) :
    readpdu index read pdu v = none := by
  obtain ⟨hflag, hnumber⟩ := Classical.not_imp.mp hnumber
  have hnone : w.mNumber = none := by
    rw [← not_isSome_iff_eq_none, hagree.hasNumber]
    exact hnumber
  rw [readpdu_eq, run_bind, hparse, bind_some, enter_eq, if_pos hflag]
  rw [hnone]
  rfl

lemma message_eq_none (h : readable r pdu = false) :
    message env r index (mark env r index) pdu v = none := by
  unfold readable at h
  unfold message
  rcases parse_alone v pdu with ⟨hparse, _⟩ | ⟨flag, w, w', hparse, halone, hagree⟩
  · rw [run_bind, readpdu_eq, run_bind, hparse]
    rfl
  rw [halone] at h
  by_cases hnumber : flag > 0 → w'.mNumber.isSome
  · obtain ⟨e, x, hread, htext, _⟩ :=
      readpdu_survives index (mark env r index) hparse halone hagree hnumber
    have hr : ¬ (r = lit "0" → w'.mText.isSome) := fun hr => of_decide_eq_false h ⟨hnumber, hr⟩
    obtain ⟨hr, hnone⟩ := Classical.not_imp.mp hr
    have hx : x.mText = none := by
      rw [← not_isSome_iff_eq_none, htext]
      exact hnone
    rw [run_bind, hread, bind_some]
    rw [if_pos hr, run_bind, checkCommand_eq, hx]
    rfl
  · rw [run_bind, readpdu_fails index (mark env r index) hparse hagree hnumber]
    rfl

/-- A message that can be read makes an entry if it is accepted, and is stopped only by its text. -/
theorem message_of_readable (h : readable r pdu) : ∃ e x,
    readpdu index (mark env r index) pdu v = some (e, x) ∧
    message env r index (mark env r index) pdu v =
      (if r = lit "0" ∧ x.mText.any (stopsAtText env) then none else some (e, x)) ∧
    e.isSome = accepted pdu ∧ ∀ en ∈ e, ∃ b, writeEntry en = some b ∧
    BlockOf env r index pdu b := by
  unfold readable at h
  rcases parse_alone v pdu with ⟨_, halone⟩ | ⟨flag, w, w', hparse, halone, hagree⟩
  · rw [halone] at h; cases h
  rw [halone] at h
  obtain ⟨hnumber, hr⟩ := of_decide_eq_true h
  obtain ⟨e, x, hread, htext, haccepted, hwrite⟩ :=
    readpdu_survives index (mark env r index) hparse halone hagree hnumber
  refine ⟨e, x, hread, ?_, haccepted, fun en hen => ?_⟩
  · unfold message
    rw [run_bind, hread, bind_some]
    by_cases h0 : r = lit "0"
    · obtain ⟨text, hx⟩ := isSome_iff_exists.mp (htext.trans (hr h0))
      rw [if_pos h0, run_bind, checkCommand_eq, hx]
      by_cases hstop : stopsAtText env text <;> simp [h0, hstop]
    · rw [if_neg h0, if_neg fun h => h0 h.1]
      rfl
  · obtain ⟨b, hb⟩ := hwrite en hen
    obtain rfl : e = some en := hen
    exact ⟨b, hb, v, x, en, hread, hb⟩

/-! ## A file -/

namespace Item

def breaks : Item → Bool
  | listed .oneComma _ => true
  | _ => false

def accepted : Item → Bool
  | listed _ (some pdu) => Sms.accepted pdu
  | _ => false

def survives : Item → Bool
  | counts _ => true
  | listed (.fields _ _) none => true
  | listed (.fields r _) (some pdu) => readable r pdu
  | listed _ _ => false

def Wrote (env : Env) (i : Item) (b : Block) : Prop :=
  match i with
  | listed (.fields r index) (some pdu) => BlockOf env r index pdu b
  | _ => False

def announced (used : Str) : Item → Str
  | counts rest => ((splitComma rest).map fun r => trim r.1).getD used
  | _ => used

end Item

variable (is : List Item)

def kept : List Item := is.takeWhile fun i => !i.breaks

def lost : List Item := is.dropWhile fun i => !i.breaks

def usedCount : Str := (kept is).foldl Item.announced (lit "0")

lemma counts_usedMsg (m : Reader) (rest : Str) :
    (m.counts rest).usedMsg = Item.announced m.usedMsg (.counts rest) := by
  unfold Reader.counts Item.announced
  dsimp only
  cases splitComma rest with
  | none => rfl
  | some p =>
    dsimp only
    cases splitComma p.2 <;> rfl

lemma counts_entries (m : Reader) (rest : Str) : (m.counts rest).entries = m.entries := by
  unfold Reader.counts
  split
  · rfl
  · split <;> rfl

/-- The texts of the new messages, as `readpdu` leaves them. -/
def unreadTexts (env : Env) : List Item → Vars → List Str
  | [], _ => []
  | .listed (.fields r index) (some pdu) :: is, v =>
    match readpdu index (mark env r index) pdu { v with surrogate := 0 } with
    | none => []
    | some (_, x) => (if r = lit "0" then x.mText.toList else []) ++ unreadTexts env is x
  | .listed (.fields _ _) none :: is, v => unreadTexts env is { v with surrogate := 0 }
  | _ :: is, v => unreadTexts env is v

/-- No message that is kept stops the program, neither by its form nor by its text. -/
def Passes (env : Env) (is : List Item) (v : Vars) : Prop :=
  (∀ i ∈ kept is, i.survives) ∧ ∀ text ∈ unreadTexts env (kept is) v, stopsAtText env text = false

variable {is} {i : Item}

lemma kept_cons (h : i.breaks = false) : kept (i :: is) = i :: kept is :=
  takeWhile_cons_of_pos (by simp [h])

lemma counts_vars (m : Reader) (rest : Str) : (m.counts rest).vars = m.vars := by
  unfold Reader.counts
  split
  · rfl
  · split <;> rfl

/-- The first message is read, and the text is one of those that are looked at. -/
theorem passes_listed {x : Vars} {e : Option Entry}
    (hread : readpdu index (mark env r index) pdu { v with surrogate := 0 } = some (e, x)) :
    Passes env (.listed (.fields r index) (some pdu) :: is) v ↔
      (readable r pdu ∧ ¬ (r = lit "0" ∧ x.mText.any (stopsAtText env))) ∧ Passes env is x := by
  unfold Passes
  rw [kept_cons rfl, forall_mem_cons, unreadTexts, hread]
  have htexts : (∀ text ∈ (if r = lit "0" then x.mText.toList else []), stopsAtText env text =
    false) ↔ ¬ (r = lit "0" ∧ x.mText.any (stopsAtText env)) := by
    by_cases h0 : r = lit "0"
    · cases x.mText <;> simp [h0]
    · simp [h0]
  simp only [forall_mem_append, htexts, Item.survives]
  tauto

lemma runItems_eq_none : ∀ (is : List Item) (m : Reader), ¬ Passes env is m.vars →
    runItems env is m = none := by
  intro is
  induction is with
  | nil => exact fun m h => absurd ⟨nofun, nofun⟩ h
  | cons i is ih =>
    intro m h
    rcases i with rest | ⟨_ | _ | ⟨r, index⟩, _ | pdu⟩
    · refine ih (m.counts rest) fun hpass => h ?_
      rw [counts_vars] at hpass
      exact ⟨by rw [kept_cons rfl, forall_mem_cons]; exact ⟨rfl, hpass.1⟩, hpass.2⟩
    · rfl
    · rfl
    · exact absurd ⟨nofun, nofun⟩ h
    · exact absurd ⟨nofun, nofun⟩ h
    · refine ih { m with vars := { m.vars with surrogate := 0 } } fun hpass => h ?_
      exact ⟨by rw [kept_cons rfl, forall_mem_cons]; exact ⟨rfl, hpass.1⟩, hpass.2⟩
    · rw [runItems]
      by_cases hread : readable r pdu
      · obtain ⟨e, x, hpdu, hmessage, _⟩ :=
          message_of_readable (v := { m.vars with surrogate := 0 }) hread
        rw [hmessage]
        split_ifs with hstop
        · rfl
        · refine ih { m with vars := x, entries := m.entries ++ e.toList } fun hpass => h ?_
          exact (passes_listed hpdu).2 ⟨⟨hread, hstop⟩, hpass⟩
      · rw [message_eq_none (by simpa using hread)]

lemma runItems_eq_some (is : List Item) (m : Reader) (h : Passes env is m.vars) :
    ∃ m' es bs, runItems env is m = some m' ∧
    m'.usedMsg = (kept is).foldl Item.announced m.usedMsg ∧
      m'.entries = m.entries ++ es ∧ es.mapM writeEntry = some bs ∧
      List.Forall₂ (Item.Wrote env) ((kept is).filter Item.accepted) bs := by
  induction is generalizing m with
  | nil => exact ⟨m, [], [], rfl, rfl, (append_nil _).symm, rfl, .nil⟩
  | cons i is ih =>
    rcases i with rest | ⟨_ | _ | ⟨r, index⟩, _ | pdu⟩
    · obtain ⟨m', es, bs, hrun, hused, hentries, hwrite, hwrote⟩ := ih (m.counts rest) (by
        rw [counts_vars]
        exact ⟨fun j hj => h.1 j (by rw [kept_cons rfl]; exact mem_cons_of_mem _ hj), h.2⟩)
      exact ⟨m', es, bs, hrun, by rw [hused, counts_usedMsg, kept_cons rfl, foldl_cons],
        by rw [hentries, counts_entries], hwrite, hwrote⟩
    · cases h.1 _ (by rw [kept_cons rfl]; exact mem_cons_self)
    · cases h.1 _ (by rw [kept_cons rfl]; exact mem_cons_self)
    · exact ⟨m, [], [], rfl, rfl, (append_nil _).symm, rfl, .nil⟩
    · exact ⟨m, [], [], rfl, rfl, (append_nil _).symm, rfl, .nil⟩
    · exact ih { m with vars := { m.vars with surrogate := 0 } }
        ⟨fun j hj => h.1 j (by rw [kept_cons rfl]; exact mem_cons_of_mem _ hj), h.2⟩
    · have hhead : readable r pdu := h.1 (.listed (.fields r index) (some pdu))
        (by rw [kept_cons rfl]; exact mem_cons_self)
      obtain ⟨e, x, hpdu, hmessage, haccepted, hblock⟩ :=
        message_of_readable (v := { m.vars with surrogate := 0 }) hhead
      obtain ⟨⟨-, hstop⟩, htail⟩ := (passes_listed hpdu).1 h
      obtain ⟨m', es, bs, hrun, hused, hentries, hwrite, hwrote⟩ :=
        ih { m with vars := x, entries := m.entries ++ e.toList } htail
      rw [runItems, hmessage, if_neg hstop, kept_cons rfl]
      cases e with
      | none =>
        have hitem : Item.accepted (.listed (.fields r index) (some pdu)) = false := haccepted.symm
        exact ⟨m', es, bs, hrun, hused, by simpa using hentries, hwrite,
          by rw [filter_cons_of_neg (by simp [hitem])]; exact hwrote⟩
      | some en =>
        obtain ⟨b, hb, hof⟩ := hblock en rfl
        have hitem : Item.accepted (.listed (.fields r index) (some pdu)) := haccepted.symm
        exact ⟨m', en :: es, b :: bs, hrun, hused, by simpa using hentries, by simp [hb, hwrite],
          by rw [filter_cons_of_pos hitem]; exact .cons hof hwrote⟩

lemma passes_iff : Passes env is v ↔ (∀ i ∈ kept is, i.survives) ∧ (env.gpspin = none →
    ∀ text ∈ unreadTexts env (kept is) v, text.take 3 = lit "GPS" → text = lit "GPS") := by
  refine and_congr_right fun _ => ⟨fun h hpin text htext hgps => ?_, fun h text htext => ?_⟩
  · simpa [stopsAtText, hpin, hgps] using h text htext
  · cases hpin : env.gpspin with
    | none => simpa [stopsAtText, hpin] using h hpin text htext
    | some pin => simp [stopsAtText, hpin]

/-- Every message whose PDU is accepted has a block, in the order of the file. -/
def WritesAll (env : Env) (is : List Item) (w : Written) : Prop :=
  List.Forall₂ (Item.Wrote env) (is.filter Item.accepted) w.blocks

lemma filter_accepted (is : List Item) :
    is.filter Item.accepted = (kept is).filter Item.accepted ++ (lost is).filter Item.accepted := by
  rw [← filter_append, kept, lost, takeWhile_append_dropWhile]

/-- **Files that are read to the end.** The program ends and writes every accepted message iff no
message stops it, neither by its form nor, without the option, by a text that starts with `GPS`;
none is behind the one that makes it leave the loop; and the modem does not announce 0 messages. -/
theorem smsread_writes_all_iff (env : Env) (lines : List Str) :
    (∃ w, smsread env lines = some w ∧ WritesAll env (items false lines) w) ↔
      ((∀ i ∈ kept (items false lines), i.survives) ∧ (env.gpspin = none →
        ∀ text ∈ unreadTexts env (kept (items false lines)) Reader.start.vars,
          text.take 3 = lit "GPS" → text = lit "GPS")) ∧
      (∀ i ∈ lost (items false lines), i.accepted = false) ∧
      (env.isZero (usedCount (items false lines)) →
        ∀ i ∈ kept (items false lines), i.accepted = false) := by
  generalize hitems : items false lines = is
  have hrun : smsread env lines = (runItems env is .start).bind (write env) := by
    rw [smsread, ← hitems, ← mainLoop_eq]
    rfl
  rw [hrun, ← passes_iff]
  by_cases hsurvives : Passes env is Reader.start.vars
  swap
  · rw [runItems_eq_none is .start hsurvives]
    constructor
    · rintro ⟨w, hw, _⟩
      cases hw
    · exact fun h => absurd h.1 hsurvives
  obtain ⟨m, es, bs, hm, hused, hentries, hwrite, hwrote⟩ := runItems_eq_some is .start hsurvives
  have hes : m.entries = es := by rw [hentries]; rfl
  have hzero : m.usedMsg = usedCount is := hused
  rw [hm, bind_some, write, hes, hwrite, hzero]
  by_cases hisZero : env.isZero (usedCount is)
  · -- nothing is written, so nothing may be accepted
    rw [if_pos hisZero]
    constructor
    · rintro ⟨w, hw, hall⟩
      cases hw
      have hnone : is.filter Item.accepted = [] := forall₂_nil_right_iff.mp hall
      have hno : ∀ i ∈ is, i.accepted = false := by simpa using hnone
      exact ⟨hsurvives, fun i hi => hno i (dropWhile_subset _ hi),
        fun _ i hi => hno i (takeWhile_subset _ hi)⟩
    · rintro ⟨_, hlost, hkept⟩
      refine ⟨_, rfl, ?_⟩
      have hnone : is.filter Item.accepted = [] := by
        rw [filter_accepted, filter_eq_nil_iff.mpr (by simpa using hkept hisZero),
          filter_eq_nil_iff.mpr (by simpa using hlost)]
        rfl
      unfold WritesAll
      rw [hnone]
      exact .nil
  · rw [if_neg hisZero]
    constructor
    · rintro ⟨w, hw, hall⟩
      cases hw
      refine ⟨hsurvives, ?_, fun h => absurd h hisZero⟩
      -- there are as many blocks as messages before the break
      have hlen := hall.length_eq
      have hlen' := hwrote.length_eq
      rw [filter_accepted, length_append] at hlen
      have hnil : (lost is).filter Item.accepted = [] := eq_nil_of_length_eq_zero (by
        dsimp only at hlen
        omega)
      simpa using filter_eq_nil_iff.mp hnil
    · rintro ⟨_, hlost, _⟩
      refine ⟨_, rfl, ?_⟩
      unfold WritesAll
      have hnil : (lost is).filter Item.accepted = [] :=
        filter_eq_nil_iff.mpr (by simpa using hlost)
      rw [filter_accepted, hnil, append_nil]
      exact hwrote

def pinEnv : Env := { quietEnv with gpspin := some (lit "1234") }

/-- A message that has been read, with a PDU that is no PDU, and a new one with a text. -/
def twoListed : List Str :=
    [lit "+CPMS: 2,20,", lit "+CMGL: 0,1,,0", [], lit "+CMGL: 1,0,,16", letterPdu]

theorem smsread_writes_all_iff_pair : quietEnv.gpspin = none ∧
    ∃ w, smsread quietEnv twoListed = some w ∧ WritesAll quietEnv (items false twoListed) w :=
  ⟨rfl, (smsread_writes_all_iff quietEnv twoListed).mpr (by decide +kernel)⟩

/-- An empty PDU of a new message stops the program before the accepted message behind it. -/
theorem smsread_fails_on_empty_pdu :
    smsread pinEnv [lit "+CPMS: 2,20,", lit "+CMGL: 0,0,,0", [], lit "+CMGL: 1,1,,16", letterPdu] =
    none ∧ accepted letterPdu := by
  constructor
  · rfl
  · decide +kernel

end SourceMaster.Sms
