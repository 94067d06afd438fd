import SourceMaster.Sms.MergeSlots

/-!
# The texts of merged messages

`merge.lua` knows the parts of a long message by its number alone, and keeps their texts in a table
by part number. `mem_outList` says which records there are, `mergeParts_text` what text a record
has.

So it is known for which messages only parts of one message are put together and no text is lost
(`parts_kept_iff`), and complete messages come out as their parts in order as long as no two senders
use the same number (`merged_in_order_iff`).
-/

namespace SourceMaster.Sms

open SourceMaster.Lines List Message

/-! ## The text of a record -/

def piecesOf (t : Str → Option (Str × Str)) (j n : Nat) : List (Nat × Str) :=
  (range' j n).filterMap fun k => (t (tostring k)).map fun r => (k, r.1)

variable (t : Str → Option (Str × Str)) {m : Message} {num : Str} (j : Nat) {p : Part} (n : Nat)
  {ms : List Message}

lemma piecesOf_succ : piecesOf t j (n + 1) =
    ((t (tostring j)).map fun r => (j, r.1)).toList ++ piecesOf t (j + 1) n := by
  unfold piecesOf
  rw [range'_succ, filterMap_cons]
  cases t (tostring j) <;> rfl

lemma mem_piecesOf {t : Str → Option (Str × Str)} {j n k : Nat} {text : Str} :
    (k, text) ∈ piecesOf t j n ↔ j ≤ k ∧ k < j + n ∧
    ∃ short, t (tostring k) = some (text, short) := by
  unfold piecesOf
  rw [mem_filterMap]
  constructor
  · rintro ⟨i, hi, hik⟩
    obtain ⟨⟨text', short⟩, hr, hpair⟩ := Option.map_eq_some_iff.mp hik
    cases hpair
    rw [mem_range'_1] at hi
    exact ⟨hi.1, hi.2, short, hr⟩
  · rintro ⟨h1, h2, short, hr⟩
    exact ⟨k, mem_range'_1.mpr ⟨h1, h2⟩, by rw [hr]; rfl⟩

lemma piecesOf_sorted : (piecesOf t j n).Pairwise fun a b => a.1 < b.1 := by
  induction n generalizing j with
  | zero => exact .nil
  | succ n ih =>
    rw [piecesOf_succ]
    cases t (tostring j) with
    | none => exact ih (j + 1)
    | some r =>
      refine pairwise_cons.mpr ⟨fun b hb => ?_, ih (j + 1)⟩
      have := (mem_piecesOf.mp hb).1
      exact this

lemma length_piecesOf_le : (piecesOf t j n).length ≤ n := by
  calc (piecesOf t j n).length ≤ (range' j n).length := length_filterMap_le _ _
    _ = n := length_range'

lemma assemble_text : ∀ (j : Nat) (a : Assembled),
    (assemble t n j a).msg = a.msg ++ (piecesOf t j n).flatMap Prod.snd ∧
      (assemble t n j a).mflg = (a.mflg || decide ((piecesOf t j n).length < n)) := by
  induction n with
  | zero => exact fun j a => ⟨by simp [assemble, piecesOf], by simp [assemble]⟩
  | succ n ih =>
    intro j a
    have hle := length_piecesOf_le t (j + 1) n
    rw [piecesOf_succ]
    unfold assemble
    cases t (tostring j) with
    | none =>
      obtain ⟨hmsg, hmflg⟩ := ih (j + 1) { a with mflg := true }
      rw [hmsg, hmflg]
      refine ⟨rfl, ?_⟩
      have hlt : (piecesOf t (j + 1) n).length < n + 1 := Nat.lt_succ_of_le hle
      simp [hlt]
    | some r =>
      obtain ⟨hmsg, hmflg⟩ := ih (j + 1) ⟨a.msg ++ r.1, a.mflg, some (a.short.getD r.2)⟩
      dsimp only
      rw [hmsg, hmflg]
      simp

/-- What is written for the parts: a note if one is missing, no empty line at the end. -/
def finish (missing : Bool) (text : Str) : Str :=
  let msg := if missing then lit "Partial Message : " ++ text else text
  if msg.drop (msg.length - 2) = lit "\n\n" then msg.take (msg.length - 2) else msg

lemma mergeParts_text {r : Record} (h : mergeParts m p ms = some r) {n : Nat}
    (hn : (tonumber10 p.max).getD 0 = n) :
    r.msg = finish (decide ((piecesOf (build (m :: ms)) 1 n).length < n))
      ((piecesOf (build (m :: ms)) 1 n).flatMap Prod.snd) ∧ r.phone = m.phone := by
  obtain ⟨hmsg, hmflg⟩ := assemble_text (build (m :: ms)) n 1 ⟨[], false, none⟩
  unfold mergeParts at h
  rw [hn] at h
  dsimp only at h
  split at h
  · cases h
  · cases h
    rw [hmsg, hmflg, nil_append, Bool.false_or]
    exact ⟨rfl, rfl⟩

lemma build_some {k : Str} {r : Str × Str} (h : build ms k = some r) :
    ∃ m ∈ ms, ∃ p, m.part = some p ∧ p.ord = k ∧ r = (m.msg, m.short) := by
  unfold build at h
  induction ms using reverseRecOn with
  | nil => cases h
  | append_singleton ms m ih =>
    rw [foldl_append, foldl_cons, foldl_nil] at h
    have hold : (∃ m' ∈ ms, ∃ p, m'.part = some p ∧ p.ord = k ∧ r = (m'.msg, m'.short)) →
        ∃ m' ∈ ms ++ [m], ∃ p, m'.part = some p ∧ p.ord = k ∧ r = (m'.msg, m'.short) := by
      rintro ⟨m', hm', hrest⟩
      exact ⟨m', mem_append_left _ hm', hrest⟩
    cases hp : m.part with
    | none =>
      rw [hp] at h
      exact hold (ih h)
    | some p =>
      rw [hp] at h
      dsimp only at h
      by_cases hk : k = p.ord
      · rw [hk, Function.update_self, Option.some_inj] at h
        exact ⟨m, by simp, p, hp, hk.symm, h.symm⟩
      · rw [Function.update_of_ne hk] at h
        exact hold (ih h)

/-! ## The records -/

def Message.record (m : Message) : Record := ⟨[m.slot], m.phone, m.nline, m.msg, m.short⟩

/-- A record put together from the parts in `ms` with one number, the first of which is `m` with the
part number `p`. -/
def PartRecord (ms : List Message) (m : Message) (p : Part) (r : Record) : Prop :=
  ∃ rest, partsOf p.num ms = m :: rest ∧ m.part = some p ∧ mergeParts m p rest = some r

lemma partsOf_cons_of_pos (h : m.hasNum num) (ms : List Message) :
    partsOf num (m :: ms) = m :: partsOf num ms := filter_cons_of_pos h

lemma partsOf_cons_of_neg (h : ¬ m.hasNum num) (ms : List Message) :
    partsOf num (m :: ms) = partsOf num ms := filter_cons_of_neg h

lemma hasNum_of_part (hp : m.part = some p) : m.hasNum num ↔ p.num = num := by
  rw [hasNum_iff, hp]
  simp

lemma partsOf_othersOf {num' : Str} (h : num' ≠ num) (ms : List Message) :
    partsOf num' (othersOf num ms) = partsOf num' ms := by
  unfold partsOf othersOf
  rw [filter_filter]
  refine filter_congr fun m _ => ?_
  cases hm : m.hasNum num' with
  | false => rfl
  | true =>
    obtain ⟨p, hp, hnum⟩ := hasNum_iff.mp hm
    have hother : m.hasNum num = false := by
      rw [Bool.eq_false_iff, ne_eq, hasNum_of_part hp, hnum]
      exact h
    rw [hother]
    rfl

lemma partsOf_othersOf_self (num : Str) (ms : List Message) :
    partsOf num (othersOf num ms) = [] := by
  unfold partsOf othersOf
  rw [filter_filter, filter_eq_nil_iff]
  intro m _
  cases m.hasNum num <;> decide

lemma mem_outList (ms : List Message) : ∀ {rs}, outList ms = some rs → ∀ {r},
    r ∈ rs ↔ (∃ m ∈ ms, m.part = none ∧ r = m.record) ∨ ∃ m p, PartRecord ms m p r := by
  fun_induction outList ms with
  | case1 =>
    rintro rs ⟨rfl⟩ r
    simp [PartRecord, partsOf]
  | case2 m ms hp ih =>
    intro rs h r
    obtain ⟨rs', hrs', rfl⟩ := Option.map_eq_some_iff.mp h
    have hno (num : Str) : ¬ m.hasNum num := by
      rw [hasNum_iff, hp]
      simp
    rw [mem_cons, ih hrs']
    simp only [PartRecord, partsOf_cons_of_neg (hno _), mem_cons, exists_eq_or_imp, hp, true_and,
      record, or_assoc]
  | case3 m ms p hp hparts => intro rs h; cases h
  | case4 m ms p hp r hparts ih =>
    intro rs h r'
    obtain ⟨rs', hrs', rfl⟩ := Option.map_eq_some_iff.mp h
    have hself : partsOf p.num (m :: ms) = m :: partsOf p.num ms :=
      partsOf_cons_of_pos ((hasNum_of_part hp).mpr rfl) ms
    have hother {num : Str} (hne : num ≠ p.num) :
        partsOf num (m :: ms) = partsOf num (othersOf p.num ms) := by
      rw [partsOf_othersOf hne, partsOf_cons_of_neg]
      rw [hasNum_of_part hp]
      exact fun heq => hne heq.symm
    rw [mem_cons, ih hrs']
    constructor
    · rintro (rfl | ⟨m', hm', hnone, rfl⟩ | ⟨m', p', rest, hrest, hm', hr⟩)
      · exact .inr ⟨m, p, _, hself, hp, hparts⟩
      · exact .inl ⟨m', mem_cons_of_mem m (mem_filter.mp hm').1, hnone, rfl⟩
      · by_cases hne : p'.num = p.num
        · rw [hne, partsOf_othersOf_self] at hrest
          cases hrest
        · exact .inr ⟨m', p', rest, by rw [hother hne, hrest], hm', hr⟩
    · rintro (⟨m', hm', hnone, rfl⟩ | ⟨m', p', rest, hrest, hm', hr⟩)
      · rcases mem_cons.mp hm' with rfl | hm'
        · rw [hp] at hnone
          cases hnone
        · refine .inr (.inl ⟨m', mem_filter.mpr ⟨hm', ?_⟩, hnone, rfl⟩)
          simp [hasNum, hnone]
      · by_cases hne : p'.num = p.num
        · rw [hne, hself, cons.injEq] at hrest
          obtain ⟨rfl, rfl⟩ := hrest
          rw [hp, Option.some_inj] at hm'
          subst hm'
          rw [hparts, Option.some_inj] at hr
          exact .inl hr.symm
        · exact .inr (.inr ⟨m', p', rest, by rw [← hother hne, hrest], hm', hr⟩)

section Slots

variable {ms : List Message} (hnodup : (ms.map slot).Nodup)

include hnodup

variable {r : Record} {b : Message} {q : Part}

lemma eq_of_slot_eq {a : Message} (ha : a ∈ ms) (hb : b ∈ ms) (h : a.slot = b.slot) : a = b :=
  inj_on_of_nodup_map hnodup ha hb h

lemma PartRecord.slot_mem {m : Message} {p : Part} (h : PartRecord ms m p r) (hb : b ∈ ms)
    (hq : b.part = some q) : b.slot ∈ r.slots ↔ q.num = p.num := by
  obtain ⟨rest, hrest, -, hr⟩ := h
  rw [mergeParts_slots hr, ← map_cons (f := slot), ← hrest, mem_map, ← hasNum_of_part hq]
  constructor
  · rintro ⟨c, hc, hslot⟩
    obtain ⟨hcms, hnum⟩ := mem_filter.mp hc
    rw [← eq_of_slot_eq hnodup hcms hb hslot]
    exact hnum
  · intro hnum
    exact ⟨b, mem_filter.mpr ⟨hb, hnum⟩, rfl⟩

lemma partRecord_of_slot_mem {rs : List Record} (h : outList ms = some rs) (hr : r ∈ rs)
    (hb : b ∈ ms) (hq : b.part = some q) (hslot : b.slot ∈ r.slots) : ∃ m p, PartRecord ms m p r ∧
    q.num = p.num := by
  rcases (mem_outList ms h).mp hr with ⟨m, hm, hnone, rfl⟩ | ⟨m, p, hrec⟩
  · have heq : b = m := eq_of_slot_eq hnodup hb hm (mem_singleton.mp hslot)
    rw [heq, hnone] at hq
    cases hq
  · exact ⟨m, p, hrec, (hrec.slot_mem hnodup hb hq).mp hslot⟩

end Slots

variable {ms : List Message} {rs : List Record} {b : Message} {k : Nat} {m : Message} {r : Record}
  {n : Nat}

lemma exists_record (h : outList ms = some rs) (hb : b ∈ ms) : ∃ r ∈ rs, b.slot ∈ r.slots := by
  have hmem : b.slot ∈ rs.flatMap Record.slots :=
    (outList_slots ms rs h).mem_iff.mpr (mem_map.mpr ⟨b, hb, rfl⟩)
  exact mem_flatMap.mp hmem

/-! ## Parts of different messages -/

def Part.count (p : Part) : Nat := (tonumber10 p.max).getD 0

/-- The text of a record of `n` parts consists of the texts with numbers `pieces`. -/
structure TextOf (n : Nat) (pieces : List (Nat × Str)) (msg : Str) : Prop where
  sorted : pieces.Pairwise fun a b => a.1 < b.1
  range : ∀ k text, (k, text) ∈ pieces → 1 ≤ k ∧ k ≤ n
  text : msg = finish (decide (pieces.length < n)) (pieces.flatMap Prod.snd)

/-- The records put only parts of one message together, with every text at its place. -/
structure PartsKept (ms : List Message) (rs : List Record) : Prop where
  same : ∀ r ∈ rs, ∀ a ∈ ms, ∀ b ∈ ms, ∀ p q, a.part = some p → b.part = some q → a.slot ∈ r.slots →
    b.slot ∈ r.slots → a.phone = b.phone ∧ p.num = q.num ∧ p.count = q.count
  kept : ∀ a ∈ ms, ∀ p, a.part = some p → ∃ r ∈ rs, a.slot ∈ r.slots ∧
    ∃ pieces, TextOf p.count pieces r.msg ∧ ∀ b ∈ ms, ∀ q, b.part = some q → b.slot ∈ r.slots →
      ∃ k, q.ord = tostring k ∧ (k, b.msg) ∈ pieces

/-- Parts with the same number are of one message, and among its parts. -/
structure Consistent (ms : List Message) : Prop where
  same : ∀ a ∈ ms, ∀ b ∈ ms, ∀ p q, a.part = some p → b.part = some q → p.num = q.num →
    a.phone = b.phone ∧ p.count = q.count ∧ (p.ord = q.ord → a.msg = b.msg)
  ord : ∀ a ∈ ms, ∀ p, a.part = some p → ∃ k, 1 ≤ k ∧ k ≤ p.count ∧ p.ord = tostring k

lemma TextOf.unique {pieces : List (Nat × Str)} {msg : Str} (h : TextOf n pieces msg) {x y : Str}
    (hx : (k, x) ∈ pieces) (hy : (k, y) ∈ pieces) : x = y := by
  have hinj := inj_on_of_nodup_map (f := Prod.fst)
    (pairwise_map.mpr (h.sorted.imp fun hlt => Nat.ne_of_lt hlt)) hx hy rfl
  exact (Prod.mk.inj hinj).2

lemma Consistent.isSome (h : Consistent ms) : (outList ms).isSome := by
  rw [outList_isSome]
  intro num m hm p hp
  have hmem := mem_of_find?_eq_some hm
  obtain ⟨k, h1, h2, hord⟩ := h.ord m hmem p hp
  exact ⟨m, hmem, p, hp, rfl, k, h1, h2, hord⟩

lemma PartRecord.head (h : PartRecord ms m p r) : m ∈ ms ∧ m.part = some p := by
  obtain ⟨rest, hrest, hp, -⟩ := h
  have hmem : m ∈ partsOf p.num ms := by rw [hrest]; exact mem_cons_self
  exact ⟨(mem_filter.mp hmem).1, hp⟩

lemma PartRecord.text {ms : List Message} {p : Part} (h : PartRecord ms m p r) :
    TextOf p.count (piecesOf (build (partsOf p.num ms)) 1 p.count) r.msg ∧ r.phone = m.phone := by
  obtain ⟨rest, hrest, -, hr⟩ := h
  obtain ⟨hmsg, hphone⟩ := mergeParts_text hr (n := p.count) rfl
  rw [hrest]
  refine ⟨⟨piecesOf_sorted _ _ _, fun k text hk => ?_, hmsg⟩, hphone⟩
  obtain ⟨h1, h2, -⟩ := mem_piecesOf.mp hk
  omega

lemma Consistent.mem_pieces (h : Consistent ms) (hb : b ∈ ms) {q : Part} (hq : b.part = some q)
    (hn : q.count = n) : ∃ k, q.ord = tostring k ∧
    (k, b.msg) ∈ piecesOf (build (partsOf q.num ms)) 1 n := by
  obtain ⟨k, h1, h2, hord⟩ := h.ord b hb q hq
  refine ⟨k, hord, mem_piecesOf.mpr ⟨h1, by omega, ?_⟩⟩
  have hmem : b ∈ partsOf q.num ms := mem_filter.mpr ⟨hb, (hasNum_of_part hq).mpr rfl⟩
  have hsome : (build (partsOf q.num ms) (tostring k)).isSome :=
    (build_isSome _ _).mpr ⟨b, hmem, q, hq, hord⟩
  obtain ⟨⟨text, short⟩, hr⟩ := Option.isSome_iff_exists.mp hsome
  obtain ⟨c, hc, q', hq', hord', htext⟩ := build_some hr
  obtain ⟨hcms, hcnum⟩ := mem_filter.mp hc
  have hsame := (h.same b hb c hcms q q' hq hq' ((hasNum_of_part hq').mp hcnum).symm).2.2
    (hord.trans hord'.symm)
  rw [Prod.mk.injEq] at htext
  exact ⟨short, by rw [hr, htext.1, hsame]⟩

lemma Consistent.partsKept (h : Consistent ms) (hnodup : (ms.map slot).Nodup)
    (hrs : outList ms = some rs) : PartsKept ms rs := by
  constructor
  · intro r hr a ha b hb p q hp hq hslotA hslotB
    obtain ⟨m, p', hrec, hnum⟩ := partRecord_of_slot_mem hnodup hrs hr ha hp hslotA
    have hnumB := (hrec.slot_mem hnodup hb hq).mp hslotB
    have hnum' : p.num = q.num := hnum.trans hnumB.symm
    obtain ⟨hphone, hcount, -⟩ := h.same a ha b hb p q hp hq hnum'
    exact ⟨hphone, hnum', hcount⟩
  · intro a ha p hp
    obtain ⟨r, hr, hslot⟩ := exists_record hrs ha
    obtain ⟨m, p', hrec, hnum⟩ := partRecord_of_slot_mem hnodup hrs hr ha hp hslot
    obtain ⟨hm, hmp⟩ := hrec.head
    have hcount : p'.count = p.count := (h.same a ha m hm p p' hp hmp hnum).2.1.symm
    obtain ⟨htext, -⟩ := hrec.text
    refine ⟨r, hr, hslot, _, hcount ▸ htext, fun b hb q hq hslotB => ?_⟩
    have hnumB := (hrec.slot_mem hnodup hb hq).mp hslotB
    have hcountB : q.count = p'.count := (h.same b hb m hm q p' hq hmp hnumB).2.1
    rw [← hnumB]
    exact h.mem_pieces hb hq (hcountB.trans hcount)

lemma PartsKept.consistent (h : PartsKept ms rs) (hnodup : (ms.map slot).Nodup)
    (hrs : outList ms = some rs) : Consistent ms := by
  constructor
  · intro a ha b hb p q hp hq hnum
    obtain ⟨r, hr, hslot, pieces, htext, hall⟩ := h.kept a ha p hp
    obtain ⟨m, p', hrec, hnumA⟩ := partRecord_of_slot_mem hnodup hrs hr ha hp hslot
    have hslotB : b.slot ∈ r.slots := (hrec.slot_mem hnodup hb hq).mpr (hnum.symm.trans hnumA)
    obtain ⟨hphone, -, hcount⟩ := h.same r hr a ha b hb p q hp hq hslot hslotB
    refine ⟨hphone, hcount, fun hord => ?_⟩
    obtain ⟨k, hk, hmemA⟩ := hall a ha p hp hslot
    obtain ⟨k', hk', hmemB⟩ := hall b hb q hq hslotB
    have hkk : k = k' := tostring_injective (by rw [← hk, ← hk', hord])
    exact htext.unique hmemA (hkk ▸ hmemB)
  · intro a ha p hp
    obtain ⟨r, -, hslot, pieces, htext, hall⟩ := h.kept a ha p hp
    obtain ⟨k, hk, hmem⟩ := hall a ha p hp hslot
    obtain ⟨h1, h2⟩ := htext.range k _ hmem
    exact ⟨k, h1, h2, hk⟩

/-- **Only parts of one message are merged.** For every table, the loop ends, keeps different
messages apart and their texts complete, iff parts with the same number are of one message that has
a part of that number, with one text each. -/
theorem parts_kept_iff (table : Str → Option Message) (n : Nat)
    (hkey : ∀ k m, table k = some m → m.slot = k) :
    (∃ rs, outLoop n 0 table = some rs ∧ PartsKept (present table 0 n) rs) ↔
      Consistent (present table 0 n) := by
  have hnodup := present_nodup hkey 0 n
  rw [outLoop_eq]
  constructor
  · rintro ⟨rs, hrs, hkept⟩
    exact hkept.consistent hnodup hrs
  · intro h
    obtain ⟨rs, hrs⟩ := Option.isSome_iff_exists.mp h.isSome
    exact ⟨rs, hrs, h.partsKept hnodup hrs⟩

def tableOf (ms : List Message) (k : Str) : Option Message := ms.find? fun m => m.slot = k

lemma tableOf_slot (ms : List Message) (k : Str) (m : Message) (h : tableOf ms k = some m) :
    m.slot = k := by
  simpa using find?_some h

def partOfTwo (slot phone ord msg : Str) : Message :=
  ⟨slot, phone, lit "2", some ⟨lit "7", ord, lit "2"⟩, msg, lit "short"⟩

/-- Two senders use the same number. The first text is lost, the second one is shown for the first
sender. -/
theorem senders_are_mixed :
    (outLoop 2 0 (tableOf [partOfTwo (lit "0") (lit "+15") (lit "1") (lit "hello "),
      partOfTwo (lit "1") (lit "+16") (lit "1") (lit "other ")])).map
        (map fun r => (r.slots, r.phone, r.msg)) =
      some [([lit "0", lit "1"], lit "+15", lit "Partial Message : other ")] := by
  decide +kernel

def oneMessage : List Message :=
  [partOfTwo (lit "0") (lit "+15") (lit "2") (lit "world"),
    partOfTwo (lit "1") (lit "+15") (lit "1") (lit "hello ")]

theorem parts_kept_oneMessage : ∃ rs, outLoop 2 0 (tableOf oneMessage) = some rs ∧
    PartsKept (present (tableOf oneMessage) 0 2) rs := by
  refine (parts_kept_iff (tableOf oneMessage) 2 (tableOf_slot oneMessage)).mpr ?_
  have hpresent : present (tableOf oneMessage) 0 2 = oneMessage := by decide +kernel
  rw [hpresent]
  constructor
  · intro a ha b hb p q hp hq _
    simp only [oneMessage, mem_cons, not_mem_nil, or_false] at ha hb
    rcases ha with rfl | rfl <;> rcases hb with rfl | rfl <;> cases hp <;> cases hq <;> decide
  intro a ha p hp
  simp only [oneMessage, mem_cons, not_mem_nil, or_false] at ha
  rcases ha with rfl | rfl <;> cases hp
  · exact ⟨2, by decide +kernel⟩
  · exact ⟨1, by decide +kernel⟩

/-! ## Complete messages -/

def Block.body (b : Block) : Str :=
  match b.part with
  | none => b.text
  | some _ => (b.text.dropWhile (· ≠ 10)).drop 1

lemma joinLines_append (x first : Str) (ls : List Str) :
    joinLines (x ++ first) ls = x ++ joinLines first ls := by
  induction ls generalizing first with
  | nil => rfl
  | cons l ls ih =>
    have happend : x ++ first ++ lit "\n" ++ l = x ++ (first ++ lit "\n" ++ l) := by
      simp only [append_assoc]
    change joinLines (x ++ first ++ lit "\n" ++ l) ls = x ++ joinLines (first ++ lit "\n" ++ l) ls
    rw [happend, ih]

lemma joinLines_linesFrom {t : Str} : ∀ {cur l : Str} {ls : List Str},
    linesFrom 10 cur (t ++ [10]) = l :: ls → joinLines l ls = cur ++ t := by
  induction t with
  | nil =>
    intro cur l ls h
    simp only [nil_append, linesFrom, if_true, cons.injEq] at h
    rw [← h.1, ← h.2, append_nil]
    rfl
  | cons c t ih =>
    intro cur l ls h
    rw [cons_append, linesFrom] at h
    split_ifs at h with hc
    · obtain ⟨ls', hls'⟩ := @linesFrom_head _ _ 10 t []
      rw [hls', cons.injEq] at h
      rw [← h.1, ← h.2, hc]
      change joinLines (cur ++ lit "\n" ++ _) ls' = _
      rw [joinLines_append, ih hls']
      simp [lit]
    · rw [ih h, append_assoc]
      rfl

lemma message_msg {b : Block} (h : Framed b) : b.message.msg = b.body := by
  obtain ⟨ls, hls⟩ := @segments_head _ _ 10 b.text
  have hjoin : joinLines (b.text.takeWhile (· ≠ 10)) ls = b.text := joinLines_linesFrom hls
  have hlen : ls.length + 1 = b.nline := by
    rw [h.nline, ← length_segments, hls, length_cons]
  unfold Block.message Block.body
  rw [hls]
  cases hpart : b.part with
  | none => exact hjoin
  | some p =>
    have htwo := h.part (by rw [hpart]; rfl)
    cases ls with
    | nil => rw [length_nil] at hlen; omega
    | cons line ls =>
      have hsplit : b.text.takeWhile (· ≠ 10) ++ 10 :: joinLines line ls =
          b.text.takeWhile (· ≠ 10) ++ b.text.dropWhile (· ≠ 10) := by
        rw [takeWhile_append_dropWhile]
        refine Eq.trans ?_ hjoin
        change _ = joinLines (b.text.takeWhile (· ≠ 10) ++ lit "\n" ++ line) ls
        rw [joinLines_append, append_assoc]
        rfl
      rw [← append_cancel_left hsplit]
      rfl

def Block.ordNum (b : Block) : Nat := (b.part.bind fun p => tonumber10 p.ord).getD 0

lemma ordNum_eq {b : Block} (hp : b.part = some p) (hk : p.ord = tostring k) : b.ordNum = k := by
  unfold Block.ordNum
  rw [hp, Option.bind_some, hk, tonumber10_tostring]
  rfl

/-- The parts of one sender with one number. Every message is complete, with one part for each
number. -/
structure Complete (bs : List Block) : Prop where
  count : ∀ b ∈ bs, ∀ c ∈ bs, ∀ p q, b.part = some p → c.part = some q → b.phone = c.phone →
    p.num = q.num → p.count = q.count
  ord : ∀ b ∈ bs, ∀ p, b.part = some p → ∃ k, 1 ≤ k ∧ k ≤ p.count ∧ p.ord = tostring k
  all : ∀ b ∈ bs, ∀ p, b.part = some p → ∀ k, 1 ≤ k → k ≤ p.count →
    ∃ c ∈ bs, ∃ q, c.part = some q ∧ c.phone = b.phone ∧ q.num = p.num ∧ q.ord = tostring k
  unique : ∀ b ∈ bs, ∀ c ∈ bs, ∀ p q, b.part = some p → c.part = some q → b.phone = c.phone →
    p.num = q.num → p.ord = q.ord → b = c

instance (bs : List Block) : Decidable (Complete bs) :=
  decidable_of_iff
    ((∀ b ∈ bs, ∀ c ∈ bs, ∀ p ∈ b.part, ∀ q ∈ c.part, b.phone = c.phone → p.num = q.num →
        p.count = q.count ∧ (p.ord = q.ord → b = c)) ∧
      ∀ b ∈ bs, ∀ p ∈ b.part, (∃ k ∈ range' 1 p.count, p.ord = tostring k) ∧
        ∀ k ∈ range' 1 p.count,
          ∃ c ∈ bs, ∃ q ∈ c.part, c.phone = b.phone ∧ q.num = p.num ∧ q.ord = tostring k) <| by
    simp only [mem_range'_1]
    constructor
    · rintro ⟨hpair, hpart⟩
      refine ⟨fun b hb c hc p q hp hq hphone hnum => (hpair b hb c hc p hp q hq hphone hnum).1,
        fun b hb p hp => ?_, fun b hb p hp k h1 h2 => (hpart b hb p hp).2 k ⟨h1, by omega⟩,
        fun b hb c hc p q hp hq hphone hnum => (hpair b hb c hc p hp q hq hphone hnum).2⟩
      obtain ⟨k, hk, hord⟩ := (hpart b hb p hp).1
      exact ⟨k, hk.1, by omega, hord⟩
    · intro h
      refine ⟨fun b hb c hc p hp q hq hphone hnum => ⟨h.count b hb c hc p q hp hq hphone hnum,
        h.unique b hb c hc p q hp hq hphone hnum⟩, fun b hb p hp => ⟨?_, fun k hk => ?_⟩⟩
      · obtain ⟨k, h1, h2, hord⟩ := h.ord b hb p hp
        exact ⟨k, ⟨h1, by omega⟩, hord⟩
      · exact h.all b hb p hp k hk.1 (by omega)

/-- The text is that of the parts `l` in the order of their numbers, but for a last empty line. -/
structure InOrder (bs : List Block) (r : Record) (l : List Block) : Prop where
  parts : ∀ b, b ∈ l ↔ b ∈ bs ∧ b.part.isSome ∧ b.slot ∈ r.slots
  sorted : l.Pairwise fun b c => b.ordNum < c.ordNum
  text : r.msg = finish false (l.flatMap Block.body)

def OwnNumbers (bs : List Block) : Prop :=
  ∀ b ∈ bs, ∀ c ∈ bs, ∀ p q, b.part = some p → c.part = some q → p.num = q.num → b.phone = c.phone

section Complete

variable {bs : List Block} {ms : List Message} (hms : ∀ m, m ∈ ms ↔ ∃ b ∈ bs, b.message = m)
  (hcomplete : Complete bs)

include hms hcomplete

lemma Complete.consistent (hown : OwnNumbers bs) : Consistent ms := by
  constructor
  · intro m hm m' hm' p q hp hq hnum
    obtain ⟨b, hb, rfl⟩ := (hms m).mp hm
    obtain ⟨c, hc, rfl⟩ := (hms m').mp hm'
    have hphone := hown b hb c hc p q hp hq hnum
    refine ⟨hphone, hcomplete.count b hb c hc p q hp hq hphone hnum, fun hord => ?_⟩
    rw [hcomplete.unique b hb c hc p q hp hq hphone hnum hord]
  · intro m hm p hp
    obtain ⟨b, hb, rfl⟩ := (hms m).mp hm
    exact hcomplete.ord b hb p hp

lemma Complete.pieces (hown : OwnNumbers bs) (hframed : ∀ b ∈ bs, Framed b) {p : Part} {c : Nat →
    Block} (hc : ∀ k, 1 ≤ k → k ≤ p.count → c k ∈ bs ∧ ∃ q, (c k).part = some q ∧ q.num = p.num ∧
    q.ord = tostring k) :
    piecesOf (build (partsOf p.num ms)) 1 p.count = (range' 1 p.count).map fun k =>
    (k, (c k).body) := by
  unfold piecesOf
  rw [filterMap_eq_map_iff_forall_eq_some]
  intro k hk
  rw [mem_range'_1] at hk
  obtain ⟨hck, q, hq, hnum, hord⟩ := hc k hk.1 (by omega)
  have hmem : (c k).message ∈ partsOf p.num ms :=
    mem_filter.mpr ⟨(hms _).mpr ⟨c k, hck, rfl⟩, (hasNum_of_part hq).mpr hnum⟩
  obtain ⟨r, hr⟩ := Option.isSome_iff_exists.mp
    ((build_isSome _ (tostring k)).mpr ⟨_, hmem, q, hq, hord⟩)
  obtain ⟨m, hm, q', hq', hord', rfl⟩ := build_some hr
  obtain ⟨hmms, hmnum⟩ := mem_filter.mp hm
  obtain ⟨b, hb, rfl⟩ := (hms _).mp hmms
  have hnum' : q.num = q'.num := hnum.trans ((hasNum_of_part hq').mp hmnum).symm
  have hsame : c k = b := hcomplete.unique _ hck b hb q q' hq hq'
    (hown _ hck b hb q q' hq hq' hnum') hnum'
    (hord.trans hord'.symm)
  rw [hr, Option.map_some, ← hsame, message_msg (hframed _ hck)]

lemma Complete.inOrder (hown : OwnNumbers bs) (hframed : ∀ b ∈ bs, Framed b)
    (hnodup : (ms.map slot).Nodup) {m : Message} {p : Part} {r : Record}
    (hrec : PartRecord ms m p r) : ∃ l, InOrder bs r l := by
  obtain ⟨hm, hp⟩ := hrec.head
  obtain ⟨b, hb, rfl⟩ := (hms m).mp hm
  have : Nonempty Block := ⟨b⟩
  have hall : ∀ k, 1 ≤ k → k ≤ p.count →
      ∃ c, c ∈ bs ∧ ∃ q, c.part = some q ∧ q.num = p.num ∧ q.ord = tostring k := by
    intro k h1 h2
    obtain ⟨c, hc, q, hq, -, hnum, hord⟩ := hcomplete.all b hb p hp k h1 h2
    exact ⟨c, hc, q, hq, hnum, hord⟩
  choose! c hc using hall
  have hslot {x : Block} (hx : x ∈ bs) {q : Part} (hq : x.part = some q) :
      x.slot ∈ r.slots ↔ q.num = p.num := hrec.slot_mem hnodup ((hms _).mpr ⟨x, hx, rfl⟩) hq
  have hnum {k : Nat} (hk : k ∈ range' 1 p.count) : (c k).ordNum = k := by
    rw [mem_range'_1] at hk
    obtain ⟨-, q, hq, -, hord⟩ := hc k hk.1 (by omega)
    exact ordNum_eq hq hord
  refine ⟨(range' 1 p.count).map c, ⟨fun x => ?_, ?_, ?_⟩⟩
  · rw [mem_map]
    constructor
    · rintro ⟨k, hk, rfl⟩
      rw [mem_range'_1] at hk
      obtain ⟨hck, q, hq, hqnum, -⟩ := hc k hk.1 (by omega)
      exact ⟨hck, by rw [hq]; rfl, (hslot hck hq).mpr hqnum⟩
    · rintro ⟨hx, hpart, hxslot⟩
      obtain ⟨q, hq⟩ := Option.isSome_iff_exists.mp hpart
      have hqnum := (hslot hx hq).mp hxslot
      have hphone := hown x hx b hb q p hq hp hqnum
      have hcount := hcomplete.count x hx b hb q p hq hp hphone hqnum
      obtain ⟨k, h1, h2, hord⟩ := hcomplete.ord x hx q hq
      obtain ⟨hck, q', hq', hqnum', hord'⟩ := hc k h1 (by omega)
      refine ⟨k, mem_range'_1.mpr ⟨h1, by omega⟩, ?_⟩
      have hnum' : q'.num = q.num := hqnum'.trans hqnum.symm
      exact hcomplete.unique _ hck x hx q' q hq' hq (hown _ hck x hx q' q hq' hq hnum') hnum'
        (hord'.trans hord.symm)
  · refine pairwise_map.mpr (List.Pairwise.imp_of_mem ?_ pairwise_lt_range')
    intro k k' hk hk' hlt
    rw [hnum hk, hnum hk']
    exact hlt
  · have htext := hrec.text.1.text
    rw [hcomplete.pieces hms hown hframed hc] at htext
    rw [htext, length_map, length_range', decide_eq_false (Nat.lt_irrefl _), flatMap_map,
      flatMap_map]

end Complete

lemma ownNumbers_of_inOrder {bs : List Block} {ms : List Message}
    (hms : ∀ m, m ∈ ms ↔ ∃ b ∈ bs, b.message = m) (hnodup : (ms.map slot).Nodup)
    (hcomplete : Complete bs) {rs : List Record} (hrs : outList ms = some rs)
    (h : ∀ r ∈ rs, (∃ b ∈ bs, b.part.isSome ∧ b.slot ∈ r.slots) → ∃ l, InOrder bs r l) :
    OwnNumbers bs := by
  intro b hb c hc p q hp hq hnum
  obtain ⟨k, h1, h2, -⟩ := hcomplete.ord b hb p hp
  obtain ⟨k', h1', h2', -⟩ := hcomplete.ord c hc q hq
  obtain ⟨b₁, hb₁, p₁, hp₁, hphone, hnum₁, hord₁⟩ :=
    hcomplete.all b hb p hp 1 (by decide) (by omega)
  obtain ⟨c₁, hc₁, q₁, hq₁, hphone', hnum₁', hord₁'⟩ :=
    hcomplete.all c hc q hq 1 (by decide) (by omega)
  have hmb : b₁.message ∈ ms := (hms _).mpr ⟨b₁, hb₁, rfl⟩
  have hmc : c₁.message ∈ ms := (hms _).mpr ⟨c₁, hc₁, rfl⟩
  obtain ⟨r, hr, hslot⟩ := exists_record hrs hmb
  obtain ⟨m, p', hrec, hnum'⟩ := partRecord_of_slot_mem hnodup hrs hr hmb hp₁ hslot
  have hslot' : c₁.slot ∈ r.slots :=
    (hrec.slot_mem hnodup hmc hq₁).mpr (by rw [hnum₁', ← hnum, ← hnum₁, hnum'])
  obtain ⟨l, hl⟩ := h r hr ⟨b₁, hb₁, by rw [hp₁]; rfl, hslot⟩
  have hlb : b₁ ∈ l := (hl.parts b₁).mpr ⟨hb₁, by rw [hp₁]; rfl, hslot⟩
  have hlc : c₁ ∈ l := (hl.parts c₁).mpr ⟨hc₁, by rw [hq₁]; rfl, hslot'⟩
  have heq : b₁ = c₁ := inj_on_of_nodup_map (f := Block.ordNum)
    (pairwise_map.mpr (hl.sorted.imp fun hlt => Nat.ne_of_lt hlt)) hlb hlc
    ((ordNum_eq hp₁ hord₁).trans (ordNum_eq hq₁ hord₁').symm)
  rw [← hphone, ← hphone', heq]

/-- **Merged texts do not depend on the order.** In a file of complete messages, the texts of merged
records are in the order of their numbers iff no two senders use the same number. -/
theorem merged_in_order_iff {bs : List Block} {used max : Str} (hused : 10 ∉ used) (hmax : 10 ∉ max)
    (hframed : ∀ b ∈ bs, Framed b) (hslot : ∀ b ∈ bs, ∃ k, b.slot = tostring k)
    (hnodup : (bs.map Block.slot).Nodup) (hcomplete : Complete bs) :
    (∃ out, merge (Written.bytes ⟨used, max, bs⟩) = some out ∧
      ∀ r ∈ out.records, (∃ b ∈ bs, b.part.isSome ∧ b.slot ∈ r.slots) → ∃ l, InOrder bs r l) ↔
      OwnNumbers bs := by
  obtain ⟨ms, hmerge, hms, -, hnodup'⟩ := merge_blocks hused hmax hframed hslot hnodup
  rw [hmerge]
  constructor
  · rintro ⟨out, hout, h⟩
    obtain ⟨rs, hrs, rfl⟩ := Option.map_eq_some_iff.mp hout
    exact ownNumbers_of_inOrder hms hnodup' hcomplete hrs h
  intro hown
  obtain ⟨rs, hrs⟩ := Option.isSome_iff_exists.mp (hcomplete.consistent hms hown).isSome
  refine ⟨⟨used, max, rs⟩, by rw [hrs]; rfl, fun r hr ⟨b, hb, hpart, hbslot⟩ => ?_⟩
  obtain ⟨q, hq⟩ := Option.isSome_iff_exists.mp hpart
  obtain ⟨m, p, hrec, -⟩ :=
    partRecord_of_slot_mem hnodup' hrs hr ((hms _).mpr ⟨b, hb, rfl⟩) hq hbslot
  exact hcomplete.inOrder hms hown hframed hnodup' hrec

def mixedBlocks : List Block :=
  ([⟨lit "0", lit "x", lit "+15", some (lit "25-01-01"), some (lit "12:00:00 +0h"),
    some (lit "Msg# 7,1/2\nhello ")⟩,
    ⟨lit "1", lit "x", lit "+16", some (lit "25-01-01"), some (lit "12:00:01 +0h"),
      some (lit "Msg# 7,1/2\nother ")⟩,
    ⟨lit "2", lit "x", lit "+16", some (lit "25-01-01"), some (lit "12:00:02 +0h"),
      some (lit "Msg# 7,2/2\ntext")⟩,
    ⟨lit "3", lit "x", lit "+15", some (lit "25-01-01"), some (lit "12:00:03 +0h"),
      some (lit "Msg# 7,2/2\nworld")⟩
    ].mapM writeEntry).getD []

/-- Both messages are complete. One record comes out, with a part of each. -/
theorem complete_messages_mixed : Complete mixedBlocks ∧
    (merge (Written.bytes ⟨lit "4", lit "20", mixedBlocks⟩)).map
        (fun out => out.records.map fun r => (r.slots, r.phone, r.msg)) =
      some [([lit "0", lit "1", lit "2", lit "3"], lit "+15", lit "other world")] := by
  decide +kernel

/-- The second part of the message is in a lower slot than the first one. -/
theorem merged_in_order_partBlocks : ∃ out, merge (Written.bytes ⟨lit "3", lit "20", partBlocks⟩) =
    some out ∧
      ∀ r ∈ out.records, (∃ b ∈ partBlocks, b.part.isSome ∧ b.slot ∈ r.slots) →
        ∃ l, InOrder partBlocks r l := by
  have hframed : ∀ b ∈ partBlocks, 10 ∉ b.slot ∧ 10 ∉ b.phone ∧ 10 ∉ b.short ∧
      b.nline = b.text.count 10 + 1 ∧ (b.part.isSome → 2 ≤ b.nline) := by
    decide +kernel
  have hslot : ∀ b ∈ partBlocks, ∃ k < 4, b.slot = tostring k := by decide +kernel
  have hphone : ∀ b ∈ partBlocks, ∀ c ∈ partBlocks, ∀ p ∈ b.part, ∀ q ∈ c.part,
    b.phone = c.phone := by
    decide +kernel
  refine (merged_in_order_iff (by decide) (by decide) (fun b hb => ?_) (fun b hb => ?_)
    (by decide +kernel)
    (by decide +kernel)).mpr fun b hb c hc p q hp hq _ => hphone b hb c hc p hp q hq
  · obtain ⟨h1, h2, h3, h4, h5⟩ := hframed b hb
    exact ⟨h1, h2, h3, h4, h5⟩
  · obtain ⟨k, -, hk⟩ := hslot b hb
    exact ⟨k, hk⟩

end SourceMaster.Sms
