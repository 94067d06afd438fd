import Mathlib.Data.List.Perm.Basic
import Mathlib.Data.List.Nodup
import Mathlib.Data.List.Range
import SourceMaster.Sms.Merge

/-!
# Every slot in one record

What `merge.lua` does with the slots of the messages, in three steps:

* the lines of a file that `smsread.lua` has written are read as the messages of its blocks
  (`readMessages_blocks`), if line feeds are in the texts only and no text of one line looks like a
  part number;
* the loops over the table amount to a recursion over the messages in the order of their slots
  (`outLoop_eq`);
* in that recursion every message goes into one record (`outList_slots`), and it fails only if a
  long message has none of its parts (`outList_isSome`).
-/

namespace SourceMaster.Sms

open SourceMaster.Lines Function List Option Message Nat Written

/-! ## Numbers -/

lemma isdigit_of_mem_tostring {n b : Nat} (h : b ∈ tostring n) : isdigit b := by
  obtain ⟨c, hc, rfl⟩ := List.mem_map.mp h
  have hdigit := isDigit_of_mem_toDigits (by decide) (by decide) hc
  have := Char.isDigit_iff_toNat.mp hdigit
  unfold isdigit
  simpa using this

variable {b : Block} {num : Str} (n : Nat) {m : Message} {p : Part} (ms : List Message)

lemma tostring_ne_nil : tostring n ≠ [] := by
  unfold tostring
  simp

lemma trim_tostring : trim (tostring n) = tostring n := by
  have hdrop : ∀ s : Str, (∀ b ∈ s, isdigit b) → s.dropWhile isspace = s := by
    intro s hs
    cases s with
    | nil => rfl
    | cons b s =>
      have hb := hs b mem_cons_self
      have hspace : isspace b = false := by
        unfold isdigit at hb
        unfold isspace
        simp only [Bool.and_eq_true, decide_eq_true_eq] at hb
        simp only [Bool.or_eq_false_iff, Bool.and_eq_false_iff, decide_eq_false_iff_not]
        omega
      rw [dropWhile_cons_of_neg (by simp [hspace])]
  unfold trim
  rw [hdrop _ fun b hb => isdigit_of_mem_tostring hb,
    hdrop _ fun b hb => isdigit_of_mem_tostring (mem_reverse.mp hb), reverse_reverse]

lemma tonumber10_tostring : tonumber10 (tostring n) = some n := by
  have hall : (tostring n).all isdigit :=
    List.all_eq_true.mpr fun b hb => isdigit_of_mem_tostring hb
  unfold tonumber10
  rw [trim_tostring]
  rw [if_pos ⟨tostring_ne_nil n, hall⟩]
  unfold tostring
  rw [foldl_map]
  exact congrArg some ((ofDigitChars_eq_foldl).symm.trans ofDigitChars_ten_toDigits)

lemma tostring_injective : Function.Injective tostring := by
  intro a b h
  have := tonumber10_tostring a
  rw [h, tonumber10_tostring] at this
  exact (some.inj this).symm

/-! ## The loops over the table -/

section

variable (table : Str → Option Message)

def present (i n : Nat) : List Message :=
  (range' i n).filterMap fun j => table (tostring j)

lemma present_succ (i n : Nat) :
    present table i (n + 1) = (table (tostring i)).toList ++ present table (i + 1) n := by
  unfold present
  rw [range'_succ, filterMap_cons]
  cases table (tostring i) <;> rfl

lemma present_update {i j : Nat} (h : j < i) (n : Nat) :
    present (update table (tostring j) none) i n = present table i n := by
  refine filterMap_congr fun k hk => update_of_ne (fun heq => ?_) _ _
  have := tostring_injective heq
  rw [mem_range'_1] at hk
  omega

end

def partsOf (num : Str) (ms : List Message) : List Message := ms.filter (hasNum num)

def othersOf (num : Str) (ms : List Message) : List Message := ms.filter fun m => !m.hasNum num

lemma gather_spec (num : Str) (n i : Nat) (table : Str → Option Message) :
    (gather num n i table).1 = partsOf num (present table i n) ∧
      present (gather num n i table).2 i n = othersOf num (present table i n) ∧ ∀ j < i,
      (gather num n i table).2 (tostring j) = table (tostring j) := by
  induction n generalizing i table with
  | zero => exact ⟨rfl, rfl, fun _ _ => rfl⟩
  | succ n ih =>
    rw [present_succ table]
    unfold gather
    cases hm : table (tostring i) with
    | none =>
      obtain ⟨h1, h2, h3⟩ := ih (i + 1) table
      refine ⟨h1, ?_, fun j hj => h3 j (by omega)⟩
      rw [present_succ, h3 i (by omega), hm]
      exact h2
    | some m =>
      dsimp only
      by_cases hnum : m.hasNum num
      · obtain ⟨h1, h2, h3⟩ := ih (i + 1) (update table (tostring i) none)
        rw [if_pos hnum]
        refine ⟨?_, ?_, fun j hj => ?_⟩
        · rw [h1, present_update table (by omega)]
          simp [partsOf, hnum]
        · rw [present_succ, h3 i (by omega), update_self, h2, present_update table (by omega)]
          simp [othersOf, hnum]
        · rw [h3 j (by omega), update_of_ne (fun heq => by have := tostring_injective heq; omega)]
      · obtain ⟨h1, h2, h3⟩ := ih (i + 1) table
        rw [if_neg hnum]
        refine ⟨?_, ?_, fun j hj => h3 j (by omega)⟩
        · rw [h1]
          simp [partsOf, hnum]
        · rw [present_succ, h3 i (by omega), hm, h2]
          simp [othersOf, hnum]

/-- Merging a list of messages: a part takes the other parts of its message out of the rest. -/
def outList : List Message → Option (List Record)
  | [] => some []
  | m :: ms =>
    match m.part with
    | none => (outList ms).map fun rs => ⟨[m.slot], m.phone, m.nline, m.msg, m.short⟩ :: rs
    | some p =>
      match mergeParts m p (partsOf p.num ms) with
      | none => none
      | some r => (outList (othersOf p.num ms)).map fun rs => r :: rs
termination_by ms => ms.length
decreasing_by
  · exact lt_succ_self _
  · exact lt_succ_of_le (length_filter_le _ ms)

lemma outLoop_eq (n i : Nat) (table : Str → Option Message) :
    outLoop n i table = outList (present table i n) := by
  induction n generalizing i table with
  | zero => rw [show present table i 0 = [] from rfl, outList]; rfl
  | succ n ih =>
    rw [present_succ, outLoop]
    cases hm : table (tostring i) with
    | none => exact ih (i + 1) table
    | some m =>
      dsimp only [toList, cons_append, nil_append]
      rw [outList]
      cases hp : m.part with
      | none => dsimp only; rw [ih]
      | some p =>
        obtain ⟨h1, h2, _⟩ := gather_spec p.num n (i + 1) table
        dsimp only
        rewrite [h1, ih, h2]
        cases mergeParts m p (partsOf p.num (present table (i + 1) n)) <;> rfl

/-! ## Messages and records -/

lemma mergeParts_slots {ms : List Message} {r : Record} (h : mergeParts m p ms = some r) :
    r.slots = m.slot :: ms.map slot := by
  unfold mergeParts at h
  dsimp only at h
  split at h
  · cases h
  · cases h; rfl

lemma outList_slots : ∀ rs, outList ms = some rs →
    (rs.flatMap Record.slots).Perm (ms.map slot) := by
  fun_induction outList ms with
  | case1 => rintro rs ⟨rfl⟩; rfl
  | case2 m ms hp ih =>
    intro rs h
    obtain ⟨rs', hrs', rfl⟩ := map_eq_some_iff.mp h
    exact (ih rs' hrs').cons m.slot
  | case3 m ms p hp hparts => intro rs h; cases h
  | case4 m ms p hp r hparts ih =>
    intro rs h
    obtain ⟨rs', hrs', rfl⟩ := map_eq_some_iff.mp h
    rw [flatMap_cons, mergeParts_slots hparts, map_cons, cons_append]
    refine List.Perm.cons m.slot (((ih rs' hrs').append_left _).trans ?_)
    rw [← map_append]
    exact (filter_append_perm _ ms).map _

lemma build_isSome (k : Str) : (build ms k).isSome ↔ ∃ m ∈ ms, ∃ p, m.part = some p ∧
    p.ord = k := by
  unfold build
  induction ms using reverseRecOn with
  | nil => simp
  | append_singleton ms m ih =>
    rw [foldl_append, foldl_cons, foldl_nil]
    cases hp : m.part with
    | none =>
      rw [ih]
      constructor
      · rintro ⟨m', hm', h⟩
        exact ⟨m', mem_append_left _ hm', h⟩
      rintro ⟨m', hm', p, hp', hord⟩
      rcases mem_append.mp hm' with hm' | hm'
      · exact ⟨m', hm', p, hp', hord⟩
      · rw [mem_singleton.mp hm', hp] at hp'
        cases hp'
    | some p =>
      dsimp only
      by_cases hk : k = p.ord
      · rw [hk, update_self]
        exact ⟨fun _ => ⟨m, by simp, p, hp, rfl⟩, fun _ => rfl⟩
      rw [update_of_ne hk, ih]
      constructor
      · rintro ⟨m', hm', h⟩
        exact ⟨m', mem_append_left _ hm', h⟩
      rintro ⟨m', hm', p', hp', hord⟩
      rcases mem_append.mp hm' with hm' | hm'
      · exact ⟨m', hm', p', hp', hord⟩
      · rw [mem_singleton.mp hm', hp, some_inj] at hp'
        exact absurd hord.symm (hp' ▸ hk)

lemma assemble_short (t : Str → Option (Str × Str)) (n j : Nat) (a : Assembled) :
    (assemble t n j a).short.isSome ↔ a.short.isSome ∨ ∃ k, j ≤ k ∧ k < j + n ∧
    (t (tostring k)).isSome := by
  induction n generalizing j a with
  | zero =>
    constructor
    · exact Or.inl
    · rintro (h | ⟨k, h1, h2, _⟩)
      · exact h
      · omega
  | succ n ih =>
    have hsplit : (∃ k, j ≤ k ∧ k < j + (n + 1) ∧ (t (tostring k)).isSome) ↔
        (t (tostring j)).isSome ∨ ∃ k, j + 1 ≤ k ∧ k < j + 1 + n ∧ (t (tostring k)).isSome := by
      constructor
      · rintro ⟨k, h1, h2, h3⟩
        rcases eq_or_lt_of_le h1 with rfl | hlt
        · exact .inl h3
        · exact .inr ⟨k, hlt, by omega, h3⟩
      · rintro (h | ⟨k, h1, h2, h3⟩)
        · exact ⟨j, le_refl j, by omega, h⟩
        · exact ⟨k, by omega, by omega, h3⟩
    rw [hsplit]
    unfold assemble
    cases ht : t (tostring j) with
    | none =>
      rw [ih]
      simp
    | some r =>
      dsimp only
      rw [ih]
      simp

lemma mergeParts_isSome (m : Message) (p : Part) (ms : List Message) :
    (mergeParts m p ms).isSome ↔
      ∃ c ∈ m :: ms, ∃ q, c.part = some q ∧ ∃ k, 1 ≤ k ∧ k ≤ (tonumber10 p.max).getD 0 ∧
      q.ord = tostring k := by
  have hshort := assemble_short (build (m :: ms)) ((tonumber10 p.max).getD 0) 1 ⟨[], false, none⟩
  have hsome : (mergeParts m p ms).isSome ↔
      (assemble (build (m :: ms)) ((tonumber10 p.max).getD 0) 1
        ⟨[], false, none⟩).short.isSome := by
    unfold mergeParts
    dsimp only
    cases (assemble (build (m :: ms)) ((tonumber10 p.max).getD 0) 1 ⟨[], false, none⟩).short <;>
      simp
  rw [hsome, hshort]
  constructor
  · rintro (h | ⟨k, h1, h2, h3⟩)
    · cases h
    · obtain ⟨c, hc, q, hq, hord⟩ := (build_isSome _ _).mp h3
      exact ⟨c, hc, q, hq, k, h1, by omega, hord⟩
  · rintro ⟨c, hc, q, hq, k, h1, h2, hord⟩
    exact .inr ⟨k, h1, by omega, (build_isSome _ _).mpr ⟨c, hc, q, hq, hord⟩⟩

/-- One of the parts that a message should have according to `p` is among the messages. -/
def HasPart (p : Part) (ms : List Message) : Prop :=
  ∃ c ∈ ms, ∃ q, c.part = some q ∧ q.num = p.num ∧
    ∃ k, 1 ≤ k ∧ k ≤ (tonumber10 p.max).getD 0 ∧ q.ord = tostring k

lemma hasNum_iff : m.hasNum num ↔ ∃ p, m.part = some p ∧ p.num = num := by
  unfold hasNum
  cases m.part <;> simp

lemma mergeParts_isSome_iff (hp : m.part = some p) (ms : List Message) :
    (mergeParts m p (partsOf p.num ms)).isSome ↔ HasPart p (m :: ms) := by
  rw [mergeParts_isSome]
  constructor
  · rintro ⟨c, hc, q, hq, hk⟩
    rcases mem_cons.mp hc with rfl | hc
    · rw [hp, some_inj] at hq
      exact ⟨c, mem_cons_self, q, by rw [hp, hq], by rw [hq], hk⟩
    · obtain ⟨hmem, hnum⟩ := mem_filter.mp hc
      obtain ⟨q', hq', hnum⟩ := hasNum_iff.mp hnum
      rw [hq, some_inj] at hq'
      exact ⟨c, mem_cons_of_mem m hmem, q, hq, hq' ▸ hnum, hk⟩
  · rintro ⟨c, hc, q, hq, hnum, hk⟩
    rcases mem_cons.mp hc with rfl | hc
    · exact ⟨c, mem_cons_self, q, hq, hk⟩
    · exact ⟨c, mem_cons_of_mem m (mem_filter.mpr ⟨hc, hasNum_iff.mpr ⟨q, hq, hnum⟩⟩), q, hq, hk⟩

lemma find_othersOf {num' : Str} (h : num' ≠ num) (ms : List Message) :
    (othersOf num ms).find? (hasNum num') = ms.find? (hasNum num') := by
  unfold othersOf
  rw [find?_filter]
  congr 1
  funext m
  cases hm : m.hasNum num' with
  | false => simp
  | true =>
    obtain ⟨p, hp, hnum⟩ := hasNum_iff.mp hm
    have : m.hasNum num = false := by
      by_contra hnot
      obtain ⟨p', hp', hnum'⟩ := hasNum_iff.mp (by simpa using hnot)
      rw [hp, some_inj] at hp'
      exact h (by rw [← hnum, hp', hnum'])
    simp [this]

lemma hasPart_othersOf (h : p.num ≠ num) (ms : List Message) :
    HasPart p (othersOf num ms) ↔ HasPart p ms := by
  constructor
  · rintro ⟨c, hc, hq⟩
    exact ⟨c, (mem_filter.mp hc).1, hq⟩
  rintro ⟨c, hc, q, hq, hnum, hk⟩
  refine ⟨c, mem_filter.mpr ⟨hc, ?_⟩, q, hq, hnum, hk⟩
  by_contra hnot
  obtain ⟨q', hq', hnum'⟩ := hasNum_iff.mp (by simpa using hnot)
  rw [hq, some_inj] at hq'
  exact h (by rw [← hnum, hq', hnum'])

lemma outList_isSome : (outList ms).isSome ↔
    ∀ num m, ms.find? (hasNum num) = some m → ∀ p, m.part = some p → HasPart p ms := by
  fun_induction outList ms with
  | case1 => simp
  | case2 m ms hp ih =>
    rw [isSome_map, ih]
    have hm : ∀ num, m.hasNum num = false := fun num => by unfold hasNum; rw [hp]; rfl
    have hcons : ∀ p, HasPart p (m :: ms) ↔ HasPart p ms := by
      intro p
      constructor
      · rintro ⟨c, hc, q, hq, hrest⟩
        rcases mem_cons.mp hc with rfl | hc
        · rw [hp] at hq; cases hq
        · exact ⟨c, hc, q, hq, hrest⟩
      · rintro ⟨c, hc, hrest⟩
        exact ⟨c, mem_cons_of_mem m hc, hrest⟩
    simp only [find?_cons_of_neg, hm, hcons, Bool.false_eq_true, not_false_eq_true]
  | case3 m ms p hp hparts =>
    have hnone : ¬ HasPart p (m :: ms) := by
      rw [← mergeParts_isSome_iff hp, hparts]
      simp
    have hfind : (m :: ms).find? (hasNum p.num) = some m :=
      find?_cons_of_pos (hasNum_iff.mpr ⟨p, hp, rfl⟩)
    constructor
    · intro h; cases h
    · exact fun h => absurd (h p.num m hfind p hp) hnone
  | case4 m ms p hp r hparts ih =>
    have hhas : HasPart p (m :: ms) := by
      rw [← mergeParts_isSome_iff hp, hparts]
      rfl
    have hcons : ∀ p', p'.num ≠ p.num →
      (HasPart p' (m :: ms) ↔ HasPart p' (othersOf p.num ms)) := by
      intro p' hne
      rw [hasPart_othersOf hne]
      constructor
      · rintro ⟨c, hc, q, hq, hnum, hk⟩
        rcases mem_cons.mp hc with rfl | hc
        · rw [hp, some_inj] at hq
          exact absurd (hq ▸ hnum).symm hne
        · exact ⟨c, hc, q, hq, hnum, hk⟩
      · rintro ⟨c, hc, hrest⟩
        exact ⟨c, mem_cons_of_mem m hc, hrest⟩
    have hfind : ∀ num, num ≠ p.num → (m :: ms).find? (hasNum num) =
        (othersOf p.num ms).find? (hasNum num) := by
      intro num hne
      rw [find_othersOf hne, find?_cons_of_neg]
      intro hm
      obtain ⟨p', hp', hnum⟩ := hasNum_iff.mp hm
      rw [hp, some_inj] at hp'
      exact hne (by rw [← hnum, hp'])
    have hself : ∀ {num m' p'}, (m :: ms).find? (hasNum num) = some m' → m'.part = some p' →
      p'.num = num := by
      intro num m' p' h hp'
      obtain ⟨q, hq, hnum⟩ := hasNum_iff.mp (find?_some h)
      rw [hp', some_inj] at hq
      rw [hq, hnum]
    rw [isSome_map, ih]
    constructor
    · intro h num m' hm' p' hp'
      have hnum := hself hm' hp'
      by_cases hne : num = p.num
      · rw [hne, find?_cons_of_pos (hasNum_iff.mpr ⟨p, hp, rfl⟩), some_inj] at hm'
        rw [← hm', hp, some_inj] at hp'
        exact hp' ▸ hhas
      · rw [hcons p' (by rw [hnum]; exact hne)]
        exact h num m' (by rw [← hfind num hne, hm']) p' hp'
    · intro h num m' hm' p' hp'
      by_cases hne : num = p.num
      · -- no such part is left
        have hmem := mem_of_find?_eq_some hm'
        have hhasnum := find?_some hm'
        rw [hne] at hhasnum
        have := (mem_filter.mp hmem).2
        rw [hhasnum] at this
        cases this
      · rw [← hfind num hne] at hm'
        rw [← hcons p' (by rw [hself hm' hp']; exact hne)]
        exact h num m' hm' p' hp'

/-! ## Reading the blocks -/

def Block.part (b : Block) : Option Part := findPart (b.text.takeWhile (· ≠ 10))

/-- The block is read as written: a line feed is in the text only, and behind a part number there is
a line.
-/
structure Framed (b : Block) : Prop where
  slot : 10 ∉ b.slot
  phone : 10 ∉ b.phone
  short : 10 ∉ b.short
  nline : b.nline = b.text.count 10 + 1
  part : b.part.isSome → 2 ≤ b.nline

def Block.message (b : Block) : Message :=
  let text := match segments 10 b.text, b.part with
    | line :: ls, none => joinLines line ls
    | _ :: line :: ls, some _ => joinLines line ls
    | _, _ => []
  ⟨b.slot, b.phone, tostring b.nline, b.part, text, cutMark b.short⟩

lemma lf_not_mem_tostring : 10 ∉ tostring n := fun h => by
  have := isdigit_of_mem_tostring h
  simp [isdigit] at this

lemma lines_block (h : Framed b) (rest : Str) : lines 10 (b.bytes ++ rest) =
    b.slot :: b.phone :: tostring b.nline :: (segments 10 b.text ++ b.short :: lines 10 rest) := by
  have hbytes : b.bytes ++ rest = b.slot ++ 10 :: (b.phone ++ 10 :: (tostring b.nline ++ 10 ::
      (b.text ++ 10 :: (b.short ++ 10 :: rest)))) := by
    have hlf : lit "\n" = [10] := rfl
    unfold Block.bytes
    simp only [hlf, append_assoc, cons_append, nil_append]
  rw [hbytes, lines_line h.slot, lines_line h.phone, lines_line (lf_not_mem_tostring _), lines_text,
    lines_line h.short]

lemma readMessage_block (h : Framed b) (rest : List Str) :
    readMessage b.slot (b.phone :: tostring b.nline :: (segments 10 b.text ++ b.short :: rest)) =
      some (b.message, rest) := by
  obtain ⟨ls, hls⟩ := @segments_head _ _ 10 b.text
  have hlen : ls.length + 1 = b.nline := by
    rw [h.nline, ← length_segments, hls, length_cons]
  have hdrop : ∀ (ls' : List Str) (n : Nat), ls'.length = n →
    (ls' ++ b.short :: rest).drop n = b.short :: rest ∧
      (ls' ++ b.short :: rest).take n = ls' ∧ ¬ (ls' ++ b.short :: rest).length < n := by
    rintro ls' n rfl
    exact ⟨drop_left, take_left, by simp⟩
  unfold readMessage Block.message
  rw [hls, cons_append]
  dsimp only
  rw [tonumber10_tostring]
  cases hpart : b.part with
  | none =>
    obtain ⟨h1, h2, h3⟩ := hdrop ls (b.nline - 1) (by omega)
    rw [show findPart (b.text.takeWhile fun x => decide (x ≠ 10)) = none from hpart]
    dsimp only
    rw [if_neg h3, h1, h2]
  | some p =>
    have htwo := h.part (by rw [hpart]; rfl)
    rw [show findPart (b.text.takeWhile fun x => decide (x ≠ 10)) = some p from hpart]
    cases ls with
    | nil => rw [length_nil] at hlen; omega
    | cons line ls =>
      rw [length_cons] at hlen
      obtain ⟨h1, h2, h3⟩ := hdrop ls (b.nline - 2) (by omega)
      rw [cons_append]
      dsimp only
      rw [if_neg h3, h1, h2]

lemma length_le_lines {bs : List Block} (h : (∀ b ∈ bs, Framed b)) :
    bs.length ≤ (lines 10 (bs.flatMap Block.bytes)).length := by
  induction bs with
  | nil => exact zero_le _
  | cons b bs ih =>
    have htail := ih fun b' hb' => h b' (mem_cons_of_mem b hb')
    rw [flatMap_cons, lines_block (h b mem_cons_self)]
    simp only [length_cons, length_append]
    omega

def Block.slotNum (b : Block) : Nat := (tonumber10 b.slot).getD 0

def readBlocks (bs : List Block) (o : Overall) : Overall :=
    bs.foldl (fun o b => o.put b.message b.slotNum) o

lemma readMessages_blocks (bs : List Block) (n : Nat) (o : Overall) (hframed : ∀ b ∈ bs, Framed b)
    (hslot : ∀ b ∈ bs, ∃ k, b.slot = tostring k) (hn : bs.length ≤ n) :
    readMessages n (lines 10 (bs.flatMap Block.bytes)) o = some (readBlocks bs o) := by
  induction bs generalizing n o with
  | nil =>
    cases n <;> rfl
  | cons b bs ih =>
    obtain ⟨n, rfl⟩ : ∃ k, n = k + 1 := ⟨n - 1, by simp at hn; omega⟩
    obtain ⟨k, hk⟩ := hslot b mem_cons_self
    have hb := hframed b mem_cons_self
    rw [flatMap_cons, lines_block hb, readMessages, readMessage_block hb]
    have hnum : tonumber10 b.slot = some b.slotNum := by
      unfold Block.slotNum
      rw [hk, tonumber10_tostring]
      rfl
    rw [hnum]
    exact ih n _ (fun b' hb' => hframed b' (mem_cons_of_mem b hb'))
      (fun b' hb' => hslot b' (mem_cons_of_mem b hb')) (by simpa using hn)

lemma readBlocks_table_of_not_mem (bs : List Block) (o : Overall) (k : Str)
    (hk : k ∉ bs.map Block.slot) : (readBlocks bs o).table k = o.table k := by
  induction bs generalizing o k with
  | nil => exact rfl
  | cons b bs ih =>
    rw [map_cons, mem_cons, not_or] at hk
    show (readBlocks bs (o.put b.message b.slotNum)).table k = _
    rw [ih _ _ hk.2]
    exact update_of_ne hk.1 _ _

lemma readBlocks_table (bs : List Block) (o : Overall) (hnodup : (bs.map Block.slot).Nodup) :
    ∀ b ∈ bs, (readBlocks bs o).table b.slot = some b.message := by
  induction bs generalizing o with
  | nil => exact fun b hb => absurd hb (by simp)
  | cons c bs ih =>
    intro b hb
    rw [map_cons, nodup_cons] at hnodup
    show (readBlocks bs (o.put c.message c.slotNum)).table b.slot = _
    rcases mem_cons.mp hb with rfl | hb
    · rw [readBlocks_table_of_not_mem bs _ _ hnodup.1]
      exact update_self _ _ _
    · exact ih _ hnodup.2 b hb

lemma readBlocks_key {bs : List Block} (hnodup : (bs.map Block.slot).Nodup) {k : Str}
    (h : (readBlocks bs ⟨fun _ => none, 0⟩).table k = some m) : ∃ b ∈ bs, b.message = m ∧
    b.slot = k := by
  by_cases hmem : k ∈ bs.map Block.slot
  · obtain ⟨b, hb, rfl⟩ := List.mem_map.mp hmem
    rw [readBlocks_table bs _ hnodup b hb, some_inj] at h
    exact ⟨b, hb, h, rfl⟩
  · rw [readBlocks_table_of_not_mem bs _ _ hmem] at h
    cases h

lemma readBlocks_bound (bs : List Block) (o : Overall) :
    o.bound ≤ (readBlocks bs o).bound ∧ ∀ b ∈ bs, b.slotNum < (readBlocks bs o).bound := by
  induction bs generalizing o with
  | nil => exact ⟨le_refl _, fun b hb => absurd hb (by simp)⟩
  | cons c bs ih =>
    obtain ⟨hle, hlt⟩ := ih (o.put c.message c.slotNum)
    have hput : (o.put c.message c.slotNum).bound = max o.bound (c.slotNum + 1) := rfl
    refine ⟨(le_max_left _ _).trans hle, fun b hb => ?_⟩
    rcases mem_cons.mp hb with rfl | hb
    · exact (le_max_right _ _).trans hle
    · exact hlt b hb

/-! ## The messages in the order of their slots -/

def Message.slotNum (m : Message) : Nat := (tonumber10 m.slot).getD 0

section Present

variable {table : Str → Option Message} (hkey : ∀ k m, table k = some m → m.slot = k)

include hkey

lemma present_sorted (n i : Nat) :
    (present table i n).Pairwise (fun a b => a.slotNum < b.slotNum) ∧
    ∀ m ∈ present table i n, i ≤ m.slotNum := by
  induction n generalizing i with
  | zero => exact ⟨.nil, fun m hm => absurd hm (by simp [present])⟩
  | succ n ih =>
    obtain ⟨hpair, hge⟩ := ih (i + 1)
    rw [present_succ]
    cases hm : table (tostring i) with
    | none => exact ⟨hpair, fun m hm => le_of_succ_le (hge m hm)⟩
    | some m =>
      have hslot : m.slotNum = i := by
        unfold slotNum
        rw [hkey _ _ hm, tonumber10_tostring]
        rfl
      refine ⟨pairwise_cons.mpr ⟨fun m' hm' => ?_, hpair⟩, fun m' hm' => ?_⟩
      · have := hge m' hm'
        omega
      · rcases mem_cons.mp hm' with rfl | hm'
        · exact hslot.ge
        · exact le_of_succ_le (hge m' hm')

lemma present_nodup (i n : Nat) : ((present table i n).map slot).Nodup := by
  refine pairwise_map.mpr ((present_sorted hkey n i).1.imp fun h heq => ?_)
  unfold slotNum at h
  rw [heq] at h
  exact lt_irrefl _ h

end Present

lemma find_of_sorted {α : Type} {f : α → Nat} {q : α → Bool} {l : List α}
    (h : l.Pairwise fun a b => f a < f b)
    {a : α} : l.find? q = some a ↔ a ∈ l ∧ q a ∧ ∀ b ∈ l, q b → f a ≤ f b := by
  induction l with
  | nil => simp
  | cons c l ih =>
    obtain ⟨hc, hl⟩ := pairwise_cons.mp h
    by_cases hq : q c
    · rw [find?_cons_of_pos hq, some_inj]
      constructor
      · rintro rfl
        refine ⟨mem_cons_self, hq, fun b hb _ => ?_⟩
        rcases mem_cons.mp hb with rfl | hb
        · exact le_refl _
        · exact le_of_lt (hc b hb)
      · rintro ⟨ha, _, hle⟩
        rcases mem_cons.mp ha with rfl | ha
        · rfl
        · have h1 := hle c mem_cons_self hq
          have h2 := hc a ha
          omega
    · rw [find?_cons_of_neg hq, ih hl]
      constructor
      · rintro ⟨ha, hqa, hle⟩
        refine ⟨mem_cons_of_mem c ha, hqa, fun b hb hqb => ?_⟩
        rcases mem_cons.mp hb with rfl | hb
        · exact absurd hqb hq
        · exact hle b hb hqb
      · rintro ⟨ha, hqa, hle⟩
        rcases mem_cons.mp ha with rfl | ha
        · exact absurd hqa hq
        · exact ⟨ha, hqa, fun b hb => hle b (mem_cons_of_mem c hb)⟩

/-! ## The program -/

lemma writeEntry_nline {e : Entry} {b : Block} (h : writeEntry e = some b) :
    b.nline = b.text.count 10 + 1 := by
  unfold writeEntry at h
  simp only [bind, bind_eq_some_iff, pure, some.injEq] at h
  obtain ⟨mtxt, _, date, _, time, _, rfl⟩ := h
  rfl

lemma mapM_writeEntry {es : List Entry} {bs : List Block} (h : es.mapM writeEntry = some bs) :
    ∀ b ∈ bs, ∃ e ∈ es, writeEntry e = some b := by
  induction es generalizing bs with
  | nil =>
    intro b hb
    cases h
    cases hb
  | cons e es ih =>
    intro b hb
    simp only [mapM_cons, bind, bind_eq_some_iff, pure, some.injEq] at h
    obtain ⟨b', hb', bs', hbs', rfl⟩ := h
    rcases mem_cons.mp hb with rfl | hb
    · exact ⟨e, mem_cons_self, hb'⟩
    · obtain ⟨e', he', hb''⟩ := ih hbs' b hb
      exact ⟨e', mem_cons_of_mem e he', hb''⟩

/-- A message that keeps the framing of the file: no line feed in its sender and short line, and a
text behind a part number. Its slot and part number are below the numbers that Lua prints with an
exponent. -/
structure Plain (b : Block) : Prop where
  phone : 10 ∉ b.phone
  short : 10 ∉ b.short
  part : b.part.isSome → 10 ∈ b.text
  slot : ∃ k < 10 ^ 14, b.slot = tostring k
  ord : ∀ p ∈ b.part, (tonumber10 p.ord).getD 0 < 10 ^ 14

/-- Every long message has one of the parts that the part in its lowest slot announces. -/
def Announced (bs : List Block) : Prop :=
  ∀ b ∈ bs, ∀ p, b.part = some p →
    (∀ c ∈ bs, ∀ q, c.part = some q → q.num = p.num → b.slotNum ≤ c.slotNum) →
    ∃ c ∈ bs, ∃ q, c.part = some q ∧ q.num = p.num ∧
      ∃ k, 1 ≤ k ∧ k ≤ (tonumber10 p.max).getD 0 ∧ q.ord = tostring k

variable {bs : List Block} {ms : List Message}

lemma present_blocks (hslot : ∀ b ∈ bs, ∃ k, b.slot = tostring k)
    (hnodup : (bs.map Block.slot).Nodup) (m : Message) :
    m ∈ present (readBlocks bs ⟨fun _ => none, 0⟩).table 0
    (readBlocks bs ⟨fun _ => none, 0⟩).bound ↔ ∃ b ∈ bs, b.message = m := by
  unfold present
  rw [mem_filterMap]
  constructor
  · rintro ⟨j, _, hj⟩
    obtain ⟨b, hb, hbm, _⟩ := readBlocks_key hnodup hj
    exact ⟨b, hb, hbm⟩
  rintro ⟨b, hb, rfl⟩
  obtain ⟨k, hk⟩ := hslot b hb
  have hnum : b.slotNum = k := by
    unfold Block.slotNum
    rw [hk, tonumber10_tostring]
    rfl
  have hbound := (readBlocks_bound bs ⟨fun _ => none, 0⟩).2 b hb
  refine ⟨k, mem_range'_1.mpr ⟨zero_le _, by omega⟩, ?_⟩
  rw [← hk]
  exact readBlocks_table bs _ hnodup b hb

lemma hasPart_iff (hms : ∀ m, m ∈ ms ↔ ∃ b ∈ bs, b.message = m) (p : Part) :
    HasPart p ms ↔ ∃ c ∈ bs, ∃ q, c.part = some q ∧ q.num = p.num ∧
      ∃ k, 1 ≤ k ∧ k ≤ (tonumber10 p.max).getD 0 ∧ q.ord = tostring k := by
  constructor
  · rintro ⟨m, hm, q, hq⟩
    obtain ⟨b, hb, rfl⟩ := (hms m).mp hm
    exact ⟨b, hb, q, hq⟩
  · rintro ⟨b, hb, q, hq⟩
    exact ⟨b.message, (hms _).mpr ⟨b, hb, rfl⟩, q, hq⟩

lemma announced_iff (hms : ∀ m, m ∈ ms ↔ ∃ b ∈ bs, b.message = m)
    (hsorted : ms.Pairwise fun a b => a.slotNum < b.slotNum) :
    (∀ num m, ms.find? (hasNum num) = some m → ∀ p, m.part = some p → HasPart p ms) ↔
    Announced bs := by
  constructor
  · intro h b hb p hp hlow
    rw [← hasPart_iff hms]
    refine h p.num b.message ((find_of_sorted hsorted).mpr ⟨(hms _).mpr ⟨b, hb, rfl⟩, ?_, ?_⟩) p hp
    · exact hasNum_iff.mpr ⟨p, hp, rfl⟩
    · intro m hm hnum
      obtain ⟨c, hc, rfl⟩ := (hms m).mp hm
      obtain ⟨q, hq, hqnum⟩ := hasNum_iff.mp hnum
      exact hlow c hc q hq hqnum
  · intro h num m hm p hp
    obtain ⟨hmem, hnum, hlow⟩ := (find_of_sorted hsorted).mp hm
    obtain ⟨b, hb, rfl⟩ := (hms m).mp hmem
    obtain ⟨q, hq, hqnum⟩ := hasNum_iff.mp hnum
    have hpnum : p.num = num := by
      rw [hp, some_inj] at hq
      rw [hq, hqnum]
    rw [hasPart_iff hms]
    refine h b hb p hp fun c hc q' hq' hqnum' => ?_
    exact hlow c.message ((hms _).mpr ⟨c, hc, rfl⟩) (hasNum_iff.mpr ⟨q', hq', hqnum'.trans hpnum⟩)

lemma merge_blocks {used max : Str} (hused : 10 ∉ used) (hmax : 10 ∉ max)
    (hframed : ∀ b ∈ bs, Framed b)
    (hslot : ∀ b ∈ bs, ∃ k, b.slot = tostring k) (hnodup : (bs.map Block.slot).Nodup) :
    ∃ ms, merge (bytes ⟨used, max, bs⟩) = (outList ms).map (fun rs => ⟨used, max, rs⟩) ∧
      (∀ m, m ∈ ms ↔ ∃ b ∈ bs, b.message = m) ∧ (ms.Pairwise fun a b => a.slotNum < b.slotNum) ∧
      (ms.map slot).Nodup := by
  have hlines : lines 10 (bytes ⟨used, max, bs⟩) =
    used :: max :: lines 10 (bs.flatMap Block.bytes) := by
    have hbytes : bytes ⟨used, max, bs⟩ = used ++ 10 :: (max ++ 10 :: bs.flatMap Block.bytes) := by
      have hlf : lit "\n" = [10] := rfl
      unfold bytes
      simp only [hlf, append_assoc, cons_append, nil_append]
    rw [hbytes, lines_line hused, lines_line hmax]
  have hread := readMessages_blocks bs (lines 10 (bs.flatMap Block.bytes)).length
    ⟨fun _ => none, 0⟩ hframed hslot
    (length_le_lines hframed)
  have hpresent := present_blocks hslot hnodup
  have hkey : ∀ k m, (readBlocks bs ⟨fun _ => none, 0⟩).table k = some m → m.slot = k := by
    intro k m h
    obtain ⟨b, _, rfl, hk⟩ := readBlocks_key hnodup h
    exact hk
  generalize readBlocks bs ⟨fun _ => none, 0⟩ = o at hread hpresent hkey
  refine ⟨present o.table 0 o.bound, ?_, hpresent, (present_sorted hkey o.bound 0).1,
    present_nodup hkey 0 o.bound⟩
  unfold merge
  rw [hlines]
  dsimp only
  rw [hread]
  dsimp only
  rw [outLoop_eq]

/-- **Merging keeps every message.** For messages that keep the framing, the program ends and every
slot is in exactly one record iff of every long message there is a part that is announced. -/
theorem merge_keeps_slots_iff {es : List Entry} {bs : List Block} {used max : Str}
    (hes : es.mapM writeEntry = some bs) (hused : 10 ∉ used) (hmax : 10 ∉ max)
    (hplain : ∀ b ∈ bs, Plain b)
    (hnodup : (bs.map Block.slot).Nodup) : (∃ out, merge (bytes ⟨used, max, bs⟩) = some out ∧
      ∀ b ∈ bs, (out.records.flatMap Record.slots).count b.slot = 1) ↔ Announced bs := by
  have hslot : ∀ b ∈ bs, ∃ k, b.slot = tostring k := fun b hb => by
    obtain ⟨k, _, hk⟩ := (hplain b hb).slot
    exact ⟨k, hk⟩
  have hframed : ∀ b ∈ bs, Framed b := by
    intro b hb
    obtain ⟨e, _, he⟩ := mapM_writeEntry hes b hb
    have hnline := writeEntry_nline he
    obtain ⟨k, hk⟩ := hslot b hb
    refine ⟨hk ▸ lf_not_mem_tostring k, (hplain b hb).phone, (hplain b hb).short, hnline,
      fun hpart => ?_⟩
    have := count_pos_iff.mpr ((hplain b hb).part hpart)
    omega
  obtain ⟨ms, hmerge, hpresent, hsorted, hnodup'⟩ := merge_blocks hused hmax hframed hslot hnodup
  rw [hmerge, ← announced_iff hpresent hsorted, ← outList_isSome]
  constructor
  · rintro ⟨out, hout, _⟩
    obtain ⟨rs, hrs, _⟩ := map_eq_some_iff.mp hout
    rw [hrs]
    rfl
  · intro h
    obtain ⟨rs, hrs⟩ := isSome_iff_exists.mp h
    refine ⟨_, by rw [hrs]; rfl, fun b hb => ?_⟩
    rw [(outList_slots ms rs hrs).count_eq]
    exact count_eq_one_of_mem hnodup'
      (List.mem_map.mpr ⟨b.message, (hpresent _).mpr ⟨b, hb, rfl⟩, rfl⟩)

def partEntries : List Entry :=
  [⟨lit "0", lit "x", lit "+15", some (lit "25-01-01"), some (lit "12:00:00 +0h"),
    some (lit "Msg# 7,2/2\nworld")⟩,
    ⟨lit "2", lit "x", lit "bob", some (lit "25-01-01"), some (lit "12:00:01 +0h"),
      some (lit "one\n\nthree")⟩,
    ⟨lit "3", lit "x", lit "+15", some (lit "25-01-01"), some (lit "12:00:02 +0h"),
      some (lit "Msg# 7,1/2\nhello ")⟩]

def partBlocks : List Block := (partEntries.mapM writeEntry).getD []

lemma partBlocks_part : ∀ b ∈ partBlocks, b.part = none ∨
    b.part = some ⟨lit "7", lit "1", lit "2"⟩ ∨ b.part = some ⟨lit "7", lit "2", lit "2"⟩ := by
  decide +kernel

lemma partBlocks_plain : ∀ b ∈ partBlocks, Plain b := by
  have hcheck : ∀ b ∈ partBlocks, 10 ∉ b.phone ∧ 10 ∉ b.short ∧ (b.part.isSome → 10 ∈ b.text) ∧
      ∃ k < 4, b.slot = tostring k := by
    decide +kernel
  intro b hb
  obtain ⟨hphone, hshort, hpart, k, hk, hslot⟩ := hcheck b hb
  refine ⟨hphone, hshort, hpart, ⟨k, by omega, hslot⟩, fun p hp => ?_⟩
  rcases partBlocks_part b hb with h | h | h
  all_goals
    rw [h] at hp
    cases hp
  all_goals decide +kernel

theorem merge_keeps_slots_iff_parts :
    ∃ out, merge (bytes ⟨lit "3", lit "20", partBlocks⟩) = some out ∧
      ∀ b ∈ partBlocks, (out.records.flatMap Record.slots).count b.slot = 1 := by
  refine (@merge_keeps_slots_iff partEntries partBlocks _ _ (by decide +kernel) (by decide)
    (by decide)
    partBlocks_plain (by decide +kernel)).mpr fun b hb p hp _ => ?_
  have hfirst : ∃ c ∈ partBlocks, c.part = some ⟨lit "7", lit "1", lit "2"⟩ := by decide +kernel
  obtain ⟨c, hc, hcpart⟩ := hfirst
  have hp' : p.num = lit "7" ∧ p.max = lit "2" := by
    rcases partBlocks_part b hb with h | h | h
    all_goals
      rw [h] at hp
      cases hp
    all_goals exact ⟨rfl, rfl⟩
  refine ⟨c, hc, _, hcpart, hp'.1.symm, 1, le_refl 1, ?_, by decide +kernel⟩
  rw [hp'.2]
  decide +kernel

def entryWith (text : Str) : Entry :=
  ⟨lit "1", lit "x", lit "+15", some (lit "25-01-01"), some (lit "12:00:00 +0h"), some text⟩

def mergeEntry (e : Entry) : Option Merged :=
  (writeEntry e).bind fun b => merge (bytes ⟨lit "1", lit "20", [b]⟩)

/-- A part with an impossible number, a text that looks like a part number, and a sender with a line
feed. -/
theorem merge_fails_on_parts : (mergeEntry (entryWith (lit "Msg# 7,3/2\nhello"))).isNone ∧
      (mergeEntry (entryWith (lit "Msg# 1,1/2"))).isNone ∧
      (mergeEntry { entryWith (lit "hello") with number := lit "a\nb" }).isNone := by
  decide +kernel

end SourceMaster.Sms
