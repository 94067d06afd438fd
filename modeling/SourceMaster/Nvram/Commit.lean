import Mathlib.Data.List.Nodup
import SourceMaster.Nvram.Image

/-!
# What is committed and what is read

`nvram_commit` writes the variables that fit (`nvramCommit_spec`), and `nvram_open` finds them again
(`nvramOpen_of_committed`, `nvramRehash_of_committed`) if the length in the header is accepted.
-/

namespace SourceMaster.Nvram

open Memory List Option SourceMaster.Nvram.Tuple Nat

variable {p : Platform}

/-! ## The table as a map -/

def Table.all (t : Table p) : List Tuple := (finRange 257).flatMap t.buckets

variable {l : List Tuple} {h : Handle p} {fuel pos : Nat} {mem : Nat → UInt8} {ws ts : List Tuple}
  {pos' : Nat} {x : Tuple} {t : Table p} {value : CStr} {name : CStr}

lemma Table.mem_all : x ∈ t.all ↔ x ∈ t.buckets (bucketOf p x.name) := by
  rw [Table.all, mem_flatMap]
  constructor
  · rintro ⟨i, -, hi⟩
    rw [t.hashed i x hi]
    exact hi
  · exact fun h => ⟨_, mem_finRange _, h⟩

lemma Table.all_nodup : (t.all.map Tuple.name).Nodup := by
  rw [Table.all, map_flatMap, nodup_flatMap]
  refine ⟨fun i _ => t.distinct i, (nodup_finRange 257).pairwise_of_forall_ne fun i _ j _ hij => ?_⟩
  -- a name has one bucket only
  intro name hi hj
  obtain ⟨x, hx, rfl⟩ := List.mem_map.1 hi
  obtain ⟨y, hy, hname⟩ := List.mem_map.1 hj
  rw [← t.hashed i x hx, ← t.hashed j y hy, hname] at hij
  exact hij rfl

def lookup (l : List Tuple) (name : CStr) : Option CStr :=
    (l.find? fun x => x.name = name).map Tuple.value

lemma lookup_cons (y : Tuple) (l : List Tuple) (name : CStr) :
    lookup (y :: l) name = if y.name = name then some y.value else lookup l name := by
  unfold lookup
  by_cases hy : y.name = name <;> simp [hy]

lemma mem_of_lookup (h : lookup l name = some value) : ⟨name, value⟩ ∈ l := by
  obtain ⟨y, hy, rfl⟩ := map_eq_some_iff.1 h
  have hname : y.name = name := by simpa using find?_some hy
  exact hname ▸ mem_of_find?_eq_some hy

lemma lookup_eq_some (hl : (l.map Tuple.name).Nodup) :
    lookup l name = some value ↔ ⟨name, value⟩ ∈ l := by
  refine ⟨mem_of_lookup, fun h => ?_⟩
  induction l with
  | nil => cases h
  | cons y l ih =>
    rw [map_cons, nodup_cons] at hl
    rw [lookup_cons]
    obtain rfl | h := mem_cons.1 h
    · rw [if_pos rfl]
    · have hne : y.name ≠ name := fun heq => hl.1 (heq ▸ List.mem_map_of_mem (f := Tuple.name) h)
      rw [if_neg hne, ih hl.2 h]

lemma nvramGet_eq_some : nvramGet t name = some value ↔ ⟨name, value⟩ ∈ t.all := by
  rw [Table.mem_all]
  exact lookup_eq_some (t.distinct _)

lemma lookup_all (name : CStr) : lookup t.all name = nvramGet t name :=
  ext fun value => by rw [lookup_eq_some t.all_nodup, nvramGet_eq_some]

lemma mem_setBucket : x ∈ setBucket l name value ↔ x = ⟨name, value⟩ ∨ x.name ≠ name ∧ x ∈ l := by
  unfold setBucket
  split
  next hmem =>
    rw [List.mem_map]
    constructor
    · rintro ⟨y, hy, rfl⟩
      split
      next heq => exact .inl (by rw [← heq])
      next hne => exact .inr ⟨hne, hy⟩
    · rintro (rfl | ⟨hne, hx⟩)
      · obtain ⟨y, hy, hname⟩ := List.mem_map.1 hmem
        exact ⟨y, hy, by rw [if_pos hname, hname]⟩
      · exact ⟨x, hx, if_neg hne⟩
  next hnot =>
    rw [mem_cons]
    refine or_congr_right ⟨fun hx => ⟨?_, hx⟩, fun hx => hx.2⟩
    rintro rfl
    exact hnot (List.mem_map_of_mem hx)

lemma Table.mem_all_set :
    x ∈ (t.set name value).all ↔ x = ⟨name, value⟩ ∨ x.name ≠ name ∧ x ∈ t.all := by
  rw [Table.mem_all, Table.mem_all]
  show x ∈ (if bucketOf p x.name = bucketOf p name then setBucket _ name value else _) ↔ _
  split
  next => exact mem_setBucket
  next hne =>
    have hname : x.name ≠ name := fun h => hne (by rw [h])
    have hx : x ≠ ⟨name, value⟩ := fun h => hname (by rw [h])
    simp only [hx, false_or, ne_eq, hname, not_false_eq_true, true_and]

lemma nvramGet_set (name value name' : CStr) :
    nvramGet (t.set name value) name' = if name = name' then some value else nvramGet t name' := by
  refine ext fun v => ?_
  rw [nvramGet_eq_some, Table.mem_all_set, mk.injEq]
  split
  next heq => simp [heq, eq_comm]
  next hne => simp [Ne.symm hne, nvramGet_eq_some]

/-! ## The texts are read back -/

lemma upTo_append (s : CStr) {stop c : UInt8} (hs : stop ∉ s.chars) (hc : c = 0 ∨ c = stop)
    (rest : List UInt8) : CStr.upTo stop (s.chars ++ c :: rest) = s := by
  have hin : ∀ x ∈ s.chars, (x ≠ 0 && x ≠ stop) := by
    intro x hx
    have h0 : x ≠ 0 := fun h => s.noNul (h ▸ hx)
    have hstop : x ≠ stop := fun h => hs (h ▸ hx)
    simp [h0, hstop]
  have hout : ¬ (c ≠ 0 && c ≠ stop) := by
    obtain rfl | rfl := hc <;> simp
  have hchars : (s.chars ++ c :: rest).takeWhile (fun x => x ≠ 0 && x ≠ stop) = s.chars := by
    rw [takeWhile_append_of_pos hin, takeWhile_cons, if_neg hout, append_nil]
  cases s
  exact CStr.mk.injEq .. ▸ hchars

lemma parseTuples_text {t : Tuple} (ht : 61 ∉ t.name.chars) (fuel : Nat) (l : List UInt8) :
    parseTuples (fuel + 1) (t.text ++ l) = (parseTuples fuel l).map (t :: ·) := by
  have htext : t.text ++ l = t.name.chars ++ 61 :: (t.value.chars ++ 0 :: l) := by
    simp [text]
  have hname := upTo_append t.name ht (.inr rfl) (t.value.chars ++ 0 :: l)
  have hvalue := upTo_append t.value t.value.noNul (.inl rfl) l
  have hcons : ∃ c cs, t.name.chars ++ 61 :: (t.value.chars ++ 0 :: l) = c :: cs ∧ c ≠ 0 := by
    cases hchars : t.name.chars with
    | nil => exact ⟨61, _, rfl, by decide⟩
    | cons c cs =>
      refine ⟨c, _, rfl, ?_⟩
      rintro rfl
      exact t.name.noNul (hchars ▸ mem_cons_self)
  obtain ⟨c, cs, heq, hc⟩ := hcons
  rw [htext, heq, parseTuples, if_neg hc, ← heq, hname]
  dsimp only
  rw [drop_left]
  dsimp only
  rw [if_neg (by decide), hvalue, drop_left]

lemma parseTuples_texts (hts : ∀ t ∈ ts, 61 ∉ t.name.chars) (hfuel : ts.length < fuel)
    (rest : List UInt8) : parseTuples fuel (ts.flatMap text ++ 0 :: rest) = some ts := by
  induction ts generalizing fuel with
  | nil =>
    obtain ⟨fuel, rfl⟩ := Nat.exists_eq_succ_of_ne_zero (Nat.ne_zero_of_lt hfuel)
    rfl
  | cons t ts ih =>
    obtain ⟨fuel, rfl⟩ := Nat.exists_eq_succ_of_ne_zero (Nat.ne_zero_of_lt hfuel)
    rw [flatMap_cons, append_assoc, parseTuples_text (hts t mem_cons_self),
      ih (fun x hx => hts x (mem_cons_of_mem t hx)) (lt_of_succ_lt_succ hfuel), map_some]

lemma not_mem_of_parseTuples {l : List UInt8} (h : parseTuples fuel l = some ts) :
    ∀ t ∈ ts, 61 ∉ t.name.chars := by
  induction fuel generalizing l ts with
  | zero => cases h
  | succ fuel ih =>
    cases l with
    | nil => cases h
    | cons c cs =>
      rw [parseTuples] at h
      split at h
      next =>
        obtain rfl := some.inj h
        exact nofun
      next =>
        dsimp only at h
        split at h
        next => cases h
        next =>
          split at h
          next =>
            obtain rfl := some.inj h
            exact nofun
          next =>
            split at h
            next => cases h
            next =>
              obtain ⟨ts', hts', rfl⟩ := map_eq_some_iff.1 h
              intro t ht
              obtain rfl | ht := mem_cons.1 ht
              · intro hmem
                have := mem_takeWhile_imp hmem
                simp at this
              · exact ih hts' t ht

/-! ## What is written -/

def Table.textLength (t : Table p) : Nat := (t.all.flatMap text).length

lemma length_text (t : Tuple) :
    t.text.length = t.name.chars.length + 1 + t.value.chars.length + 1 := by
  simp only [text, length_append, length_cons, length_nil]
  omega

/-- Some of the tuples were written from `ptr` on, or all of them if there was room. -/
structure Wrote (stop ptr : Nat) (mem : Nat → UInt8) (ts ws : List Tuple)
    (s : Nat × (Nat → UInt8)) :
    Prop where
  sublist : ws.Sublist ts
  eq : s = (ptr + (ws.flatMap text).length, put mem ptr (ws.flatMap text))
  le : ptr + (ws.flatMap text).length ≤ stop
  all : ptr + (ts.flatMap text).length ≤ stop → ws = ts

variable {stop ptr : Nat}

lemma Wrote.nil (mem : Nat → UInt8) (h : ptr ≤ stop) : Wrote stop ptr mem [] [] (ptr, mem) := by
  refine ⟨.refl _, ?_, h, fun _ => rfl⟩
  rw [flatMap_nil, put_nil, length_nil, add_zero]

lemma Wrote.append {ts' ws' : List Tuple} {s : Nat × (Nat → UInt8)} (h : ws.Sublist ts)
    (hall : ptr + (ts.flatMap text).length ≤ stop → ws = ts)
    (h' : Wrote stop (ptr + (ws.flatMap text).length) (put mem ptr (ws.flatMap text)) ts' ws' s) :
    Wrote stop ptr mem (ts ++ ts') (ws ++ ws') s := by
  refine ⟨h.append h'.sublist, ?_, ?_, fun hfit => ?_⟩
  · rw [h'.eq, put_put, flatMap_append, length_append, add_assoc]
  · rw [flatMap_append, length_append, ← add_assoc]
    exact h'.le
  · rw [flatMap_append, length_append] at hfit
    obtain rfl := hall (by omega)
    rw [h'.all (by omega)]

lemma writeBucket_wrote (ts : List Tuple) (mem : Nat → UInt8) (h : ptr ≤ stop) :
    ∃ ws, Wrote stop ptr mem ts ws (writeBucket stop ts (ptr, mem)) := by
  induction ts generalizing ptr mem with
  | nil => exact ⟨[], .nil mem h⟩
  | cons t ts ih =>
    have hlen := length_text t
    have hone : ([t].flatMap text) = t.text := append_nil _
    by_cases hfull : stop < ptr + t.name.chars.length + 1 + t.value.chars.length + 1
    · refine ⟨[], nil_sublist _, ?_, h, fun hfit => ?_⟩
      · rw [writeBucket, if_pos hfull, flatMap_nil, put_nil, length_nil, add_zero]
      · rw [flatMap_cons, length_append] at hfit
        omega
    · rw [writeBucket, if_neg hfull, ← hone]
      obtain ⟨ws, hws⟩ := @ih (ptr + ([t].flatMap text).length)
        (put mem ptr ([t].flatMap text)) (by rw [hone]; omega)
      exact ⟨_, .append (.refl [t]) (fun _ => rfl) hws⟩

lemma foldl_writeBucket_wrote (is : List (Fin 257)) (buckets : Fin 257 → List Tuple)
    (mem : Nat → UInt8) (h : ptr ≤ stop) : ∃ ws, Wrote stop ptr mem (is.flatMap buckets) ws
      (is.foldl (fun s i => writeBucket stop (buckets i) s) (ptr, mem)) := by
  induction is generalizing ptr mem with
  | nil => exact ⟨[], .nil mem h⟩
  | cons i is ih =>
    obtain ⟨ws, hws⟩ := writeBucket_wrote (buckets i) mem h
    obtain ⟨ws', hws'⟩ := ih (put mem ptr (ws.flatMap text)) hws.le
    rw [foldl_cons, hws.eq, flatMap_cons]
    exact ⟨_, .append hws.sublist hws.all hws'⟩

lemma padding_spec (p : Platform) (ptr : Nat) :
    padding p ptr = 0 ∨ padding p ptr ≤ 7 ∧ (ptr + padding p ptr) % 4 = 0 := by
  have hbase := p.base_mod
  have hmod : (((p.base + ptr : Nat) : Int).bmod (2 ^ 32)) % 4 = (ptr : Int) % 4 := by
    rw [Int.bmod_def]
    split <;> omega
  have halign := Int.tmod_eq_emod (a := ((p.base + ptr : Nat) : Int).bmod (2 ^ 32)) (b := 4)
  unfold padding
  generalize ((p.base + ptr : Nat) : Int).bmod (2 ^ 32) = x at hmod halign ⊢
  generalize x.tmod 4 = align at halign ⊢
  by_cases hzero : align = 0
  · exact .inl (if_pos hzero)
  · rw [if_neg hzero]
    refine .inr ?_
    split at halign <;> omega

lemma getWord_putWord (mem : Nat → UInt8) (pos : Nat) (w : UInt32) :
    getWord p (putWord p mem pos w) pos = w := by
  have hslice := slice_put mem pos (encode32 p.bigEndian w)
  rw [length_encode32] at hslice
  rw [getWord, putWord, hslice, decode32_encode32]

lemma getWord_put_of_disjoint {l : List UInt8} (h : pos' + 4 ≤ pos ∨ pos + l.length ≤ pos') :
    getWord p (put mem pos l) pos' = getWord p mem pos' := by
  rw [getWord, getWord, slice_put_of_disjoint h]

lemma getWord_putWord_of_disjoint {w : UInt32} (h : pos' + 4 ≤ pos ∨ pos + 4 ≤ pos') :
    getWord p (putWord p mem pos w) pos' = getWord p mem pos' := by
  apply getWord_put_of_disjoint
  rw [length_encode32]
  exact h

/-- The handle comes from `nvram_open`: the header is at the first place where it can be. -/
structure Handle.Opened (h : Handle p) : Prop where
  offset_mod : h.offset % 4 = 0
  offset_le : h.offset + NVRAM_MIN_SPACE ≤ p.partSize
  first : ∀ i, 4 * i < h.offset → getWord p h.mem (4 * i) ≠ NVRAM_MAGIC

structure Committed (h : Handle p) (ws : List Tuple) (mem : Nat → UInt8) : Prop where
  before : ∀ i < h.offset, mem i = h.mem i
  magic : getWord p mem h.offset = NVRAM_MAGIC
  len : (getWord p mem (h.offset + 4)).toNat =
    (sizeofHeader + (ws.flatMap text).length + 5) / 4 * 4
  data : ∃ rest, slice mem (h.offset + sizeofHeader) (p.partSize - (h.offset + sizeofHeader)) =
    ws.flatMap text ++ 0 :: rest

lemma clearData_spec (hopen : h.Opened) (configRefresh configNcdl : UInt32) :
    ∃ mem, clearData h configRefresh configNcdl = some mem ∧ (∀ i < h.offset, mem i = h.mem i) ∧
      getWord p mem h.offset = NVRAM_MAGIC := by
  have hsize : sizeofHeader = 20 := rfl
  have hspace : NVRAM_MIN_SPACE = 0x8000 := rfl
  have hle := hopen.offset_le
  refine ⟨_, if_pos ?_, fun i hi => ?_, ?_⟩
  · rw [length_replicate]
    omega
  · rw [put_of_lt (by omega), putWord, put_of_lt (by omega), putWord, put_of_lt (by omega), putWord,
      put_of_lt hi]
  · rw [getWord_put_of_disjoint (.inl (by omega)), getWord_putWord_of_disjoint (.inl (by omega)),
      getWord_putWord_of_disjoint (.inl (by omega)), getWord_putWord]

lemma endData_eq {ptr : Nat} (h : ptr + 1 ≤ p.partSize) (mem : Nat → UInt8) : endData p ptr mem =
    if ptr + 1 + padding p (ptr + 1) ≤ p.partSize then
      some (ptr + 2, put mem ptr (0 :: replicate (padding p (ptr + 1)) 0))
    else none := by
  have hfirst : store p mem ptr [0] = some (put mem ptr [0]) := by
    rw [store, length_singleton, if_pos h]
  have hput (n : Nat) : put (put mem ptr [0]) (ptr + 1) (replicate n 0) =
      put mem ptr (0 :: replicate n 0) := put_put mem ptr [0] _
  obtain ⟨n, hn⟩ : ∃ n, padding p (ptr + 1) = n := ⟨_, rfl⟩
  simp only [endData, hfirst, hn, bind_eq_bind, bind_some]
  rw [store, length_replicate, hput]
  by_cases hroom : ptr + 1 + n ≤ p.partSize
  · rw [if_pos hroom, if_pos hroom, bind_some, Option.pure_def]
  · rw [if_neg hroom, if_neg hroom, bind_none]

lemma finishHeader_spec (offset : Nat) (words : UInt32 × UInt32 × UInt32) (ptr : Nat) (mem : Nat →
    UInt8) :
    (∀ i < offset, finishHeader p offset words ptr mem i = mem i) ∧
      getWord p (finishHeader p offset words ptr mem) offset = getWord p mem offset ∧
      getWord p (finishHeader p offset words ptr mem) (offset + 4) =
        .ofNat ((ptr - offset + 3) / 4 * 4) ∧
      ∀ n, slice (finishHeader p offset words ptr mem) (offset + sizeofHeader) n =
        slice mem (offset + sizeofHeader) n := by
  have hsize : sizeofHeader = 20 := rfl
  unfold finishHeader
  refine ⟨fun i hi => ?_, ?_, ?_, fun n => ?_⟩
  · rw [putWord, put_of_lt (by omega), putWord, put_of_lt (by omega)]
  · rw [getWord_putWord_of_disjoint (.inl (by omega)),
      getWord_putWord_of_disjoint (.inl (by omega))]
  · rw [getWord_putWord_of_disjoint (.inl (by omega)), getWord_putWord]
  · rw [putWord, slice_put_of_disjoint (.inr (by rw [length_encode32]; omega)), putWord,
      slice_put_of_disjoint (.inr (by rw [length_encode32]; omega))]

def Handle.Fits (h : Handle p) : Prop :=
  h.offset + sizeofHeader + h.table.textLength + 2 ≤ p.partSize

/-- `nvram_commit` writes some of the variables, and does not say that others were left out. -/
theorem nvramCommit_spec (hopen : h.Opened) : ∃ ws mem n,
    n = h.offset + sizeofHeader + (ws.flatMap text).length ∧ ws.Sublist h.table.all ∧
      n + 2 ≤ p.partSize ∧ (h.Fits → ws = h.table.all) ∧ Committed h ws mem ∧
      nvramCommit h = if n + 1 + padding p (n + 1) ≤ p.partSize then
        (nvramRehash { h with mem }).map fun h => (0, h) else none := by
  have hsize : sizeofHeader = 20 := rfl
  have hspace : NVRAM_MIN_SPACE = 0x8000 := rfl
  have hlt := p.partSize_lt
  have hle := hopen.offset_le
  obtain ⟨mem₁, hclear, hbefore, hmagic⟩ :=
    clearData_spec hopen (headerWords h.table).2.1 (headerWords h.table).2.2
  obtain ⟨pos, hpos⟩ : ∃ pos, h.offset + sizeofHeader = pos := ⟨_, rfl⟩
  obtain ⟨ws, hwrote⟩ :=
    @foldl_writeBucket_wrote (p.partSize - 2) _ (finRange 257) h.table.buckets mem₁
      (show pos ≤ p.partSize - 2 by omega)
  have hwrite : writeTuples h.table (pos, mem₁) =
      (pos + (ws.flatMap text).length, put mem₁ pos (ws.flatMap text)) := hwrote.eq
  have hroom := hwrote.le
  obtain ⟨n, hn⟩ : ∃ n, pos + (ws.flatMap text).length = n := ⟨_, rfl⟩
  have hend := @endData_eq p n (by omega) (put mem₁ pos (ws.flatMap text))
  obtain ⟨k, hk⟩ : ∃ k, padding p (n + 1) = k := ⟨_, rfl⟩
  rw [← hn, put_put, hn, hk] at hend
  refine ⟨ws, finishHeader p h.offset (headerWords h.table) (n + 2)
    (put mem₁ pos (ws.flatMap text ++ 0 :: replicate k 0)), n, by rw [hpos, hn],
    hwrote.sublist, by omega, fun hfit => hwrote.all ?_, ?_, ?_⟩
  · rw [Handle.Fits, hpos] at hfit
    exact le_sub_of_add_le hfit
  · obtain ⟨hlow, hword, hlen, hslice⟩ := finishHeader_spec (p := p) h.offset (headerWords h.table)
      (n + 2) (put mem₁ pos (ws.flatMap text ++ 0 :: replicate k 0))
    refine ⟨fun i hi => ?_, ?_, ?_, ?_⟩
    · rw [hlow i hi, put_of_lt (by omega), hbefore i hi]
    · rw [hword, getWord_put_of_disjoint (.inl (by omega)), hmagic]
    · have hbound : (n + 2 - h.offset + 3) / 4 * 4 < 2 ^ 32 := by omega
      rw [hlen, UInt32.toNat_ofNat_of_lt' hbound]
      omega
    · -- The padding may reach behind the partition, but the zero before it does not.
      obtain ⟨m, hm⟩ : ∃ m, p.partSize - pos = (ws.flatMap text ++ [0]).length + m := by
        rw [length_append, length_singleton]
        exact Nat.exists_eq_add_of_le (by omega)
      rw [hslice, hpos, hm, slice_add, ← singleton_append, ← append_assoc,
        slice_put_prefix, append_assoc, singleton_append]
      exact ⟨_, rfl⟩
  · simp only [nvramCommit, hclear, hpos, hwrite, hn, hend, hk, bind_eq_bind, bind_some]
    by_cases hroom : n + 1 + k ≤ p.partSize
    · rw [if_pos hroom, if_pos hroom, bind_some, map_eq_bind]
      rfl
    · rw [if_neg hroom, if_neg hroom, bind_none]

/-! ## What is read -/

lemma nvramSet_of_le {value : CStr} (hle : value.chars.length + 1 ≤ p.partSize - h.offset)
    (name : CStr) : nvramSet h name value = (0, { h with table := h.table.set name value }) :=
  if_neg (not_lt.2 hle)

lemma foldl_nvramSet (hnodup : (l.map Tuple.name).Nodup)
    (hl : ∀ y ∈ l, y.value.chars.length + 1 ≤ p.partSize - h.offset) :
    ∃ t : Table p, l.foldl (fun h y => (nvramSet h y.name y.value).2) h = { h with table := t } ∧
      ∀ name, nvramGet t name = (lookup l name).or (nvramGet h.table name) := by
  induction l generalizing h with
  | nil => exact ⟨h.table, rfl, fun name => rfl⟩
  | cons y l ih =>
    rw [map_cons, nodup_cons] at hnodup
    obtain ⟨t, ht, hget⟩ := ih (h := { h with table := h.table.set y.name y.value }) hnodup.2
      fun x hx => hl x (mem_cons_of_mem y hx)
    rw [foldl_cons, nvramSet_of_le (hl y mem_cons_self)]
    refine ⟨t, ht, fun name => ?_⟩
    rw [hget, nvramGet_set, lookup_cons]
    split
    next heq =>
      -- the name is not set again
      have hnone : lookup l name = none := by
        rw [eq_none_iff_forall_ne_some]
        intro value hvalue
        exact hnodup.1 (heq ▸ List.mem_map_of_mem (f := Tuple.name) (mem_of_lookup hvalue))
      rw [hnone, none_or, some_or]
    next => rfl

lemma foldl_default (hl : ∀ y ∈ l, y.value.chars.length + 1 ≤ p.partSize - h.offset) :
    ∃ t : Table p, l.foldl
        (fun h y => if nvramGet h.table y.name = none then (nvramSet h y.name y.value).2 else h) h =
          { h with table := t } ∧
      ∀ name, nvramGet t name = (nvramGet h.table name).or (lookup l name) := by
  induction l generalizing h with
  | nil => exact ⟨h.table, rfl, fun name => (or_none ..).symm⟩
  | cons y l ih =>
    have hl' := fun x hx => hl x (mem_cons_of_mem y hx)
    rw [foldl_cons]
    by_cases hnone : nvramGet h.table y.name = none
    · obtain ⟨t, ht, hget⟩ := ih (h := { h with table := h.table.set y.name y.value }) hl'
      rw [if_pos hnone, nvramSet_of_le (hl y mem_cons_self)]
      refine ⟨t, ht, fun name => ?_⟩
      rw [hget, nvramGet_set, lookup_cons]
      split
      next heq => rw [← heq, hnone, some_or, none_or]
      next => rfl
    · obtain ⟨t, ht, hget⟩ := ih hl'
      rw [if_neg hnone]
      refine ⟨t, ht, fun name => ?_⟩
      rw [hget, lookup_cons]
      split
      next heq =>
        obtain ⟨value, hvalue⟩ := ne_none_iff_exists'.1 (heq ▸ hnone)
        rw [hvalue, some_or, some_or]
      next => rfl

lemma headerVars_fit (hle : h.offset + NVRAM_MIN_SPACE ≤ p.partSize) :
    ∀ y ∈ headerVars h, y.value.chars.length + 1 ≤ p.partSize - h.offset := by
  have hspace : NVRAM_MIN_SPACE = 0x8000 := rfl
  have hlen (width n : Nat) : (hexText width n).chars.length = 2 + width := by
    simp [hexText, ascii]
    omega
  intro y hy
  simp only [headerVars, mem_cons, not_mem_nil, or_false] at hy
  obtain rfl | rfl | rfl | rfl := hy <;>
  · dsimp only
    rw [hlen]
    omega

lemma value_length_le {y : Tuple} (hy : y ∈ ws) :
    y.value.chars.length + 1 ≤ (ws.flatMap text).length := by
  obtain ⟨before, after, rfl⟩ := append_of_mem hy
  rw [flatMap_append, flatMap_cons, length_append, length_append, length_text]
  omega

lemma length_le_texts (ws : List Tuple) : ws.length ≤ (ws.flatMap text).length := by
  induction ws with
  | nil => exact le_refl 0
  | cons y ws ih =>
    rw [flatMap_cons, length_append, length_cons, length_text]
    omega

/-- The variables that were written are read again, and others are made from the header. -/
theorem nvramRehash_of_committed (hopen : h.Opened) (hcom : Committed h ws mem)
    (hsub : ws.Sublist h.table.all)
    (hroom : h.offset + sizeofHeader + (ws.flatMap text).length + 2 ≤ p.partSize)
    (hnames : ∀ y ∈ ws, 61 ∉ y.name.chars) (t : Table p) :
    ∃ t' : Table p, nvramRehash ⟨mem, h.offset, t⟩ = some ⟨mem, h.offset, t'⟩ ∧
      ∀ name, nvramGet t' name =
      (lookup ws name).or (lookup (headerVars ⟨mem, h.offset, t⟩) name) := by
  have hnodup : (ws.map Tuple.name).Nodup := h.table.all_nodup.sublist (hsub.map _)
  obtain ⟨rest, hdata⟩ := hcom.data
  have hlength : ws.length < (ws.flatMap text ++ 0 :: rest).length + 1 := by
    have := length_le_texts ws
    rw [length_append]
    omega
  have hparse := parseTuples_texts hnames hlength rest
  obtain ⟨t₁, hfold, hget₁⟩ := foldl_nvramSet (h := ⟨mem, h.offset, .empty p⟩) hnodup fun y hy => by
    have := value_length_le hy
    dsimp only
    omega
  obtain ⟨t₂, hdefault, hget₂⟩ := foldl_default (h := ⟨mem, h.offset, t₁⟩)
    (headerVars_fit (h := ⟨mem, h.offset, t₁⟩) hopen.offset_le)
  refine ⟨t₂, ?_, fun name => ?_⟩
  · simp only [nvramRehash, hdata, hparse, map_some, hfold, hdefault]
  · have hempty : nvramGet (Table.empty p) name = none := rfl
    rw [hget₂, hget₁, hempty, or_none]
    rfl

lemma nvramRehash_spec {h' : Handle p} (hrehash : nvramRehash h = some h') :
    h'.mem = h.mem ∧ h'.offset = h.offset ∧
      ∀ name value, nvramGet h'.table name = some value → 61 ∉ name.chars := by
  let Inv (g : Handle p) : Prop := g.mem = h.mem ∧ g.offset = h.offset ∧
    ∀ name value, nvramGet g.table name = some value → 61 ∉ name.chars
  have hset (g : Handle p) (y : Tuple) (hy : 61 ∉ y.name.chars) (hg : Inv g) :
      Inv (nvramSet g y.name y.value).2 := by
    unfold nvramSet
    split
    next => exact hg
    next =>
      refine ⟨hg.1, hg.2.1, fun name value hget => ?_⟩
      rw [nvramGet_set] at hget
      split at hget
      next heq => exact heq ▸ hy
      next => exact hg.2.2 name value hget
  have hvars (g : Handle p) : ∀ y ∈ headerVars g, 61 ∉ y.name.chars := by
    intro y hy
    simp only [headerVars, mem_cons, not_mem_nil, or_false] at hy
    obtain rfl | rfl | rfl | rfl := hy
    all_goals
      dsimp only
      decide
  obtain ⟨ts, hts, rfl⟩ := map_eq_some_iff.1 hrehash
  apply foldlRecOn (motive := Inv)
  · apply foldlRecOn (motive := Inv)
    · exact ⟨rfl, rfl, nofun⟩
    · exact fun g hg y hy => hset g y (not_mem_of_parseTuples hts y hy) hg
  · intro g hg y hy
    split
    next => exact hset g y (hvars _ y hy) hg
    next => exact hg

lemma find?_magic_of_committed (hopen : h.Opened) (hcom : Committed h ws mem) {n i : Nat}
    (hn : (p.partSize - NVRAM_MIN_SPACE) / 4 + 1 = n) (hi : h.offset = 4 * i) :
    (range n).find? (fun i => getWord p mem (4 * i) = NVRAM_MAGIC) = some i := by
  have hle := hopen.offset_le
  rw [find?_range_eq_some]
  refine ⟨?_, ?_, fun j hj => ?_⟩
  · rw [← hi, hcom.magic, decide_eq_true_eq]
  · rw [mem_range]
    omega
  · have hword : getWord p mem (4 * j) = getWord p h.mem (4 * j) := by
      rw [getWord, getWord, slice_congr fun k hk => hcom.before _ (by omega)]
    rw [hword, Bool.not_eq_true', decide_eq_false_iff_not]
    exact hopen.first j (by omega)

lemma nvramOpen_of_committed (hopen : h.Opened) (hcom : Committed h ws mem) (rdonly : Bool) :
    nvramOpen p mem rdonly =
      if rdonly ∨ h.offset + sizeofHeader + (ws.flatMap text).length + 6 ≤ p.partSize then
        nvramRehash ⟨mem, h.offset, .empty p⟩
      else none := by
  have hmod := p.partSize_mod
  obtain ⟨i, hi⟩ := dvd_of_mod_eq_zero hopen.offset_mod
  obtain ⟨n, hn⟩ : ∃ n, (p.partSize - NVRAM_MIN_SPACE) / 4 + 1 = n := ⟨_, rfl⟩
  have hfind := find?_magic_of_committed hopen hcom hn hi
  have hlen : (sizeofHeader + (ws.flatMap text).length + 5) / 4 * 4 < p.partSize - h.offset ↔
      h.offset + sizeofHeader + (ws.flatMap text).length + 6 ≤ p.partSize := by omega
  simp only [nvramOpen, hn, hfind, bind_eq_bind, bind_some, ← hi, hcom.len, hlen,
    Bool.or_eq_true, decide_eq_true_eq]

end SourceMaster.Nvram
