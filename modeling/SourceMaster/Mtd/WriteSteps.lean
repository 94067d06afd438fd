import SourceMaster.Mtd.Write

/-!
# The steps of `mtd_write`

What the buffer holds when it has been filled, which block the inner loop erases, and what a round
of the main loop can do. No loop runs longer than its bound says.
-/

namespace SourceMaster.Mtd

open Memory Padding List Nat Writer

/-! ## The buffer -/

def Input.rest (s : Input) : List UInt8 := slice s.buf 0 s.buflen ++ s.content

def Readable (faults : List Fault) : Prop := ∀ fault ∈ faults, fault ≠ .error

instance (faults : List Fault) : Decidable (Readable faults) :=
  inferInstanceAs (Decidable (∀ fault ∈ faults, fault ≠ .error))

lemma Input.rest_read (s : Input) (n : Nat) : (s.read n).rest = s.rest := by
  have hput := slice_put_append s.buf 0 s.buflen (s.content.take n)
  rw [Nat.zero_add] at hput
  simp only [Input.rest, Input.read, hput, append_assoc, take_append_drop]

/-- The buffer has been filled: it is full, unless the image has come to its end. -/
structure Filled (erasesize : Nat) (s t : Input) : Prop where
  rest : t.rest = s.rest
  le : t.buflen ≤ erasesize
  full : t.buflen = erasesize ∨ t.content = []
  readable : Readable t.faults

variable {erasesize : Nat}

lemma fillBuf_filled (faults : List Fault) (s : Input)
    (hle : s.buflen ≤ erasesize) (hread : Readable faults) :
    Filled erasesize s (fillBuf erasesize faults s) := by
  induction faults generalizing s with
  | nil =>
    refine ⟨s.rest_read _, ?_, ?_, nofun⟩
    · simp only [fillBuf, Input.read, length_take]
      omega
    · simp only [fillBuf, Input.read, length_take, drop_eq_nil_iff]
      omega
  | cons fault faults ih =>
    have hread' : Readable faults := fun f hf => hread f (mem_cons_of_mem fault hf)
    unfold fillBuf
    split
    next hfull => exact ⟨rfl, hle, .inl (le_antisymm hle hfull), hread⟩
    next =>
      match fault with
      | .interrupted => exact ih s hle hread'
      | .error => exact absurd rfl (hread .error mem_cons_self)
      | .short n =>
        dsimp only
        split
        next hend => exact ⟨rfl, hle, .inr hend, hread'⟩
        next =>
          obtain ⟨hrest, hle', hfull, hread''⟩ :=
            ih (s.read (min (n + 1) (erasesize - s.buflen))) (by
              simp only [Input.read, length_take]
              omega) hread'
          exact ⟨hrest.trans (s.rest_read _), hle', hfull, hread''⟩

lemma Filled.block {s t : Input} (h : Filled erasesize s t) (hne : t.buflen ≠ 0) :
    (padBuf erasesize t).buflen = erasesize ∧
      slice (padBuf erasesize t).buf 0 erasesize ++ pad erasesize 0xff t.content =
        pad erasesize 0xff s.rest := by
  have hrest : s.rest = slice t.buf 0 t.buflen ++ t.content := h.rest.symm
  have hlen := length_slice t.buf 0 t.buflen
  unfold padBuf
  split
  next hlt =>
    have hend : t.content = [] := h.full.resolve_left (Nat.ne_of_lt hlt)
    have hbytes := slice_put_append t.buf 0 t.buflen (replicate (erasesize - t.buflen) 0xff)
    rw [length_replicate, Nat.add_sub_cancel' h.le, Nat.zero_add] at hbytes
    refine ⟨rfl, ?_⟩
    rw [hrest, hend, append_nil, pad_nil, append_nil]
    rw [pad_of_le (ne_nil_of_length_pos (by omega)) (by omega), hlen]
    exact hbytes
  next hge =>
    have hfull : t.buflen = erasesize := le_antisymm h.le (not_lt.1 hge)
    refine ⟨hfull, ?_⟩
    have hdvd : erasesize ∣ (slice t.buf 0 t.buflen).length := ⟨1, by rw [hlen, hfull, mul_one]⟩
    rw [hrest, pad_append hdvd, hfull]

lemma Filled.rest_eq_nil {s t : Input} (h : Filled erasesize s t)
    (hpos : 0 < erasesize) (hzero : t.buflen = 0) : s.rest = [] := by
  have hend : t.content = [] := h.full.resolve_left (by omega)
  rw [← h.rest, Input.rest, hzero, hend]
  rfl

/-! ## The next block -/

section

variable {d : Device} {q n : Nat} {s : Writer}

lemma mtdBlockIsBad_some {b : Bool} (h : mtdBlockIsBad d (n * d.erasesize) = some b) :
    d.bad n = b ∧ (b → n < d.blocks) := by
  have hpos := d.erasesize_pos
  unfold mtdBlockIsBad at h
  split at h
  next hnor =>
    obtain rfl := Option.some.inj h
    refine ⟨?_, nofun⟩
    rw [Bool.eq_false_iff]
    intro hbad
    rw [d.bad_nand n hbad] at hnor
    exact Bool.noConfusion hnor
  next =>
    split at h
    next hlt =>
      rw [Nat.mul_div_cancel n hpos] at h
      rw [Device.mtdsize, Nat.mul_comm] at hlt
      exact ⟨Option.some.inj h, fun _ => Nat.lt_of_mul_lt_mul_left hlt⟩
    next => cases h

def Device.CanErase (d : Device) (b : Nat) : Prop := b < d.blocks ∧ d.bad b = false ∧
    d.worn b = false

lemma offset_mod (hq : q * d.erasesize + d.mtdsize < 2 ^ 32) (hn : n ≤ d.blocks) :
    (n * d.erasesize + q * d.erasesize) % 2 ^ 32 = (q + n) * d.erasesize := by
  have hend : n * d.erasesize ≤ d.mtdsize := by
    rw [Device.mtdsize, Nat.mul_comm d.erasesize]
    exact Nat.mul_le_mul_right _ hn
  rw [Nat.add_mul, Nat.add_comm, Nat.mod_eq_of_lt (by omega)]

lemma mtdEraseBlock_iff (hq : q * d.erasesize + d.mtdsize < 2 ^ 32) (hn : n ≤ d.blocks) :
    mtdEraseBlock d (n * d.erasesize + q * d.erasesize) ↔ d.CanErase (q + n) := by
  have hpos := d.erasesize_pos
  have hend : (q + n) * d.erasesize + d.erasesize ≤ d.mtdsize ↔ q + n < d.blocks := by
    rw [← Nat.succ_mul, Device.mtdsize, Nat.mul_comm d.erasesize, Nat.mul_le_mul_right_iff hpos,
      succ_le_iff]
  unfold mtdEraseBlock Device.CanErase
  dsimp only
  rw [offset_mod hq hn, Nat.mul_mod_left, Nat.mul_div_cancel _ hpos]
  simp only [decide_true, Bool.true_and, Bool.and_eq_true, decide_eq_true_eq, Bool.not_eq_true',
    hend, and_assoc]

/-- Between blocks: `n` blocks from block `q` on have been passed. The position is right unless the
device has ended. -/
structure Writer.At (s : Writer) (d : Device) (q n : Nat) : Prop where
  e : s.e = n * d.erasesize
  passed : s.w + s.skipBadBlocks = s.e
  pos : q + n ≤ d.blocks → s.pos = (q + n) * d.erasesize
  le : n ≤ d.blocks

/-- The blocks from `n` to `i` were skipped, and `i` is not marked. -/
structure Writer.Skipped (s s' : Writer) (d : Device) (n i : Nat) : Prop where
  le : n ≤ i
  bad : ∀ j, n ≤ j → j < i → d.bad j
  good : d.bad i = false
  input : s'.input = s.input
  dev : s'.dev = s.dev
  w : s'.w = s.w
  offset : s'.offset = s.offset

lemma Writer.Skipped.of_succ {s₁ s' : Writer} {i : Nat} (h : s₁.Skipped s' d (n + 1) i)
    (hbad : d.bad n) (hinput : s₁.input = s.input) (hdev : s₁.dev = s.dev) (hw : s₁.w = s.w)
    (hoffset : s₁.offset = s.offset) : s.Skipped s' d n i where
  le := le_of_succ_le h.le
  bad j hj hlt := by
    obtain rfl | hne := eq_or_lt_of_le hj
    · exact hbad
    · exact h.bad j hne hlt
  good := h.good
  input := h.input.trans hinput
  dev := h.dev.trans hdev
  w := h.w.trans hw
  offset := h.offset.trans hoffset

/-- The loop erases the first block not marked as bad, counted from the beginning of the device, if
the block of the partition with this number can be erased. -/
theorem eraseLoop_spec (hq : q * d.erasesize + d.mtdsize < 2 ^ 32) (fuel : Nat)
    (hat : s.At d q n) (hbuf : s.input.buflen = d.erasesize) :
    match eraseLoop d (q * d.erasesize) fuel s with
    | .ready s' => ∃ i, s.Skipped s' d n i ∧ d.CanErase (q + i) ∧ s'.wrote.At d q (i + 1) ∧
        s'.pos = (q + i) * d.erasesize ∧
        s'.ops = s.ops ++ [.erase s.dev ((q + i) * d.erasesize) d.erasesize]
    | .failed s' => ∃ i, s.Skipped s' d n i ∧ ¬ d.CanErase (q + i) ∧ s'.At d q i ∧ s'.ops = s.ops
    | _ => True := by
  have hpos := d.erasesize_pos
  induction fuel generalizing s n with
  | zero => trivial
  | succ fuel ih =>
    have hmore : ¬ s.w + s.input.buflen + s.skipBadBlocks ≤ s.e := by
      have := hat.passed
      omega
    rw [eraseLoop, if_neg hmore, hat.e]
    cases hbad : mtdBlockIsBad d (n * d.erasesize) with
    | none => trivial
    | some b =>
      obtain ⟨hmark, hlt⟩ := mtdBlockIsBad_some hbad
      cases b with
      | true =>
        -- the block is skipped
        have hnext : Writer.At { s with
            skipBadBlocks := s.skipBadBlocks + d.erasesize
            e := n * d.erasesize + d.erasesize
            pos := lseek d s.pos (s.pos + d.erasesize) } d q (n + 1) := by
          refine ⟨(Nat.succ_mul n _).symm, ?_, fun hle => ?_, hlt rfl⟩
          · have hpassed := hat.passed
            rw [hat.e] at hpassed
            show s.w + (s.skipBadBlocks + d.erasesize) = n * d.erasesize + d.erasesize
            omega
          · have hsucc : s.pos + d.erasesize = (q + (n + 1)) * d.erasesize := by
              rw [hat.pos (by omega), ← add_assoc, Nat.succ_mul]
            rw [lseek, if_pos, hsucc]
            rw [hsucc, Device.mtdsize, Nat.mul_comm]
            exact mul_le_mul_left _ hle
        have hrec := ih hnext hbuf
        generalize eraseLoop d (q * d.erasesize) fuel _ = res at hrec ⊢
        cases res with
        | ready s' =>
          obtain ⟨i, hskip, h⟩ := hrec
          exact ⟨i, hskip.of_succ hmark rfl rfl rfl rfl, h⟩
        | failed s' =>
          obtain ⟨i, hskip, h⟩ := hrec
          exact ⟨i, hskip.of_succ hmark rfl rfl rfl rfl, h⟩
        | exited => trivial
        | stuck => trivial
      | false =>
        have hskip : s.Skipped s d n n :=
          ⟨le_refl n, fun j hj hlt => absurd hlt (not_lt.2 hj), hmark, rfl, rfl, rfl, rfl⟩
        dsimp only
        by_cases hcan : d.CanErase (q + n)
        · rw [if_pos ((mtdEraseBlock_iff hq hat.le).2 hcan)]
          cases fuel with
          | zero => trivial
          | succ fuel =>
            have hpassed := hat.passed
            rw [hat.e] at hpassed
            have hdone : s.w + s.input.buflen + s.skipBadBlocks ≤
                n * d.erasesize + d.erasesize := by
              omega
            rw [eraseLoop, if_pos hdone]
            refine ⟨n, ⟨hskip.le, hskip.bad, hskip.good, rfl, rfl, rfl, rfl⟩, hcan,
              ⟨(Nat.succ_mul n _).symm, ?_, fun _ => ?_, ?_⟩, hat.pos (le_of_lt hcan.1), ?_⟩
            · show s.w + s.input.buflen + s.skipBadBlocks = n * d.erasesize + d.erasesize
              omega
            · show s.pos + s.input.buflen = _
              rw [hat.pos (le_of_lt hcan.1), hbuf, ← add_assoc, Nat.succ_mul]
            · have := hcan.1
              omega
            · rw [offset_mod hq hat.le]
        · rw [if_neg (fun h => hcan ((mtdEraseBlock_iff hq hat.le).1 h))]
          exact ⟨n, hskip, hcan, hat, rfl⟩

/-! ## A round of the main loop -/

structure Writer.Ready (s : Writer) (d : Device) (q n : Nat) : Prop where
  reached : s.At d q n
  offset : s.offset = 0
  buflen : s.input.buflen ≤ d.erasesize
  readable : Readable s.input.faults

def Writer.left (s : Writer) (d : Device) : List UInt8 := pad d.erasesize 0xff s.input.rest

structure Writer.Wrote (s s' : Writer) (d : Device) (q n i : Nat) (block : List UInt8) : Prop where
  le : n ≤ i
  bad : ∀ j, n ≤ j → j < i → d.bad j
  good : d.bad i = false
  canErase : d.CanErase (q + i)
  ready : s'.Ready d q (i + 1)
  length : block.length = d.erasesize
  left : block ++ s'.left d = s.left d
  w : s'.w = s.w + d.erasesize
  dev : s'.dev = s.dev
  ops : s'.ops = s.ops ++ [.erase s.dev ((q + i) * d.erasesize) d.erasesize,
    .write s.dev ((q + i) * d.erasesize) block]

structure Writer.Failed (s s' : Writer) (d : Device) (q n i : Nat) : Prop where
  le : n ≤ i
  bad : ∀ j, n ≤ j → j < i → d.bad j
  good : d.bad i = false
  canErase : ¬ d.CanErase (q + i)
  ready : s'.Ready d q i
  left : s'.left d = s.left d
  more : 0 < (s.left d).length
  w : s'.w = s.w
  dev : s'.dev = s.dev
  ops : s'.ops = s.ops

/-- If `mtd_write` returns in the end, a round ends the image, writes a block or goes on with the
next device.
-/
theorem writeLoop_returned (hq : q * d.erasesize + d.mtdsize < 2 ^ 32) {fuel : Nat}
    {next : List Device} {ops : List Op} (hs : s.Ready d q n)
    (h : writeLoop (q * d.erasesize) (fuel + 1) d next s = .returned ops) :
    s.left d = [] ∧ ops = s.ops ∨
    (∃ s' i block, s.Wrote s' d q n i block ∧
    writeLoop (q * d.erasesize) fuel d next s' = .returned ops) ∨
    ∃ s' i d' next', next = d' :: next' ∧ s.Failed s' d q n i ∧
      writeLoop (q * d.erasesize) fuel d' next' ((s'.flush d).switch d' (q * d.erasesize)) =
        .returned ops := by
  have hpos := d.erasesize_pos
  have hfilled := fillBuf_filled s.input.faults s.input hs.buflen hs.readable
  unfold writeLoop at h
  dsimp only at h
  generalize fillBuf d.erasesize s.input.faults s.input = input at hfilled h
  by_cases hend : input.buflen = 0
  · rw [if_pos hend] at h
    refine .inl ⟨?_, (Outcome.returned.inj h).symm⟩
    rw [left, hfilled.rest_eq_nil hpos hend, pad_nil]
  rw [if_neg hend] at h
  obtain ⟨hlen, hblock⟩ := hfilled.block hend
  have hfaults : Readable (padBuf d.erasesize input).faults ∧
      (padBuf d.erasesize input).content = input.content := by
    unfold padBuf
    split
    · exact ⟨hfilled.readable, rfl⟩
    · exact ⟨hfilled.readable, rfl⟩
  obtain ⟨hread, hcontent⟩ := hfaults
  rw [← hcontent] at hblock
  generalize padBuf d.erasesize input = input' at hlen hblock hread h
  have hat : Writer.At { s with input := input' } d q n :=
    ⟨hs.reached.e, hs.reached.passed, hs.reached.pos, hs.reached.le⟩
  have hspec := eraseLoop_spec hq (d.blocks + (s.w + input'.buflen + s.skipBadBlocks - s.e) + 2) hat
    hlen
  generalize eraseLoop d (q * d.erasesize) _ _ = res at hspec h
  cases res with
  | stuck => cases h
  | exited => cases h
  | ready s' =>
    obtain ⟨i, hskip, hcan, hnext, hpos', hops⟩ := hspec
    have hinput : s'.input = input' := hskip.input
    have hoffset : s'.offset = 0 := hskip.offset.trans hs.offset
    have hdata : s'.data s'.input.buflen = slice input'.buf 0 d.erasesize := by
      rw [data, hinput, hoffset, hlen]
    refine .inr (.inl ⟨s'.wrote, i, slice input'.buf 0 d.erasesize,
      ⟨hskip.le, hskip.bad, hskip.good, hcan, ⟨hnext, rfl, zero_le _, ?_⟩, length_slice _ _ _, ?_,
        ?_, hskip.dev, ?_⟩, ?_⟩)
    · show Readable s'.input.faults
      rw [hinput]
      exact hread
    · show _ ++ pad d.erasesize 0xff s'.wrote.input.rest = _
      rw [left, ← hblock, Input.rest]
      show _ ++ pad d.erasesize 0xff ([] ++ s'.input.content) = _
      rw [hinput, nil_append]
    · show s'.w + s'.input.buflen = _
      rw [hskip.w, hinput, hlen]
    · show s'.ops ++ [.write s'.dev s'.pos (s'.data s'.input.buflen)] = _
      rw [hops, hdata, hpos', hskip.dev, append_assoc]
      rfl
    · dsimp only at h
      split at h
      next => cases h
      next =>
        split at h
        next => cases h
        next => exact h
  | failed s' =>
    obtain ⟨i, hskip, hcan, hat', hops⟩ := hspec
    have hinput : s'.input = input' := hskip.input
    cases next with
    | nil => cases h
    | cons d' next' =>
      refine .inr (.inr ⟨s', i, d', next', rfl, ⟨hskip.le, hskip.bad, hskip.good, hcan,
        ⟨hat', hskip.offset.trans hs.offset, ?_, ?_⟩, ?_, ?_, hskip.w, hskip.dev, hops⟩, h⟩)
      · rw [hinput, hlen]
      · rw [hinput]
        exact hread
      · have hdvd : d.erasesize ∣ (slice input'.buf 0 d.erasesize).length :=
          ⟨1, by rw [length_slice, mul_one]⟩
        rw [left, left, hinput, ← hblock, Input.rest, hlen, pad_append hdvd]
      · rw [left, ← hblock, length_append, length_slice]
        omega

end

/-! ## The loops come to an end -/

lemma fillBuf_length (erasesize : Nat) (faults : List Fault) (s : Input) :
    s.buflen ≤ (fillBuf erasesize faults s).buflen ∧
      (fillBuf erasesize faults s).buflen + (fillBuf erasesize faults s).content.length =
        s.buflen + s.content.length := by
  have hread : ∀ (s : Input) (n : Nat), s.buflen ≤ (s.read n).buflen ∧
      (s.read n).buflen + (s.read n).content.length = s.buflen + s.content.length := by
    intro s n
    simp only [Input.read, length_take, length_drop]
    omega
  fun_induction fillBuf erasesize faults s with
  | case1 s => exact hread s _
  | case2 | case4 | case5 => exact ⟨le_refl _, rfl⟩
  | case3 _ _ _ ih => exact ih
  | case6 _ s _ n _ ih =>
    obtain ⟨hle, heq⟩ := hread s (min (n + 1) (erasesize - s.buflen))
    exact ⟨hle.trans ih.1, ih.2.trans heq⟩

variable (d : Device) (partOffset fuel : Nat) (s : Writer)

/-- The loop goes over the blocks of the device, and does not touch the input. -/
theorem eraseLoop_ends
    (hfuel : (d.blocks - s.e / d.erasesize) + (s.w + s.input.buflen + s.skipBadBlocks - s.e) <
    fuel) :
    match eraseLoop d partOffset fuel s with
    | .ready s' => s'.input = s.input
    | .failed s' => s'.input = s.input
    | .exited => True
    | .stuck => False := by
  have hpos := d.erasesize_pos
  have hdiv (e : Nat) : (e + d.erasesize) / d.erasesize = e / d.erasesize + 1 :=
    add_div_right _ hpos
  fun_induction eraseLoop d partOffset fuel s with
  | case1 => omega
  | case2 | case6 => rfl
  | case3 => trivial
  | case4 fuel s _ hbad ih =>
    -- only the blocks of the device are skipped
    have hlt : s.e / d.erasesize < d.blocks := by
      unfold mtdBlockIsBad at hbad
      split_ifs at hbad with hnor hlt
      · cases hbad
      · exact Nat.div_lt_of_lt_mul hlt
    apply ih
    have := hdiv s.e
    dsimp only
    omega
  | case5 fuel s _ _ _ ih =>
    apply ih
    have := hdiv s.e
    dsimp only
    omega

lemma Writer.input_flush (d : Device) : (s.flush d).input = s.input := by
  unfold flush
  split <;> rfl

def Writer.rounds (s : Writer) (next : List Device) : Nat :=
  s.input.content.length + (if s.input.buflen = 0 then 0 else 1) + next.length

lemma writeLoop_ne_stuck (d : Device) (next : List Device) (s : Writer)
    (hfuel : s.rounds next < fuel) : writeLoop partOffset fuel d next s ≠ .stuck := by
  induction fuel generalizing d next s with
  | zero => omega
  | succ fuel ih =>
    obtain ⟨hle, heq⟩ := fillBuf_length d.erasesize s.input.faults s.input
    unfold writeLoop
    dsimp only
    generalize fillBuf d.erasesize s.input.faults s.input = input at hle heq ⊢
    split
    next => exact nofun
    next hne =>
      obtain ⟨hcontent, hbuflen⟩ : (padBuf d.erasesize input).content = input.content ∧
          (padBuf d.erasesize input).buflen ≠ 0 := by
        unfold padBuf
        split
        · exact ⟨rfl, pos_iff_ne_zero.1 d.erasesize_pos⟩
        · exact ⟨rfl, hne⟩
      generalize padBuf d.erasesize input = input' at hcontent hbuflen ⊢
      -- a byte at least has been taken, from the image or from what the buffer held
      have hless : input'.content.length + 1 ≤
          s.input.content.length + (if s.input.buflen = 0 then 0 else 1) := by
        rw [hcontent]
        split <;> omega
      unfold rounds at hfuel
      have hends := eraseLoop_ends d partOffset
        (d.blocks + (s.w + input'.buflen + s.skipBadBlocks - s.e) + 2) { s with input := input' }
          (by
          have := sub_le d.blocks (s.e / d.erasesize)
          dsimp only
          omega)
      generalize eraseLoop d partOffset _ _ = res at hends ⊢
      cases res with
      | stuck => cases hends
      | exited => exact nofun
      | ready s' =>
        have hinput : s'.input = input' := hends
        have hround : s'.wrote.rounds next < fuel := by
          show s'.input.content.length + 0 + next.length < fuel
          rw [hinput]
          omega
        dsimp only
        split
        next => exact nofun
        next =>
          split
          next => exact nofun
          next => exact ih d next s'.wrote hround
      | failed s' =>
        have hinput : (s'.flush d).input = input' := (s'.input_flush d).trans hends
        cases next with
        | nil => exact nofun
        | cons d' next' =>
          apply ih
          show (s'.flush d).input.content.length +
            (if (s'.flush d).input.buflen = 0 then 0 else 1) + next'.length < fuel
          rw [hinput, if_neg hbuflen]
          rw [length_cons] at hfuel
          omega

/-- `mtd_write` comes to an end, whatever blocks are bad and whatever reads fail. -/
theorem mtdWrite_ne_stuck (next : List Device) (partOffset : Nat) (input : Input) :
    mtdWrite d next partOffset input ≠ .stuck := by
  apply writeLoop_ne_stuck
  unfold rounds
  dsimp only
  split <;> omega

end SourceMaster.Mtd
