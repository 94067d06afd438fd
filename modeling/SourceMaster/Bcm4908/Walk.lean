import SourceMaster.Bcm4908.Bootfs
import Mathlib.Data.Nat.Find
import Mathlib.Order.Iterate

/-!
# Walking over the bootfs

`bootfs ls` and `bootfs mv` follow the lengths in the headers of the nodes. They check neither that
a length is positive nor that the next node is before the rootfs (`bootfs_walk_iff`).
-/

namespace SourceMaster.Bcm4908

open Memory Function List Option Nat

section

variable (bigEndian : Bool) (f : File)

/-- A round of `bcm4908img_bootfs_ls`: the code it returns, or the error so far and the lines
printed. -/
def lsRound (offset : Nat) (err : Int) : Except Int (Int × List (List UInt8)) :=
  if f.size < offset + sizeofNode then .error (-5) -- EIO
  else if decode16 bigEndian (slice f.data offset 2) ≠ JFFS2_MAGIC_BITMASK then .error err
  else if decode16 bigEndian (slice f.data (offset + 2) 2) ≠ JFFS2_NODETYPE_DIRENT then .ok
    (err, [])
  else if f.size < offset + sizeofDirent then .error (-5)
  else
    let nsize := (f.data (offset + 28)).toNat
    if FILENAME_MAX + 1 < nsize + 1 then .ok (-12, []) -- ENOMEM
    else if f.size < offset + sizeofDirent + nsize then .error (-5)
    else .ok (err, [(slice f.data (offset + sizeofDirent) nsize).takeWhile (· ≠ 0)])

/-- There is no result if the loop does not end. -/
def bootfsLs : Nat → Nat → Int → Option (Int × List (List UInt8))
  | 0, _, _ => none
  | fuel + 1, offset, err =>
    match lsRound bigEndian f offset err with
    | .error ret => some (ret, [])
    | .ok round => (bootfsLs fuel (nextOffset bigEndian f offset) round.1).map
        fun rest => (rest.1, round.2 ++ rest.2)

/-- A loop ends without a node, at a node that the file cuts off, and at an entry with a wanted
name. -/
def Last (wanted : List UInt8 → Prop) (offset : Nat) : Prop :=
  f.size < offset + sizeofNode ∨ decode16 bigEndian (slice f.data offset 2) ≠ JFFS2_MAGIC_BITMASK ∨
    decode16 bigEndian (slice f.data (offset + 2) 2) = JFFS2_NODETYPE_DIRENT ∧
      (f.size < offset + sizeofDirent + (f.data (offset + 28)).toNat ∨
        wanted ((slice f.data (offset + sizeofDirent) (f.data (offset + 28)).toNat).takeWhile
          (· ≠ 0)))

end

variable {bigEndian : Bool} {f : File} {wanted : List UInt8 → Prop} {offset fuel : Nat} {err : Int}
  {info : Info} {oldname : Arg}

/-! ## How far the loops go -/

lemma nsize_le (f : File) (offset : Nat) : (f.data (offset + 28)).toNat ≤ 255 :=
  le_of_lt_succ (f.data (offset + 28)).toNat_lt

lemma lsRound_isOk_iff : (lsRound bigEndian f offset err).isOk ↔
    ¬ Last bigEndian f (fun _ => False) offset := by
  have hnsize := nsize_le f offset
  have hmax : FILENAME_MAX = 4096 := rfl
  unfold Last lsRound
  grind [Except.toBool]

lemma bootfsLs_isSome_iff : (bootfsLs bigEndian f fuel offset err).isSome ↔
    ∃ n < fuel, Last bigEndian f (fun _ => False) ((nextOffset bigEndian f)^[n] offset) := by
  induction fuel generalizing offset err with
  | zero => simp [bootfsLs]
  | succ fuel ih =>
    have hiff := @lsRound_isOk_iff bigEndian f offset err
    rw [exists_lt_succ_left, bootfsLs]
    cases hround : lsRound bigEndian f offset err with
    | error ret =>
      rw [hround] at hiff
      exact iff_of_true rfl (.inl (not_not.1 fun h => Bool.false_ne_true (hiff.2 h)))
    | ok round =>
      rw [hround] at hiff
      rw [isSome_map, ih]
      exact (or_iff_right (hiff.1 rfl)).symm

lemma findDirent_succ :
    Last bigEndian f (· = oldname.chars) offset ∧
        (findDirent bigEndian f oldname (fuel + 1) offset).isSome ∨
      ¬ Last bigEndian f (· = oldname.chars) offset ∧
        findDirent bigEndian f oldname (fuel + 1) offset =
          findDirent bigEndian f oldname fuel (nextOffset bigEndian f offset) := by
  have hnsize := nsize_le f offset
  have hmax : FILENAME_MAX = 4096 := rfl
  rw [findDirent]
  unfold Last
  grind

lemma findDirent_isSome_iff : (findDirent bigEndian f oldname fuel offset).isSome ↔
    ∃ n < fuel, Last bigEndian f (· = oldname.chars) ((nextOffset bigEndian f)^[n] offset) := by
  induction fuel generalizing offset with
  | zero => simp [findDirent]
  | succ fuel ih =>
    rw [exists_lt_succ_left]
    obtain ⟨hlast, hsome⟩ | ⟨hlast, hnext⟩ := @findDirent_succ bigEndian f offset fuel oldname
    · exact iff_of_true hsome (.inl hlast)
    · rw [hnext, ih]
      exact (or_iff_right hlast).symm

/-- A loop ends, and each header it reads is before the rootfs. The bootfs is taken to end there
also if there is padding between them. -/
def Walks (bigEndian : Bool) (f : File) (info : Info) (wanted : List UInt8 → Prop)
    (loop : Nat → Option α) : Prop :=
  (∃ fuel, (loop fuel).isSome) ∧ ∀ n,
    (∀ m < n, ¬ Last bigEndian f wanted ((nextOffset bigEndian f)^[m] info.bootfsOffset)) →
      (nextOffset bigEndian f)^[n] info.bootfsOffset < info.rootfsOffset

/-- By the lengths in the headers, the last node starts before the rootfs. -/
def EndsInBootfs (bigEndian : Bool) (f : File) (info : Info) (wanted : List UInt8 → Prop) : Prop :=
  ∃ n, Last bigEndian f wanted ((nextOffset bigEndian f)^[n] info.bootfsOffset) ∧
    (nextOffset bigEndian f)^[n] info.bootfsOffset < info.rootfsOffset

lemma walks_iff {loop : Nat → Option α} (hloop : ∀ fuel, (loop fuel).isSome ↔
      ∃ n < fuel, Last bigEndian f wanted ((nextOffset bigEndian f)^[n] info.bootfsOffset)) :
    Walks bigEndian f info wanted loop ↔ EndsInBootfs bigEndian f info wanted := by
  constructor
  · rintro ⟨⟨fuel, hsome⟩, hread⟩
    obtain ⟨n, -, hlast⟩ := (hloop fuel).1 hsome
    classical
    have hex : ∃ n, Last bigEndian f wanted ((nextOffset bigEndian f)^[n] info.bootfsOffset) :=
      ⟨n, hlast⟩
    exact ⟨_, Nat.find_spec hex, hread _ fun m hm => Nat.find_min hex hm⟩
  · rintro ⟨n, hlast, hlt⟩
    refine ⟨⟨n + 1, (hloop _).2 ⟨n, n.lt_succ_self, hlast⟩⟩, fun k hread => ?_⟩
    have hle : k ≤ n := Nat.le_of_not_lt fun hk => hread n hk hlast
    have hmono := monotone_iterate_of_id_le (f := nextOffset bigEndian f) fun o => le_add_right o _
    exact lt_of_le_of_lt (hmono hle _) hlt

/-- The loops of `bootfs ls` and `bootfs mv` end within the bootfs exactly if the last node does, by
the lengths in the headers. -/
theorem bootfs_walk_iff (bigEndian : Bool) (f : File) (info : Info) (oldname : Arg) :
    (Walks bigEndian f info (fun _ => False) (bootfsLs bigEndian f · info.bootfsOffset 0) ↔
      EndsInBootfs bigEndian f info fun _ => False) ∧
    (Walks bigEndian f info (· = oldname.chars)
    (findDirent bigEndian f oldname · info.bootfsOffset) ↔
      EndsInBootfs bigEndian f info (· = oldname.chars)) :=
  ⟨walks_iff fun _ => bootfsLs_isSome_iff, walks_iff fun _ => findDirent_isSome_iff⟩

lemma create_single (content : List UInt8) : create host [.f (some content)] =
    some (.ofList (content ++ (createdTail (crc32 0xffffffff content)).bytes)) := by
  simp only [create, createBody, foldlM_cons, foldlM_nil, createOption_f, bind_eq_bind, bind_some,
    Option.pure_def, append_ofList, nil_append]

/-- An accepted image starts with an entry of length 0. -/
theorem bootfs_walk_never_ends : ∃ img info, parse img = .ok info ∧ ∀ fuel,
    bootfsLs false img fuel info.bootfsOffset 0 = none ∧
      findDirent false img (letter 97 (by decide)) fuel info.bootfsOffset = none := by
  have hcreate := create_single (bootStart ++ replicate 40 0 ++ rootPart 44)
  obtain ⟨img, himg⟩ : ∃ img, img = File.ofList (bootStart ++ replicate 40 0 ++ rootPart 44 ++
      (createdTail (crc32 0xffffffff (bootStart ++ replicate 40 0 ++ rootPart 44))).bytes) :=
        ⟨_, rfl⟩
  rw [← himg] at hcreate
  obtain ⟨-, htail, hlocate, hpayload⟩ :=
    @locate_rootPart (replicate 40 0) _ 44 rfl (by decide) _ himg
  have hparse := parse_of_locate hlocate
  rw [if_pos (by rw [htail, create_tail hcreate, hpayload, contents, flatMap_singleton]; rfl)]
    at hparse
  have hsize := (locate_spec hlocate).1
  have hnext : nextOffset false img 0 = 0 := by rw [himg]; rfl
  have hfirst {wanted : List UInt8 → Prop} (hwanted : ¬ wanted []) : ¬ Last false img wanted 0 := by
    have hmagic : decode16 false (slice img.data 0 2) = JFFS2_MAGIC_BITMASK := by rw [himg]; rfl
    have hnsize : (img.data (0 + 28)).toNat = 0 := by rw [himg]; rfl
    have hnode : sizeofNode = 12 := rfl
    have hdirent : sizeofDirent = 40 := rfl
    unfold Last
    rw [hnsize]
    rintro (hnone | hnone | ⟨-, hcut | hname⟩)
    · omega
    · exact hnone hmagic
    · omega
    · exact hwanted hname
  refine ⟨img, _, hparse, fun fuel => ⟨?_, ?_⟩⟩
  · rw [← not_isSome_iff_eq_none, bootfsLs_isSome_iff]
    rintro ⟨n, -, hlast⟩
    rw [iterate_fixed hnext] at hlast
    exact hfirst id hlast
  · rw [← not_isSome_iff_eq_none, findDirent_isSome_iff]
    rintro ⟨n, -, hlast⟩
    rw [iterate_fixed hnext] at hlast
    exact hfirst (by decide) hlast

end SourceMaster.Bcm4908
