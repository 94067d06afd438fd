import SourceMaster.Hostapd.Supplicant

/-!
# Comparing values

`is_equal` takes a key that is bound to null for one that is missing in the second value, and for
one that is not in the first. So it is no equivalence, and it is not even reflexive, unless no key
is bound to null (`is_equal_iff`).
-/

namespace SourceMaster.Hostapd

namespace Val

def isLeaf : Val → Bool
  | null | bool _ | int _ | string _ => true
  | _ => false

/-- Without floating point numbers, and with every key once. -/
inductive Proper : Val → Prop
  | leaf {v} : v.isLeaf → Proper v
  | array {l} : (∀ v ∈ l, Proper v) → Proper (array l)
  | object {l} : (l.map Prod.fst).Nodup → (∀ e ∈ l, Proper e.2) → Proper (object l)

inductive NoNull : Val → Prop
  | leaf {v} : v.isLeaf → NoNull v
  | array {l} : (∀ v ∈ l, NoNull v) → NoNull (array l)
  | object {l} : (∀ e ∈ l, e.2 ≠ .null) → (∀ e ∈ l, NoNull e.2) → NoNull (object l)

inductive Same : Val → Val → Prop
  | leaf {v} : v.isLeaf → Same v v
  | array {l l'} : l.length = l'.length →
    (∀ (i : Nat) v w, l[i]? = some v → l'[i]? = some w → Same v w) →
      Same (array l) (array l')
  | object {l l'} : (∀ k, k ∈ l.map Prod.fst ↔ k ∈ l'.map Prod.fst) →
      (∀ k v w, (k, v) ∈ l → (k, w) ∈ l' → Same v w) → Same (object l) (object l')

end Val

open Val List Bool

lemma isEqualAll_iff (l l' : List Val) (h : l.length = l'.length) :
    isEqualAll l l' ↔ ∀ (i : Nat) v w, l[i]? = some v → l'[i]? = some w → isEqual v w := by
  induction l generalizing l' with
  | nil => simp [isEqualAll]
  | cons a l ih =>
    obtain ⟨b, l', rfl⟩ := exists_cons_of_length_eq_add_one h.symm
    rw [isEqualAll, and_eq_true, ih l' (by simpa using h)]
    constructor
    · rintro ⟨hab, hl⟩ i v w hv hw
      cases i with
      | zero => simp_all
      | succ i => exact hl i v w (by simpa using hv) (by simpa using hw)
    · intro hl
      exact ⟨hl 0 a b rfl rfl, fun i v w hv hw =>
        hl (i + 1) v w (by simpa using hv) (by simpa using hw)⟩

lemma isEqualFields_iff (l l' : List (String × Val)) :
    isEqualFields l l' ↔ ∀ e ∈ l, isEqual e.2 (field l' e.1) := by
  induction l with
  | nil => simp [isEqualFields]
  | cons e l ih =>
    obtain ⟨k, v⟩ := e
    rw [isEqualFields, and_eq_true, ih]
    simp

section

variable {l : List (String × Val)} {k : String} {v w : Val}

lemma field_of_not_mem (h : k ∉ l.map Prod.fst) : field l k = .null := by
  have hnone : l.find? (fun e => e.1 = k) = none := by
    rw [find?_eq_none]
    grind
  rw [field, hnone]
  rfl

lemma field_of_mem (hl : (l.map Prod.fst).Nodup) (h : (k, v) ∈ l) : field l k = v := by
  have hfind : l.find? (fun e => e.1 = k) = some (k, v) := by
    induction l with
    | nil => cases h
    | cons e l ih => grind
  rw [field, hfind]
  rfl

lemma Val.Same.array_inv {l l' : List Val} (h : Same (.array l) (.array l')) :
    l.length = l'.length ∧ ∀ (i : Nat) v w, l[i]? = some v → l'[i]? = some w → Same v w := by
  cases h with
  | leaf h => cases h
  | array hlen hsame => exact ⟨hlen, hsame⟩

lemma Val.Same.object_inv {l l' : List (String × Val)} (h : Same (.object l) (.object l')) :
    (∀ k, k ∈ l.map Prod.fst ↔ k ∈ l'.map Prod.fst) ∧ ∀ k v w, (k, v) ∈ l →
    (k, w) ∈ l' → Same v w := by
  cases h with
  | leaf h => cases h
  | object hkeys hsame => exact ⟨hkeys, hsame⟩

lemma isEqual_iff (hv : v.Proper) (hn : v.NoNull) (hw : w.Proper) : isEqual v w ↔ Same v w := by
  induction hv generalizing w with
  | @leaf v hleaf => cases v <;> cases w <;> simp [isEqual] <;> grind [Same, isLeaf]
  | @array l h ih =>
    have hl : ∀ v ∈ l, NoNull v := by
      cases hn with
      | leaf h => cases h
      | array hl => exact hl
    cases hw with
    | @array l' hl' =>
      have hiff : ∀ (i : Nat) v w, l[i]? = some v → l'[i]? = some w → (isEqual v w ↔ Same v w) :=
        fun i v w hv hw => ih v (mem_of_getElem? hv) (hl v (mem_of_getElem? hv))
          (hl' w (mem_of_getElem? hw))
      rw [isEqual, and_eq_true, beq_iff_eq]
      constructor
      · rintro ⟨hlen, hall⟩
        rw [isEqualAll_iff l l' hlen] at hall
        exact .array hlen fun i v w hv hw => (hiff i v w hv hw).1 (hall i v w hv hw)
      · intro h
        obtain ⟨hlen, hsame⟩ := h.array_inv
        rw [isEqualAll_iff l l' hlen]
        exact ⟨hlen, fun i v w hv hw => (hiff i v w hv hw).2 (hsame i v w hv hw)⟩
    | @leaf w hw => cases w <;> simp [isEqual] <;> grind [Same, isLeaf]
    | object => simp [isEqual]; grind [Same]
  | @object l hnodup h ih =>
    obtain ⟨hnull, hl⟩ : (∀ e ∈ l, e.2 ≠ .null) ∧ ∀ e ∈ l, NoNull e.2 := by
      cases hn with
      | leaf h => cases h
      | object hnull hl => exact ⟨hnull, hl⟩
    cases hw with
    | @leaf w hw => cases w <;> simp [isEqual] <;> grind [Same, isLeaf]
    | array => simp [isEqual]; grind [Same]
    | @object l' hnodup' hl' =>
      rw [isEqual, and_eq_true, isEqualFields_iff, all_eq_true]
      constructor
      · rintro ⟨hfields, hkeys⟩
        refine .object (fun k => ⟨fun hk => ?_, fun hk => ?_⟩) fun k v w hv hw => ?_
        · obtain ⟨⟨k, v⟩, hv, rfl⟩ := mem_map.1 hk
          by_contra hmissing
          have hnone := hfields _ hv
          rw [field_of_not_mem hmissing, ih _ hv (hl _ hv) (.leaf rfl)] at hnone
          cases v <;> cases hnone
          exact hnull _ hv rfl
        · obtain ⟨⟨k, w⟩, hw, rfl⟩ := mem_map.1 hk
          by_contra hmissing
          have hnone := hkeys _ hw
          rw [field_of_not_mem hmissing] at hnone
          cases hnone
        · have heq := hfields _ hv
          rwa [field_of_mem hnodup' hw, ih _ hv (hl _ hv) (hl' _ hw)] at heq
      · intro h
        obtain ⟨hkeys, hsame⟩ := h.object_inv
        refine ⟨fun e he => ?_, fun e he => ?_⟩
        · obtain ⟨⟨k, w⟩, hw, hk⟩ := mem_map.1 ((hkeys e.1).1 (mem_map_of_mem he))
          obtain rfl : k = e.1 := hk
          rw [field_of_mem hnodup' hw, ih _ he (hl _ he) (hl' _ hw)]
          exact hsame _ _ _ he hw
        · obtain ⟨⟨k, v⟩, hv, hk⟩ := mem_map.1 ((hkeys e.1).2 (mem_map_of_mem he))
          obtain rfl : k = e.1 := hk
          have hne := hnull _ hv
          rw [field_of_mem hnodup hv]
          cases v <;> simp_all [isNull]

lemma noNull_of_isEqual_self (hv : v.Proper) (h : isEqual v v) : v.NoNull := by
  induction hv with
  | leaf hleaf => exact .leaf hleaf
  | @array l hl ih =>
    rw [isEqual, and_eq_true, isEqualAll_iff l l rfl] at h
    refine .array fun v hv => ih v hv ?_
    obtain ⟨i, hi⟩ := mem_iff_getElem?.1 hv
    exact h.2 i v v hi hi
  | @object l hnodup hl ih =>
    rw [isEqual, and_eq_true, isEqualFields_iff, all_eq_true] at h
    have hfield : ∀ e ∈ l, field l e.1 = e.2 := fun e he => field_of_mem hnodup he
    refine .object (fun e he hnull => ?_) fun e he => ih e he ?_
    · have := h.2 e he
      rw [hfield e he, hnull] at this
      cases this
    · have := h.1 e he
      rwa [hfield e he] at this

lemma Val.Same.refl (hv : v.Proper) : Same v v := by
  induction hv with
  | leaf h => exact .leaf h
  | @array l hl ih => exact .array rfl (by grind)
  | @object l hnodup hl ih =>
    refine .object (fun _ => Iff.rfl) fun k v w hv hw => ?_
    obtain rfl : v = w := (field_of_mem hnodup hv).symm.trans (field_of_mem hnodup hw)
    exact ih _ hv

lemma Val.Same.symm (h : Same v w) : Same w v := by
  induction h with
  | leaf h => exact .leaf h
  | array hlen _ ih => exact .array hlen.symm fun i v w hv hw => ih i w v hw hv
  | object hkeys _ ih => exact .object (fun k => (hkeys k).symm) fun k v w hv hw => ih k w v hw hv

lemma Val.Same.trans {u : Val} (h : Same v w) (h' : Same w u) : Same v u := by
  induction h generalizing u with
  | leaf => exact h'
  | array hlen _ ih =>
    cases h' with
    | leaf h => cases h
    | array hlen' hsame' => exact .array (hlen.trans hlen') (by grind)
  | object hkeys _ ih =>
    cases h' with
    | leaf h => cases h
    | object hkeys' hsame' =>
      refine .object (fun k => (hkeys k).trans (hkeys' k)) fun k v u hv hu => ?_
      obtain ⟨⟨k, w⟩, hw, rfl⟩ := mem_map.1 ((hkeys k).1 (mem_map_of_mem hv))
      exact ih _ v w hv hw (hsame' _ w u hw hu)

end

/-- **`is_equal` is structural equality**, and an equivalence, iff none of the values has a key that
is bound to null. -/
theorem is_equal_iff {S : Val → Prop} (hS : ∀ v, S v → v.Proper) :
    ((∀ v, S v → isEqual v v) ∧ (∀ v w, S v → S w → isEqual v w → isEqual w v) ∧
      (∀ v w u, S v → S w → S u → isEqual v w → isEqual w u → isEqual v u) ∧
      ∀ v w, S v → S w → (isEqual v w ↔ Same v w)) ↔ ∀ v, S v → v.NoNull := by
  constructor
  · rintro ⟨hrefl, -⟩ v hv
    exact noNull_of_isEqual_self (hS v hv) (hrefl v hv)
  · intro hn
    have hiff : ∀ v w, S v → S w → (isEqual v w ↔ Same v w) := fun v w hv hw =>
      isEqual_iff (hS v hv) (hn v hv) (hS w hw)
    refine ⟨fun v hv => (hiff v v hv hv).2 (.refl (hS v hv)), fun v w hv hw h => ?_,
      fun v w u hv hw hu h h' => ?_, hiff⟩
    · exact (hiff w v hw hv).2 ((hiff v w hv hw).1 h).symm
    · exact (hiff v u hv hu).2 (((hiff v w hv hw).1 h).trans ((hiff w u hw hu).1 h'))

/-- An object with a null differs from itself, and equals the empty object in one direction. -/
theorem null_key_not_equal : let v := Val.object [("ssid", .null)]
    isEqual v v = false ∧ isEqual v (.object []) ∧ isEqual (.object []) v = false := by
  simp [isEqual, isEqualFields, field, isNull]

theorem is_equal_iff_ssid :
    let S := fun v => ∃ name ∈ ["a", "b"], v = Val.object [("ssid", .string name)]
    (∀ v, S v → isEqual v v) ∧ ∀ v w, S v → S w → (isEqual v w ↔ Same v w) := by
  intro S
  have hS : ∀ v, S v → v.Proper ∧ v.NoNull := by
    rintro _ ⟨name, -, rfl⟩
    exact ⟨.object (by simp) (by simpa using .leaf rfl),
      .object (by simp) (by simpa using .leaf rfl)⟩
  have h := (@is_equal_iff S fun v hv => (hS v hv).1).2 fun v hv => (hS v hv).2
  exact ⟨h.1, h.2.2.2⟩

end SourceMaster.Hostapd
