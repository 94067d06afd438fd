import Mathlib.Tactic.Common
import SourceMaster.Kconfig.Text
import SourceMaster.Lib.Lines

/-!
# Configuration files

`kconfig.pl` reads configuration files, combines them and prints the result. A difference that is
added gives the second file again, and a file that is printed is read as it was, up to the value `n`
(`config_round_trip`). Merging with `m+` takes the largest value of every symbol (`merge_largest`).
-/

namespace SourceMaster.Kconfig

open Lines List Function Option

/-- A hash from symbols to values. A function treats each key alone. -/
abbrev Config := Text → Option Text

def UNDEF : Text := "#undef".toList
def PREFIX : Text := 'C' :: "ONFIG_".toList
def NOT_SET : Text := ' ' :: "is not set".toList

def setConfig (modPlus : Bool) (config : Config) (idx newval : Text) : Config :=
  if config idx = none ∨ !modPlus ∨ config idx = some UNDEF ∨ newval = ['y'] then
    update config idx (some newval)
  else config

def after : Text → Text → Option Text
  | [], t => some t
  | _ :: _, [] => none
  | c :: p, d :: t => if c = d then after p t else none

/-- The rest of the pattern `/^$PREFIX(.+?)=(.+)/` -/
def matchValue : Text → Option (Text × Text)
  | [] => none
  | c :: t =>
    match t.dropWhile (· ≠ '=') with
    | _ :: d :: value => some (c :: t.takeWhile (· ≠ '='), d :: value)
    | _ => none

/-- The rest of the pattern `/^# $PREFIX(.+?) is not set/` -/
def matchNotSet : Text → Option Text
  | [] => none
  | c :: t => if (after NOT_SET t).isSome then some [c] else (matchNotSet t).map (c :: ·)

/-- The symbol and the value of a line; other lines are comments, or there is a warning. -/
def parseLine (line : Text) : Option (Text × Text) :=
  ((after PREFIX line).bind matchValue).or
    (((after ("# ".toList ++ PREFIX) line).bind matchNotSet).map fun name => (name, UNDEF))

def entries (file : Text) : List (Text × Text) := (lines '\n' file).filterMap parseLine

def loadConfig (modPlus : Bool) (file : Text) : Config :=
  (entries file).foldl (fun config e => setConfig modPlus config e.1 e.2) fun _ => none

def configAdd (cfg1 cfg2 : Config) (modPlus : Bool) : Config := fun config =>
  match cfg1 config, cfg2 config with
  | old, none => old
  | none, some val => some val
  | some old, some val => if modPlus ∧ perlTrue old ∧
    (old = ['y'] ∨ val = UNDEF) then some old else some val

def configDiff (cfg1 cfg2 : Config) (newOnly : Bool) : Config := fun config =>
  if cfg1 config = cfg2 config ∨ newOnly ∧ cfg1 config = none ∧
    cfg2 config = some UNDEF then none else cfg2 config

def printCfgline (name val : Text) : Text :=
  if val = UNDEF ∨ val = ['n'] then "# ".toList ++ PREFIX ++ name ++ NOT_SET else PREFIX ++ name ++
    '=' :: val

def dumpConfig (keys : List Text) (config : Config) : Text :=
  keys.flatMap fun name => ((config name).map fun val => printCfgline name val ++ ['\n']).getD []

/-! ## Printing and reading -/

lemma after_append (p t : Text) : after p (p ++ t) = some t := by
  induction p with
  | nil => rfl
  | cons c p ih => simpa [after] using ih

structure IsSymbol (name : Text) : Prop where
  ne_nil : name ≠ []
  chars : ∀ c ∈ name, c ≠ '=' ∧ c ≠ ' ' ∧ c ≠ '\n'

variable {name val : Text}

lemma matchValue_append (h : IsSymbol name) (hval : val ≠ []) : matchValue (name ++ '=' :: val) =
    some (name, val) := by
  obtain ⟨c, t, rfl⟩ := exists_cons_of_ne_nil h.ne_nil
  obtain ⟨d, value, rfl⟩ := exists_cons_of_ne_nil hval
  have ht : ∀ x ∈ t, (x ≠ '=') := fun x hx => (h.chars x (by simp [hx])).1
  have hdrop : (t ++ '=' :: d :: value).dropWhile (· ≠ '=') = '=' :: d :: value := by
    rw [dropWhile_append_of_pos (by simpa using ht)]
    rfl
  have htake : (t ++ '=' :: d :: value).takeWhile (· ≠ '=') = t := by
    rw [takeWhile_append_of_pos (by simpa using ht)]
    simp
  simp only [cons_append, matchValue, hdrop, htake]

lemma matchNotSet_append (h : IsSymbol name) : matchNotSet (name ++ NOT_SET) = some name := by
  obtain ⟨hne, hchars⟩ := h
  induction name with
  | nil => exact absurd rfl hne
  | cons c t ih =>
    rw [cons_append, matchNotSet]
    cases t with
    | nil =>
      have hself := after_append NOT_SET []
      rw [append_nil] at hself
      simp [hself]
    | cons d t =>
      have hd := (hchars d (by simp)).2.1
      have hnone : after NOT_SET (d :: t ++ NOT_SET) = none := by
        rw [NOT_SET, cons_append, after, if_neg hd.symm]
      rw [hnone, ih (by simp) fun x hx => hchars x (by simp [hx])]
      rfl

def readBack (val : Text) : Text := if val = ['n'] then UNDEF else val

lemma parseLine_printCfgline (h : IsSymbol name) (hval : val ≠ []) :
    parseLine (printCfgline name val) = some (name, readBack val) := by
  unfold printCfgline parseLine
  split
  next hn =>
    have hnot : after PREFIX ("# ".toList ++ PREFIX ++ name ++ NOT_SET) = none :=
      if_neg (by decide : ¬ 'C' = '#')
    rw [hnot, append_assoc, after_append]
    simp [matchNotSet_append h, readBack]
    grind
  next hn =>
    rw [append_assoc, after_append, bind_some, matchValue_append h hval, some_or, readBack]
    rw [if_neg fun hv => hn (.inr hv)]

lemma entries_dumpConfig {keys : List Text} {config : Config}
    (hkeys : ∀ k ∈ keys, (config k).isSome)
    (h : ∀ k v, config k = some v → IsSymbol k ∧ v ≠ [] ∧ '\n' ∉ v) :
    entries (dumpConfig keys config) = keys.map fun k => (k, readBack ((config k).getD [])) := by
  induction keys with
  | nil => rfl
  | cons k keys ih =>
    obtain ⟨v, hv⟩ := isSome_iff_exists.1 (hkeys k (by simp))
    obtain ⟨hk, hne, hnl⟩ := h k v hv
    have hline : '\n' ∉ printCfgline k v := by
      have hk' : '\n' ∉ k := fun hmem => (hk.chars '\n' hmem).2.2 rfl
      have hconst : '\n' ∉ PREFIX ∧ '\n' ∉ NOT_SET ∧ '\n' ∉ "# ".toList := by decide
      unfold printCfgline
      split <;> simp only [mem_append, mem_cons, not_or] <;> grind
    have hdump : dumpConfig (k :: keys) config = printCfgline k v ++
      '\n' :: dumpConfig keys config := by
      simp [dumpConfig, hv]
    have hrest := ih fun x hx => hkeys x (by simp [hx])
    unfold entries at hrest ⊢
    rw [hdump, lines_line hline, filterMap_cons, parseLine_printCfgline hk hne, hrest]
    simp [hv]

lemma foldl_setConfig (modPlus : Bool) {es : List (Text × Text)} (hes : (es.map Prod.fst).Nodup)
    {config : Config} (hnone : ∀ e ∈ es, config e.1 = none) {k v : Text} :
    es.foldl (fun config e => setConfig modPlus config e.1 e.2) config k = some v ↔
      (k, v) ∈ es ∨ config k = some v := by
  induction es generalizing config with
  | nil => simp
  | cons e es ih =>
    rw [map_cons, nodup_cons] at hes
    have he := hnone e (by simp)
    have hset : setConfig modPlus config e.1 e.2 = update config e.1 (some e.2) := if_pos (.inl he)
    rw [foldl_cons, hset, ih hes.2]
    · grind [update_apply]
    · intro x hx
      have hne : x.1 ≠ e.1 := fun heq => hes.1 (heq ▸ mem_map_of_mem hx)
      rw [update_of_ne hne, hnone x (by simp [hx])]

lemma loadConfig_eq_some {file : Text} (h : ((entries file).map Prod.fst).Nodup) (modPlus : Bool)
    {k v : Text} : loadConfig modPlus file k = some v ↔ (k, v) ∈ entries file := by
  have := @foldl_setConfig modPlus _ h (fun _ => none) (by simp) k v
  simpa [loadConfig] using this

/-- **Round trips**: a difference is added again, and what has been printed is read. -/
theorem config_round_trip :
    (∀ cfg1 cfg2 : Config, (∀ k, (cfg1 k).isSome → (cfg2 k).isSome) →
      configAdd cfg1 (configDiff cfg1 cfg2 false) false = cfg2) ∧
    ∀ (keys : List Text) (config : Config), keys.Nodup → (∀ k, k ∈ keys ↔ (config k).isSome) →
      (∀ k v, config k = some v → IsSymbol k ∧ v ≠ [] ∧ '\n' ∉ v) →
      loadConfig false (dumpConfig keys config) = fun k => (config k).map readBack := by
  constructor
  · intro cfg1 cfg2 hkeys
    funext k
    have := hkeys k
    unfold configAdd configDiff
    cases h1 : cfg1 k <;> cases h2 : cfg2 k <;> simp_all
    split <;> simp_all
  · intro keys config hnodup hkeys hconfig
    have hentries := entries_dumpConfig (fun k hk => (hkeys k).1 hk) hconfig
    have hfst : (entries (dumpConfig keys config)).map Prod.fst = keys := by
      rw [hentries, List.map_map]
      exact map_id keys
    refine funext fun k => ext fun v => ?_
    rw [loadConfig_eq_some (hfst.symm ▸ hnodup), hentries]
    have := hkeys k
    cases hk : config k <;> simp_all

/-! ## Merging -/

/-- An expression of `m+` over files. -/
inductive Merge
  | load (file : Text)
  | add (arg1 arg2 : Merge)

def Merge.eval (modPlus : Bool) : Merge → Config
  | .load file => loadConfig modPlus file
  | .add arg1 arg2 => configAdd (arg1.eval false) (arg2.eval true) true

def Merge.files : Merge → List Text
  | .load file => [file]
  | .add arg1 arg2 => arg1.files ++ arg2.files

def rank (val : Text) : Nat := if val = ['y'] then 2 else if val = ['m'] then 1 else 0

def IsValue (val : Text) : Prop := val = ['y'] ∨ val = ['m'] ∨ val = UNDEF

def IsFragment (file : Text) : Prop :=
  ((entries file).map Prod.fst).Nodup ∧ ∀ e ∈ entries file, IsValue e.2

def Largest (S : Text → Prop) : Option Text → Prop
  | none => ∀ w, ¬ S w
  | some v => S v ∧ ∀ w, S w → rank w ≤ rank v

lemma rank_inj {v w : Text} (hv : IsValue v) (hw : IsValue w) (h : rank v = rank w) : v = w := by
  rcases hv with rfl | rfl | rfl <;> rcases hw with rfl | rfl | rfl <;> first | rfl | cases h

lemma Largest.unique {S : Text → Prop} {a b : Option Text} (hS : ∀ v, S v → IsValue v)
    (ha : Largest S a) (hb : Largest S b) : a = b := by
  cases a with
  | none => cases b with
    | none => rfl
    | some w => exact absurd hb.1 (ha w)
  | some v => cases b with
    | none => exact absurd ha.1 (hb v)
    | some w => rw [rank_inj (hS v ha.1) (hS w hb.1) (Nat.le_antisymm (hb.2 v ha.1) (ha.2 w hb.1))]

lemma Largest.configAdd {S T : Text → Prop} {c1 c2 : Config} {k : Text} (hS : ∀ v, S v →
    IsValue v) (hT : ∀ v, T v → IsValue v) (h1 : Largest S (c1 k)) (h2 : Largest T (c2 k)) :
    Largest (fun v => S v ∨ T v) (configAdd c1 c2 true k) := by
  unfold Kconfig.configAdd
  generalize c1 k = a at h1 ⊢
  generalize c2 k = b at h2 ⊢
  cases a with
  | none => cases b with
    | none => exact fun w hw => hw.elim (h1 w) (h2 w)
    | some val => exact ⟨.inr h2.1, fun w hw => hw.elim (fun hw => absurd hw (h1 w)) (h2.2 w)⟩
  | some old => cases b with
    | none => exact ⟨.inl h1.1, fun w hw => hw.elim (h1.2 w) fun hw => absurd hw (h2 w)⟩
    | some val =>
      -- the old value stays iff it is not smaller
      have hkeep : (perlTrue old ∧ (old = ['y'] ∨ val = UNDEF)) → rank val ≤ rank old := by
        rcases hS old h1.1 with rfl | rfl | rfl <;> rcases hT val h2.1 with rfl | rfl | rfl <;>
          decide
      have htake : ¬ (perlTrue old ∧ (old = ['y'] ∨ val = UNDEF)) → rank old ≤ rank val := by
        rcases hS old h1.1 with rfl | rfl | rfl <;> rcases hT val h2.1 with rfl | rfl | rfl <;>
          decide
      simp only [true_and]
      split
      next h => exact ⟨.inl h1.1, fun w hw => hw.elim (h1.2 w) fun hw =>
        Nat.le_trans (h2.2 w hw) (hkeep h)⟩
      next h => exact ⟨.inr h2.1, fun w hw =>
        hw.elim (fun hw => Nat.le_trans (h1.2 w hw) (htake h)) (h2.2 w)⟩

lemma Merge.largest {e : Merge} (he : ∀ file ∈ e.files, IsFragment file) (modPlus : Bool)
    (k : Text) : Largest (fun v => ∃ file ∈ e.files, (k, v) ∈ entries file) (e.eval modPlus k) := by
  induction e generalizing modPlus with
  | load file =>
    have hfile := he file (by simp [files])
    have hload := @loadConfig_eq_some file hfile.1 modPlus k
    simp only [files, mem_singleton, exists_eq_left, eval]
    cases hk : loadConfig modPlus file k with
    | none => exact fun w hw => by simp [hload.2 hw] at hk
    | some v =>
      refine ⟨hload.1 hk, fun w hw => ?_⟩
      obtain rfl := some.inj ((hload.2 hw).symm.trans hk)
      exact Nat.le_refl _
  | add arg1 arg2 ih1 ih2 =>
    have hvalue : ∀ file ∈ (add arg1 arg2).files, ∀ v, (k, v) ∈ entries file → IsValue v :=
      fun file hfile v hv => (he file hfile).2 _ hv
    simp only [files, mem_append] at he hvalue
    have hmax := (ih1 (fun f hf => he f (.inl hf)) false).configAdd
      (fun v ⟨f, hf, hv⟩ => hvalue f (.inl hf) v hv)
      (fun v ⟨f, hf, hv⟩ => hvalue f (.inr hf) v hv) (ih2 (fun f hf => he f (.inr hf)) true)
    simpa only [files, mem_append, or_and_right, exists_or, eval] using hmax

/-- **Merging with `m+`** gives every symbol its largest value, in whatever order and how often. -/
theorem merge_largest {e : Merge} (he : ∀ file ∈ e.files, IsFragment file) :
    (∀ k, Largest (fun v => ∃ file ∈ e.files, (k, v) ∈ entries file) (e.eval false k)) ∧
      ∀ e' : Merge, (∀ file, file ∈ e'.files ↔ file ∈ e.files) → e'.eval false = e.eval false := by
  refine ⟨fun k => Merge.largest he false k, fun e' hsame => funext fun k => ?_⟩
  have hlargest := Merge.largest (fun f hf => he f ((hsame f).1 hf)) false k
  simp only [hsame] at hlargest
  exact hlargest.unique (fun v ⟨f, hf, hv⟩ => (he f hf).2 _ hv) (Merge.largest he false k)

def modules : Text := "CONFIG_A=m\n# CONFIG_B is not set\n".toList
def builtIn : Text := "CONFIG_A=y\nCONFIG_B=m\n".toList

theorem merge_largest_swapped :
    (Merge.add (.load builtIn) (.load modules)).eval false =
    (Merge.add (.load modules) (.load builtIn)).eval false := by
  refine (merge_largest ?_).2 _ fun file => ?_
  · simp only [Merge.files, IsFragment, IsValue]
    decide
  · simp only [Merge.files, mem_append]
    exact or_comm

end SourceMaster.Kconfig
