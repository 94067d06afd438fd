import Mathlib.Data.List.Basic

/-!
# Reloading the configuration of a hostapd interface

`iface_reload_config` turns the running BSS of a phy into those of a new configuration without a
restart: a BSS whose configuration is there already is kept, if need be under a new name, the others
are removed and created. The calls to hostapd and to the kernel are the fields of `Calls`, over a
type `σ` for the state of that world.

An array with gaps (`bss_list`, `bss_list_cfg`) is a function to `Option`. A configuration of
`bss_list_cfg` is represented by its index in `old_config.bss`, which is written to through it.
`none` stands for `return false` and for an exception: after both the caller restarts the interface.
-/

namespace SourceMaster.Hostapd

open Function List

/-! ## Configurations -/

structure Bss where
  ifname : String
  bssid : String
  defaultMacaddr : Bool := false
  nasid : Option String := none
  data : List String := []
  /-- the SHA-1 sums of the files that `data` names -/
  hash : List (String × String) := []
deriving DecidableEq, Repr

structure Radio where
  data : List String := []
  channel : Option String := none
deriving DecidableEq, Repr

structure Config where
  radio : Radio := {}
  bss : List Bss
  mbssid : Option Int := none
  numGlobalMacaddr : Option Int := none
deriving DecidableEq, Repr

def fileFields : List String :=
  ["vlan_file", "wpa_psk_file", "accept_mac_file", "deny_mac_file", "eap_user_file", "ca_cert",
    "server_cert", "server_cert2", "private_key", "private_key2", "dh_file", "eap_sim_db"]

/-- `remove_file_fields`; a line counts by what stands in front of its first `=`. -/
def removeFileFields (config : List String) : List String :=
  config.filter fun line => !fileFields.contains (String.ofList (line.toList.takeWhile (· ≠ '=')))

def bssRemoveFileFields (config : Bss) : Bss :=
  { config with
    data := removeFileFields config.data
    hash := config.hash.filter fun field => field.1 ≠ "wpa_psk_file" && field.1 ≠ "vlan_file" }

def hashIsEqual (val1 val2 : List (String × String)) : Bool :=
  (val1 ++ val2).all fun field => val1.lookup field.1 == val2.lookup field.1

def Bss.isEqual (val1 val2 : Bss) : Bool :=
  { val1 with hash := [] } == { val2 with hash := [] } && hashIsEqual val1.hash val2.hash

def bssIsEqual (val1 val2 : List Bss) : Bool :=
  val1.length == val2.length && (val1.zip val2).all fun v => v.1.isEqual v.2

/-! ## The world outside the script -/

abbrev Handle := Nat

structure Calls (σ : Type) where
  sha1 : String → String
  /-- `hostapd.sha1` of the text of an array -/
  sha1Lines : List String → String
  /-- `phy_is_fullmac` -/
  phyIsFullmac : Bool
  /-- the addresses that `for_each_wdev` goes through in `macaddr_init` -/
  wdevMacaddr : List String
  /-- `phydev.macaddr_generate`, with `num_global`, `mbssid` and `id` -/
  macaddrGenerate : Int → Int → Nat → Option String
  /-- `hostapd.interfaces[phy]` -/
  interface : σ → Bool
  /-- `hostapd.bss` -/
  bss : σ → String → Option Handle
  delete : Handle → σ → σ
  wdevRemove : String → σ → σ
  rename : Handle → String → σ → Option σ
  addBss : Config → Nat → σ → Option (Handle × σ)
  setBssOrder : List Handle → σ → Option σ
  setConfig : Handle → Config → Nat → Bool → σ → Option σ
  /-- `ctrl("RELOAD_WPA_PSK")` -/
  reloadWpaPsk : Handle → σ → σ

variable {σ : Type} (c : Calls σ)

/-! ## Address lists -/

/-- `macaddr_list`: the index of the BSS that has an address, or -1. -/
abbrev MacaddrList := String → Option Int

variable (bss : List Bss)

def ifaceConfigMacaddrList : MacaddrList :=
  bss.zipIdx.foldl (fun list b =>
    if b.1.defaultMacaddr then list else update list b.1.bssid (some (b.2 : Int)))
    fun _ => none

/-- `!macaddr_list[addr]`: the index 0 is false as well. -/
def notListed (list : MacaddrList) (addr : String) : Bool :=
  match list addr with
  | none => true
  | some idx => idx == 0

def macaddrInit (used : MacaddrList) : MacaddrList := fun addr =>
  match used addr with
  | some idx => some idx
  | none => if addr ∈ c.wdevMacaddr then some (-1) else none

/-- The loop of `phydev.macaddr_next`, which tries the ids `ids`. -/
def macaddrNextFrom (generate : Nat → Option String) (list : MacaddrList) (val : Int) :
    List Nat → Option (String × MacaddrList)
  | [] => none
  | id :: ids =>
    match generate id with
    | none => none
    | some mac =>
      if (list mac).isSome then macaddrNextFrom generate list val ids
      else some (mac, update list mac (some val))

def macaddrNext (generate : Nat → Option String) (list : MacaddrList) (val : Int) :
    Option (String × MacaddrList) :=
  macaddrNextFrom generate list val (range 32)

/-! ## The steps of `iface_reload_config` -/

def setBssid (i : Nat) (addr : String) : List Bss :=
  bss.modify i fun b => { b with bssid := addr }

def setIfname (i : Nat) (name : String) : List Bss :=
  bss.modify i fun b => { b with ifname := name }

/-- `bss_list[i]` and the index of `bss_list_cfg[i]` in `old_config.bss`. -/
structure Kept where
  handle : Handle
  prev : Nat
deriving DecidableEq, Repr

/-- The variables of the function that are written to. -/
structure Reload where
  bss : List Bss
  kept : Nat → Option Kept
  macaddrList : MacaddrList
  prevBssHash : List (Option String)

def bssConfigHash (config : List String) : String := c.sha1Lines (removeFileFields config)

def bssFindExisting (config : Bss) (prevHash : List (Option String)) :
    Option Nat × List (Option String) :=
  match prevHash.findIdx? (· == some (bssConfigHash c config.data)) with
  | some i => (some i, prevHash.set i none)
  | none => (none, prevHash)

/-- The old BSS that new BSS `i` is made from; on fullmac devices the first one keeps the first
interface. -/
def findPrev (i : Nat) (config : Bss) (prevHash : List (Option String)) :
    Option Nat × List (Option String) :=
  if i = 0 ∧ c.phyIsFullmac then (some 0, prevHash.set 0 none)
  else bssFindExisting c config prevHash

/-- An iteration of step 1: find an interface with the same configuration. -/
def findExisting (old : List Bss) (w : σ) (st : Reload) (i : Nat) : Option Reload := do
  let cur ← st.bss[i]?
  let (prev, prevBssHash) := findPrev c i cur st.prevBssHash
  let st := { st with prevBssHash := prevBssHash }
  match prev with
  | none => some st
  | some prev =>
    let prevConfig ← old[prev]?
    let prevBss ← c.bss w prevConfig.ifname
    let st :=
      if cur.defaultMacaddr && notListed st.macaddrList prevConfig.bssid then
        { st with
          macaddrList := update st.macaddrList prevConfig.bssid (some (i : Int))
          bss := setBssid st.bss i prevConfig.bssid }
      else st
    some { st with kept := update st.kept i (some ⟨prevBss, prev⟩) }

/-- Step 2: if none were found, rename and preserve the first one. -/
def preserveFirst (old : List Bss) (w : σ) (st : Reload) : Option Reload :=
  if (range st.bss.length).any fun i => (st.kept i).isSome then
    some st
  else do
    let first ← st.bss[0]?
    let oldFirst ← old[0]?
    let bss ←
      if first.bssid ≠ oldFirst.bssid then
        if !first.defaultMacaddr then none else some (setBssid st.bss 0 oldFirst.bssid)
      else some st.bss
    let prevBss ← c.bss w oldFirst.ifname
    some
      { bss := bss
        macaddrList := update st.macaddrList oldFirst.bssid (some 0)
        kept := update st.kept 0 (some ⟨prevBss, 0⟩)
        prevBssHash := st.prevBssHash.set 0 none }

variable (config : Config)

def reuseBss (old : List Bss) (w : σ) : Option Reload := do
  let st : Reload :=
    { bss := config.bss
      kept := fun _ => none
      macaddrList := ifaceConfigMacaddrList config.bss
      prevBssHash := old.map fun b => some (bssConfigHash c b.data) }
  let st ← (range config.bss.length).foldlM (findExisting c old w) st
  if config.mbssid.getD 0 ≠ 0 ∧ (st.kept 0).isNone then none
  else preserveFirst c old w st

/-- Step 3: delete all unused old interfaces. -/
def deleteUnused (old : List Bss) : Nat → List (Option String) → σ → Option σ
  | _, [], w => some w
  | i, none :: hashes, w => deleteUnused old (i + 1) hashes w
  | i, some _ :: hashes, w => do
    let b ← old[i]?
    let prevBss ← c.bss w b.ifname
    deleteUnused old (i + 1) hashes (c.wdevRemove b.ifname (c.delete prevBss w))

def tmpName (newIfname : String) : String :=
  "tmp_" ++ String.ofList ((c.sha1 newIfname).toList.take 8)

structure Renaming (σ : Type) where
  old : List Bss
  renameList : List Nat := []
  world : σ

variable (st : Reload)

/-- An iteration of step 4: rename a preserved interface, temporarily on duplicates. -/
def renamePreserved (r : Renaming σ) (i : Nat) : Option (Renaming σ) :=
  match st.kept i with
  | none => some r
  | some k => do
    let cfg ← r.old[k.prev]?
    let b ← st.bss[i]?
    if cfg.ifname = b.ifname then
      some r
    else
      let inUse := (c.bss r.world b.ifname).isSome
      let newIfname := if inUse then tmpName c b.ifname else b.ifname
      let w ← c.rename k.handle newIfname r.world
      some
        { old := setIfname r.old k.prev newIfname
          renameList := if inUse then r.renameList ++ [i] else r.renameList
          world := w }

/-- An iteration of step 5: rename an interface with a temporary name. -/
def renameTemporary (r : Renaming σ) (i : Nat) : Option (Renaming σ) := do
  let k ← st.kept i
  let b ← st.bss[i]?
  let w ← c.rename k.handle b.ifname r.world
  some { r with old := setIfname r.old k.prev b.ifname, world := w }

def renameBss (old : List Bss) (w : σ) : Option (Renaming σ) := do
  let w ← deleteUnused c old 0 st.prevBssHash w
  let r ← (range st.bss.length).foldlM (renamePreserved c st) { old := old, world := w }
  r.renameList.foldlM (renameTemporary c st) r

/-- `config.bss[idx]`; a negative index counts from the end. -/
def arrayIndex (length : Nat) (idx : Int) : Nat :=
  if idx < 0 then (idx + length).toNat else idx.toNat

/-- An iteration of step 6: assign a BSSID to a newly created interface. -/
def assignBssid (generate : Nat → Option String) (kept : Nat → Option Kept)
    (st : List Bss × MacaddrList) (i : Nat) : Option (List Bss × MacaddrList) :=
  if (kept i).isSome then
    some st
  else do
    let bsscfg ← st.1[i]?
    let macIdx := st.2 bsscfg.bssid
    let list :=
      if macIdx.any (· < 0) then update st.2 bsscfg.bssid (some (i : Int)) else st.2
    if macIdx = some (i : Int) then
      some (st.1, list)
    else
      -- `!mac_idx < 0` compares a truth value with 0
      let target ←
        if bsscfg.defaultMacaddr then some i
        else if (if notListed st.2 bsscfg.bssid then (1 : Int) else 0) < 0 then none
        else macIdx.map (arrayIndex st.1.length)
      let (addr, list) ← macaddrNext generate list i
      if target < st.1.length then some (setBssid st.1 target addr, list) else none

def assignBssids : Option (List Bss) := do
  let generate := c.macaddrGenerate (config.numGlobalMacaddr.getD 1) (config.mbssid.getD 0)
  let (bss, _) ← (range st.bss.length).foldlM (assignBssid generate st.kept)
    (st.bss, macaddrInit c st.macaddrList)
  some bss

/-- Step 7: fill in the gaps with new interfaces. -/
def addMissing (lw : List Handle × σ) (i : Nat) : Option (List Handle × σ) :=
  match st.kept i with
  | some k => some (lw.1 ++ [k.handle], lw.2)
  | none => do
    let (handle, w) ← c.addBss config i lw.2
    some (lw.1 ++ [handle], w)

def bssReloadPsk (handle : Handle) (config old : Bss) (w : σ) : Bss × σ :=
  let psk := "wpa_psk_file"
  if old.hash.lookup psk == config.hash.lookup psk then
    (old, w)
  else
    let old := { old with
      hash := old.hash.filter (fun field => field.1 ≠ psk) ++
        config.hash.filter fun field => field.1 = psk }
    if !old.isEqual config then (old, w) else (old, c.reloadWpaPsk handle w)

/-- An iteration of step 9: update the configuration of a preserved interface. -/
def updateConfig (ow : List Bss × σ) (i : Nat) : Option (List Bss × σ) :=
  match st.kept i with
  | none => some ow
  | some k => do
    let b ← config.bss[i]?
    let cfg ← ow.1[k.prev]?
    if b.isEqual cfg then
      some ow
    else if (bssRemoveFileFields b).isEqual (bssRemoveFileFields cfg) then
      let w ← c.setConfig k.handle config i true ow.2
      some (ow.1, c.reloadWpaPsk k.handle w)
    else
      let (cfg, w) := bssReloadPsk c k.handle b cfg ow.2
      let old := ow.1.set k.prev cfg
      if b.isEqual cfg then
        some (old, w)
      else
        let w ← c.setConfig k.handle config i false w
        some (old, w)

/-- When the function returns true: both configurations, which it has changed, and the world. -/
structure Reloaded (σ : Type) where
  config : Config
  old : List Bss
  world : σ

def reloadBss (old : List Bss) (w : σ) : Option (Reloaded σ) := do
  let st ← reuseBss c config old w
  let r ← renameBss c st old w
  let bss ← assignBssids c config st
  let config := { config with bss := bss }
  let (handles, w) ← (range bss.length).foldlM (addMissing c config st) ([], r.world)
  let w ← c.setBssOrder handles w
  let (old, w) ← (range bss.length).foldlM (updateConfig c config st) (r.old, w)
  some ⟨config, old, w⟩

def ifaceReloadConfig (oldConfig : Option Config) (w : σ) : Option (Reloaded σ) :=
  match oldConfig with
  | none => none
  | some old =>
    if old.radio ≠ config.radio then
      none
    else if bssIsEqual old.bss config.bss then
      some ⟨config, old.bss, w⟩
    else
      match old.bss[0]? with
      | none => none
      | some oldFirst =>
        if !c.interface w || (c.bss w oldFirst.ifname).isNone then none
        else reloadBss c config old.bss w

end SourceMaster.Hostapd
