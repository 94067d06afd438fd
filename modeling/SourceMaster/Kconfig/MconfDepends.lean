import SourceMaster.Kconfig.Metadata
import Mathlib.Data.Char
import Mathlib.Data.List.Lex
import Mathlib.Data.List.Sort

/-!
# `mconf_depends`

The generator of the `select` and `depends on` lines of one package. It walks the dependencies of
the package, and for every selected (`+`) one also those of the selected package, because Kconfig
does not check them. On the way down it collects the conditions in one text.

All levels share two hashes: `dep`, the lines found so far, and `seen`, the dependencies already
handled, keyed on the text `"$parent_condition:$depend"`. The recursion need not end, so its depth
is bounded by fuel.
-/

namespace SourceMaster.Kconfig

inductive Mode where
  | select
  | dependsOn
  deriving DecidableEq, Repr

/-- `%$dep`: the text of a line, with its keyword. -/
abbrev DepHash := List (Text × Mode)

variable (dep : DepHash)

def DepHash.get (key : Text) : Option Mode := List.lookup key dep

/-- `$dep->{$key} =~ /select/ or $dep->{$key} = $m`: a `select` line is never overwritten. -/
def DepHash.put (key : Text) (m : Mode) : DepHash :=
  if dep.get key = some .select then dep
  else (key, m) :: dep.filter (fun e => e.1 ≠ key)

abbrev TDepends := List (List Text × Text)

structure MconfState where
  dep : DepHash
  seen : List Text
  tDepends : TDepends
  deriving DecidableEq, Repr

def isFlag (c : Char) : Bool := c = '@' || c = '+'

variable (depend : Text)

def depFlags : Text := depend.takeWhile isFlag

def depBody : Text := depend.dropWhile isFlag

def packageSym (name : Text) : Text := "PACKAGE_".toList ++ name

def seenKey (pc depend : Text) : Text := pc ++ ':' :: depend

def andCond (condition x : Text) : Text :=
  if perlTrue condition then condition ++ " && ".toList ++ x else x

/-- `$depend = $2 if $depend =~ /^(.+):(.+)$/ and $dep->{$1} eq 'select'`. -/
def dropSelectedCond : Text :=
  match matchColon depend with
  | some (c, d) => if dep.get c = some .select then d else depend
  | none => depend

/-- Add the condition of the dependency to the one from above, unless it is that the package itself
is enabled. -/
def splitCond (pkgname pc depend : Text) : Text × Text :=
  match matchColon depend with
  | some (c, d) => (if c ≠ packageSym pkgname then andCond pc c else pc, d)
  | none => (pc, depend)

/-- The packages that can stand for a selected name, the default variants first. -/
def vdeps (vdep : List Pkg) : List Text :=
  vdep.foldl (fun acc v =>
    if v.buildonly then acc else if v.variantDefault then v.name :: acc else acc ++ [v.name]) []

def lessThan (pkgname v : Text) : Text := packageSym v ++ '<' :: packageSym pkgname

/-- Replace a selected name by its first provider, under the condition that no other one is there.
An empty list leaves the name undefined. -/
def pickProvider (md : Metadata) (pkgname condition depend : Text) : Text × Text :=
  match vpackage md depend with
  | none => (condition, depend)
  | some vdep =>
    match vdeps vdep with
    | [] => (condition, [])
    | v :: [] => (condition, v)
    | v :: w :: vs =>
      (andCond condition (joinText "&&".toList ((w :: vs).map (lessThan pkgname))), v)

def depSym (flags depend : Text) : Text := if '@' ∈ flags then depend else packageSym depend

/-- The right-hand side of a dependency that is not selected: any of its providers. -/
def providerSyms (md : Metadata) (flags depend : Text) : Text :=
  match vpackage md depend with
  | some (v :: vs) => joinText "||".toList ((v :: vs).map (fun p => packageSym p.name))
  | _ => depSym flags depend

def emitSelect (condition sym : Text) : DepHash :=
  if perlTrue condition then
    if sym = condition then dep else dep.put (sym ++ " if ".toList ++ condition) .select
  else dep.put sym .select

/-- The `depends on` line of a dependency, without a condition that is selected anyway. There is
none if the symbol is selected under the same condition. -/
def emitDependsOn (condition sym : Text) : DepHash :=
  if perlTrue condition then
    if (dep.get (sym ++ " if ".toList ++ condition)).isSome then dep
    else if dep.get condition = some .select then dep.put sym .dependsOn
    else dep.put ("!(".toList ++ condition ++ ") || ".toList ++ sym) .dependsOn
  else dep.put sym .dependsOn

/-- The dependencies of a selected package are handled after the loop. -/
def pushDepends (md : Metadata) (t : TDepends) (condition depend : Text) : TDepends :=
  match package md depend with
  | some p => t ++ [(p.depends, condition)]
  | none => t

/-- The body of the loop for a dependency that is no repetition and not the parent condition. -/
def handleDepend (md : Metadata) (pkgname : Text) (onlyDep : Bool) (flags : Text)
    (condition depend : Text) (st : MconfState) : MconfState :=
  if '+' ∈ flags then
    let (condition, depend) := pickProvider md pkgname condition depend
    let t := pushDepends md st.tDepends condition depend
    if onlyDep then { st with tDepends := t }
    else { st with tDepends := t, dep := emitSelect st.dep condition (depSym flags depend) }
  else { st with dep := emitDependsOn st.dep condition (providerSyms md flags depend) }

def mconfDepend (md : Metadata) (pkgname : Text) (onlyDep : Bool) (pc : Text)
    (st : MconfState) (depend : Text) : MconfState :=
  let flags := depFlags depend
  let depend := dropSelectedCond st.dep (depBody depend)
  if pc = depend ∨ seenKey pc depend ∈ st.seen ∨ seenKey [] depend ∈ st.seen then st
  else
    let (condition, name) := splitCond pkgname pc depend
    handleDepend md pkgname onlyDep flags condition name
      { st with seen := seenKey pc depend :: st.seen }

/-- `mconf_depends` up to the printing: the final `dep` and `seen`, or `none` when `fuel` levels
were not enough. -/
def mconfDepends (md : Metadata) (pkgname : Text) :
    Nat → List Text → Bool → DepHash → List Text → Text → Option (DepHash × List Text)
  | 0, _, _, _, _, _ => none
  | fuel + 1, depends, onlyDep, dep, seen, pc =>
    let st := depends.foldl (mconfDepend md pkgname onlyDep pc) ⟨dep, seen, []⟩
    st.tDepends.foldlM
      (fun (s : DepHash × List Text) t => mconfDepends md pkgname fuel t.1 true s.1 s.2 t.2)
      (st.dep, st.seen)

lemma mconfDepends_succ {md : Metadata} {pkgname : Text} {fuel : Nat} {depends : List Text}
    {onlyDep : Bool} {dep : DepHash} {seen : List Text} {pc : Text} {st : MconfState}
    (h : depends.foldl (mconfDepend md pkgname onlyDep pc) ⟨dep, seen, []⟩ = st) :
    mconfDepends md pkgname (fuel + 1) depends onlyDep dep seen pc = st.tDepends.foldlM
        (fun (s : DepHash × List Text) t => mconfDepends md pkgname fuel t.1 true s.1 s.2 t.2)
        (st.dep, st.seen) := by
  subst h
  rfl

variable (md : Metadata)

def mconfDependsTop (fuel : Nat) (pkgname : Text) (depends : List Text) : Option DepHash :=
  (mconfDepends md pkgname fuel depends false [] [] []).map Prod.fst

def MconfTerminates (pkgname : Text) (depends : List Text) : Prop :=
  ∃ fuel, (mconfDependsTop md fuel pkgname depends).isSome

def GenPackageConfigTerminates : Prop :=
  ∀ p ∈ md, MconfTerminates md p.name p.depends ∧ MconfTerminates md p.name p.mdepends

end SourceMaster.Kconfig
