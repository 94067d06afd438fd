import SourceMaster.Kconfig.Text

/-!
# Package metadata

What `parse_package_metadata` leaves behind for the generators: the packages in the order of their
stanzas, and two tables. `%package` maps a name to the package declared last under it. `%vpackage`
maps a name to every package that can stand for it: a package is put in *front* of the list of its
own name and at the *end* of the lists it `Provides:`.

The fields that neither generator reads (titles, menus, licences, …) are left out.
-/

namespace SourceMaster.Kconfig

structure Src where
  name : Text
  path : Text
  deriving DecidableEq, Repr

structure Pkg where
  name : Text
  src : Src
  /-- The names after `Provides:`. The package's own name is not repeated here. -/
  provides : List Text := []
  depends : List Text := []
  mdepends : List Text := []
  buildonly : Bool := false
  variantDefault : Bool := false
  deriving DecidableEq, Repr

abbrev Metadata := List Pkg

def package (md : Metadata) (name : Text) : Option Pkg :=
  md.reverse.find? (fun p => p.name == name)

/-- What one stanza does to `$vpackage{$name}`: `unshift` under its own name, `push` for every other
name it provides. -/
def vpackageStep (name : Text) (acc : Option (List Pkg)) (p : Pkg) : Option (List Pkg) :=
  let acc := if p.name = name then some (p :: acc.getD []) else acc
  p.provides.foldl
    (fun acc v => if v = p.name then acc else if v = name then some (acc.getD [] ++ [p]) else acc)
    acc

def vpackage (md : Metadata) (name : Text) : Option (List Pkg) :=
  md.foldl (vpackageStep name) none

lemma package_mem {md : Metadata} {name : Text} {p : Pkg} (h : package md name = some p) :
    p ∈ md := by
  have := List.mem_of_find?_eq_some h
  simpa using this

lemma package_name {md : Metadata} {name : Text} {p : Pkg} (h : package md name = some p) :
    p.name = name := by
  have := List.find?_some h
  simpa using this

end SourceMaster.Kconfig
