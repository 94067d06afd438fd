import SourceMaster.Metadata.Pattern
import Mathlib.Data.List.Infix

/-!
# Reading package metadata

What `parse_package_metadata` does with a line of a metadata file, except for the users and groups
that a package requires: these are only collected here, as they are the only lines that can be
rejected.

The tables refer to packages and sources, which change after they were put into a table. They are
numbered in the order in which they are created.
-/

namespace SourceMaster.Metadata

open Kconfig Pattern

inductive Val
  | undef
  | num (n : Nat)
  | text (s : Text)
  | list (l : List Text)
  | src (i : Nat)

abbrev Pkg := String → Option Val

structure Src where
  makefile : Option Text := none
  path : Option Text := none
  name : Option Text := none
  ignore : Bool := false
  packages : List Nat := []
  buildtypes : List Text := []
  builddepends : List Text := []
  /-- `builddepends/…` -/
  builddependsFor : Text → Option (List Text) := fun _ => none

structure Tables where
  pkgs : List Pkg
  srcs : List Src
  package : Text → Option Nat
  vpackage : Text → Option (List Nat)
  srcpackage : Text → Option Nat
  category : Text → Option (Text → Option (List Nat))
  overrides : Text → Option Nat

def Tables.empty : Tables where
  pkgs := []
  srcs := []
  package _ := none
  vpackage _ := none
  srcpackage _ := none
  category _ := none
  overrides _ := none

structure Multiline where
  key : String
  start : Text
  indent : Text
  str : Text

structure Reader where
  tables : Tables
  src : Option Nat
  pkg : Option Nat
  override : Text
  multiline : Option Multiline

namespace Reader

def start (tables : Tables) : Reader where
  tables := tables
  src := none
  pkg := none
  override := []
  multiline := none

/-! ## The current source and package -/

section

variable (r : Reader)

def modifySrc (f : Src → Src) : Reader :=
  match r.src with
  | none => r
  | some i => { r with tables := { r.tables with srcs := r.tables.srcs.modify i f } }

def set (key : String) (val : Val) : Reader :=
  match r.pkg with
  | none => r
  | some i =>
    { r with tables := { r.tables with
        pkgs := r.tables.pkgs.modify i fun pkg => Function.update pkg key (some val) } }

def currentSrc : Src := (r.src.bind fun i => r.tables.srcs[i]?).getD {}

def srcName : Text := r.currentSrc.name.getD []

def pkgName : Text :=
  match (r.pkg.bind fun i => r.tables.pkgs[i]?).bind fun pkg => pkg "name" with
  | some (.text name) => name
  | _ => []

def on (pattern : Pattern) (line : Text) (f : Groups → Reader → Reader) : Reader :=
  match pattern.matchStart line with
  | none => r
  | some g => f g r

end

/-! ## The fields of a source -/

/-- `^Source-Makefile: \s*((?:package\/)?((?:.+\/)?([^\/]+))\/Makefile)\s*$` -/
def sourceMakefilePattern : Pattern :=
  field "Source-Makefile: " <|
    seq (optional (lit "package/")) <|
      seq (group 2 (seq (optional (seq some1 (lit "/")))
        (group 3 (seq (one (· != '/')) (many (· != '/') true))))) (lit "/Makefile")

variable (ignore : List Text)

variable (line : Text)

variable (r : Reader)

def sourceMakefile : Reader :=
  r.on sourceMakefilePattern line fun g r =>
    { r with
      tables := { r.tables with
        srcs := r.tables.srcs ++
          [{ makefile := some (g 1), path := some (g 2), name := some (g 3)
             ignore := g 3 ∈ ignore }]
        srcpackage := Function.update r.tables.srcpackage (g 3) (some r.tables.srcs.length) }
      src := some r.tables.srcs.length
      pkg := none
      override := [] }

/-- `$src->{name}` makes an undefined `$src` an empty source. -/
def vivifySrc : Reader :=
  match r.src with
  | some _ => r
  | none =>
    { r with
      tables := { r.tables with srcs := r.tables.srcs ++ [{}] }
      src := some r.tables.srcs.length }

def overrideLine : Reader :=
  r.on (field "Override: " some1Lazy) line fun g r =>
    let r := { r.vivifySrc with override := g 1 }
    { r with tables := { r.tables
      with overrides := Function.update r.tables.overrides r.srcName (some 1) } }

def package : Reader :=
  r.on (field "Package:" some1Lazy) line fun g r =>
    let i := r.tables.pkgs.length
    let pkg : Pkg
      | "src" => r.src.map Val.src
      | "name" => some (.text (g 1))
      | "title" => some (.text [])
      | "depends" => some (.list [])
      | "mdepends" => some (.list [])
      | "provides" => some (.list [g 1])
      | "tristate" => some (.num 1)
      | "override" => some (.text r.override)
      | _ => none
    let r := r.modifySrc fun src => { src with packages := src.packages ++ [i] }
    { r with
      tables := { r.tables with
        pkgs := r.tables.pkgs ++ [pkg]
        package := Function.update r.tables.package (g 1) (some i)
        vpackage := Function.update r.tables.vpackage (g 1)
          (some (i :: (r.tables.vpackage (g 1)).getD [])) }
      pkg := some i }

def buildDepends : Reader :=
  r.on (field "Build-Depends: " some1) line fun g r =>
    r.modifySrc fun src => { src with builddepends := splitSpaces (g 1) }

/-- `^Build-Depends\/(\w+): \s*(.+)\s*$` -/
def buildDependsForPattern : Pattern :=
  seq (lit "Build-Depends/") <| seq (group 1 (seq (one isWord) (many isWord true))) <|
    seq (lit ": ") <| seq spaces <| seq (group 2 some1) <| seq spaces final

def buildDependsFor : Reader :=
  r.on buildDependsForPattern line fun g r =>
    r.modifySrc fun src =>
      { src with builddependsFor := Function.update src.builddependsFor (g 1) (some
        (splitSpaces (g 2))) }

def buildTypes : Reader :=
  r.on (field "Build-Types:" some1) line fun g r =>
    r.modifySrc fun src => { src with buildtypes := splitSpaces (g 1) }

/-! ## The fields of a package -/

def textField (label key : String) (line : Text) (r : Reader) : Reader :=
  r.on (field label some1) line fun g r => r.set key (.text (g 1))

def listField (label key : String) (line : Text) (r : Reader) : Reader :=
  r.on (field label some1) line fun g r => r.set key (.list (splitSpaces (g 1)))

def flagField (pattern : Pattern) (key : String) (line : Text) (r : Reader) : Reader :=
  r.on pattern line fun _ r => r.set key (.num 1)

def pushVpackage (vpkg : Text) : Reader :=
  match r.pkg with
  | none => r
  | some i =>
    if vpkg = r.pkgName then r
    else
      { r with tables := { r.tables with
          vpackage := Function.update r.tables.vpackage vpkg
            (some ((r.tables.vpackage vpkg).getD [] ++ [i])) } }

def provides : Reader :=
  r.on (field "Provides: " some1) line fun g r =>
    let vpkgs := splitSpaces (g 1)
    vpkgs.foldl pushVpackage (r.set "provides" (.list (r.pkgName :: vpkgs)))

/-- `^Build-Variant: \s*([\w\-]+)\s*` -/
def buildVariantPattern : Pattern :=
  seq (lit "Build-Variant: ") <| seq spaces <|
    group 1 (seq (one fun c => isWord c || c == '-') (many (fun c => isWord c || c == '-') true))

def buildVariant : Reader :=
  r.on buildVariantPattern line fun g r => r.set "variant" (.text (g 1))

def repository : Reader :=
  r.on (field "Repository:" some1Lazy) line fun g r => r.set "repository" (.text (g 1))

def category : Reader :=
  r.on (field "Category: " some1) line fun g r =>
    match r.pkg with
    | none => r
    | some i =>
      let r := r.set "category" (.text (g 1))
      let sources := (r.tables.category (g 1)).getD fun _ => none
      let sources := Function.update sources r.srcName (some ((sources r.srcName).getD [] ++ [i]))
      { r with tables := { r.tables
        with category := Function.update r.tables.category (g 1) (some sources) } }

def description : Reader :=
  r.on (field "Description: " some0) line fun g r =>
    let m : Multiline :=
      { key := "description", start := "\t\t ".toList ++ g 1 ++ "\n".toList,
        indent := "\t\t ".toList, str := [] }
    { r with multiline := some m }

def type : Reader :=
  r.on (field "Type: " some1) line fun g r =>
    let types := splitSpaces (g 1)
    let r := r.set "type" (.list types)
    r.set "tristate" (if types.any fun type => "ipkg".toList <:+: type then .num 1 else .undef)

def config : Reader :=
  r.on (field "Config:" some0) line fun g r =>
    let m : Multiline :=
      { key := "config", start := g 1 ++ "\n".toList, indent := "\t".toList, str := [] }
    { r with multiline := some m }

def maintainer : Reader :=
  r.on (field "Maintainer: " some1) line fun g r => r.set "maintainer"
    (.list (splitCommaSpace (g 1)))

def pkgFields : Reader :=
  r |> textField "Version: " "version" line
    |> textField "Title: " "title" line
    |> textField "Menu: " "menu" line
    |> textField "Submenu: " "submenu" line
    |> textField "Submenu-Depends: " "submenudep" line
    |> textField "Source: " "source" line
    |> textField "License: " "license" line
    |> textField "LicenseFiles: " "licensefiles" line
    |> textField "CPE-ID: " "cpe_id" line
    |> textField "ABI-Version: " "abi_version" line
    |> textField "Default: " "default" line
    |> provides line
    |> listField "Menu-Depends: " "mdepends" line
    |> listField "Depends: " "depends" line
    |> listField "Conflicts: " "conflicts" line
    |> flagField (field "Hidden: " some1) "hidden" line
    |> buildVariant line
    |> flagField (lit "Default-Variant: ") "variant_default" line
    |> flagField (field "Build-Only: " some1) "buildonly" line
    |> repository line
    |> category line
    |> description line
    |> type line
    |> config line
    |> flagField (lit "Prereq-Check:") "prereq" line
    |> maintainer line

/-! ## A line -/

def finish : Reader :=
  match r.multiline with
  | none => r
  | some m =>
    { r.set m.key (.text (m.start ++ if perlTrue m.str then m.str else [])) with multiline := none }

def chomp : Text := if line.getLast? = some '\n' then line.dropLast else line

/-- Reads a line with its newline. After a multiline field the other patterns get the line that ends
it, and never match. -/
def readLine (line : Text) : Reader :=
  match r.multiline with
  | some m =>
    if "@@".toList <+: line then r.finish
    else { r with multiline := some { m with str := m.str ++ if perlTrue line then m.indent ++ line
      else line } }
  | none =>
    let line := chomp line
    let r := r |> sourceMakefile ignore line |> overrideLine line
    if r.src.isNone then r
    else
      let r := r |> package line |> buildDepends line |> buildDependsFor line |> buildTypes line
      if r.pkg.isNone then r else r.pkgFields line

end Reader

/-! ## Users and groups of a line -/

inductive Kind
  | user
  | group
deriving DecidableEq

structure Request where
  kind : Kind
  makefile : Option Text
  spec : Text

def ugspecRequests (makefile : Option Text) (ugspec : Text) : List Request :=
  let fields := splitThree ':' ugspec
  let user := fields[0]?.getD []
  let group := fields[1]?.getD []
  let addngroups := fields[2]?.getD []
  (if perlTrue user then [⟨.user, makefile, user⟩] else []) ++
    (if perlTrue group then [⟨.group, makefile, group⟩] else []) ++
    if perlTrue addngroups then (splitChar ',' addngroups).map (⟨.group, makefile, ·⟩) else []

/-- The users and groups that a line requires, if it is read after `r` and has led to `r'`. -/
def lineRequests (r r' : Reader) (line : Text) : List Request :=
  if r.multiline.isSome || r'.src.isNone || r'.pkg.isNone then []
  else
    match (field "Require-User:" some0Lazy).matchStart (Reader.chomp line) with
    | none => []
    | some g => (splitSpaces (g 1)).flatMap (ugspecRequests r'.currentSrc.makefile)

end SourceMaster.Metadata
