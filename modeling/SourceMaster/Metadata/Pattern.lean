import SourceMaster.Kconfig.Text
import Mathlib.Data.List.SplitOn

/-!
# Patterns of the metadata parser

The metadata files are read line by line, and every line is matched with the patterns of the fields.
A pattern is matched by trying its alternatives in the order in which Perl tries them, so that the
groups of the first match are those that the parser sees. Only single characters are repeated in
these patterns.
-/

namespace SourceMaster.Metadata

open Kconfig

inductive Pattern
  | one (p : Char → Bool)
  /-- Any number of characters, as many or as few as possible. -/
  | many (p : Char → Bool) (greedy : Bool)
  | optional (r : Pattern)
  | seq (r s : Pattern)
  | group (n : Nat) (r : Pattern)
  /-- The end of the text; a last newline may follow. -/
  | final

namespace Pattern

abbrev Groups := Nat → Text

def longest {β : Type} (p : Char → Bool) (k : Text → Option β) : Text → Option β
  | [] => k []
  | c :: s => if p c then (longest p k s).or (k (c :: s)) else k (c :: s)

def shortest {β : Type} (p : Char → Bool) (k : Text → Option β) : Text → Option β
  | [] => k []
  | c :: s => (k (c :: s)).or (if p c then shortest p k s else none)

/-- Matches the pattern and then what is left of it, `k`. -/
def run {β : Type} : Pattern → Text → Groups → (Text → Groups → Option β) → Option β
  | one _, [], _, _ => none
  | one p, c :: s, g, k => if p c then k s g else none
  | many p true, s, g, k => longest p (fun s => k s g) s
  | many p false, s, g, k => shortest p (fun s => k s g) s
  | optional r, s, g, k => (r.run s g k).or (k s g)
  | seq r r', s, g, k => r.run s g fun s g => r'.run s g k
  | group n r, s, g, k =>
    r.run s g fun s' g => k s' (Function.update g n (s.take (s.length - s'.length)))
  | final, s, g, k => if s = [] ∨ s = ['\n'] then k s g else none

def matchStart (r : Pattern) (s : Text) : Option Groups := r.run s (fun _ => []) fun _ g => some g

/-! ## The parts of the patterns -/

def lit (s : String) : Pattern :=
    s.toList.foldr (fun c r => seq (one (· == c)) r) (many (fun _ => false) true)

def isSpace (c : Char) : Bool := c ∈ [' ', '\t', '\n', '\x0b', '\x0c', '\r']

def isWord (c : Char) : Bool := c.isAlphanum || c == '_'

def isAny (c : Char) : Bool := c != '\n'

def spaces : Pattern := many isSpace true

def some1 : Pattern := seq (one isAny) (many isAny true)

def some1Lazy : Pattern := seq (one isAny) (many isAny false)

def some0 : Pattern := many isAny true

def some0Lazy : Pattern := many isAny false

def field (label : String) (value : Pattern) : Pattern :=
  seq (lit label) (seq spaces (seq (group 1 value) (seq spaces final)))

end Pattern

/-! ## Splitting a text -/

def dropTrailing (fields : List Text) : List Text := (fields.reverse.dropWhile (· = [])).reverse

def splitSpaces (s : Text) : List Text :=
  match s.splitOnP Pattern.isSpace with
  | [] => []
  | first :: rest => dropTrailing (first :: rest.filter (· ≠ []))

def splitChar (c : Char) (s : Text) : List Text := dropTrailing (s.splitOn c)

def splitCommaSpace (s : Text) : List Text := dropTrailing (go [] s)
where
  go (cur : Text) : Text → List Text
    | [] => [cur]
    | ',' :: ' ' :: s => cur :: go [] s
    | c :: s => go (cur ++ [c]) s

def splitThree (c : Char) (s : Text) : List Text :=
  match s.splitOn c with
  | a :: b :: rest@(_ :: _) => [a, b, joinText [c] rest]
  | fields => fields

end SourceMaster.Metadata
