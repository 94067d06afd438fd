import Mathlib.Data.List.Basic

/-!
# UTF-8

The encoding of Unicode scalar values, with bytes as natural numbers. `Char` is the type of scalar
values, so that a text is valid if it is the encoding of a list of characters.
-/

namespace SourceMaster.Utf8

def encode (n : Nat) : List Nat :=
  if n < 0x80 then [n]
  else if n < 0x800 then [0xC0 + n / 64, 0x80 + n % 64]
  else if n < 0x10000 then [0xE0 + n / 4096, 0x80 + n / 64 % 64, 0x80 + n % 64]
  else [0xF0 + n / 262144, 0x80 + n / 4096 % 64, 0x80 + n / 64 % 64, 0x80 + n % 64]

def encodeAll (cs : List Char) : List Nat := cs.flatMap fun c => encode c.toNat

@[simp] lemma encodeAll_nil : encodeAll [] = [] := rfl

@[simp] lemma encodeAll_cons (c : Char) (cs : List Char) :
    encodeAll (c :: cs) = encode c.toNat ++ encodeAll cs := rfl

@[simp] lemma encodeAll_append (cs cs' : List Char) :
    encodeAll (cs ++ cs') = encodeAll cs ++ encodeAll cs' := by
  simp [encodeAll]

lemma encode_ne_nil (n : Nat) : encode n ≠ [] := by
  unfold encode
  split_ifs <;> simp

lemma encodeAll_eq_nil {cs : List Char} : encodeAll cs = [] ↔ cs = [] := by
  cases cs with
  | nil => simp
  | cons c cs => simp [encode_ne_nil]

/-- A scalar value is below 0x110000 and no surrogate. -/
theorem scalar (c : Char) : c.toNat < 0xD800 ∨ (0xDFFF < c.toNat ∧ c.toNat < 0x110000) := c.valid

end SourceMaster.Utf8
