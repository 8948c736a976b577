/-! # Octet strings of fixed length

Addresses are strings of octets compared under a mask of the same length: two addresses agree when
they have the same bits wherever the mask has ones.
-/
namespace Cwmp

/-- A string of `n` octets. -/
structure Octets (n : Nat) where
  bytes : List UInt8
  length_eq : bytes.length = n := by rfl
deriving DecidableEq

namespace Octets

variable {n : Nat}

/-- The octets of a list, if it has the right length. -/
def ofList? (bytes : List UInt8) : Option (Octets n) :=
  if h : bytes.length = n then some ⟨bytes, h⟩ else none

/-- The mask that compares every bit. -/
def full : Octets n :=
  ⟨List.replicate n 255, by simp⟩

/-- The octets common to two strings. -/
def and (a b : Octets n) : Octets n :=
  ⟨List.zipWith (· &&& ·) a.bytes b.bytes, by simp [a.length_eq, b.length_eq]⟩

/-- Agreement on every bit set in `mask`. -/
def agree (mask a b : Octets n) : Bool :=
  a.and mask = b.and mask

@[simp] theorem ofList?_bytes (a : Octets n) : ofList? a.bytes = some a := by
  simp [ofList?, a.length_eq]

end Octets
end Cwmp
