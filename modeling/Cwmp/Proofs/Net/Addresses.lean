import Cwmp.Proofs.Schema.Canonical
import Cwmp.Proofs.Text.CommaList
import Cwmp.Proofs.Text.Decimal

/-! # Addresses read back

The text that is written of an address is read as that address. No address is written as the empty
text, which stands for none.
-/
namespace Cwmp

open Text

/-- Addresses are read from the texts that are written of them, and none from the empty text. -/
structure Spelling {A : Type} (read : String → Option A) (write : A → String) : Prop where
  read_empty : read "" = none
  read_write : ∀ a, read (write a) = some a

theorem Spelling.write_ne_empty {A : Type} {read : String → Option A} {write : A → String}
    (h : Spelling read write) (a : A) : write a ≠ "" := by
  intro hempty
  have hread := h.read_write a
  rw [hempty, h.read_empty] at hread
  cases hread

namespace Ipv4

theorem part?_toDigits (octet : UInt8) : part? (Nat.toDigits 10 octet.toNat) = some octet := by
  have hall : ∀ n : Fin 256, part? (Nat.toDigits 10 n) = some (UInt8.ofNat n) := by
    decide +kernel
  simpa using hall ⟨octet.toNat, octet.toNat_lt⟩

@[simp] theorem read_write (a : Ipv4) : read (write a) = some a := by
  have hne : (a.bytes.map fun octet => decimal octet.toNat) ≠ [] := by
    intro hnil
    have hlength := a.length_eq
    rw [List.map_eq_nil_iff.1 hnil] at hlength
    cases hlength
  have hcut : splitAt '.' (write a).toList =
      (a.bytes.map fun octet => decimal octet.toNat).map String.toList := by
    refine splitAt_joinWith hne fun s hs hdot => ?_
    obtain ⟨octet, -, rfl⟩ := List.mem_map.1 hs
    rw [toList_decimal] at hdot
    cases isDigit_of_mem_toDigits hdot
  have hparts : ∀ bytes : List UInt8,
      ((bytes.map fun octet => decimal octet.toNat).map String.toList).mapM part? = some bytes := by
    intro bytes
    induction bytes with
    | nil => rfl
    | cons octet rest ih =>
      rw [List.map_cons, List.map_cons, List.mapM_cons, ih, toList_decimal, part?_toDigits]
      rfl
  rw [read, hcut, hparts, Option.bind_some, Octets.ofList?_bytes]

theorem spelling : Spelling read write :=
  ⟨read_empty, read_write⟩

end Ipv4

namespace Mac

theorem hexDigit?_hexDigit {n : Nat} (h : n < 16) : hexDigit? (hexDigit n) = some n := by
  have hall : ∀ n : Fin 16, hexDigit? (hexDigit n) = some n.val := by decide
  exact hall ⟨n, h⟩

theorem keeps_hexDigit {n : Nat} (h : n < 16) :
    decide (hexDigit n ≠ ':' ∧ hexDigit n ≠ '-') = true := by
  have hall : ∀ n : Fin 16, decide (hexDigit n.val ≠ ':' ∧ hexDigit n.val ≠ '-') = true := by
    decide
  exact hall ⟨n, h⟩

theorem hexPairs?_pairs (bytes : List UInt8) :
    hexPairs? ((pairs bytes).filter fun c => c ≠ ':' ∧ c ≠ '-') = some bytes := by
  have hpair : ∀ (octet : UInt8) (s : List Char) (rest : List UInt8), hexPairs? s = some rest →
      hexPairs? ((hexPair octet).filter (fun c => c ≠ ':' ∧ c ≠ '-') ++ s) =
        some (octet :: rest) := by
    intro octet s rest hs
    have hlt := octet.toNat_lt
    have hhigh : octet.toNat / 16 < 16 := by omega
    have hlow : octet.toNat % 16 < 16 := by omega
    have hvalue : 16 * (octet.toNat / 16) + octet.toNat % 16 = octet.toNat := by omega
    simp only [hexPair, List.filter_cons, keeps_hexDigit hhigh, keeps_hexDigit hlow, ↓reduceIte,
      List.filter_nil, List.cons_append, List.nil_append, hexPairs?, hexDigit?_hexDigit hhigh,
      hexDigit?_hexDigit hlow, hs, Option.bind_eq_bind, Option.bind_some, hvalue, Option.pure_def,
      UInt8.ofNat_toNat]
  induction bytes with
  | nil => rfl
  | cons octet rest ih =>
    cases rest with
    | nil => simpa [pairs] using hpair octet [] [] rfl
    | cons second rest => simpa [pairs, List.filter_append] using hpair octet _ _ ih

@[simp] theorem read_write (a : Mac) : read (write a) = some a := by
  simp only [read, digits, write, String.toList_ofList, hexPairs?_pairs, Option.bind_some,
    Octets.ofList?_bytes]

theorem spelling : Spelling read write :=
  ⟨read_empty, read_write⟩

end Mac
end Cwmp
