import Cwmp.Proofs.Net.Addresses
import Cwmp.Proofs.Net.Octets
import Mathlib.Tactic

/-! # The grammar of MAC addresses

A text denotes an address if twelve hexadecimal digits are left of it when its colons and dashes are
deleted. In pairs these are the octets of the address, so texts denote the same address if their
digits differ in case only. The device writes the digits in lower case, with a colon between pairs.
-/
namespace Cwmp

namespace Text

def IsHexDigit (c : Char) : Prop :=
  c ∈ "0123456789abcdefABCDEF".toList

instance : DecidablePred IsHexDigit := fun c =>
  inferInstanceAs (Decidable (c ∈ "0123456789abcdefABCDEF".toList))

/-- The number that a digit stands for: its place among the digits in lower case. -/
def hexValue (c : Char) : Nat :=
  "0123456789abcdef".toList.idxOf c.toLower

theorem IsHexDigit.of_all {p : Char → Prop} [DecidablePred p] {c : Char} (h : IsHexDigit c)
    (hall : "0123456789abcdefABCDEF".toList.all (fun d => decide (p d)) = true) : p c :=
  of_decide_eq_true (List.all_eq_true.1 hall c h)

theorem IsHexDigit.toNat_lt {c : Char} (h : IsHexDigit c) : c.toNat < 128 :=
  h.of_all (p := fun d => d.toNat < 128) (by decide)

theorem IsHexDigit.hexValue_lt {c : Char} (h : IsHexDigit c) : hexValue c < 16 :=
  h.of_all (p := fun d => hexValue d < 16) (by decide)

theorem IsHexDigit.toLower_eq {c : Char} (h : IsHexDigit c) :
    c.toLower = hexDigit (hexValue c) :=
  h.of_all (p := fun d => d.toLower = hexDigit (hexValue d)) (by decide)

theorem IsHexDigit.utf8Size_eq {c : Char} (h : IsHexDigit c) : c.utf8Size = 1 :=
  h.of_all (p := fun d => d.utf8Size = 1) (by decide)

theorem toNat_lt_of_hexDigit? {c : Char} {n : Nat} (h : hexDigit? c = some n) :
    c.toNat < 128 := by
  have hbelow : ∀ top : Char, c ≤ top → top.toNat < 128 → c.toNat < 128 := fun _ hle hlt =>
    Nat.lt_of_le_of_lt (Char.le_def.1 hle) hlt
  unfold hexDigit? at h
  split_ifs at h with hdigit hlower hupper
  · exact hbelow '9' hdigit.2 (by decide)
  · exact hbelow 'f' hlower.2 (by decide)
  · exact hbelow 'F' hupper.2 (by decide)

theorem hexDigit?_eq (c : Char) :
    hexDigit? c = if IsHexDigit c then some (hexValue c) else none := by
  by_cases hc : c.toNat < 128
  · have hall : ∀ n : Fin 128, hexDigit? (Char.ofNat n) =
        if IsHexDigit (Char.ofNat n) then some (hexValue (Char.ofNat n)) else none := by
      decide +kernel
    simpa using hall ⟨c.toNat, hc⟩
  · rw [if_neg fun h => hc h.toNat_lt]
    cases h : hexDigit? c with
    | none => rfl
    | some n => exact absurd (toNat_lt_of_hexDigit? h) hc

def halves (octet : UInt8) : List Nat :=
  [octet.toNat / 16, octet.toNat % 16]

theorem ofNat_eq_iff {high low : Nat} (hhigh : high < 16) (hlow : low < 16) (octet : UInt8) :
    UInt8.ofNat (16 * high + low) = octet ↔
      high = octet.toNat / 16 ∧ low = octet.toNat % 16 := by
  constructor
  · rintro rfl
    have hvalue : (UInt8.ofNat (16 * high + low)).toNat = 16 * high + low :=
      UInt8.toNat_ofNat_of_lt' (by simp only [UInt8.size]; omega)
    omega
  · rintro ⟨rfl, rfl⟩
    have hvalue : 16 * (octet.toNat / 16) + octet.toNat % 16 = octet.toNat := by omega
    rw [hvalue, UInt8.ofNat_toNat]

theorem length_halves (bytes : List UInt8) : (bytes.flatMap halves).length = 2 * bytes.length := by
  induction bytes with
  | nil => rfl
  | cons octet bytes ih =>
    rw [List.flatMap_cons, List.length_append, ih, List.length_cons, Nat.mul_succ, Nat.add_comm]
    rfl

theorem hexPairs?_cons_cons {a b : Char} (ha : IsHexDigit a) (hb : IsHexDigit b)
    (s : List Char) : hexPairs? (a :: b :: s) =
      (hexPairs? s).map (UInt8.ofNat (16 * hexValue a + hexValue b) :: ·) := by
  simp only [hexPairs?, hexDigit?_eq, ha, hb, ↓reduceIte, Option.bind_eq_bind, Option.bind_some,
    Option.pure_def, Option.map_eq_bind]
  rfl

/-- What is read in pairs are digits, and these stand for the halves of the octets. -/
theorem hexPairs?_eq_some_iff {s : List Char} {bytes : List UInt8} :
    hexPairs? s = some bytes ↔
      (∀ c ∈ s, IsHexDigit c) ∧ s.map hexValue = bytes.flatMap halves := by
  induction s using hexPairs?.induct generalizing bytes with
  | case1 => cases bytes <;> simp [hexPairs?, halves]
  | case2 c =>
    cases bytes <;> simp [hexPairs?, halves]
  | case3 a b s ih =>
    rw [List.forall_mem_cons, List.forall_mem_cons]
    by_cases ha : IsHexDigit a
    · by_cases hb : IsHexDigit b
      · rw [hexPairs?_cons_cons ha hb]
        cases bytes with
        | nil => simp
        | cons octet bytes =>
          have hoctet := ofNat_eq_iff ha.hexValue_lt hb.hexValue_lt octet
          simp only [ha, hb, true_and, Option.map_eq_some_iff, List.cons.injEq, ih, hoctet,
            List.map_cons, List.flatMap_cons, halves, List.cons_append, List.nil_append]
          constructor
          · rintro ⟨_, ⟨hs, hrest⟩, ⟨hhigh, hlow⟩, rfl⟩
            exact ⟨hs, hhigh, hlow, hrest⟩
          · rintro ⟨hs, hhigh, hlow, hrest⟩
            exact ⟨bytes, ⟨hs, hrest⟩, ⟨hhigh, hlow⟩, rfl⟩
      · simp [hexPairs?, hexDigit?_eq, hb]
    · simp [hexPairs?, hexDigit?_eq, ha]

/-- Digits are read if their number is even. -/
theorem exists_hexPairs? {s : List Char} {n : Nat} (hlength : s.length = 2 * n)
    (hhex : ∀ c ∈ s, IsHexDigit c) : ∃ bytes, hexPairs? s = some bytes ∧ bytes.length = n := by
  induction s using hexPairs?.induct generalizing n with
  | case1 =>
    have hn : n = 0 := by simpa using hlength
    exact ⟨[], rfl, hn.symm⟩
  | case2 c =>
    simp only [List.length_cons, List.length_nil] at hlength
    omega
  | case3 a b s ih =>
    rw [List.forall_mem_cons, List.forall_mem_cons] at hhex
    obtain ⟨ha, hb, hs⟩ := hhex
    simp only [List.length_cons] at hlength
    obtain ⟨k, rfl⟩ : ∃ k, n = k + 1 := ⟨n - 1, by omega⟩
    obtain ⟨bytes, hbytes, hcount⟩ := ih (n := k) (by omega) hs
    refine ⟨UInt8.ofNat (16 * hexValue a + hexValue b) :: bytes, ?_, ?_⟩
    · rw [hexPairs?_cons_cons ha hb, hbytes, Option.map_some]
    · rw [List.length_cons, hcount]

theorem map_toLower_eq {s : List Char} {bytes : List UInt8} (hhex : ∀ c ∈ s, IsHexDigit c)
    (h : s.map hexValue = bytes.flatMap halves) :
    s.map Char.toLower = bytes.flatMap hexPair := by
  have hlower : s.map Char.toLower = (s.map hexValue).map hexDigit := by
    rw [List.map_map]
    exact List.map_congr_left fun c hc => (hhex c hc).toLower_eq
  rw [hlower, h, List.map_flatMap]
  rfl

end Text

namespace Mac

open Text

def bare (s : String) : List Char :=
  s.toList.removeAll [':', '-']

theorem digits_eq_bare (s : String) : digits s = bare s := by
  refine List.filter_congr fun c _ => ?_
  simp

/-- What is left of the text are digits, and these stand for the halves of the octets in order. -/
structure Spells (s : String) (a : Mac) : Prop where
  hex : ∀ c ∈ bare s, IsHexDigit c
  halves_eq : (bare s).map hexValue = a.bytes.flatMap halves

variable {s t : String} {a b : Mac}

theorem read_eq_some_iff : read s = some a ↔ Spells s a := by
  rw [read, digits_eq_bare, Option.bind_eq_some_iff]
  constructor
  · rintro ⟨bytes, hbytes, ha⟩
    rw [← Octets.bytes_of_ofList? ha] at hbytes
    obtain ⟨hhex, hhalves⟩ := hexPairs?_eq_some_iff.1 hbytes
    exact ⟨hhex, hhalves⟩
  · rintro ⟨hhex, hhalves⟩
    exact ⟨a.bytes, hexPairs?_eq_some_iff.2 ⟨hhex, hhalves⟩, Octets.ofList?_bytes a⟩

theorem exists_read_iff : (∃ a, read s = some a) ↔
    (bare s).length = 12 ∧ ∀ c ∈ bare s, IsHexDigit c := by
  constructor
  · rintro ⟨a, ha⟩
    have hspells := read_eq_some_iff.1 ha
    refine ⟨?_, hspells.hex⟩
    calc (bare s).length = ((bare s).map hexValue).length := (List.length_map _).symm
      _ = 2 * a.bytes.length := by rw [hspells.halves_eq, length_halves]
      _ = 12 := by rw [a.length_eq]
  · rintro ⟨hlength, hhex⟩
    obtain ⟨bytes, hbytes, hsix⟩ := exists_hexPairs? (n := 6) hlength hhex
    refine ⟨⟨bytes, hsix⟩, ?_⟩
    rw [read, digits_eq_bare, hbytes, Option.bind_some]
    exact Octets.ofList?_bytes (⟨bytes, hsix⟩ : Mac)

theorem exists_read_iff_byteLength : (∃ a, read s = some a) ↔
    byteLength (bare s) = 12 ∧ ∀ c ∈ bare s, IsHexDigit c := by
  rw [exists_read_iff]
  refine and_congr_left fun hhex => ?_
  rw [byteLength_eq_length fun c hc => (hhex c hc).utf8Size_eq]

def SameDigits (s t : String) : Prop :=
  (bare s).map Char.toLower = (bare t).map Char.toLower

theorem eq_iff_sameDigits (hs : read s = some a) (ht : read t = some b) :
    a = b ↔ SameDigits s t := by
  have hspells := read_eq_some_iff.1 hs
  have hspells' := read_eq_some_iff.1 ht
  constructor
  · rintro rfl
    exact (map_toLower_eq hspells.hex hspells.halves_eq).trans
      (map_toLower_eq hspells'.hex hspells'.halves_eq).symm
  · intro h
    have hvalues : (bare s).map hexValue = (bare t).map hexValue := by
      have hplaces := congrArg (List.map ("0123456789abcdef".toList.idxOf ·)) h
      rwa [List.map_map, List.map_map] at hplaces
    have hread : read s = some b :=
      read_eq_some_iff.2 ⟨hspells.hex, hvalues.trans hspells'.halves_eq⟩
    exact Option.some.inj (hs.symm.trans hread)

def inPairs : List Char → List Char
  | c :: d :: e :: rest => c :: d :: ':' :: inPairs (e :: rest)
  | rest => rest

/-- The digits of a text in lower case, in pairs with colons between them. -/
def normalText (s : String) : String :=
  String.ofList (inPairs ((bare s).map Char.toLower))

theorem pairs_eq (bytes : List UInt8) : pairs bytes = inPairs (bytes.flatMap hexPair) := by
  induction bytes with
  | nil => rfl
  | cons octet rest ih =>
    cases rest with
    | nil => rfl
    | cons second rest =>
      have hpairs : pairs (octet :: second :: rest) =
          hexPair octet ++ ':' :: pairs (second :: rest) := rfl
      rw [hpairs, ih]
      rfl

theorem write_of_read (h : read s = some a) : write a = normalText s := by
  have hspells := read_eq_some_iff.1 h
  rw [write, pairs_eq, normalText, map_toLower_eq hspells.hex hspells.halves_eq]

example : normalText "AA-BB-CC-DD-EE-FF" = "aa:bb:cc:dd:ee:ff" := by decide

end Mac
end Cwmp
