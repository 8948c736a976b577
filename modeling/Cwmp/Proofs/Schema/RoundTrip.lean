import Cwmp.Proofs.Net.Addresses
import Cwmp.Proofs.Time.Rfc3339
import Cwmp.Schema.Field

/-! # Values read back

Which values of a parameter come back from their texts, and which from documents. Texts cut the
fractions of seconds off, know only years of four digits and give lists without separators, blanks
and empty items; documents keep all but the last.
-/
namespace Cwmp

open Text

namespace Value

/-- A value that its text says in full. -/
def Textual : Value → Prop
  | moment t => (t.nanos = 0 ∨ t.nanos = 1000000000) ∧ 0 ≤ t.date.year ∧ t.date.year ≤ 9999
  | list items => ∀ s ∈ items, IsItem s
  | _ => True

def Tidy : Value → Prop
  | list items => ∀ s ∈ items, IsItem s
  | _ => True

instance : ∀ v : Value, Decidable v.Tidy
  | list items => inferInstanceAs (Decidable (∀ s ∈ items, IsItem s))
  | boolean _ | int _ | unsigned _ | text _ | moment _ => .isTrue trivial

end Value

theorem Vocabulary.word_inj {V : Type} [Vocabulary V] {a b : V} : word a = word b ↔ a = b :=
  ⟨word_injective, congrArg word⟩

namespace Shape

section Addresses

variable {A F : Type} {read : String → Option A} {write : A → String} (h : Spelling read write)
include h

theorem readAddress_write (fault : String → F) (a : Option A) :
    readAddress read fault (a.elim "" write) = .ok a := by
  cases a with
  | none => rfl
  | some a =>
    simp only [readAddress, Option.elim_some, h.write_ne_empty, ↓reduceIte, h.read_write]

theorem elim_write_injective : Function.Injective fun a : Option A => a.elim "" write := by
  intro a b hab
  have hread := congrArg (readAddress read id) hab
  dsimp only at hread
  rw [readAddress_write h, readAddress_write h] at hread
  exact Except.ok.inj hread

theorem canonical_elim_write (a : Option A) :
    (read (a.elim "" write)).elim (a.elim "" write) write = a.elim "" write := by
  cases a with
  | none => rw [Option.elim_none, h.read_empty, Option.elim_none]
  | some a => rw [Option.elim_some, h.read_write, Option.elim_some]

end Addresses

theorem value_injective (s : Shape) : Function.Injective s.value := by
  cases s with
  | boolean => exact fun a b h => Value.boolean.inj h
  | int => exact fun a b h => Int32.toInt_inj.1 (Value.int.inj h)
  | unsigned => exact fun a b h => UInt32.toNat_inj.1 (Value.unsigned.inj h)
  | text => exact fun a b h => Value.text.inj h
  | choice V => exact fun a b h => (Vocabulary.word_inj (V := V)).1 (Value.text.inj h)
  | moment => exact fun a b h => Value.moment.inj h
  | ipv4 => exact fun a b h => elim_write_injective Ipv4.spelling (Value.text.inj h)
  | mac => exact fun a b h => elim_write_injective Mac.spelling (Value.text.inj h)
  | list => exact fun a b h => Value.list.inj h

@[simp] theorem canonical_value (s : Shape) (a : s.Carrier) :
    s.canonical (s.value a) = s.value a := by
  cases s with
  | ipv4 => exact congrArg Value.text (canonical_elim_write Ipv4.spelling a)
  | mac => exact congrArg Value.text (canonical_elim_write Mac.spelling a)
  | _ => rfl

theorem store_int_toInt (bottom top : Int)
    (fits : decide (int32Min ≤ bottom ∧ top ≤ int32Max) = true) (i : Int32) :
    (int bottom top fits).store (.int i.toInt) = .ok i := by
  have hle := i.le_toInt
  have hlt := i.toInt_lt
  have hfit : int32Min ≤ i.toInt ∧ i.toInt ≤ int32Max := by
    simp only [int32Min, int32Max]
    omega
  simp only [store, hfit, and_self, ↓reduceIte, Int32.ofInt_toInt]

theorem store_word {V : Type} [Vocabulary V] (a : V) :
    (choice V).store (.text (Vocabulary.word a)) = .ok a := by
  simp only [store, Value.write, Vocabulary.ofWord?_word]

/-- What an object stores is stored again from its value. -/
theorem store_value (s : Shape) (a : s.Carrier) : s.store (s.value a) = .ok a := by
  cases s with
  | int bottom top fits => exact store_int_toInt bottom top fits a
  | unsigned bottom top fits => exact store_unsigned_toNat bottom top fits a
  | choice V => exact store_word (V := V) a
  | ipv4 => exact readAddress_write Ipv4.spelling _ a
  | mac => exact readAddress_write Mac.spelling _ a
  | _ => rfl

theorem docInt_encode (i : Int32) : docInt (.integer i.toInt) = .ok i := by
  have hle := i.le_toInt
  have hlt := i.toInt_lt
  have hfit : int32Min ≤ i.toInt ∧ i.toInt ≤ int32Max := by
    simp only [int32Min, int32Max]
    omega
  simp only [docInt, docInt.fit, hfit, and_self, ↓reduceIte, Int32.ofInt_toInt]

theorem docNat_encode (n : UInt32) : docNat (.integer n.toNat) = .ok n := by
  have hfit : n.toNat ≤ uint32Max := by
    have := n.toNat_lt
    simp only [uint32Max]
    omega
  simp only [docNat, docNat.fit, Int.natCast_nonneg, ↓reduceIte, Int.toNat_natCast, hfit,
    UInt32.ofNat_toNat]

theorem decode_word {V : Type} [Vocabulary V] (a : V) :
    (choice V).decode (.text (Vocabulary.word a)) = .ok a := by
  simp only [decode, Doc.asText, Except.bind, Vocabulary.ofWord?_word]

theorem decode_writeExact (t : Instant) : moment.decode (.text (Rfc3339.writeExact t)) = .ok t := by
  simp only [decode, Doc.asText, Except.bind, Rfc3339.readLoose_writeExact]
  rfl

/-- A tidy value comes back from a document. -/
theorem decode_encode {s : Shape} {a : s.Carrier} (h : (s.value a).Tidy) :
    s.decode (s.encode a) = .ok a := by
  cases s with
  | boolean => rfl
  | int => exact docInt_encode a
  | unsigned => exact docNat_encode a
  | text => rfl
  | choice V => exact decode_word (V := V) a
  | moment => exact decode_writeExact a
  | ipv4 => exact readAddress_write Ipv4.spelling (fun _ => LoadFault.malformed) a
  | mac => exact readAddress_write Mac.spelling LoadFault.invalidMac a
  | list => exact congrArg Except.ok (commaItems_commaText h)

theorem read_decimalInt {bottom top i : Int} (hb : int64Min ≤ i) (ht : i ≤ int64Max) :
    (Kind.int bottom top).read (decimalInt i) = .ok (.int i) := by
  have htrim : trim (decimalInt i).toList = (decimalInt i).toList :=
    trim_eq_self fun _ => isBlank_of_mem_decimalInt
  simp only [Kind.read, htrim, signed?_decimalInt hb ht]

theorem read_decimal {bottom top n : Nat} (h : n ≤ uint64Max) :
    (Kind.unsigned bottom top).read (decimal n) = .ok (.unsigned n) := by
  have htrim : trim (Nat.toDigits 10 n) = Nat.toDigits 10 n :=
    trim_eq_self fun _ hc => isBlank_of_isDigit (isDigit_of_mem_toDigits hc)
  simp only [Kind.read, toList_decimal, htrim, unsigned?_toDigits h]

theorem read_write_moment (t : Instant) :
    Kind.moment.read (Value.moment t).write = .ok (.moment t) ↔ (Value.moment t).Textual := by
  simp only [Value.Textual, ← Rfc3339.read_write_iff, Kind.read, Value.write,
    Rfc3339.trimmed_write]
  cases Rfc3339.read (Rfc3339.write t) <;> simp

theorem read_write_list {maxLength : Option Nat} (items : List String) :
    (Kind.list maxLength).read (Value.list items).write = .ok (.list items) ↔
      (Value.list items).Textual := by
  simp only [Value.Textual, ← commaItems_commaText_iff, Kind.read, Value.write, Except.ok.injEq,
    Value.list.injEq]

/-- A value comes back from its text if and only if the text says it in full. -/
theorem read_write_iff (s : Shape) (a : s.Carrier) :
    s.kind.read (s.value a).write = .ok (s.value a) ↔ (s.value a).Textual := by
  cases s with
  | boolean =>
    refine iff_of_true ?_ trivial
    cases (a : Bool) <;> rfl
  | int =>
    refine iff_of_true ?_ trivial
    have hle := Int32.le_toInt a
    have hlt := Int32.toInt_lt a
    exact read_decimalInt (by simp only [int64Min]; omega) (by simp only [int64Max]; omega)
  | unsigned =>
    refine iff_of_true ?_ trivial
    have hlt := UInt32.toNat_lt a
    exact read_decimal (by simp only [uint64Max]; omega)
  | moment => exact read_write_moment a
  | list n => exact read_write_list a
  | _ => exact iff_of_true rfl trivial

/-- A parameter that is set to the text of a value takes this value on if and only if the text says
it in full. -/
theorem exists_read_write_iff {s : Shape} {a : s.Carrier} (h : s.kind.Accepts (s.value a)) :
    (∃ v, s.kind.read (s.value a).write = .ok v ∧ s.kind.Accepts v ∧
      s.canonical v = s.value a) ↔ (s.value a).Textual := by
  constructor
  · rintro ⟨v, hread, -, hv⟩
    cases s with
    | moment => exact (read_write_iff moment a).1 (hread.trans (congrArg Except.ok hv))
    | list n => exact (read_write_iff (list n) a).1 (hread.trans (congrArg Except.ok hv))
    | _ => trivial
  · intro htext
    exact ⟨s.value a, (read_write_iff s a).2 htext, h, canonical_value s a⟩

end Shape

/-- What a reader gets of a secret is the empty text, so a secret takes its value on from it only
when it is empty itself. -/
theorem Field.exists_read_shown_iff {f : Field} {a : f.shape.Carrier}
    (hsecret : f.secret = true → ∃ n, f.shape = .text n)
    (h : f.shape.kind.Accepts (f.shape.value a)) :
    (∃ v, f.shape.kind.read (f.shown (f.shape.value a)).write = .ok v ∧
      f.shape.kind.Accepts v ∧ f.shape.canonical v = f.shape.value a) ↔
        (f.shape.value a).Textual ∧ (f.secret = true → f.shape.value a = .text "") := by
  obtain ⟨name, shape, access, notify, gates, secret⟩ := f
  cases secret with
  | false =>
    rw [← Shape.exists_read_write_iff h]
    simp [shown]
  | true =>
    obtain ⟨n, rfl⟩ := hsecret rfl
    have hempty : (Kind.text (some n)).Accepts (.text "") := by
      simp [Kind.accepts_iff, Kind.Takes.text]
    simp only [shown, ↓reduceIte, forall_const]
    constructor
    · rintro ⟨v, hread, -, hv⟩
      obtain rfl := Except.ok.inj hread
      exact ⟨trivial, hv.symm⟩
    · rintro ⟨-, hv⟩
      exact ⟨.text "", rfl, hempty, hv.symm⟩

end Cwmp
