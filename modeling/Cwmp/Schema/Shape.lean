import Cwmp.Doc.Plain
import Cwmp.Schema.Kind
import Cwmp.Schema.Vocabulary

/-! # Shapes

The shape of a parameter fixes how an object holds it: the kind that its values travel as and the
type in which the object stores it. Storing takes a value apart and may refuse it; no bounds are
checked then, as they belong to the kind. Documents hold parameters in a form of their own, close to
the text of the value.
-/
namespace Cwmp

/-- Bounds of the numbers that an object stores. -/
def int32Min : Int := -2147483648
def int32Max : Int := 2147483647

/-- The shape of a parameter. Where one is given, its bounds are decided to lie within 32 bits. -/
inductive Shape : Type 1
  | boolean
  | int (bottom top : Int)
      (fits : decide (int32Min ≤ bottom ∧ top ≤ int32Max) = true := by exact Eq.refl true)
  | unsigned (bottom top : Nat)
      (fits : decide (top ≤ Text.uint32Max) = true := by exact Eq.refl true)
  | text (maxLength : Nat)
  | choice (V : Type) [Vocabulary V]
  | moment
  | ipv4
  | mac
  | list (maxLength : Nat)

/-- Why a value is not stored. -/
inductive StoreFault
  | unknownParameter (name : String)
  | wrongType (expected actual : String)
  | tooWide (value type : String)
  | unknownWord (word label : String)
  | notIpv4 (text : String)
  | notMac (text : String)
deriving DecidableEq, Repr

def StoreFault.message : StoreFault → String
  | unknownParameter name => "unknown parameter '" ++ name ++ "'"
  | wrongType expected actual => "expected " ++ expected ++ ", got " ++ actual
  | tooWide value type => value ++ " does not fit " ++ type
  | unknownWord word label => "'" ++ word ++ "' is not a valid " ++ label
  | notIpv4 text => "'" ++ text ++ "' is not an IPv4 address"
  | notMac text => Mac.invalidMessage text

namespace Shape

open Text

/-- The kind as which values of a shape travel. -/
def kind : Shape → Kind
  | boolean => .boolean
  | int bottom top _ => .int bottom top
  | unsigned bottom top _ => .unsigned bottom top
  | text n => .text (some n)
  | choice V => .choice (Vocabulary.words V)
  | moment => .moment
  | ipv4 => .ipv4
  | mac => .mac
  | list n => .list (some n)

/-- The type in which an object stores a parameter. -/
def Carrier : Shape → Type
  | boolean => Bool
  | int .. => Int32
  | unsigned .. => UInt32
  | text _ => String
  | choice V => V
  | moment => Instant
  | ipv4 => Option Ipv4
  | mac => Option Mac
  | list _ => List String

def value : (s : Shape) → s.Carrier → Value
  | boolean, (b : Bool) => .boolean b
  | int .., (i : Int32) => .int i.toInt
  | unsigned .., (n : UInt32) => .unsigned n.toNat
  | text _, (t : String) => .text t
  | choice V, a => .text (Vocabulary.word (V := V) a)
  | moment, (t : Instant) => .moment t
  | ipv4, (a : Option Ipv4) => .text (a.elim "" Ipv4.write)
  | mac, (a : Option Mac) => .text (a.elim "" Mac.write)
  | list _, (items : List String) => .list items

/-- The address that a text stands for. The empty text stands for none. -/
def readAddress {A F : Type} (read : String → Option A) (fault : String → F) (t : String) :
    Except F (Option A) :=
  if t = "" then .ok none
  else match read t with
    | some a => .ok (some a)
    | none => .error (fault t)

/-- Stores a value. A fixed word is recognised by the text of any value, and a list is also taken
from its text. -/
def store : (s : Shape) → Value → Except StoreFault s.Carrier
  | boolean, .boolean b => .ok (b : Bool)
  | int .., .int i =>
    if int32Min ≤ i ∧ i ≤ int32Max then .ok (Int32.ofInt i)
    else .error (.tooWide (decimalInt i) "int")
  | unsigned .., .unsigned n =>
    if n ≤ uint32Max then .ok (UInt32.ofNat n) else .error (.tooWide (decimal n) "unsignedInt")
  | text _, .text t => .ok (t : String)
  | choice V, v =>
    match Vocabulary.ofWord? (V := V) v.write with
    | some a => .ok a
    | none => .error (.unknownWord v.write (Vocabulary.label V))
  | moment, .moment t => .ok (t : Instant)
  | ipv4, .text t => readAddress Ipv4.read .notIpv4 t
  | mac, .text t => readAddress Mac.read .notMac t
  | list _, .list items => .ok (items : List String)
  | list _, .text t => .ok (commaItems t : List String)
  | boolean, v => .error (.wrongType "boolean" v.typeWord)
  | int .., v => .error (.wrongType "int" v.typeWord)
  | unsigned .., v => .error (.wrongType "unsignedInt" v.typeWord)
  | text _, v => .error (.wrongType "string" v.typeWord)
  | moment, v => .error (.wrongType "dateTime" v.typeWord)
  | ipv4, v => .error (.wrongType "IPv4Address" v.typeWord)
  | mac, v => .error (.wrongType "MACAddress" v.typeWord)
  | list _, v => .error (.wrongType "list" v.typeWord)

theorem store_unsigned_toNat (bottom top : Nat) (fits : decide (top ≤ uint32Max) = true)
    (n : UInt32) : (unsigned bottom top fits).store (.unsigned n.toNat) = .ok n := by
  have h : n.toNat ≤ uint32Max := by
    have := n.toNat_lt
    simp only [uint32Max]
    omega
  simp only [store, h, ↓reduceIte, UInt32.ofNat_toNat]

/-- The form of a parameter in documents: numbers and booleans as they are, all else as text, times
with their fractions. -/
def encode : (s : Shape) → s.Carrier → Doc
  | boolean, (b : Bool) => .boolean b
  | int .., (i : Int32) => .integer i.toInt
  | unsigned .., (n : UInt32) => .integer n.toNat
  | moment, (t : Instant) => .text (Rfc3339.writeExact t)
  | list _, (items : List String) => .text (commaText items)
  | s, a => .text (s.value a).write

def docBoolean : Doc → Except LoadFault Bool
  | .boolean b => .ok b
  | .plain s => (Plain.boolean? s).elim (.error .malformed) .ok
  | _ => .error .malformed

def docInt : Doc → Except LoadFault Int32
  | .integer i => fit i
  | .plain s => (Plain.integer? s).elim (.error .malformed) fit
  | _ => .error .malformed
where
  fit (i : Int) : Except LoadFault Int32 :=
    if int32Min ≤ i ∧ i ≤ int32Max then .ok (Int32.ofInt i) else .error .malformed

def docNat : Doc → Except LoadFault UInt32
  | .integer i => if 0 ≤ i then fit i.toNat else .error .malformed
  | .plain s => (Plain.natural? s).elim (.error .malformed) fit
  | _ => .error .malformed
where
  fit (n : Nat) : Except LoadFault UInt32 :=
    if n ≤ uint32Max then .ok (UInt32.ofNat n) else .error .malformed

def decode : (s : Shape) → Doc → Except LoadFault s.Carrier
  | boolean, d => docBoolean d
  | int .., d => docInt d
  | unsigned .., d => docNat d
  | text _, d => d.asText
  | choice V, d =>
    d.asText.bind fun t =>
      match Vocabulary.ofWord? (V := V) t with
      | some a => .ok a
      | none => .error (.unknownWord t (Vocabulary.label V))
  | moment, d => d.asText.bind fun t => (Rfc3339.readLoose t).elim (.error .malformed) .ok
  | ipv4, d => d.asText.bind (readAddress Ipv4.read fun _ => .malformed)
  | mac, d => d.asText.bind (readAddress Mac.read .invalidMac)
  | list _, d => d.asText.map commaItems

end Shape
end Cwmp
