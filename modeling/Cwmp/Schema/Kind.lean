import Cwmp.Fault
import Cwmp.Net.Ipv4
import Cwmp.Net.Mac
import Cwmp.Schema.Value

/-! # Kinds

The kind of a parameter says how its text is read and which values it takes. Reading a text and
checking the value that came out are two steps: a text that cannot be read is of the wrong type,
a value outside the bounds is a wrong value.
-/
namespace Cwmp

/-- The kind of a parameter, with its bounds. An address may also be empty. -/
inductive Kind
  | boolean
  | int (bottom top : Int)
  | unsigned (bottom top : Nat)
  /-- Text of at most so many characters. -/
  | text (maxLength : Option Nat)
  | choice (words : List String)
  | moment
  | ipv4
  | mac
  /-- A list whose comma-separated text has at most so many characters. -/
  | list (maxLength : Option Nat)
deriving DecidableEq, Repr

/-- Why a text is no value of its kind. -/
inductive ReadFault
  | notBoolean (text : String)
  | notInteger (text : String)
  | notUnsigned (text : String)
  | notMoment (text : String) (fault : Rfc3339.Fault)
deriving DecidableEq, Repr

def ReadFault.message : ReadFault → String
  | notBoolean text => "'" ++ text ++ "' is not a boolean"
  | notInteger text => "'" ++ text ++ "' is not an integer"
  | notUnsigned text => "'" ++ text ++ "' is not an unsigned integer"
  | notMoment text fault => "'" ++ text ++ "' is not a dateTime: " ++ fault.message

/-- Why a value is none that its kind takes. -/
inductive Misfit
  | outside (value bottom top : String)
  | tooLong (maxLength : Nat)
  | notAmong (text : String) (words : List String)
  | notIpv4 (text : String)
  | notMac (text : String)
  | listTooLong (items characters maxLength : Nat)
  | wrongType (value typeName : String)
deriving DecidableEq, Repr

namespace Misfit

open Text

def message : Misfit → String
  | outside value bottom top => value ++ " outside [" ++ bottom ++ ":" ++ top ++ "]"
  | tooLong maxLength => "longer than " ++ decimal maxLength ++ " characters"
  | notAmong text words => "'" ++ text ++ "' is not one of " ++ joinWith ", " words
  | notIpv4 text => "'" ++ text ++ "' is not an IPv4 address"
  | notMac text => "'" ++ text ++ "' is not a MAC address"
  | listTooLong items characters maxLength =>
    decimal items ++ " items (" ++ decimal characters ++ " characters) exceed " ++
      decimal maxLength
  | wrongType value typeName => value ++ " is not a " ++ typeName

/-- A value of the wrong type is a fault of type, all else one of value. -/
def faultCode : Misfit → FaultCode
  | wrongType .. => .invalidParameterType
  | _ => .invalidParameterValue

end Misfit

namespace Kind

open Text

def typeName : Kind → String
  | boolean => "boolean"
  | int bottom top => "int[" ++ decimalInt bottom ++ ":" ++ decimalInt top ++ "]"
  | unsigned bottom top => "unsignedInt[" ++ decimal bottom ++ ":" ++ decimal top ++ "]"
  | text (some n) => "string(" ++ decimal n ++ ")"
  | text none => "string"
  | choice words => "string\x7b" ++ joinWith "|" words ++ "\x7d"
  | moment => "dateTime"
  | ipv4 => "IPv4Address"
  | mac => "MACAddress"
  | list (some n) => "list(" ++ decimal n ++ ")"
  | list none => "list"

/-- Reads a text as a value. Blanks around booleans, numbers and times do not count. -/
def read (k : Kind) (s : String) : Except ReadFault Value :=
  match k with
  | boolean =>
    let word := trimmed s
    if word = "true" ∨ word = "1" then .ok (.boolean true)
    else if word = "false" ∨ word = "0" then .ok (.boolean false)
    else .error (.notBoolean word)
  | int .. =>
    match signed? int64Min int64Max (trim s.toList) with
    | some i => .ok (.int i)
    | none => .error (.notInteger s)
  | unsigned .. =>
    match unsigned? uint64Max (trim s.toList) with
    | some n => .ok (.unsigned n)
    | none => .error (.notUnsigned s)
  | moment =>
    match Rfc3339.read (trimmed s) with
    | .ok t => .ok (.moment t)
    | .error fault => .error (.notMoment s fault)
  | list _ => .ok (.list (commaItems s))
  | text _ | choice _ | ipv4 | mac => .ok (.text s)

/-- What keeps a value from being one of its kind. -/
def misfit? (k : Kind) (v : Value) : Option Misfit :=
  match k, v with
  | boolean, .boolean _ | moment, .moment _ => none
  | int bottom top, .int i =>
    if bottom ≤ i ∧ i ≤ top then none
    else some (.outside (decimalInt i) (decimalInt bottom) (decimalInt top))
  | unsigned bottom top, .unsigned n =>
    if bottom ≤ n ∧ n ≤ top then none
    else some (.outside (decimal n) (decimal bottom) (decimal top))
  | text (some n), .text s => if n < s.length then some (.tooLong n) else none
  | text none, .text _ => none
  | choice words, .text s => if s ∈ words then none else some (.notAmong s words)
  | ipv4, .text s => if s = "" ∨ (Ipv4.read s).isSome then none else some (.notIpv4 s)
  | mac, .text s => if s = "" ∨ (Mac.read s).isSome then none else some (.notMac s)
  | list (some n), .list items =>
    let length := (commaText items).length
    if n < length then some (.listTooLong items.length length n) else none
  | list none, .list _ => none
  | k, v => some (.wrongType v.describe k.typeName)

/-- Checks a value for the parameter `name`. -/
def check (k : Kind) (name : String) (v : Value) : Except ParameterFault Unit :=
  match k.misfit? v with
  | none => .ok ()
  | some misfit => .error ⟨name, misfit.faultCode, misfit.message⟩

def Accepts (k : Kind) (v : Value) : Prop :=
  k.misfit? v = none

instance (k : Kind) (v : Value) : Decidable (k.Accepts v) :=
  inferInstanceAs (Decidable (_ = _))

theorem check_eq_ok_iff {k : Kind} {name : String} {v : Value} :
    k.check name v = .ok () ↔ k.Accepts v := by
  unfold check Accepts
  cases k.misfit? v <;> simp

end Kind
end Cwmp
