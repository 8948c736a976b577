import Cwmp.Net.Octets
import Cwmp.Text.Hex

/-! # MAC addresses

Six octets, written as pairs of lower-case hexadecimal digits with colons between them. When read,
colons and dashes may stand anywhere; what counts is that twelve digits are left without them.
-/
namespace Cwmp

abbrev Mac := Octets 6

namespace Mac

open Text

/-- The digits of a written address: all but colons and dashes. -/
def digits (s : String) : List Char :=
  s.toList.filter fun c => c ≠ ':' ∧ c ≠ '-'

def read (s : String) : Option Mac :=
  (hexPairs? (digits s)).bind Octets.ofList?

/-- Pairs of digits with colons between them. -/
def pairs : List UInt8 → List Char
  | [] => []
  | [octet] => hexPair octet
  | octet :: rest => hexPair octet ++ ':' :: pairs rest

def write (a : Mac) : String :=
  String.ofList (pairs a.bytes)

/-- What is said of a text that is no address. -/
def invalidMessage (s : String) : String :=
  "invalid MAC address '" ++ s ++ "'"

end Mac
end Cwmp
