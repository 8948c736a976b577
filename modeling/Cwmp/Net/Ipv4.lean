import Cwmp.Net.Octets
import Cwmp.Text.CommaList
import Cwmp.Text.Decimal

/-! # IPv4 addresses

Four octets in dotted decimal. Each part has one to three digits, no leading zero and a value of at
most 255.
-/
namespace Cwmp

abbrev Ipv4 := Octets 4

namespace Ipv4

open Text

def part? (s : List Char) : Option UInt8 :=
  if s.length ≤ 3 ∧ (s.head? = some '0' → s.length = 1) then
    ((digits? s).filter (· ≤ 255)).map UInt8.ofNat
  else none

def read (s : String) : Option Ipv4 :=
  ((splitAt '.' s.toList).mapM part?).bind Octets.ofList?

def write (a : Ipv4) : String :=
  joinWith "." (a.bytes.map fun octet => decimal octet.toNat)

end Ipv4
end Cwmp
