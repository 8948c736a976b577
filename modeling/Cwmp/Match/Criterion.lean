import Cwmp.Net.Ipv4
import Cwmp.Net.Mac

/-! # Match criteria

A row that picks out packets or requests does so by criteria. A criterion that has no value leaves
every candidate in; otherwise it holds of the candidates with that value, or, when its exclude flag
is set, of all others. What a candidate lacks has no value at all.
-/
namespace Cwmp

/-- A test for a part of a candidate, if there is one, and whether those that pass are excluded. -/
structure Criterion (C : Type) where
  test? : Option (C → Bool)
  exclude : Bool

namespace Criterion

variable {C : Type}

/-- A criterion without a value leaves all in. -/
def isActive (c : Criterion C) : Bool :=
  c.test?.isSome

/-- Whether a candidate is left in. -/
def holds (c : Criterion C) (candidate : Option C) : Bool :=
  match c.test? with
  | none => true
  | some test => candidate.any test != c.exclude

/-- A text to be seen, compared in a way of its own. The empty text is no value. -/
def textBy (compare : String → String → Bool) (value : String) (exclude : Bool) :
    Criterion String where
  test? := if value = "" then none else some (compare value)
  exclude := exclude

/-- A text to be seen. The empty text is no value. -/
def text (value : String) (exclude : Bool) : Criterion String :=
  textBy (fun configured seen => configured == seen) value exclude

/-- A number to be seen. `-1` is no value. -/
def numeric (value : Int) (exclude : Bool) : Criterion Int where
  test? := if value = -1 then none else some (value == ·)
  exclude := exclude

/-- An address to be seen under a mask. Without a mask every bit counts. -/
def masked {n : Nat} (value mask : Option (Octets n)) (exclude : Bool) : Criterion (Octets n) where
  test? := value.map fun configured seen => Octets.agree (mask.getD .full) configured seen
  exclude := exclude

/-- A port from `port` to `rangeMax`, or `port` alone where `rangeMax` is `-1`. A port of `-1` is no
value. -/
def port (port rangeMax : Int) (exclude : Bool) : Criterion Int where
  test? :=
    if port = -1 then none
    else some fun seen => port ≤ seen && seen ≤ if rangeMax = -1 then port else rangeMax
  exclude := exclude

/-- Without a value the flag does not matter. -/
theorem holds_of_not_active {c : Criterion C} (h : c.isActive = false) (candidate : Option C) :
    c.holds candidate = true := by
  obtain ⟨test?, exclude⟩ := c
  cases test? with
  | none => rfl
  | some test => simp [isActive] at h

end Criterion

/-- What of a packet rules look at. -/
structure Packet where
  /-- The path of the interface on which it came. -/
  sourceInterface : Option String
  sourceIp : Ipv4
  destIp : Ipv4
  protocol : UInt8
  sourcePort : Option UInt16
  destPort : Option UInt16
  dscp : UInt8

/-- What of a request for an address pools look at. -/
structure DhcpRequest where
  /-- The path of the interface on which it came. -/
  interface : String
  vendorClassId : Option String
  clientId : Option String
  userClassId : Option String
  chaddr : Mac

end Cwmp
