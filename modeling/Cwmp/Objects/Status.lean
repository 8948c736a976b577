import Cwmp.Schema.Vocabulary

/-! # Words shared by objects

The operational status of a row that can be enabled, and the ways to compare a vendor class.
-/
namespace Cwmp

inductive Status
  | disabled
  | enabled
  /-- Enabled, but what is configured cannot be applied. -/
  | errorMisconfigured
  | error
deriving DecidableEq, Repr

instance : Vocabulary Status where
  label := "Status"
  all := [.disabled, .enabled, .errorMisconfigured, .error]
  word
    | .disabled => "Disabled"
    | .enabled => "Enabled"
    | .errorMisconfigured => "Error_Misconfigured"
    | .error => "Error"
  mem_all a := by cases a <;> decide
  word_injective {a b} h := by revert h; cases a <;> cases b <;> decide

/-- How a configured vendor class is compared with the one that a client sent. -/
inductive VendorMode
  | exact
  | leading
  | trailing
  | within
deriving DecidableEq, Repr

instance : Vocabulary VendorMode where
  label := "VendorClassIdMode"
  all := [.exact, .leading, .trailing, .within]
  word
    | .exact => "Exact"
    | .leading => "Prefix"
    | .trailing => "Suffix"
    | .within => "Substring"
  mem_all a := by cases a <;> decide
  word_injective {a b} h := by revert h; cases a <;> cases b <;> decide

/-- Whether `needle` begins in some place of `s`. -/
def containsText (needle : List Char) : List Char → Bool
  | [] => needle.isPrefixOf []
  | c :: s => needle.isPrefixOf (c :: s) || containsText needle s

/-- Compares a configured vendor class with the one seen. -/
def VendorMode.holds (mode : VendorMode) (configured seen : String) : Bool :=
  match mode with
  | .exact => seen == configured
  | .leading => configured.toList.isPrefixOf seen.toList
  | .trailing => configured.toList.isSuffixOf seen.toList
  | .within => containsText configured.toList seen.toList

end Cwmp
