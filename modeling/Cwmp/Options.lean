/-! # Table options -/
namespace Cwmp

/-- What a table is told from outside: how the aliases begin that the device gives to its rows, and
how many rows it may hold. -/
structure Options where
  aliasStart : String := "cpe-"
  maxEntries : Option Nat := none
deriving DecidableEq, Repr, Inhabited

end Cwmp
