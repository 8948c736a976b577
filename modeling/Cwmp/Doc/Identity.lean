import Cwmp.Doc.Structure
import Cwmp.InstanceNumber
import Cwmp.Options

/-! # Names, numbers and options in documents -/
namespace Cwmp

/-- An alias on its own: a text without flaw. -/
structure AliasText where
  text : String
  valid : Alias.IsValid text

namespace AliasText

def read (s : String) : Except AliasFault AliasText :=
  match h : Alias.check s with
  | .ok _ => .ok ⟨s, (Alias.check_eq_ok_iff.1 h).1⟩
  | .error fault => .error fault

instance : Codec AliasText where
  encode a := .text a.text
  decode d := d.asText.bind fun s => (read s).mapError .invalidAlias

end AliasText

instance : Codec Mac where
  encode a := .text a.write
  decode d := d.asText.bind fun s => (Mac.read s).elim (.error (.invalidMac s)) .ok

instance : Codec InstanceNumber where
  encode i := .integer i.number
  decode
    | .integer n => Doc.orMalformed (InstanceNumber.ofNat? n.toNat)
    | _ => .error .malformed

namespace Options

/-- A limit on rows: a number of at most 64 bits, or none. -/
def limit? : Option Doc → Option (Option Nat)
  | none | some .null => some none
  | some (.integer n) => if 0 ≤ n then some (some n.toNat) else none
  | some _ => none

instance : Codec Options where
  encode o := .table [
    (.name "alias_prefix", .text o.aliasStart),
    (.name "max_entries", o.maxEntries.elim .null fun n => .integer n)]
  decode d := Doc.orMalformed <|
    match d.structure? ["alias_prefix", "max_entries"] with
    | some [some start, limit] => do
      let aliasStart ← start.textOnly?
      let maxEntries ← limit? limit
      pure { aliasStart, maxEntries }
    | _ => none

end Options
end Cwmp
