import Cwmp.Entity.Codec
import Cwmp.Table.Basic

/-! # Tables in documents

A table is written as its rows under their numbers. A number that occurs again keeps the place of
the first row and the value of the last one.
-/
namespace Cwmp.Table

variable {E : Type} [Entity E]

def encode (t : Table E) : Doc :=
  .table (t.rows.entries.map fun (i, row) => (.index i.number, Codec.encode row))

/-- Reads rows in turn after others. -/
def loadRows (rows : Rows E) : List (Key × Doc) → Except LoadFault (Rows E)
  | [] => .ok rows
  | (.name _, _) :: _ => .error .malformed
  | (.index n, d) :: rest =>
    match InstanceNumber.ofNat? n with
    | none => .error .malformed
    | some i => do
      let row ← Codec.decode d
      loadRows (rows.insert i row) rest

def decode (d : Doc) : Except LoadFault (Table E) :=
  match d.members? with
  | some members => (loadRows .empty members).map (ofRows ·)
  | none => .error .malformed

instance : Codec (Table E) := ⟨encode, decode⟩

end Cwmp.Table
