import Cwmp.Table.Change
import Cwmp.Table.Codec

/-! # Rankings

A table whose rows carry ranks 1, 2, … without gaps and are asked in this order. After every change
the ranks are settled: a row that was given a rank in use pushes the rows from that rank on one
further, and then all rows are numbered anew in the order of their ranks. Rows of equal rank, which
only a loaded table has, keep the order of the table.
-/
namespace Cwmp

/-- A table of ranked rows. -/
structure Ranking (E : Type) where
  table : Table E

namespace Ranking

variable {E : Type}

def empty (options : Options := {}) : Ranking E where
  table := .empty options

instance : Inhabited (Ranking E) := ⟨empty⟩

instance [BEq E] : BEq (Ranking E) :=
  ⟨fun a b => a.table == b.table⟩

def setOptions (t : Ranking E) (options : Options) : Ranking E where
  table := t.table.setOptions options

variable [Entity E] [Ranked E]

/-- The rank after `n`; the largest one has none after it. -/
def rankAfter (n : UInt32) : UInt32 :=
  if n.toNat < Text.uint32Max then n + 1 else n

/-- Numbered rows in the order of their ranks. -/
def sorted (rows : Rows E) : List (InstanceNumber × E) :=
  rows.entries.mergeSort fun a b => Ranked.rank a.2 ≤ Ranked.rank b.2

/-- The rows in the order in which they are asked. -/
def byRank (t : Ranking E) : List (InstanceNumber × E) :=
  sorted t.table.rows

/-- The rows numbered 1, 2, … in the order of their ranks. -/
def compact (rows : Rows E) : Rows E :=
  let order := (sorted rows).map Prod.fst
  rows.map fun i row => Ranked.withRank row (UInt32.ofNat (order.idxOf i + 1))

/-- If another row has the rank of the row `i`, all rows from that rank on move one further. -/
def makeRoom (rows : Rows E) (i : InstanceNumber) : Rows E :=
  match rows.get? i with
  | none => rows
  | some moved =>
    let rank := Ranked.rank moved
    if rows.entries.any fun (j, row) => j != i && Ranked.rank row == rank then
      rows.map fun j row =>
        if j ≠ i ∧ rank ≤ Ranked.rank row then
          Ranked.withRank row (rankAfter (Ranked.rank row))
        else row
    else rows

/-- A ranking of a table in which the row `moved`, if there is one, has got a new rank. -/
def settle (t : Table E) (moved : Option InstanceNumber) : Ranking E where
  table :=
    { t with
      rows := compact (match moved with
        | some i => makeRoom t.rows i
        | none => t.rows) }

/-- The largest rank, `0` in a table without rows. -/
def maxRank (t : Ranking E) : UInt32 :=
  t.table.rows.entries.foldl (fun n (_, row) => max n (Ranked.rank row)) 0

variable (E) in
def rankError (rank : UInt32) : ModelError :=
  .invalidOrder (Ranked.rankName E) rank.toNat

/-- Creates a row with a rank, or after all others. -/
def insert (t : Ranking E) (row : E) (requested : Option UInt32) :
    Except ModelError (InstanceNumber × Ranking E) :=
  if requested = some 0 then .error (rankError E 0)
  else
    let rank := requested.getD (rankAfter t.maxRank)
    (t.table.add (Ranked.withRank row rank)).map fun (i, table) => (i, settle table (some i))

def remove (t : Ranking E) (i : InstanceNumber) : Except ModelError (E × Ranking E) :=
  (t.table.remove i).map fun (row, table) => (row, settle table none)

def reorder (t : Ranking E) (i : InstanceNumber) (rank : UInt32) :
    Except ModelError (Ranking E) :=
  if rank = 0 then .error (rankError E 0)
  else (t.table.row i).map fun row =>
    settle { t.table with rows := t.table.rows.replace i (Ranked.withRank row rank) } (some i)

/-- Writes parameters of a row. A row whose rank is among them moves. -/
def write (t : Ranking E) (i : InstanceNumber) (origin : Origin) (updates : Updates) :
    Except ModelError (Ranking E) :=
  (t.table.write i origin updates).map fun table =>
    settle table (if updates.any fun u => u.1 == Ranked.rankName E then some i else none)

/-- Lets the device change a row by a function. A row whose rank has changed moves. -/
def update (t : Ranking E) (i : InstanceNumber) (f : E → E) : Except ModelError (Ranking E) :=
  (t.table.update i f).map fun table =>
    let moved := (t.table.get? i).map Ranked.rank != (table.get? i).map Ranked.rank
    settle table (if moved then some i else none)

/-- What is left after rows have been deleted, settled if there were any. -/
def afterRemoval (t : Ranking E) :
    List (InstanceNumber × E) × Table E → List (InstanceNumber × E) × Ranking E
  | ([], _) => ([], t)
  | (removed, table) => (removed, settle table none)

/-- Deletes all rows of which `p` holds. -/
def removeWhere (t : Ranking E) (p : E → Bool) : List (InstanceNumber × E) × Ranking E :=
  t.afterRemoval (t.table.removeWhere p)

/-- Deletes the rows that have expired. -/
def purge [Expiring E] (t : Ranking E) (now : Instant) :
    List (InstanceNumber × E) × Ranking E :=
  t.afterRemoval (t.table.purge now)

/-- The first row, in the order of ranks, of which `p` holds. -/
def first? (t : Ranking E) (p : E → Bool) : Option (InstanceNumber × E) :=
  t.byRank.find? fun (_, row) => p row

/-- The first row, in the order of ranks, that applies to a candidate. -/
def classify? {Candidate : Type} [Classifier E Candidate] (t : Ranking E) (c : Candidate) :
    Option (InstanceNumber × E) :=
  t.first? fun row => Classifier.applies row c

def encode (t : Ranking E) : Doc :=
  t.table.encode

/-- Reads a table, whose rows are then ranked without gaps. -/
def decode (d : Doc) : Except LoadFault (Ranking E) :=
  (Table.decode d).map fun table => settle table none

instance : Codec (Ranking E) := ⟨encode, decode⟩

end Ranking
end Cwmp
