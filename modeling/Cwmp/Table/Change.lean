import Cwmp.Entity.Write
import Cwmp.Table.Unique

/-! # Changing tables

Creating, deleting and writing rows. A change is refused as a whole or leads to a table in which the
changed row obeys all rules.
-/
namespace Cwmp.Table

variable {E : Type} [Entity E]

/-- The aliases that the device tries for a row, in this order: one made of the row number, then the
same with counts appended. -/
def deviceAlias (aliasStart : String) (i : InstanceNumber) : Nat → String
  | 0 => aliasStart ++ i.text
  | k + 1 => aliasStart ++ i.text ++ "-" ++ Text.decimal (k + 1)

/-- The first alias from the `k`th on that none of `others` has. Each of `tries` rows can take one
alias only, so the last one tried is free. -/
def freeAlias (aliasStart : String) (i : InstanceNumber) (others : List E) (k : Nat) :
    (tries : Nat) → Except AliasFault String
  | 0 => Alias.check (deviceAlias aliasStart i k)
  | tries + 1 =>
    match Alias.check (deviceAlias aliasStart i k) with
    | .error fault => .error fault
    | .ok s =>
      if aliasTaken others s then freeAlias aliasStart i others (k + 1) tries else .ok s

/-- A row with the alias that the device gives it, if it has an empty one. -/
def named (t : Table E) (i : InstanceNumber) (row : E) : Except AliasFault E :=
  if Entity.alias? row = some "" then
    (freeAlias t.options.aliasStart i (t.rows.others none) 0 t.rows.size).map
      (Entity.withAlias row)
  else .ok row

/-- An index to which a row is added. -/
def indexRow (x : AliasIndex) (i : InstanceNumber) (row : E) : AliasIndex :=
  match Entity.alias? row with
  | some s => x.insert s i
  | none => x

/-- An index from which the row `i` is taken that had the alias `s`. Another row with the alias
takes its place. -/
def unindex (x : AliasIndex) (rows : Rows E) (i : InstanceNumber) (s : String) : AliasIndex :=
  if x.get? s = some i then
    match rows.entries.find? fun (j, other) => j != i && Entity.alias? other == some s with
    | some (j, _) => x.insert s j
    | none => x.erase s
  else x

/-- An index from which a row is taken. -/
def unindexRow (x : AliasIndex) (rows : Rows E) (i : InstanceNumber) (row : E) : AliasIndex :=
  match Entity.alias? row with
  | some s => unindex x rows i s
  | none => x

/-- Whether a table has reached its limit. -/
def fullError? (t : Table E) : Option ModelError :=
  match t.options.maxEntries with
  | some n => if n ≤ t.rows.size then some (.tableFull (Entity.pathText E) n) else none
  | none => none

def add (t : Table E) (row : E) : Except ModelError (InstanceNumber × Table E) :=
  match t.fullError? with
  | some error => .error error
  | none =>
    let i := t.next
    match t.named i row with
    | .error fault => .error (.invalidAlias fault)
    | .ok row =>
      match Entity.validate row with
      | [] =>
        match rowError? (t.rows.others none) row with
        | some error => .error error
        | none =>
          .ok (i, { t with
            rows := t.rows.insert i row
            aliases := indexRow t.aliases i row
            next := i.next })
      | faults => .error (.setParameterValues { faults := faults })

/-- A table without the row `i`, which it has. -/
def drop (t : Table E) (i : InstanceNumber) (row : E) : Table E :=
  { t with rows := t.rows.erase i, aliases := unindexRow t.aliases t.rows i row }

def remove (t : Table E) (i : InstanceNumber) : Except ModelError (E × Table E) :=
  (t.row i).map fun row => (row, t.drop i row)

/-- Deletes all rows of which `p` holds, one after the other. -/
def removeWhere (t : Table E) (p : E → Bool) : List (InstanceNumber × E) × Table E :=
  let doomed := t.rows.entries.filter fun (_, row) => p row
  (doomed, doomed.foldl (fun t (i, row) => t.drop i row) t)

/-- Deletes the rows that have expired. -/
def purge [Expiring E] (t : Table E) (now : Instant) : List (InstanceNumber × E) × Table E :=
  t.removeWhere fun row => Expiring.isExpired row now

/-- Puts another row into the place of the row `i`, which is `old`. -/
def commit (t : Table E) (i : InstanceNumber) (old row : E) : Table E :=
  let aliases :=
    if Entity.alias? old = Entity.alias? row then t.aliases
    else indexRow (unindexRow t.aliases t.rows i old) i row
  { t with rows := t.rows.replace i row, aliases := aliases }

/-- The faults of a request to the row `i`, named from the table. -/
def faultsOf (i : InstanceNumber) (fault : SetFault) : ModelError :=
  .setParameterValues (fault.under (i.text ++ "."))

def write (t : Table E) (i : InstanceNumber) (origin : Origin) (updates : Updates) :
    Except ModelError (Table E) :=
  match t.row i with
  | .error error => .error error
  | .ok old =>
    match Entity.write origin updates old with
    | .error fault => .error (faultsOf i fault)
    | .ok row =>
      match rowFaults (t.rows.others (some i)) row (updates.map Prod.fst) with
      | [] => .ok (t.commit i old row)
      | faults => .error (faultsOf i { faults := faults })

/-- Lets the device change a row by a function. -/
def update (t : Table E) (i : InstanceNumber) (f : E → E) : Except ModelError (Table E) :=
  match t.row i with
  | .error error => .error error
  | .ok old =>
    let row := f old
    match Entity.validate row with
    | [] =>
      match rowError? (t.rows.others (some i)) row with
      | some error => .error error
      | none => .ok (t.commit i old row)
    | faults => .error (faultsOf i { faults := faults })

end Cwmp.Table
