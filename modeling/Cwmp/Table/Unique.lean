import Cwmp.Table.Basic

/-! # Rules between rows

An alias has to be well formed and to belong to one row, and no two enabled rows may agree on all
parameters of a unique key. The rules are applied in two ways: as an error about a row that the
device changed, and as faults that blame parameters of a request.
-/
namespace Cwmp.Table

variable {E : Type} [Entity E]

/-- Whether one of `others` has the alias `s`. -/
def aliasTaken (others : List E) (s : String) : Bool :=
  others.any fun other => Entity.alias? other == some s

/-- Whether an enabled row agrees with another one of `others` on all parameters of a key. -/
def clashes (others : List E) (row : E) (key : List String) : Bool :=
  Entity.isEnabled row && others.any fun other =>
    Entity.isEnabled other && key.all fun p => Entity.get? row p == Entity.get? other p

/-- The error of a row beside `others`, if there is one. -/
def rowError? (others : List E) (row : E) : Option ModelError :=
  let key? := (Entity.uniqueKeys E).find? (clashes others row)
  let clash? := key?.map (.uniqueConstraint (Entity.pathText E))
  match Entity.alias? row with
  | none => clash?
  | some s =>
    match Alias.check s with
    | .error fault => some (.invalidAlias fault)
    | .ok _ => if aliasTaken others s then some (.duplicateAlias (Entity.pathText E) s) else clash?

/-- The fault of an alias beside `others`. -/
def aliasFaults (others : List E) (row : E) : List ParameterFault :=
  match Entity.alias? row with
  | none => []
  | some s =>
    match Alias.check s with
    | .error fault => [⟨Entity.aliasName, .invalidParameterValue, fault.message⟩]
    | .ok _ =>
      if aliasTaken others s then
        [⟨Entity.aliasName, .invalidParameterValue, "alias '" ++ s ++ "' is already in use"⟩]
      else []

/-- The faults of a key on which a row clashes with one of `others`: those of its parameters that
were `requested`, or of all of them if none was. -/
def keyFaults (others : List E) (row : E) (requested : List String) (key : List String) :
    List ParameterFault :=
  if clashes others row key then
    let touched := key.filter requested.contains
    (if touched = [] then key else touched).map fun p =>
      ⟨p, .invalidParameterValue,
        "(" ++ Text.joinWith ", " key ++ ") must be unique in the table"⟩
  else []

/-- The faults of a row beside `others`. -/
def rowFaults (others : List E) (row : E) (requested : List String) : List ParameterFault :=
  aliasFaults others row ++ (Entity.uniqueKeys E).flatMap (keyFaults others row requested)

/-- The rows of a table that break a rule, with their faults. -/
def violations (t : Table E) : List (InstanceNumber × List ParameterFault) :=
  t.rows.entries.filterMap fun (i, row) =>
    let faults := rowFaults (t.rows.others (some i)) row []
    if faults = [] then none else some (i, faults)

end Cwmp.Table
