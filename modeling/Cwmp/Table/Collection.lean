import Cwmp.Table.Ranking

/-! # Collections

Tables with and without ranks behind one interface, for those who handle any of them. A rank asked
for when a row is created matters to ranked tables only.
-/
namespace Cwmp

/-- A type of tables and what can be done with them. -/
structure Collection where
  State : Type
  Row : Type
  [entity : Entity Row]
  [codec : Codec State]
  empty : State
  table : State → Table Row
  setOptions : State → Options → State
  add : State → Row → Option UInt32 → Except ModelError (InstanceNumber × State)
  remove : State → InstanceNumber → Except ModelError (Row × State)
  removeWhere : State → (Row → Bool) → List (InstanceNumber × Row) × State
  write : State → InstanceNumber → Origin → Updates → Except ModelError State
  update : State → InstanceNumber → (Row → Row) → Except ModelError State
  rankName? : Option String

namespace Collection

instance (c : Collection) : Entity c.Row := c.entity

instance (c : Collection) : Codec c.State := c.codec

/-- The tables whose rows have no ranks. -/
def plain (E : Type) [Entity E] : Collection where
  State := Table E
  Row := E
  empty := .empty
  table t := t
  setOptions := Table.setOptions
  add t row _ := t.add row
  remove := Table.remove
  removeWhere := Table.removeWhere
  write := Table.write
  update := Table.update
  rankName? := none

/-- The tables whose rows are ranked. -/
def ranked (E : Type) [Entity E] [Ranked E] : Collection where
  State := Ranking E
  Row := E
  empty := .empty
  table := Ranking.table
  setOptions := Ranking.setOptions
  add := Ranking.insert
  remove := Ranking.remove
  removeWhere := Ranking.removeWhere
  write := Ranking.write
  update := Ranking.update
  rankName? := some (Ranked.rankName E)

end Collection
end Cwmp
