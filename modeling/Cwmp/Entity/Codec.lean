import Cwmp.Entity.Basic

/-! # Entities in documents

An object is written as a structure with a member for each parameter and each child table. When it
is read, members that are missing keep the value of the object as created, unknown ones are stepped
over and a known one must not occur twice. The members may also be given without names, in their
order and without the last ones.
-/
namespace Cwmp.Entity

variable {E : Type} [Entity E]

/-- Replaces the member `name` of an object; nothing if it has no such member. -/
def load? (e : E) (name : String) (d : Doc) : Option (Except LoadFault E) :=
  let (r, c) := parts e
  match r.load? name d with
  | some loaded => some (loaded.map fun r => ofParts (r, c))
  | none => (c.load? name d).map fun loaded => loaded.map fun c => ofParts (r, c)

variable (E) in
def memberNames : List String :=
  (fields E).map (·.name) ++ (children E).map (·.name)

/-- Reads named members in turn; those called `seen` have been read. -/
def loadMembers (seen : List String) (e : E) : List (Key × Doc) → Except LoadFault E
  | [] => .ok e
  | (.index _, d) :: rest => do
    d.skip
    loadMembers seen e rest
  | (.name s, d) :: rest =>
    match load? e s d with
    | none => do
      d.skip
      loadMembers seen e rest
    | some loaded =>
      if s ∈ seen then .error .malformed
      else do
        let e ← loaded
        loadMembers (s :: seen) e rest

/-- Reads members without names, the names to come being given. -/
def loadItems (e : E) : (names : List String) → List Doc → Except LoadFault E
  | _, [] => .ok e
  | [], _ :: _ => .error .malformed
  | name :: names, d :: rest =>
    match load? e name d with
    | none => .error .malformed
    | some loaded => do
      let e ← loaded
      loadItems e names rest

def encode (e : E) : Doc :=
  let (r, c) := parts e
  .table (r.encode ++ c.encode)

def decode (d : Doc) : Except LoadFault E :=
  match d.members? with
  | some members => loadMembers [] initial members
  | none =>
    match d with
    | .list items => loadItems initial (memberNames E) items
    | _ => .error .malformed

instance : Codec E := ⟨encode, decode⟩

end Cwmp.Entity
