import Cwmp.InstanceNumber

/-! # Rows

Rows in the order in which they came, each with a number of its own.
-/
namespace Cwmp

/-- A list of numbered rows in which no number occurs twice. -/
structure Rows (E : Type) where
  entries : List (InstanceNumber × E)
  nodup : (entries.map Prod.fst).Nodup

namespace Rows

variable {E : Type}

def empty : Rows E where
  entries := []
  nodup := List.nodup_nil

instance : Inhabited (Rows E) := ⟨empty⟩

def instances (r : Rows E) : List InstanceNumber :=
  r.entries.map Prod.fst

def size (r : Rows E) : Nat :=
  r.entries.length

def get? (r : Rows E) (i : InstanceNumber) : Option E :=
  (r.entries.find? fun p => p.1 == i).map Prod.snd

/-- Every row passed through a function that may look at its number. -/
def map (r : Rows E) (f : InstanceNumber → E → E) : Rows E where
  entries := r.entries.map fun p => (p.1, f p.1 p.2)
  nodup := by simpa [List.map_map, Function.comp_def] using r.nodup

/-- Another row under a number that is in use. -/
def replace (r : Rows E) (i : InstanceNumber) (row : E) : Rows E :=
  r.map fun j old => if j = i then row else old

/-- A row under a number: in the place of the row that has the number, or else at the end. -/
def insert (r : Rows E) (i : InstanceNumber) (row : E) : Rows E :=
  if h : i ∈ r.instances then r.replace i row
  else
    { entries := r.entries ++ [(i, row)]
      nodup := by
        rw [List.map_append, List.nodup_append]
        refine ⟨r.nodup, by simp, ?_⟩
        intro a ha b hb
        simp only [List.map_cons, List.map_nil, List.mem_singleton] at hb
        subst hb
        exact fun hab => h (hab ▸ ha) }

/-- All rows but the one with a number. -/
def erase (r : Rows E) (i : InstanceNumber) : Rows E where
  entries := r.entries.filter fun p => p.1 != i
  nodup := (List.filter_sublist.map Prod.fst).nodup r.nodup

/-- The rows that are left when the one numbered `i` is not looked at. -/
def others (r : Rows E) (i : Option InstanceNumber) : List E :=
  (r.entries.filter fun p => some p.1 != i).map Prod.snd

/-- Rows are alike when they have the same numbers with equal rows, in whatever order. -/
def alike [BEq E] (a b : Rows E) : Bool :=
  a.size == b.size && a.entries.all fun p => (b.get? p.1).any (p.2 == ·)

@[simp] theorem instances_map (r : Rows E) (f : InstanceNumber → E → E) :
    (r.map f).instances = r.instances := by
  simp [instances, map, Function.comp_def]

@[simp] theorem instances_replace (r : Rows E) (i : InstanceNumber) (row : E) :
    (r.replace i row).instances = r.instances := by
  simp [replace]

theorem instances_erase (r : Rows E) (i : InstanceNumber) :
    (r.erase i).instances = r.instances.filter (· != i) := by
  simp [instances, erase, List.filter_map, Function.comp_def]

end Rows
end Cwmp
