import Cwmp.Proofs.Entity.Loads

/-! # Tables inside objects

An object may hold tables whose rows hold tables in turn. What is asked of a type of tables is asked
of the list of all tables of an object, one after the other.
-/
namespace Cwmp

/-- A type of tables that objects hold. Documents keep the rows of a table; what is kept beside
them, such as the next number, is made anew. -/
class Nested (T : Type) [Codec T] [BEq T] where
  /-- The table has no rows. -/
  IsEmpty : T → Prop
  /-- All of the table is kept in documents. -/
  Tidy : T → Prop
  /-- What a document gives back of the table. -/
  reloaded : T → T
  beq_iff_isEmpty : ∀ {s t}, IsEmpty s → ((s == t) = true ↔ IsEmpty t)
  decode_encode : ∀ {t}, Tidy t → Codec.decode (Codec.encode t) = .ok (reloaded t)
  beq_of_reloaded_eq : ∀ {s t}, reloaded s = reloaded t → (s == t) = true
  reloaded_reloaded : ∀ t, reloaded (reloaded t) = reloaded t

class NestedAll (children : List ChildTable) where
  AllEmpty : Children children → Prop
  AllTidy : Children children → Prop
  /-- Every table of the one object equals that of the other. -/
  AllBEq : Children children → Children children → Prop
  reloaded : Children children → Children children
  allBEq_iff_allEmpty : ∀ {s t}, AllEmpty s → (AllBEq s t ↔ AllEmpty t)
  loads_encode : ∀ {s t}, (children.map (·.name)).Nodup → AllTidy t →
    Loads (fun t name d => Children.load? name d children t) s (Children.encode children t)
      (reloaded t)
  allBEq_of_reloaded_eq : ∀ {s t}, reloaded s = reloaded t → AllBEq s t
  reloaded_reloaded : ∀ t, reloaded (reloaded t) = reloaded t

namespace Children

theorem keys_encode : ∀ {children : List ChildTable} (t : Children children),
    (encode children t).map Prod.fst = (children.map (·.name)).map Key.name
  | [], _ => rfl
  | _ :: _, (_, t) => congrArg (_ :: ·) (keys_encode t)

end Children

instance : NestedAll [] where
  AllEmpty _ := True
  AllTidy _ := True
  AllBEq _ _ := True
  reloaded t := t
  allBEq_iff_allEmpty _ := Iff.rfl
  loads_encode _ _ := .nil
  allBEq_of_reloaded_eq _ := trivial
  reloaded_reloaded _ := rfl

instance {T : Type} [Codec T] [BEq T] [Nested T] {name : String} {children : List ChildTable}
    [NestedAll children] : NestedAll (⟨name, T⟩ :: children) where
  AllEmpty := fun (t, rest) => Nested.IsEmpty t ∧ NestedAll.AllEmpty rest
  AllTidy := fun (t, rest) => Nested.Tidy t ∧ NestedAll.AllTidy rest
  AllBEq := fun (s, rest) (t, rest') => (s == t) = true ∧ NestedAll.AllBEq rest rest'
  reloaded := fun (t, rest) => (Nested.reloaded t, NestedAll.reloaded rest)
  allBEq_iff_allEmpty := by
    rintro ⟨s, rest⟩ ⟨t, rest'⟩ ⟨hs, hrest⟩
    exact and_congr (Nested.beq_iff_isEmpty hs) (NestedAll.allBEq_iff_allEmpty hrest)
  loads_encode := by
    rintro ⟨s, rest⟩ ⟨t, rest'⟩ hnodup ⟨ht, hrest⟩
    rw [List.map_cons, List.nodup_cons] at hnodup
    have hload := NestedAll.loads_encode (s := rest) hnodup.2 hrest
    refine .cons ?_ (hload.lift (fun rest => (Nested.reloaded t, rest)) ?_)
    · simp only [Children.load?, ↓reduceIte, Nested.decode_encode ht, Except.map]
    · intro held other d held' hmem hload
      have hne : name ≠ other := fun heq =>
        hnodup.1 (heq ▸ name_mem_of_mem (Children.keys_encode rest') hmem)
      simp only [Children.load?, hne, ↓reduceIte, hload, Option.map_some, Except.map]
      rfl
  allBEq_of_reloaded_eq := by
    rintro ⟨s, rest⟩ ⟨t, rest'⟩ h
    obtain ⟨ht, hrest⟩ := Prod.mk.inj h
    exact ⟨Nested.beq_of_reloaded_eq ht, NestedAll.allBEq_of_reloaded_eq hrest⟩
  reloaded_reloaded := fun (t, rest) =>
    Prod.ext (Nested.reloaded_reloaded t) (NestedAll.reloaded_reloaded rest)

end Cwmp
