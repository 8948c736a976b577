import Cwmp.Entity.Codec
import Cwmp.Proofs.Answers
import Cwmp.Proofs.Entity.FieldFaults
import Cwmp.Proofs.Entity.Regular
import Cwmp.Proofs.Json.RoundTrip

/-! # What documents keep of objects

Lists are always read from their texts, be it by a request or from a document, and what is stored is
what was read. So the objects that are loaded, and those that requests make of them, are kept by
documents as they are. All of their documents can be written in JSON.
-/
namespace Cwmp

theorem Kind.tidy_of_read {k : Kind} {s : String} {v : Value} (h : k.read s = .ok v) : v.Tidy := by
  cases k with
  | list n =>
    cases h
    exact fun _ => Text.isItem_of_mem_commaItems
  | boolean =>
    simp only [read] at h
    split_ifs at h <;> cases h <;> trivial
  | int =>
    simp only [read] at h
    split at h <;> cases h
    trivial
  | unsigned =>
    simp only [read] at h
    split at h <;> cases h
    trivial
  | moment =>
    simp only [read] at h
    split at h <;> cases h
    trivial
  | text | choice | ipv4 | mac =>
    cases h
    trivial

namespace Shape

theorem tidy_of_store {s : Shape} {v : Value} {a : s.Carrier} (hv : v.Tidy)
    (h : s.store v = .ok a) : (s.value a).Tidy := by
  cases s with
  | list n =>
    cases v with
    | list items =>
      cases h
      exact hv
    | text t =>
      cases h
      exact fun _ => Text.isItem_of_mem_commaItems
    | _ => cases h
  | _ => trivial

theorem tidy_of_decode {s : Shape} {d : Doc} {a : s.Carrier} (h : s.decode d = .ok a) :
    (s.value a).Tidy := by
  cases s with
  | list n =>
    simp only [decode] at h
    cases htext : d.asText with
    | error fault =>
      rw [htext] at h
      cases h
    | ok t =>
      rw [htext] at h
      cases h
      exact fun _ => Text.isItem_of_mem_commaItems
  | _ => trivial

end Shape

/-- Of the values of a record, only that of the member `name` is another one after it was loaded. -/
theorem Record.mem_values_load? {name : String} {d : Doc} {w : Value} {g : Field} :
    ∀ {fields : List Field} {r r' : Record fields}, load? name d fields r = some (.ok r') →
      (g, w) ∈ values fields r' → (g, w) ∈ values fields r ∨
        ∃ a, g.shape.decode d = .ok a ∧ g.shape.value a = w
  | [], _, _, h, _ => by cases h
  | f :: fields, (a, r), r', h, hmem => by
    simp only [load?] at h
    split_ifs at h with hf
    · cases hd : f.shape.decode d with
      | error fault => simp [hd, Except.map] at h
      | ok b =>
        simp only [hd, Except.map, Option.some.injEq] at h
        obtain rfl := Except.ok.inj h
        rcases List.mem_cons.1 hmem with heq | hmem
        · cases heq
          exact .inr ⟨b, hd, rfl⟩
        · exact .inl (List.mem_cons_of_mem _ hmem)
    · cases hl : load? name d fields r with
      | none => simp [hl] at h
      | some loaded =>
        cases loaded with
        | error fault => simp [hl, Except.map] at h
        | ok r₁ =>
          simp only [hl, Except.map, Option.map_some, Option.some.injEq] at h
          obtain rfl := Except.ok.inj h
          rcases List.mem_cons.1 hmem with heq | hmem
          · exact .inl (heq ▸ List.mem_cons_self)
          · rcases mem_values_load? hl hmem with hold | hnew
            · exact .inl (List.mem_cons_of_mem _ hold)
            · exact .inr hnew

open Json (Holds HoldsMembers holdsMembers_iff)

theorem Shape.holds_encode (s : Shape) (a : s.Carrier) : Holds (s.encode a) := by
  cases s with
  | int =>
    have hle := Int32.le_toInt a
    have hlt := Int32.toInt_lt a
    simp only [encode, Holds, Text.int64Min, Text.uint64Max]
    omega
  | unsigned =>
    have hlt := UInt32.toNat_lt a
    simp only [encode, Holds, Text.int64Min, Text.uint64Max]
    omega
  | _ => trivial

theorem Record.holds_encode : ∀ {fields : List Field},
    (∀ f ∈ fields, Json.keyOf f.name = .name f.name) → ∀ r : Record fields,
      HoldsMembers (encode fields r)
  | [], _, _ => trivial
  | f :: _, hnames, (a, r) =>
    ⟨hnames f List.mem_cons_self, f.shape.holds_encode a,
      holds_encode (fun g hg => hnames g (List.mem_cons_of_mem _ hg)) r⟩

/-- A type of tables of which documents keep all that they load. -/
class Kept (T : Type) [Codec T] [BEq T] [Nested T] : Prop where
  tidy_of_isEmpty : ∀ {t : T}, Nested.IsEmpty t → Nested.Tidy t
  tidy_of_decode : ∀ {d : Doc} {t : T}, Codec.decode d = .ok t → Nested.Tidy t
  holds_encode : ∀ t : T, Holds (Codec.encode t)

class KeptAll (children : List ChildTable) [NestedAll children] : Prop where
  tidy_of_allEmpty : ∀ {t : Children children}, NestedAll.AllEmpty t → NestedAll.AllTidy t
  tidy_of_load : ∀ {name : String} {d : Doc} {s t : Children children}, NestedAll.AllTidy s →
    Children.load? name d children s = some (.ok t) → NestedAll.AllTidy t
  allHold_encode : (∀ c ∈ children, Json.keyOf c.name = .name c.name) →
    ∀ t : Children children, HoldsMembers (Children.encode children t)

instance : KeptAll [] where
  tidy_of_allEmpty _ := trivial
  tidy_of_load _ _ := trivial
  allHold_encode _ _ := trivial

instance {T : Type} [Codec T] [BEq T] [Nested T] [Kept T] {name : String}
    {children : List ChildTable} [NestedAll children] [KeptAll children] :
    KeptAll (⟨name, T⟩ :: children) where
  tidy_of_allEmpty := by
    rintro ⟨t, rest⟩ ⟨ht, hrest⟩
    exact ⟨Kept.tidy_of_isEmpty ht, KeptAll.tidy_of_allEmpty hrest⟩
  tidy_of_load := by
    rintro other d ⟨s, rest⟩ ⟨t, rest'⟩ ⟨hs, hrest⟩ h
    simp only [Children.load?] at h
    split_ifs at h with hname
    · obtain ⟨u, hu, heq⟩ := map_eq_ok_iff.1 (Option.some.inj h)
      cases heq
      exact ⟨Kept.tidy_of_decode hu, hrest⟩
    · obtain ⟨loaded, hload, hmap⟩ := Option.map_eq_some_iff.1 h
      obtain ⟨u, rfl, heq⟩ := map_eq_ok_iff.1 hmap
      cases heq
      exact ⟨hs, KeptAll.tidy_of_load hrest hload⟩
  allHold_encode := by
    rintro hnames ⟨t, rest⟩
    exact ⟨hnames _ List.mem_cons_self, Kept.holds_encode t,
      KeptAll.allHold_encode (fun c hc => hnames c (List.mem_cons_of_mem _ hc)) rest⟩

/-- An object of which documents keep all that they load. No name of a member is a number. -/
class Keepable (E : Type) [Entity E] [BEq E] [Regular E] : Prop
    extends KeptAll (Entity.children E) where
  initial_values_tidy : ∀ f v, (f, v) ∈ Entity.values (Entity.initial : E) → v.Tidy
  keyOf_memberName : ∀ name ∈ Entity.memberNames E, Json.keyOf name = .name name := by decide

namespace Entity

variable {E : Type} [Entity E] [BEq E] [Regular E] {e e' : E}

theorem Tidy.put (h : Tidy e) {name : String} {v : Value} (hv : v.Tidy)
    (hput : put e name v = .ok e') : Tidy e' := by
  obtain ⟨r, hr, rfl⟩ := put_eq_ok_iff.1 hput
  refine ⟨fun f w hmem => ?_, ?_⟩
  · rw [values, record_withRecord] at hmem
    rcases Record.mem_values_put hr hmem with hold | ⟨-, a, hstore, rfl⟩
    · exact h.1 f w hold
    · exact Shape.tidy_of_store hv hstore
  · rw [children_withRecord]
    exact h.2

theorem Tidy.withAlias (h : Tidy e) (s : String) : Tidy (withAlias e s) := by
  unfold Entity.withAlias assign
  split
  next e' hput => exact h.put (v := .text s) trivial hput
  next => exact h

theorem Tidy.withRank [Ranked E] (h : Tidy e) (n : UInt32) : Tidy (Ranked.withRank e n) :=
  h.put (v := .unsigned n.toNat) trivial (Ranked.put_rankName e n)

theorem Stages.tidy {origin : Origin} {earlier : List String} {updates : Updates}
    (h : Stages origin earlier updates e e') (he : Tidy e) : Tidy e' := by
  induction h with
  | done => exact he
  | pass hpasses hput _ ih => exact ih (he.put (Kind.tidy_of_read hpasses.reads) hput)
  | skip _ _ ih => exact ih he

theorem Tidy.write (h : Tidy e) {origin : Origin} {updates : Updates}
    (hwrite : write origin updates e = .ok e') : Tidy e' :=
  (write_eq_ok origin hwrite).1.tidy h

variable [Keepable E]

theorem tidy_initial : Tidy (initial : E) :=
  ⟨Keepable.initial_values_tidy, KeptAll.tidy_of_allEmpty Regular.initial_allEmpty⟩

theorem holds_encode (e : E) : Holds (encode e) := by
  have hfields : ∀ f ∈ fields E, Json.keyOf f.name = .name f.name := fun f hf =>
    Keepable.keyOf_memberName f.name (List.mem_append_left _ (List.mem_map_of_mem hf))
  have hchildren : ∀ c ∈ children E, Json.keyOf c.name = .name c.name := fun c hc =>
    Keepable.keyOf_memberName c.name
      (List.mem_append_right _ (List.mem_map.2 ⟨c, hc, rfl⟩))
  have hrecord := holdsMembers_iff.1 (Record.holds_encode hfields (parts e).1)
  have htables := holdsMembers_iff.1 (KeptAll.allHold_encode hchildren (parts e).2)
  refine holdsMembers_iff.2 fun key value hmem => ?_
  rcases List.mem_append.1 hmem with hmem | hmem
  · exact hrecord key value hmem
  · exact htables key value hmem

theorem Tidy.load (h : Tidy e) {name : String} {d : Doc} (hload : load? e name d = some (.ok e')) :
    Tidy e' := by
  simp only [load?] at hload
  split at hload
  next loaded hrecord =>
    obtain ⟨r, rfl, rfl⟩ := map_eq_ok_iff.1 (Option.some.inj hload)
    refine ⟨fun f w hmem => ?_, by simpa [parts_ofParts] using h.2⟩
    simp only [values, record, parts_ofParts] at hmem
    rcases Record.mem_values_load? hrecord hmem with hold | ⟨a, hdecode, rfl⟩
    · exact h.1 f w hold
    · exact Shape.tidy_of_decode hdecode
  next =>
    obtain ⟨loaded, hchildren, hmap⟩ := Option.map_eq_some_iff.1 hload
    obtain ⟨c, rfl, rfl⟩ := map_eq_ok_iff.1 hmap
    refine ⟨fun f w hmem => h.1 f w (by simpa [values, record, parts_ofParts] using hmem), ?_⟩
    rw [parts_ofParts]
    exact KeptAll.tidy_of_load h.2 hchildren

theorem Tidy.reads {seen : List String} {members : List (Key × Doc)} (h : Tidy e)
    (hreads : Reads seen e members e') : Tidy e' := by
  induction hreads with
  | nil => exact h
  | skip _ _ ih => exact ih h
  | read _ hload _ ih => exact ih (h.load hload)

theorem Tidy.loadItems {items : List Doc} : ∀ {names : List String} {e : E}, Tidy e →
    loadItems e names items = .ok e' → Tidy e' := by
  induction items with
  | nil =>
    intro names e h hload
    cases names <;> cases hload <;> exact h
  | cons d items ih =>
    intro names e h hload
    cases names with
    | nil => cases hload
    | cons name names =>
      simp only [Entity.loadItems] at hload
      split at hload
      next => cases hload
      next loaded hl =>
        obtain ⟨e₁, rfl, hrest⟩ := bind_eq_ok_iff.1 hload
        exact ih (h.load hl) hrest

theorem tidy_of_decode {d : Doc} {e : E} (h : decode d = .ok e) : Tidy e := by
  unfold decode at h
  split at h
  next => exact tidy_initial.reads (reads_of_loadMembers h)
  next =>
    split at h
    next => exact tidy_initial.loadItems h
    next => cases h

end Entity
end Cwmp
