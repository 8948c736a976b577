import Cwmp.Entity.Codec
import Cwmp.Proofs.Answers
import Cwmp.Proofs.Schema.RoundTrip

/-! # Members read in turn

A structure is read member by member into the object as created. Its parameters and its child tables
are sections of it, each read by itself: what is read into a section is read into the object. No
member is read twice, so a parameter that is named has the value of its member afterwards.
-/
namespace Cwmp

abbrev Loader (S : Type) :=
  S → String → Doc → Option (Except LoadFault S)

/-- The named members lead from one state to another when they are read in turn. -/
inductive Loads {S : Type} (load? : Loader S) : S → List (Key × Doc) → S → Prop
  | nil {s : S} : Loads load? s [] s
  | cons {s s₁ s₂ : S} {name : String} {d : Doc} {members : List (Key × Doc)} :
      load? s name d = some (.ok s₁) → Loads load? s₁ members s₂ →
      Loads load? s ((.name name, d) :: members) s₂

namespace Loads

variable {S T : Type} {load? : Loader S} {s s₁ s₂ : S} {members more : List (Key × Doc)}

theorem append (h : Loads load? s members s₁) (h' : Loads load? s₁ more s₂) :
    Loads load? s (members ++ more) s₂ := by
  induction h with
  | nil => exact h'
  | cons hload _ ih => exact .cons hload (ih h')

theorem lift {load?' : Loader T} (g : S → T) (h : Loads load? s members s₁)
    (hg : ∀ s name d s', (Key.name name, d) ∈ members → load? s name d = some (.ok s') →
      load?' (g s) name d = some (.ok (g s'))) : Loads load?' (g s) members (g s₁) := by
  induction h with
  | nil => exact .nil
  | cons hload _ ih =>
    refine .cons (hg _ _ _ _ List.mem_cons_self hload) (ih fun s name d s' hmem => ?_)
    exact hg s name d s' (List.mem_cons_of_mem _ hmem)

end Loads

theorem name_mem_of_mem {members : List (Key × Doc)} {names : List String}
    (hkeys : members.map Prod.fst = names.map Key.name) {name : String} {d : Doc}
    (h : (Key.name name, d) ∈ members) : name ∈ names := by
  have hkey := List.mem_map_of_mem (f := Prod.fst) h
  rw [hkeys] at hkey
  obtain ⟨other, hother, heq⟩ := List.mem_map.1 hkey
  exact Key.name.inj heq ▸ hother

namespace Record

theorem keys_encode : ∀ {fields : List Field} (r : Record fields),
    (encode fields r).map Prod.fst = (fields.map (·.name)).map Key.name
  | [], _ => rfl
  | _ :: _, (_, r) => congrArg (_ :: ·) (keys_encode r)

theorem loads_encode : ∀ {fields : List Field} (r₀ r : Record fields),
    (fields.map (·.name)).Nodup → (∀ f v, (f, v) ∈ values fields r → v.Tidy) →
      Loads (fun r name d => load? name d fields r) r₀ (encode fields r) r
  | [], _, _, _, _ => .nil
  | f :: fields, (a₀, r₀), (a, r), hnodup, htidy => by
    rw [List.map_cons, List.nodup_cons] at hnodup
    have hdecode : f.shape.decode (f.shape.encode a) = .ok a :=
      Shape.decode_encode (htidy f _ List.mem_cons_self)
    have hrest := loads_encode r₀ r hnodup.2 fun g v hv => htidy g v (List.mem_cons_of_mem _ hv)
    refine .cons (by simp [load?, hdecode, Except.map]) (hrest.lift (fun r => (a, r)) ?_)
    intro s name d s' hmem hload
    have hne : f.name ≠ name := fun heq => hnodup.1 (heq ▸ name_mem_of_mem (keys_encode r) hmem)
    simp only [load?, hne, ↓reduceIte, hload, Option.map_some, Except.map]
    rfl

theorem load?_eq_none {name : String} {d : Doc} : ∀ {fields : List Field} (r : Record fields),
    name ∉ fields.map (·.name) → load? name d fields r = none
  | [], _, _ => rfl
  | f :: fields, (a, r), h => by
    rw [List.map_cons, List.mem_cons, not_or] at h
    simp only [load?, Ne.symm h.1, ↓reduceIte, load?_eq_none r h.2, Option.map_none]

theorem load?_of_find {name : String} {f : Field} (d : Doc) : ∀ {fields : List Field}
    (r : Record fields), fields.find? (fun f => f.name == name) = some f →
      ∃ g : f.shape.Carrier → Record fields,
        load? name d fields r = some ((f.shape.decode d).map g) ∧
          ∀ a, get? name fields (g a) = some (f.shape.value a)
  | [], _, h => by simp at h
  | g :: fields, (b, r), h => by
    by_cases hg : g.name = name
    · obtain rfl : g = f := by simpa [hg] using h
      exact ⟨fun a => (a, r), by simp [load?, hg], fun a => by simp [get?, hg]⟩
    · obtain ⟨into, hload, hget⟩ := load?_of_find d r (by simpa [hg] using h)
      refine ⟨fun a => (b, into a), ?_, fun a => by simp [get?, hg, hget]⟩
      simp only [load?, hg, ↓reduceIte, hload, Option.map_some]
      cases f.shape.decode d <;> rfl

theorem get?_load?_of_ne {name other : String} {d : Doc} (hne : other ≠ name) :
    ∀ {fields : List Field} {r r' : Record fields}, load? name d fields r = some (.ok r') →
      get? other fields r' = get? other fields r
  | [], _, _, h => by cases h
  | f :: fields, (a, r), r', h => by
    simp only [load?] at h
    split_ifs at h with hf
    · obtain ⟨b, -, rfl⟩ := map_eq_ok_iff.1 (Option.some.inj h)
      have hfo : f.name ≠ other := fun h => hne (h.symm.trans hf)
      simp [get?, hfo]
    · obtain ⟨loaded, hload, hmap⟩ := Option.map_eq_some_iff.1 h
      obtain ⟨r₁, rfl, rfl⟩ := map_eq_ok_iff.1 hmap
      simp [get?, get?_load?_of_ne hne hload]

end Record

namespace Entity

variable {E : Type} [Entity E]

theorem loadMembers_eq_ok {e e' : E} {members : List (Key × Doc)} (h : Loads load? e members e') :
    ∀ {seen : List String}, (members.map Prod.fst).Nodup →
      (∀ name ∈ seen, Key.name name ∉ members.map Prod.fst) →
        loadMembers seen e members = .ok e' := by
  induction h with
  | nil => exact fun _ _ => rfl
  | @cons s s₁ s₂ name d members hload _ ih =>
    intro seen hnodup hseen
    rw [List.map_cons, List.nodup_cons] at hnodup
    have hnew : name ∉ seen := fun hmem => hseen name hmem List.mem_cons_self
    simp only [loadMembers, hload, hnew, ↓reduceIte]
    refine ih hnodup.2 fun other hother hmem => ?_
    rcases List.mem_cons.1 hother with rfl | hother
    · exact hnodup.1 hmem
    · exact hseen other hother (List.mem_cons_of_mem _ hmem)

/-- Members read in turn, those called `seen` having been read before: what the object has no place
for is stepped over, everything else is read, and nothing twice. -/
inductive Reads : (seen : List String) → E → List (Key × Doc) → E → Prop
  | nil {seen : List String} {e : E} : Reads seen e [] e
  | skip {seen : List String} {e e' : E} {key : Key} {d : Doc} {members : List (Key × Doc)} :
      (∀ name, key = .name name → load? e name d = none) → Reads seen e members e' →
      Reads seen e ((key, d) :: members) e'
  | read {seen : List String} {e e₁ e' : E} {name : String} {d : Doc}
      {members : List (Key × Doc)} : name ∉ seen → load? e name d = some (.ok e₁) →
      Reads (name :: seen) e₁ members e' → Reads seen e ((.name name, d) :: members) e'

theorem reads_of_loadMembers {e' : E} {members : List (Key × Doc)} :
    ∀ {seen : List String} {e : E}, loadMembers seen e members = .ok e' →
      Reads seen e members e' := by
  induction members with
  | nil =>
    intro seen e h
    cases h
    exact .nil
  | cons member members ih =>
    intro seen e h
    obtain ⟨key, d⟩ := member
    cases key with
    | index n =>
      obtain ⟨-, -, hrest⟩ := bind_eq_ok_iff.1 h
      exact .skip (fun name hname => by cases hname) (ih hrest)
    | name s =>
      simp only [loadMembers] at h
      split at h
      next hnone =>
        obtain ⟨-, -, hrest⟩ := bind_eq_ok_iff.1 h
        refine .skip (fun name hname => ?_) (ih hrest)
        cases hname
        exact hnone
      next loaded hload =>
        split_ifs at h with hnew
        obtain ⟨e₁, rfl, hrest⟩ := bind_eq_ok_iff.1 h
        exact .read hnew hload (ih hrest)

section Parameters

variable {e e' : E} {name : String} {d : Doc} {f : Field}

theorem load?_of_field? (e : E) (d : Doc) (hf : field? E name = some f) :
    ∃ g : f.shape.Carrier → E, load? e name d = some ((f.shape.decode d).map g) ∧
      ∀ a, get? (g a) name = some (f.shape.value a) := by
  obtain ⟨into, hload, hget⟩ := Record.load?_of_find d (record e) hf
  refine ⟨fun a => withRecord e (into a), ?_, fun a => by simp [get?, hget]⟩
  rw [record] at hload
  simp only [load?, hload]
  cases f.shape.decode d <;> rfl

theorem exists_decode_single_iff (hf : field? E name = some f) :
    (∃ e : E, decode (.table [(.name name, d)]) = .ok e) ↔ ∃ a, f.shape.decode d = .ok a := by
  obtain ⟨into, hload, -⟩ := load?_of_field? (initial : E) d hf
  simp only [decode, Doc.members?, loadMembers, hload, List.not_mem_nil, ↓reduceIte]
  cases f.shape.decode d <;> simp [Except.map, bind, Except.bind]

theorem get?_load?_of_ne {other : String} (hne : other ≠ name)
    (h : load? e name d = some (.ok e')) : get? e' other = get? e other := by
  simp only [load?] at h
  split at h
  next loaded hrecord =>
    obtain ⟨r, rfl, rfl⟩ := map_eq_ok_iff.1 (Option.some.inj h)
    simp only [get?, record, parts_ofParts]
    exact Record.get?_load?_of_ne hne hrecord
  next =>
    obtain ⟨loaded, -, hmap⟩ := Option.map_eq_some_iff.1 h
    obtain ⟨c, rfl, rfl⟩ := map_eq_ok_iff.1 hmap
    simp only [get?, record, parts_ofParts]

variable {seen : List String} {members : List (Key × Doc)}

theorem Reads.get?_of_seen (h : Reads seen e members e') (hseen : name ∈ seen) :
    get? e' name = get? e name := by
  induction h with
  | nil => rfl
  | skip _ _ ih => exact ih hseen
  | @read _ _ _ _ s _ _ hnew hload _ ih =>
    have hne : name ≠ s := fun heq => hnew (heq ▸ hseen)
    rw [ih (List.mem_cons_of_mem s hseen), get?_load?_of_ne hne hload]

theorem get?_loadItems_of_not_mem {names : List String} {items : List Doc}
    (h : loadItems e names items = .ok e') (hname : name ∉ names) : get? e' name = get? e name := by
  fun_induction loadItems e names items with
  | case1 =>
    cases h
    rfl
  | case2 => cases h
  | case3 => cases h
  | case4 e s names d rest loaded hload ih =>
    obtain ⟨e₁, rfl, hrest⟩ := bind_eq_ok_iff.1 h
    rw [List.mem_cons, not_or] at hname
    rw [ih e₁ hrest hname.2, get?_load?_of_ne hname.1 hload]

/-- A parameter has the value that its item says. -/
theorem get?_loadItems_of_mem {names : List String} {items : List Doc}
    (h : loadItems e names items = .ok e') (hnodup : names.Nodup) (hf : field? E name = some f)
    (hmem : (name, d) ∈ names.zip items) :
    ∃ a, f.shape.decode d = .ok a ∧ get? e' name = some (f.shape.value a) := by
  fun_induction loadItems e names items with
  | case1 => simp at hmem
  | case2 => cases h
  | case3 => cases h
  | case4 e s names d' rest loaded hload ih =>
    obtain ⟨e₁, rfl, hrest⟩ := bind_eq_ok_iff.1 h
    rw [List.nodup_cons] at hnodup
    rw [List.zip_cons_cons] at hmem
    rcases List.mem_cons.1 hmem with heq | hmem
    · cases heq
      obtain ⟨into, hload', hget⟩ := load?_of_field? e d hf
      obtain ⟨a, ha, rfl⟩ := map_eq_ok_iff.1 (Option.some.inj (hload'.symm.trans hload))
      exact ⟨a, ha, by rw [get?_loadItems_of_not_mem hrest hnodup.1, hget]⟩
    · exact ih e₁ hrest hnodup.2 hmem

/-- A parameter that is named in a document has the value that the document says. -/
theorem Reads.get?_of_mem (h : Reads seen e members e') (hf : field? E name = some f)
    (hmem : (Key.name name, d) ∈ members) :
    ∃ a, f.shape.decode d = .ok a ∧ get? e' name = some (f.shape.value a) := by
  induction h with
  | nil => cases hmem
  | @skip _ e₀ _ _ _ _ hnone _ ih =>
    rcases List.mem_cons.1 hmem with heq | hmem
    · cases heq
      obtain ⟨into, hload, -⟩ := load?_of_field? e₀ d hf
      cases (hnone name rfl).symm.trans hload
    · exact ih hmem
  | @read _ e₀ _ _ _ _ _ _ hload hrest ih =>
    rcases List.mem_cons.1 hmem with heq | hmem
    · cases heq
      obtain ⟨into, hload', hget⟩ := load?_of_field? e₀ d hf
      obtain ⟨a, ha, rfl⟩ := map_eq_ok_iff.1 (Option.some.inj (hload'.symm.trans hload))
      refine ⟨a, ha, ?_⟩
      rw [hrest.get?_of_seen List.mem_cons_self, hget]
    · exact ih hmem

end Parameters

end Entity
end Cwmp
