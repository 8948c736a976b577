import Cwmp.Proofs.Entity.Request
import Cwmp.Proofs.Schema.RoundTrip

/-! # Faults of parameters

A request checks the parameters that it names and no others, and it checks a value before the object
stores it. What is stored is the canonical form of the value, which passes the same check. So the
parameters that are faulty after a request were so before it, with the same faults.
-/
namespace Cwmp

theorem Shape.readable_canonical {A : Type} {read : String → Option A} {write : A → String}
    (h : Spelling read write) {t : String} (ht : t = "" ∨ (read t).isSome) :
    (read t).elim t write = "" ∨ (read ((read t).elim t write)).isSome := by
  cases hread : read t with
  | none => rwa [Option.elim_none, hread, ← hread]
  | some a => exact .inr (by rw [Option.elim_some, h.read_write, Option.isSome_some])

theorem Shape.accepts_canonical {s : Shape} {v : Value} (h : s.kind.Accepts v) :
    s.kind.Accepts (s.canonical v) := by
  rw [Kind.accepts_iff] at h ⊢
  cases s with
  | ipv4 =>
    cases h with
    | ipv4 ht => exact .ipv4 (readable_canonical Ipv4.spelling ht)
  | mac =>
    cases h with
    | mac ht => exact .mac (readable_canonical Mac.spelling ht)
  | _ => exact h

/-- Of the values of a record, only that of the parameter `name` is another one after it was
stored. -/
theorem Record.mem_values_put {name : String} {v w : Value} {g : Field} :
    ∀ {fields : List Field} {r r' : Record fields}, put name v fields r = .ok r' →
      (g, w) ∈ values fields r' → (g, w) ∈ values fields r ∨
        (fields.find? (fun f => f.name == name) = some g ∧
          ∃ a, g.shape.store v = .ok a ∧ g.shape.value a = w)
  | [], _, _, h, _ => by cases h
  | f :: fields, (a, r), r', h, hmem => by
    simp only [put] at h
    split_ifs at h with hf
    · cases hs : f.shape.store v with
      | error fault => simp [hs, Except.map] at h
      | ok b =>
        simp only [hs, Except.map] at h
        obtain rfl := Except.ok.inj h
        rcases List.mem_cons.1 hmem with heq | hmem
        · cases heq
          exact .inr ⟨by simp [hf], b, hs, rfl⟩
        · exact .inl (List.mem_cons_of_mem _ hmem)
    · cases hp : put name v fields r with
      | error fault => simp [hp, Except.map] at h
      | ok r₁ =>
        simp only [hp, Except.map] at h
        obtain rfl := Except.ok.inj h
        rcases List.mem_cons.1 hmem with heq | hmem
        · exact .inl (heq ▸ List.mem_cons_self)
        · rcases mem_values_put hp hmem with hold | ⟨hfind, hstore⟩
          · exact .inl (List.mem_cons_of_mem _ hold)
          · exact .inr ⟨by simpa [hf] using hfind, hstore⟩

namespace Entity

variable {E : Type} [Entity E] {e e' : E}

theorem mem_validate_iff {fault : ParameterFault} : fault ∈ validate e ↔
    ∃ f v, (f, v) ∈ values e ∧ f.shape.kind.check f.name v = .error fault := by
  simp only [validate, List.mem_filterMap, Prod.exists]
  refine exists₂_congr fun f v => and_congr Iff.rfl ?_
  cases f.shape.kind.check f.name v <;> simp

theorem validate_subset (h : ∀ f v, (f, v) ∈ values e' →
    (f, v) ∈ values e ∨ f.shape.kind.Accepts v) : validate e' ⊆ validate e := by
  intro fault hfault
  obtain ⟨f, v, hmem, hcheck⟩ := mem_validate_iff.1 hfault
  rcases h f v hmem with hold | haccepts
  · exact mem_validate_iff.2 ⟨f, v, hold, hcheck⟩
  · cases hcheck.symm.trans (Kind.check_eq_ok_iff.2 haccepts)

theorem validate_put_subset {name : String} {v : Value} {f : Field} (hput : put e name v = .ok e')
    (hf : field? E name = some f) (hv : f.shape.kind.Accepts v) : validate e' ⊆ validate e := by
  obtain ⟨r, hr, rfl⟩ := put_eq_ok_iff.1 hput
  apply validate_subset
  intro g w hmem
  rw [values, record_withRecord] at hmem
  rcases Record.mem_values_put hr hmem with hold | ⟨hg, a, hstore, rfl⟩
  · exact .inl hold
  · obtain rfl : f = g := Option.some.inj (hf.symm.trans hg)
    obtain ⟨b, hkeeps, hvalue⟩ := Shape.exists_keeps hv
    obtain rfl := Except.ok.inj (hstore.symm.trans hkeeps)
    exact .inr (hvalue ▸ Shape.accepts_canonical hv)

theorem Stages.validate_subset {origin : Origin} {earlier : List String} {updates : Updates}
    (h : Stages origin earlier updates e e') : validate e' ⊆ validate e := by
  induction h with
  | done => exact List.Subset.refl _
  | pass hp hput _ ih =>
    exact List.Subset.trans ih (validate_put_subset hput hp.known hp.accepts)
  | skip _ _ ih => exact ih

theorem validate_write_subset {origin : Origin} {updates : Updates}
    (h : write origin updates e = .ok e') : validate e' ⊆ validate e :=
  (write_eq_ok origin h).1.validate_subset

theorem validate_withRank_subset [Ranked E] (e : E) {n : UInt32} (hn : n ≠ 0) :
    validate (Ranked.withRank e n) ⊆ validate e := by
  refine validate_put_subset (Ranked.put_rankName e n) Ranked.field?_rankName ?_
  have hpos : 1 ≤ n.toNat := by
    rw [Nat.one_le_iff_ne_zero]
    exact fun h => hn (UInt32.toNat_inj.1 h)
  exact Kind.accepts_iff.2 (.unsigned hpos (Nat.le_of_lt_succ n.toNat_lt))

end Entity
end Cwmp
