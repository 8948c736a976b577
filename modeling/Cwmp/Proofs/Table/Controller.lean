import Cwmp.Objects.Firewall
import Cwmp.Objects.IpInterface
import Cwmp.Proofs.Entity.Request
import Cwmp.Proofs.Table.Reranked

/-! # What a controller cannot reach

Read-only parameters are out of the reach of a controller, and so are those with a gate on a
read-only mode that is closed: the controller would have to open the gate, and for that it would
have to write the mode. However many requests it makes, what is out of its reach stays as it is, and
so do the rows to which it makes no request.
-/
namespace Cwmp

namespace Entity

variable {E : Type} [Entity E] {e e' e'' : E} {name : String}

/-- A parameter that a controller cannot write, whatever else it writes: it is read-only, or one of
its gates is closed by a mode that is. -/
def OutOfReach (e : E) (name : String) : Prop :=
  ∃ f, field? E name = some f ∧ (f.access = .readOnly ∨ ∃ g ∈ f.gates, ∃ mode,
    field? E g.mode = some mode ∧ mode.access = .readOnly ∧ isOpen e g = false)

/-- All that was out of reach in `e` is the same in `e'`. -/
structure Untouched (e e' : E) : Prop where
  get?_eq : ∀ name, OutOfReach e name → get? e' name = get? e name
  children_eq : (parts e').2 = (parts e).2

theorem isOpen_congr {g : Gate} (h : get? e' g.mode = get? e g.mode) :
    isOpen e' g = isOpen e g := by
  simp only [isOpen, h]

theorem Untouched.refl (e : E) : Untouched e e :=
  ⟨fun _ _ => rfl, rfl⟩

theorem Untouched.outOfReach (h : Untouched e e') (hname : OutOfReach e name) :
    OutOfReach e' name := by
  obtain ⟨f, hf, haccess | ⟨g, hg, mode, hmode, haccess, hshut⟩⟩ := hname
  · exact ⟨f, hf, Or.inl haccess⟩
  · have hsame := h.get?_eq g.mode ⟨mode, hmode, Or.inl haccess⟩
    exact ⟨f, hf, Or.inr ⟨g, hg, mode, hmode, haccess, (isOpen_congr hsame).trans hshut⟩⟩

theorem Untouched.trans (h : Untouched e e') (h' : Untouched e' e'') : Untouched e e'' where
  get?_eq := by
    intro name hname
    rw [h'.get?_eq name (h.outOfReach hname), h.get?_eq name hname]
  children_eq := h'.children_eq.trans h.children_eq

/-- An accepted request of a controller names nothing that is out of its reach. -/
theorem untouched_of_write {updates : Updates} (h : write .controller updates e = .ok e') :
    Untouched e e' := by
  obtain ⟨hstages, hblames⟩ := write_eq_ok .controller h
  have hadm := (blames_nil_iff.1 hblames).2
  have hopen : ∀ {name f}, name ∈ updates.map Prod.fst → field? E name = some f →
      f.access = .readWrite ∧ ∀ g ∈ f.gates, isOpen e' g = true := by
    intro name f hmem hf
    obtain ⟨⟨n, text⟩, hu, rfl⟩ := List.mem_map.1 hmem
    exact hadm.open_to rfl n text hu f hf
  have hreadOnly : ∀ {name f}, field? E name = some f → f.access = .readOnly →
      get? e' name = get? e name := by
    intro name f hf haccess
    apply hstages.get?_of_not_mem
    intro hmem
    cases haccess.symm.trans (hopen hmem hf).1
  refine ⟨fun name hname => ?_, hstages.children_eq⟩
  obtain ⟨f, hf, haccess | ⟨g, hg, mode, hmode, haccess, hshut⟩⟩ := hname
  · exact hreadOnly hf haccess
  · apply hstages.get?_of_not_mem
    intro hmem
    have hg' := (hopen hmem hf).2 g hg
    rw [isOpen_congr (hreadOnly hmode haccess), hshut] at hg'
    cases hg'

theorem untouched_withRank [Ranked E] (e : E) (n : UInt32) :
    Untouched e (Ranked.withRank e n) where
  get?_eq := by
    intro name hname
    apply Ranked.get?_withRank_of_ne
    rintro rfl
    obtain ⟨f, hf, hreach⟩ := hname
    obtain rfl := Option.some.inj (hf.symm.trans Ranked.field?_rankName)
    rcases hreach with haccess | ⟨g, hg, -⟩
    · cases haccess
    · cases hg
  children_eq := children_put (Ranked.put_rankName e n)

end Entity

namespace Table

variable {E : Type} [Entity E] {same : E → E → Prop} {addressed : List InstanceNumber}
  {s t u : Table E}

/-- Requests of a controller to the rows `addressed` have led from `s` to `t`: the rows are there as
before, nothing out of reach has changed in any of them, and the rows that were not addressed are
the `same`. -/
structure Confined (same : E → E → Prop) (addressed : List InstanceNumber) (s t : Table E) :
    Prop where
  instances_eq : t.rows.instances = s.rows.instances
  kept : ∀ i old, s.get? i = some old → ∃ row, t.get? i = some row ∧
    Entity.Untouched old row ∧ (i ∉ addressed → same old row)

theorem Confined.refl (hsame : ∀ row, same row row) (t : Table E) :
    Confined same addressed t t where
  instances_eq := rfl
  kept _ old hold := ⟨old, hold, .refl old, fun _ => hsame old⟩

theorem Confined.trans {others : List InstanceNumber}
    (hsame : ∀ a b c, same a b → same b c → same a c)
    (h : Confined same addressed s t) (h' : Confined same others t u) :
    Confined same (addressed ++ others) s u where
  instances_eq := h'.instances_eq.trans h.instances_eq
  kept := by
    intro i old hold
    obtain ⟨between, hbetween, huntouched, hequal⟩ := h.kept i old hold
    obtain ⟨row, hrow, huntouched', hequal'⟩ := h'.kept i between hbetween
    refine ⟨row, hrow, huntouched.trans huntouched', fun hi => ?_⟩
    rw [List.mem_append, not_or] at hi
    exact hsame _ _ _ (hequal hi.1) (hequal' hi.2)

def controlled (t : Table E) (requests : List (InstanceNumber × Updates)) : Table E :=
  requests.foldl (fun t (i, updates) => outcome t (t.write i .controller updates)) t

/-- What holds of one request holds of a run of them. -/
theorem confined_foldl {S : Type} (table : S → Table E) {step : S → InstanceNumber × Updates → S}
    (hrefl : ∀ row, same row row) (htrans : ∀ a b c, same a b → same b c → same a c)
    (hstep : ∀ s r, Confined same [r.1] (table s) (table (step s r)))
    (requests : List (InstanceNumber × Updates)) : ∀ s,
      Confined same (requests.map Prod.fst) (table s) (table (requests.foldl step s)) := by
  induction requests with
  | nil => exact fun s => .refl hrefl (table s)
  | cons r requests ih => exact fun s => (hstep s r).trans htrans (ih (step s r))

theorem confined_write {i : InstanceNumber} {updates : Updates}
    (h : s.write i .controller updates = .ok t) : Confined Eq [i] s t := by
  obtain ⟨old, row, hold, hrow, -, rfl⟩ := write_eq_ok_iff.1 h
  have hi : i ∈ s.rows.instances :=
    Rows.mem_instances_iff.2 ⟨old, Rows.get?_eq_some_iff.1 hold⟩
  refine ⟨by simp [commit], fun j other hother => ?_⟩
  simp only [Table.get?, commit, Rows.get?_eq_some_iff, Rows.mem_entries_replace hi]
    at hold hother ⊢
  by_cases hj : j = i
  · subst hj
    obtain rfl := s.rows.eq_of_mem hold hother
    exact ⟨row, Or.inl ⟨rfl, rfl⟩, Entity.untouched_of_write hrow, fun hj => by simp at hj⟩
  · exact ⟨other, Or.inr ⟨hj, hother⟩, .refl other, fun _ => rfl⟩

theorem Confined.reranked [Ranked E] (h : Confined Eq addressed s t) (hrank : Reranked t u) :
    Confined (fun old row => ∃ n, row = Ranked.withRank old n) addressed s u where
  instances_eq := hrank.instances_eq.trans h.instances_eq
  kept := by
    intro i old hold
    obtain ⟨between, hbetween, huntouched, hequal⟩ := h.kept i old hold
    simp only [Table.get?, Rows.get?_eq_some_iff] at hbetween ⊢
    obtain ⟨n, hn⟩ := hrank.exists_mem hbetween
    refine ⟨_, hn, huntouched.trans (Entity.untouched_withRank between n), fun hi => ⟨n, ?_⟩⟩
    rw [hequal hi]

end Table

namespace Ranking

variable {E : Type} [Entity E] [Ranked E]

def controlled (t : Ranking E) (requests : List (InstanceNumber × Updates)) : Ranking E :=
  requests.foldl (fun t (i, updates) => outcome t (t.write i .controller updates)) t

theorem confined_write {t t' : Ranking E} {i : InstanceNumber} {updates : Updates}
    (h : t.write i .controller updates = .ok t') :
    Table.Confined (fun old row => ∃ n, row = Ranked.withRank old n) [i] t.table t'.table := by
  obtain ⟨table, hwrite, rfl⟩ := write_eq_ok_iff.1 h
  exact (Table.confined_write hwrite).reranked (reranked_settle table _)

end Ranking

theorem Ipv4Entry.outOfReach {e : Ipv4Entry} (h : e.addressingType ≠ .static) :
    ∀ name ∈ ["IPAddress", "SubnetMask"], Entity.OutOfReach e name := by
  have hshut : Entity.isOpen e ⟨"AddressingType", ["Static"]⟩ = false := by
    obtain ⟨_, _, _, _, _, kind⟩ := e
    cases kind
    case static => exact absurd rfl h
    all_goals rfl
  simp only [List.forall_mem_cons, List.not_mem_nil, IsEmpty.forall_iff, implies_true, and_true]
  refine ⟨?_, ?_⟩ <;>
    exact ⟨_, rfl, Or.inr ⟨_, List.mem_singleton_self _, _, rfl, rfl, hshut⟩⟩

/-- All that configures a prefix is out of reach if the prefix is not static. The gate on the origin
comes before all other gates. -/
theorem Ipv6Prefix.outOfReach {e : Ipv6Prefix} (h : e.origin ≠ .static) :
    ∀ name ∈ ["Prefix", "StaticType", "ParentPrefix", "ChildPrefixBits", "OnLink", "Autonomous",
      "PreferredLifetime", "ValidLifetime"], Entity.OutOfReach e name := by
  have hshut : Entity.isOpen e staticOrigin = false := by
    obtain ⟨_, _, _, _, _, origin, _⟩ := e
    cases origin
    case static => exact absurd rfl h
    all_goals rfl
  simp only [List.forall_mem_cons, List.not_mem_nil, IsEmpty.forall_iff, implies_true, and_true]
  refine ⟨?_, ?_, ?_, ?_, ?_, ?_, ?_, ?_⟩ <;>
    exact ⟨_, rfl, Or.inr ⟨staticOrigin, List.mem_cons_self, _, rfl, rfl, hshut⟩⟩

/-- No run of requests of a controller, accepted or refused, changes what is out of its reach or a
row to which none of them is made, the ranks of such rows apart. In particular the address of a row
that is not static and all that configures a prefix that is not static stay as they are. -/
theorem controller_confined :
    (∀ (E : Type) [Entity E],
      (∀ (t : Table E) (requests : List (InstanceNumber × Updates)),
        Table.Confined Eq (requests.map Prod.fst) t (t.controlled requests)) ∧
      ∀ [Ranked E] (t : Ranking E) (requests : List (InstanceNumber × Updates)),
        Table.Confined (fun old row : E => ∃ n, row = Ranked.withRank old n)
          (requests.map Prod.fst) t.table (t.controlled requests).table) ∧
    (∀ (t : Table Ipv4Entry) (requests : List (InstanceNumber × Updates)) i old,
      t.get? i = some old → old.addressingType ≠ .static →
        ∃ row, (t.controlled requests).get? i = some row ∧
          ∀ name ∈ ["IPAddress", "SubnetMask"], Entity.get? row name = Entity.get? old name) ∧
    ∀ (t : Table Ipv6Prefix) (requests : List (InstanceNumber × Updates)) i old,
      t.get? i = some old → old.origin ≠ .static →
        ∃ row, (t.controlled requests).get? i = some row ∧
          ∀ name ∈ ["Prefix", "StaticType", "ParentPrefix", "ChildPrefixBits", "OnLink",
            "Autonomous", "PreferredLifetime", "ValidLifetime"],
              Entity.get? row name = Entity.get? old name := by
  have htable : ∀ (E : Type) [Entity E] (t : Table E) (requests : List (InstanceNumber × Updates)),
      Table.Confined Eq (requests.map Prod.fst) t (t.controlled requests) := by
    intro E _ t requests
    refine Table.confined_foldl id (fun _ => rfl) (fun _ _ _ => Eq.trans) ?_ requests t
    intro t r
    change Table.Confined Eq [r.1] t (outcome t (t.write r.1 .controller r.2))
    cases h : t.write r.1 .controller r.2 with
    | error error => exact .refl (fun _ => rfl) t
    | ok t' => exact Table.confined_write h
  refine ⟨fun E _ => ⟨htable E, ?_⟩, ?_, ?_⟩
  · intro _ t requests
    have hrefl : ∀ row : E, ∃ n, row = Ranked.withRank row n := fun row =>
      ⟨_, (Ranked.withRank_rank row).symm⟩
    refine Table.confined_foldl Ranking.table hrefl ?_ ?_ requests t
    · rintro a _ _ ⟨m, rfl⟩ ⟨n, rfl⟩
      exact ⟨n, Ranked.withRank_withRank a m n⟩
    · intro t r
      cases h : t.write r.1 .controller r.2 with
      | error error => simpa only [h, outcome] using .refl hrefl t.table
      | ok t' => simpa only [h, outcome] using Ranking.confined_write h
  · intro t requests i old hold hstatic
    obtain ⟨row, hrow, huntouched, -⟩ := (htable Ipv4Entry t requests).kept i old hold
    exact ⟨row, hrow, fun name hname =>
      huntouched.get?_eq name (Ipv4Entry.outOfReach hstatic name hname)⟩
  · intro t requests i old hold hstatic
    obtain ⟨row, hrow, huntouched, -⟩ := (htable Ipv6Prefix t requests).kept i old hold
    exact ⟨row, hrow, fun name hname =>
      huntouched.get?_eq name (Ipv6Prefix.outOfReach hstatic name hname)⟩

def learnedAddresses : Table Ipv4Entry :=
  .ofRows ⟨[(.first, { aliasText := "wan", addressingType := .dhcp }),
    (.next .first, { aliasText := "lan" })], by decide⟩

def attempts : List (InstanceNumber × Updates) :=
  [(.first, [("AddressingType", "Static"), ("IPAddress", "10.0.0.1")]),
    (.first, [("IPAddress", "10.0.0.1")]), (.first, [("Enable", "true")]),
    (.next .first, [("IPAddress", "10.0.0.2")])]

theorem controller_confined_attempts :
    (learnedAddresses.controlled attempts).get? .first =
      some { enable := true, aliasText := "wan", addressingType := .dhcp } ∧
    (∃ row, (learnedAddresses.controlled attempts).get? .first = some row ∧
      Entity.get? row "IPAddress" = Entity.get? (E := Ipv4Entry)
        { aliasText := "wan", addressingType := .dhcp } "IPAddress") ∧
    ((learnedAddresses.controlled attempts).get? (.next .first)).map (Entity.get? · "IPAddress") =
      some (some (.text "10.0.0.2")) := by
  refine ⟨rfl, ?_, rfl⟩
  obtain ⟨row, hrow, hsame⟩ := controller_confined.2.1 learnedAddresses attempts .first
    { aliasText := "wan", addressingType := .dhcp } rfl (by decide)
  exact ⟨row, hrow, hsame "IPAddress" (by decide)⟩

end Cwmp
