import Cwmp.Proofs.Entity.Batch
import Cwmp.Proofs.Entity.ParameterMap
import Cwmp.Proofs.Table.FieldFaults
import Cwmp.Proofs.Table.Nested
import Cwmp.Proofs.Table.Violations

/-! # Requests and functions of the device

The device changes a row by a request or by a function. A request is checked entry by entry before
its values are stored, and a rank that it names counts as a new one; a function stores first, all of
the row is checked then, and its rank counts as new if it is another one. When both store the same
values in a valid row, they are accepted together and lead to the same table.
-/
namespace Cwmp

/-- Storing hides nothing from a check: if the stored value passes, so does the one that was
read. -/
theorem Shape.accepts_of_store {s : Shape} {text : String} {v : Value} {a : s.Carrier}
    (hread : s.kind.read text = .ok v) (hstore : s.store v = .ok a)
    (h : s.kind.Accepts (s.value a)) : s.kind.Accepts v := by
  cases s with
  | boolean =>
    cases v with
    | boolean b =>
      obtain rfl := Except.ok.inj hstore
      exact h
    | _ => cases hstore
  | int =>
    cases v with
    | int i =>
      simp only [store] at hstore
      split_ifs at hstore with hfit
      simp only [int32Min, int32Max] at hfit
      have hvalue : (Int32.ofInt i).toInt = i := Int32.toInt_ofInt_of_le hfit.1 (by omega)
      rwa [← Except.ok.inj hstore, value, hvalue] at h
    | _ => cases hstore
  | unsigned =>
    cases v with
    | unsigned n =>
      simp only [store] at hstore
      split_ifs at hstore with hfit
      simp only [Text.uint32Max] at hfit
      have hlt : n < 4294967296 := Nat.lt_succ_of_le hfit
      have hvalue : (UInt32.ofNat n).toNat = n := UInt32.toNat_ofNat_of_lt hlt
      rwa [← Except.ok.inj hstore, value, hvalue] at h
    | _ => cases hstore
  | text n =>
    obtain rfl := Except.ok.inj hread
    obtain rfl := Except.ok.inj hstore
    exact h
  | choice V =>
    obtain rfl := Except.ok.inj hread
    refine Kind.accepts_iff.2 (.choice (Vocabulary.mem_words_iff.2 ?_))
    simp only [store, Value.write] at hstore
    split at hstore
    next b hword => exact ⟨b, hword⟩
    next => cases hstore
  | moment =>
    cases v with
    | moment t =>
      obtain rfl := Except.ok.inj hstore
      exact h
    | _ => cases hstore
  | ipv4 =>
    obtain rfl := Except.ok.inj hread
    exact Kind.accepts_iff.2 (.ipv4 (exists_readAddress_iff.1 ⟨a, hstore⟩))
  | mac =>
    obtain rfl := Except.ok.inj hread
    exact Kind.accepts_iff.2 (.mac (exists_readAddress_iff.1 ⟨a, hstore⟩))
  | list n =>
    obtain rfl := Except.ok.inj hread
    obtain rfl := Except.ok.inj hstore
    exact h

namespace Record

variable {name : String} {w : Value} {f : Field}

theorem mem_values_of_get? : ∀ {fields : List Field} {r : Record fields},
    fields.find? (fun f => f.name == name) = some f → get? name fields r = some w →
      (f, w) ∈ values fields r
  | [], _, h, _ => by simp at h
  | g :: fields, (b, r), h, hget => by
    by_cases hg : g.name = name
    · obtain rfl : g = f := by simpa [hg] using h
      obtain rfl : g.shape.value b = w := by simpa [get?, hg] using hget
      exact List.mem_cons_self
    · refine List.mem_cons_of_mem _ (mem_values_of_get? ?_ ?_)
      · simpa [hg] using h
      · simpa [get?, hg] using hget

end Record

namespace Entity

variable {E : Type} [Entity E] {e e' : E} {updates : Updates} {values : List (String × Value)}

variable (E) in
/-- What an entry of a request stands for: a value of a known parameter, in its bounds or not. -/
def Denotes (entry : String × String) (p : String × Value) : Prop :=
  entry.1 = p.1 ∧ ∃ f, field? E p.1 = some f ∧ f.shape.kind.read entry.2 = .ok p.2

def putEach (values : List (String × Value)) (e : E) : Except StoreFault E :=
  values.foldlM (fun e p => put e p.1 p.2) e

theorem putEach_cons {p : String × Value} : putEach (p :: values) e = .ok e' ↔
    ∃ e₁, put e p.1 p.2 = .ok e₁ ∧ putEach values e₁ = .ok e' := by
  simp only [putEach, List.foldlM_cons, bind_eq_ok_iff]

theorem get?_putEach {name : String} (hput : putEach values e = .ok e')
    (h : name ∉ values.map Prod.fst) : get? e' name = get? e name := by
  induction values generalizing e with
  | nil => rw [Except.ok.inj hput]
  | cons p values ih =>
    obtain ⟨e₁, hp, hrest⟩ := putEach_cons.1 hput
    rw [List.map_cons, List.mem_cons, not_or] at h
    rw [ih hrest h.2, get?_put_of_ne hp h.1]

theorem names_of_denotes (h : List.Forall₂ (Denotes E) updates values) :
    updates.map Prod.fst = values.map Prod.fst := by
  induction h with
  | nil => rfl
  | cons hp _ ih => rw [List.map_cons, List.map_cons, hp.1, ih]

theorem verdict_of_put {name text : String} {v : Value} {f : Field} {e₁ : E}
    (hf : field? E name = some f) (hread : f.shape.kind.read text = .ok v)
    (hput : put e name v = .ok e₁) (hkept : get? e' name = get? e₁ name)
    (hvalid : validate e' = []) : verdict E .device (name, text) = .ok (f, v) := by
  obtain ⟨a, hstore, hget⟩ := exists_store_of_put hput hf
  have hvalue : get? e' name = some (f.shape.value a) := hkept.trans hget
  have hstored := validate_eq_nil_iff.1 hvalid f _ (Record.mem_values_of_get? hf hvalue)
  have haccepts := Shape.accepts_of_store hread hstore hstored
  have hopen : OpenTo .device f := openTo_iff.2 (by simp)
  exact judge_of_passes ⟨List.not_mem_nil, hf, hopen, hread, haccepts⟩

/-- Values that lead to a valid object pass as entries of a request, for none of them is overwritten
by a later one. -/
theorem verdicts_of_putEach (hreads : List.Forall₂ (Denotes E) updates values)
    (hnodup : (values.map Prod.fst).Nodup) (hput : putEach values e = .ok e')
    (hvalid : validate e' = []) : ∀ u ∈ updates, ∃ p, verdict E .device u = .ok p := by
  induction hreads generalizing e with
  | nil => simp
  | @cons u p updates values hp hreads ih =>
    obtain ⟨name, text⟩ := u
    obtain ⟨_, v⟩ := p
    obtain ⟨rfl, f, hf, hread⟩ := hp
    obtain ⟨e₁, hput, hrest⟩ := putEach_cons.1 hput
    rw [List.map_cons, List.nodup_cons] at hnodup
    have hkept : get? e' name = get? e₁ name := get?_putEach hrest hnodup.1
    have hverdict := verdict_of_put hf hread hput hkept hvalid
    exact List.forall_mem_cons.2 ⟨⟨_, hverdict⟩, ih hnodup.2 hrest⟩

/-- Entries that pass store the values for which they stand. -/
theorem stored_eq_of_putEach (hreads : List.Forall₂ (Denotes E) updates values)
    (hpass : ∀ u ∈ updates, ∃ p, verdict E .device u = .ok p) (hput : putEach values e = .ok e') :
    stored (updates.map (verdict E .device)) e = e' := by
  induction hreads generalizing e with
  | nil => exact Except.ok.inj hput
  | @cons u p updates values hp hreads ih =>
    obtain ⟨name, text⟩ := u
    obtain ⟨_, v⟩ := p
    obtain ⟨rfl, f, hf, hread⟩ := hp
    obtain ⟨e₁, hput, hrest⟩ := putEach_cons.1 hput
    obtain ⟨⟨⟨g, w⟩, hverdict⟩, hpass⟩ := List.forall_mem_cons.1 hpass
    have hpasses := passes_of_judge hverdict
    obtain rfl := Option.some.inj (hf.symm.trans hpasses.known)
    obtain rfl := Except.ok.inj (hread.symm.trans hpasses.reads)
    rw [← ih hpass hrest, ← assign_of_put hput]
    simp [stored, hverdict, Except.toOption, name_of_field? hf]

/-- A request that names no parameter twice, and a function that stores in an object the values for
which the entries of the request stand. -/
structure SameValues (updates : Updates) (f : E → E) (e : E) : Prop where
  nodup : (updates.map Prod.fst).Nodup
  stores : ∃ values, List.Forall₂ (Denotes E) updates values ∧ putEach values e = .ok (f e)

theorem SameValues.write_eq_ok_iff {f : E → E} (h : SameValues updates f e)
    (hvalid : validate e = []) :
    write .device updates e = .ok e' ↔ validate (f e) = [] ∧ f e = e' := by
  obtain ⟨values, hreads, hput⟩ := h.stores
  constructor
  · intro hwrite
    obtain ⟨hpass, rfl⟩ := (write_device_eq_ok_iff h.nodup).1 hwrite
    have hstored := stored_eq_of_putEach hreads hpass hput
    have hsub := validate_write_subset hwrite
    rw [hvalid, hstored] at hsub
    exact ⟨List.subset_nil.1 hsub, hstored.symm⟩
  · rintro ⟨hvalid', rfl⟩
    have hnames := names_of_denotes hreads
    have hpass := verdicts_of_putEach hreads (hnames ▸ h.nodup) hput hvalid'
    exact (write_device_eq_ok_iff h.nodup).2 ⟨hpass, stored_eq_of_putEach hreads hpass hput⟩

end Entity

open Entity (SameValues)

variable {E : Type} [Entity E] {i : InstanceNumber} {updates : Updates} {f : E → E} {row : E}

namespace Table

variable {t : Table E}

/-- The rules between rows are the same for both ways. -/
theorem write_iff_update (hrow : t.get? i = some row) (h : SameValues updates f row)
    (hvalid : Entity.validate row = []) (t' : Table E) :
    t.write i .device updates = .ok t' ↔ t.update i f = .ok t' := by
  rw [write_eq_ok_iff, update_eq_ok_iff]
  constructor
  · rintro ⟨old, written, hold, hwrite, hfaults, rfl⟩
    obtain rfl : row = old := Option.some.inj (hrow.symm.trans hold)
    obtain ⟨hvalid', rfl⟩ := (h.write_eq_ok_iff hvalid).1 hwrite
    have hobeys := (rowFaults_eq_nil_iff _).1 hfaults
    exact ⟨row, hold, hvalid', rowError?_eq_none_iff.2 hobeys, rfl⟩
  · rintro ⟨old, hold, hvalid', herror, rfl⟩
    obtain rfl : row = old := Option.some.inj (hrow.symm.trans hold)
    have hwrite := (h.write_eq_ok_iff hvalid).2 ⟨hvalid', rfl⟩
    have hobeys := rowError?_eq_none_iff.1 herror
    exact ⟨row, f row, hold, hwrite, (rowFaults_eq_nil_iff _).2 hobeys, rfl⟩

end Table

namespace Ranking

variable [Ranked E] {t : Ranking E}

/-- A row that keeps its rank shares it with no other, so none moves out of its way. -/
theorem Dense.makeRoom_replace (h : t.Dense) {old : E} (hold : t.table.rows.get? i = some old)
    (hrank : Ranked.rank row = Ranked.rank old) :
    makeRoom (t.table.rows.replace i row) i = t.table.rows.replace i row := by
  have hmem := Rows.get?_eq_some_iff.1 hold
  have hi : i ∈ t.table.rows.instances := Rows.mem_instances_iff.2 ⟨old, hmem⟩
  have hrow : (t.table.rows.replace i row).get? i = some row :=
    Rows.get?_eq_some_iff.2 ((Rows.mem_entries_replace hi).2 (.inl ⟨rfl, rfl⟩))
  simp only [makeRoom, hrow]
  refine if_neg fun hany => ?_
  obtain ⟨⟨j, other⟩, hother, hsame⟩ := List.any_eq_true.1 hany
  simp only [Bool.and_eq_true, bne_iff_ne, beq_iff_eq] at hsame
  have hkept := ((Rows.mem_entries_replace hi).1 hother).resolve_left fun heq => hsame.1 heq.1
  have hplace : t.order.idxOf j + 1 = t.order.idxOf i + 1 := by
    rw [← h.rankOf_eq hkept.2, ← h.rankOf_eq hmem, rankOf, rankOf, hsame.2, hrank]
  have hj : j ∈ t.order := mem_order.2 (Rows.mem_instances_iff.2 ⟨other, hkept.2⟩)
  exact hsame.1 ((List.idxOf_inj hj).1 (Nat.succ.inj hplace))

theorem Dense.settle_commit (h : t.Dense) {old : E} (hold : t.table.rows.get? i = some old)
    (hrank : Ranked.rank row = Ranked.rank old) :
    settle (t.table.commit i old row) (some i) = settle (t.table.commit i old row) none := by
  simp only [settle, Table.commit, h.makeRoom_replace hold hrank]

theorem Dense.write_iff_update (h : t.Dense) (hrow : t.table.get? i = some row)
    (hsame : SameValues updates f row) (hvalid : Entity.validate row = []) (t' : Ranking E) :
    t.write i .device updates = .ok t' ↔ t.update i f = .ok t' := by
  rw [write_eq_ok_iff, update_eq_ok_iff]
  refine exists_congr fun table => ?_
  rw [Table.write_iff_update hrow hsame hvalid]
  refine and_congr_right fun hupdate => ?_
  obtain ⟨old, hold, hvalid', -, rfl⟩ := Table.update_eq_ok_iff.1 hupdate
  obtain rfl : row = old := Option.some.inj (hrow.symm.trans hold)
  have hnew : (t.table.commit i row (f row)).get? i = some (f row) :=
    (Table.get?_commit hold).2 (.inl ⟨rfl, rfl⟩)
  have hwrite := (hsame.write_eq_ok_iff hvalid).2 ⟨hvalid', rfl⟩
  simp only [hrow, hnew, Option.map_some]
  by_cases hrank : Ranked.rank (f row) = Ranked.rank row
  · simp only [hrank, bne_self_eq_false, Bool.false_eq_true, ↓reduceIte]
    split_ifs
    · rw [h.settle_commit hold hrank]
    · rfl
  · -- A rank that changed was named.
    have hmoved : (some (Ranked.rank row) != some (Ranked.rank (f row))) = true := by
      simpa using Ne.symm hrank
    have hnamed : (updates.any fun u => u.1 == Ranked.rankName E) = true := by
      rcases rank_write hwrite with ⟨r, -, -, hnamed⟩ | ⟨-, hkept, -⟩
      · exact hnamed
      · exact absurd hkept hrank
    simp only [hmoved, hnamed, ↓reduceIte]

end Ranking

theorem outcome_of_refused {S : Type} {s : S} {a b : Except ModelError S}
    (h : ∀ s', a = .ok s' ↔ b = .ok s') {error : ModelError} (ha : a = .error error) :
    outcome s a = s ∧ outcome s b = s := by
  subst ha
  refine ⟨rfl, ?_⟩
  cases b with
  | error _ => rfl
  | ok s' => cases (h s').2 rfl

/-- The device may write values to a valid row by a request or by a function. Either both are
accepted and lead to the same table, or both are refused and leave the table as it is. In a ranking
that came about by operations this holds too, and the ranks are the same. -/
theorem device_write_iff_update (hvalid : Entity.validate row = [])
    (h : SameValues updates f row) :
    (∀ t : Table E, t.get? i = some row →
      (∀ t', t.write i .device updates = .ok t' ↔ t.update i f = .ok t') ∧
      ∀ error, t.write i .device updates = .error error →
        Table.Op.run t (.write i .device updates) = t ∧ Table.Op.run t (.update i f) = t) ∧
    ∀ [Ranked E] (t : Ranking E), t.Initial → ∀ ops, (t.run ops).table.get? i = some row →
      (∀ t', (t.run ops).write i .device updates = .ok t' ↔ (t.run ops).update i f = .ok t') ∧
      ∀ error, (t.run ops).write i .device updates = .error error →
        Ranking.Op.run (t.run ops) (.write i .device updates) = t.run ops ∧
        Ranking.Op.run (t.run ops) (.update i f) = t.run ops := by
  constructor
  · intro t hrow
    have hiff := Table.write_iff_update hrow h hvalid
    exact ⟨hiff, fun error hrefused => outcome_of_refused hiff hrefused⟩
  · intro _ t ht ops hrow
    have hiff := (ht.dense_run ops).write_iff_update hrow h hvalid
    exact ⟨hiff, fun error hrefused => outcome_of_refused hiff hrefused⟩

def namedRules : Doc :=
  .table [(.index 1, .table [(.name "Order", .integer 1), (.name "Alias", .text "lan")]),
    (.index 2, .table [(.name "Order", .integer 2), (.name "Alias", .text "wan")])]

/-- The request names the rank that the rule has, and another alias. -/
theorem device_write_iff_update_kept :
    ∃ (t t' : Ranking FirewallRule) (row : FirewallRule) (f : FirewallRule → FirewallRule),
      Ranking.decode namedRules = .ok t ∧ t.table.get? { number := 2 } = some row ∧
      Entity.validate row = [] ∧
      SameValues [("Order", "2"), ("Alias", "guests")] f row ∧
      t.write { number := 2 } .device [("Order", "2"), ("Alias", "guests")] = .ok t' ∧
      t.update { number := 2 } f = .ok t' := by
  let rules : Table FirewallRule := .ofRows ⟨[({ number := 1 }, { order := 1, aliasText := "lan" }),
    ({ number := 2 }, { order := 2, aliasText := "wan" })], by decide⟩
  let t : Ranking FirewallRule := ⟨rules⟩
  have hdense : t.Dense := by
    have hsorted : t.byRank = rules.rows.entries := Ranking.sorted_eq (.refl _) (by decide)
    rw [Ranking.Dense, hsorted]
    rfl
  have hdecode : Ranking.decode namedRules = .ok t := congrArg Except.ok hdense.settle_eq
  let row : FirewallRule := { order := 2, aliasText := "wan" }
  let f : FirewallRule → FirewallRule := fun row => { row with order := 2, aliasText := "guests" }
  have hrow : t.table.get? { number := 2 } = some row := rfl
  have hvalid : Entity.validate row = [] := by decide
  have hsame : SameValues [("Order", "2"), ("Alias", "guests")] f row := by
    refine ⟨by decide, [("Order", .unsigned 2), ("Alias", .text "guests")], ?_, rfl⟩
    exact .cons ⟨rfl, _, rfl, rfl⟩ (.cons ⟨rfl, _, rfl, rfl⟩ .nil)
  have hiff := ((device_write_iff_update hvalid hsame).2 t (.loaded hdecode) [] hrow).1
  obtain ⟨t', hupdate⟩ : ∃ t', t.update { number := 2 } f = .ok t' :=
    ⟨_, Ranking.update_eq_ok_iff.2 ⟨_, Table.update_eq_ok_iff.2
      ⟨row, rfl, by decide, by decide, rfl⟩, rfl⟩⟩
  exact ⟨t, t', row, f, hdecode, hrow, hvalid, hsame, (hiff t').2 hupdate, hupdate⟩

end Cwmp
