import Cwmp.Proofs.Table.Collections
import Cwmp.Proofs.Table.InstanceNumbers

/-! # Numbers in documents

Documents do not keep the counter of a table. When a table is loaded the counter starts after the
largest number in use, so it goes back if rows with larger numbers are gone. A command changes the
row under one number: the others keep their numbers and, but for ranks, their parameters.
-/
namespace Cwmp

structure Largest (P : InstanceNumber → Prop) (i : InstanceNumber) : Prop where
  holds : P i
  number_le : ∀ j, P j → j.number ≤ i.number

variable {P : InstanceNumber → Prop} {i j : InstanceNumber}

theorem exists_largest (h : P i) : ∃ j, Largest P j := by
  let room : InstanceNumber → Nat := fun k => Text.uint32Max - k.number
  obtain ⟨j, hj, hmin⟩ := WellFounded.has_min (measure room).wf {k | P k} ⟨i, h⟩
  refine ⟨j, hj, fun k hk => ?_⟩
  have hroom : ¬room k < room j := hmin k hk
  have := k.le_max
  simp only [room] at hroom
  omega

theorem InstanceNumber.first_le (i : InstanceNumber) : InstanceNumber.first.number ≤ i.number :=
  i.pos

theorem InstanceNumber.next_le (i : InstanceNumber) : i.next.number ≤ i.number + 1 :=
  Nat.min_le_left _ _

namespace Table

theorem foldl_max_mem (i : InstanceNumber) (rest : List InstanceNumber) :
    rest.foldl InstanceNumber.max i ∈ i :: rest := by
  induction rest generalizing i with
  | nil => exact List.mem_singleton_self i
  | cons k rest ih =>
    rw [List.foldl_cons]
    have hmax : i.max k = i ∨ i.max k = k := by
      unfold InstanceNumber.max
      split_ifs
      · exact .inr rfl
      · exact .inl rfl
    rcases List.mem_cons.1 (ih (i.max k)) with heq | hmem
    · rw [heq]
      rcases hmax with heq | heq <;> simp [heq]
    · exact List.mem_cons_of_mem i (List.mem_cons_of_mem k hmem)

theorem nextAfter_eq (instances : List InstanceNumber) :
    (instances = [] ∧ nextAfter instances = .first) ∨
      ∃ j, Largest (· ∈ instances) j ∧ nextAfter instances = j.next := by
  cases instances with
  | nil => exact .inl ⟨rfl, rfl⟩
  | cons i rest =>
    exact .inr ⟨_, ⟨foldl_max_mem i rest, number_le_foldl_max i rest⟩, rfl⟩

end Table

section Content

variable {E : Type} [Entity E]

def Entity.unranked (rankName? : Option String) (e : E) (name : String) : Option Value :=
  if rankName? = some name then none else get? e name

namespace Table

variable {rankName? : Option String} {s t t' : Table E} {row : E}

/-- What the table holds under a number, ranks left out. -/
def content? (rankName? : Option String) (t : Table E) (i : InstanceNumber) :
    Option (String → Option Value) :=
  (t.get? i).map (Entity.unranked rankName?)

theorem content?_eq_none : t.content? rankName? i = none ↔ i ∉ t.rows.instances := by
  rw [content?, Option.map_eq_none_iff, Rows.mem_instances_iff, Option.eq_none_iff_forall_ne_some]
  simp only [get?, ne_eq, Rows.get?_eq_some_iff, not_exists]

/-- The tables hold the same under all numbers but `i`, ranks left out. -/
def SameBut (rankName? : Option String) (i : InstanceNumber) (s t : Table E) : Prop :=
  ∀ j, j ≠ i → t.content? rankName? j = s.content? rankName? j

theorem sameBut_of_mem_iff (h : ∀ j row, j ≠ i →
    ((j, row) ∈ t.rows.entries ↔ (j, row) ∈ s.rows.entries)) : SameBut rankName? i s t := by
  intro j hj
  have hget : t.get? j = s.get? j := by
    apply Option.ext
    intro row
    rw [get?, get?, Rows.get?_eq_some_iff, Rows.get?_eq_some_iff, h j row hj]
  rw [content?, content?, hget]

theorem sameBut_add (h : t.add row = .ok (i, t')) : SameBut rankName? i t t' := by
  obtain ⟨-, -, named, -, -, -, rfl⟩ := add_eq_ok_iff.1 h
  apply sameBut_of_mem_iff
  intro j other hj
  simp [Rows.mem_entries_insert, hj]

theorem sameBut_remove (h : t.remove i = .ok (row, t')) : SameBut rankName? i t t' := by
  obtain ⟨-, rfl⟩ := remove_eq_ok_iff.1 h
  apply sameBut_of_mem_iff
  intro j other hj
  simp [drop, Rows.mem_entries_erase, hj]

theorem sameBut_write {origin : Origin} {updates : Updates}
    (h : t.write i origin updates = .ok t') : SameBut rankName? i t t' := by
  obtain ⟨old, new, hold, -, -, rfl⟩ := write_eq_ok_iff.1 h
  have hi : i ∈ t.rows.instances := Rows.mem_instances_iff.2 ⟨old, Rows.get?_eq_some_iff.1 hold⟩
  apply sameBut_of_mem_iff
  intro j other hj
  simp [commit, Rows.mem_entries_replace hi, hj]

/-- Other ranks are left out. -/
theorem Reranked.content?_eq [Ranked E] (h : Reranked s t) :
    t.content? (some (Ranked.rankName E)) i = s.content? (some (Ranked.rankName E)) i := by
  cases hold : s.get? i with
  | none =>
    have hnone : s.content? (some (Ranked.rankName E)) i = none := by
      rw [content?, hold, Option.map_none]
    rw [hnone, content?_eq_none, h.instances_eq]
    exact content?_eq_none.1 hnone
  | some old =>
    obtain ⟨n, hmem⟩ := h.exists_mem (Rows.get?_eq_some_iff.1 hold)
    have hnew : t.get? i = some (Ranked.withRank old n) := Rows.get?_eq_some_iff.2 hmem
    rw [content?, content?, hold, hnew, Option.map_some, Option.map_some, Option.some.injEq]
    funext name
    unfold Entity.unranked
    split_ifs with hname
    · rfl
    · apply Ranked.get?_withRank_of_ne
      rintro rfl
      exact hname rfl

theorem SameBut.reranked [Ranked E] (h : SameBut (some (Ranked.rankName E)) i s t)
    (hrank : Reranked t t') : SameBut (some (Ranked.rankName E)) i s t' := by
  intro j hj
  rw [hrank.content?_eq, h j hj]

theorem next_of_decode {d : Doc} (h : decode d = .ok t) : t.next = nextAfter t.rows.instances := by
  unfold decode at h
  split at h
  next =>
    obtain ⟨rows, -, rfl⟩ := map_eq_ok_iff.1 h
    rfl
  next => cases h

theorem eq_next_of_add (h : t.add row = .ok (i, t')) : i = t.next ∧ i ∈ t'.rows.instances := by
  obtain ⟨-, hi, named, -, -, -, rfl⟩ := add_eq_ok_iff.1 h
  exact ⟨hi, Rows.mem_instances_insert.2 (.inl rfl)⟩

theorem mem_of_write {origin : Origin} {updates : Updates}
    (h : t.write i origin updates = .ok t') : i ∈ t.rows.instances := by
  obtain ⟨old, -, hold, -⟩ := write_eq_ok_iff.1 h
  exact Rows.mem_instances_iff.2 ⟨old, Rows.get?_eq_some_iff.1 hold⟩

theorem not_mem_of_remove (h : t.remove i = .ok (row, t')) : i ∉ t'.rows.instances := by
  obtain ⟨-, rfl⟩ := remove_eq_ok_iff.1 h
  simp [drop, Rows.instances_erase]

end Table

theorem Ranking.next_of_decode [Ranked E] {d : Doc} {t : Ranking E}
    (h : Ranking.decode d = .ok t) : t.table.next = Table.nextAfter t.table.rows.instances := by
  obtain ⟨table, htable, rfl⟩ := map_eq_ok_iff.1 h
  have hrank := reranked_settle table none
  rw [hrank.next_eq, hrank.instances_eq, Table.next_of_decode htable]

theorem Entity.unranked_eq_of_beq [BEq E] [Regular E] (rankName? : Option String) {a b : E}
    (h : (a == b) = true) : unranked rankName? a = unranked rankName? b := by
  obtain ⟨hrecord, -⟩ := (Regular.beq_iff a b).1 h
  funext name
  simp only [unranked, get?, hrecord]

end Content

namespace Collection

class Numbering (c : Collection) [BEq c.Row] : Prop where
  table_empty : c.table c.empty = .empty
  next_of_decode : ∀ {d s}, Codec.decode d = .ok s →
    (c.table s).next = Table.nextAfter (c.table s).rows.instances
  next_setOptions : ∀ s options, (c.table (c.setOptions s options)).next = (c.table s).next
  unranked_eq : ∀ {a b : c.Row}, (a == b) = true →
    Entity.unranked c.rankName? a = Entity.unranked c.rankName? b
  add : ∀ {s row rank? i s'}, c.add s row rank? = .ok (i, s') →
    i = (c.table s).next ∧ i ∈ (c.table s').rows.instances ∧
      Table.SameBut c.rankName? i (c.table s) (c.table s')
  write : ∀ {s i origin updates s'}, c.write s i origin updates = .ok s' →
    i ∈ (c.table s).rows.instances ∧ Table.SameBut c.rankName? i (c.table s) (c.table s')
  remove : ∀ {s i row s'}, c.remove s i = .ok (row, s') →
    i ∉ (c.table s').rows.instances ∧ Table.SameBut c.rankName? i (c.table s) (c.table s')

section Instances

variable (E : Type) [Entity E] [BEq E] [Regular E]

instance : Numbering (plain E) where
  table_empty := rfl
  next_of_decode h := Table.next_of_decode (E := E) h
  next_setOptions _ _ := rfl
  unranked_eq := Entity.unranked_eq_of_beq (E := E) none
  add h := ⟨(Table.eq_next_of_add (E := E) h).1, (Table.eq_next_of_add (E := E) h).2,
    Table.sameBut_add (E := E) h⟩
  write h := ⟨Table.mem_of_write (E := E) h, Table.sameBut_write (E := E) h⟩
  remove h := ⟨Table.not_mem_of_remove (E := E) h, Table.sameBut_remove (E := E) h⟩

instance [Ranked E] : Numbering (ranked E) where
  table_empty := rfl
  next_of_decode h := Ranking.next_of_decode (E := E) h
  next_setOptions _ _ := rfl
  unranked_eq := Entity.unranked_eq_of_beq (E := E) _
  add := by
    intro s row rank? i s' h
    obtain ⟨-, t, ht, rfl⟩ := Ranking.insert_eq_ok_iff.1 h
    have hrank := Ranking.reranked_settle t (some i)
    obtain ⟨hi, hmem⟩ := Table.eq_next_of_add ht
    exact ⟨hi, hrank.instances_eq ▸ hmem, (Table.sameBut_add ht).reranked hrank⟩
  write := by
    intro s i origin updates s' h
    obtain ⟨t, ht, rfl⟩ := Ranking.write_eq_ok_iff.1 h
    exact ⟨Table.mem_of_write ht, (Table.sameBut_write ht).reranked (Ranking.reranked_settle t _)⟩
  remove := by
    intro s i row s' h
    obtain ⟨t, ht, rfl⟩ := Ranking.remove_eq_ok_iff.1 h
    have hrank := Ranking.reranked_settle t none
    exact ⟨hrank.instances_eq ▸ Table.not_mem_of_remove ht,
      (Table.sameBut_remove ht).reranked hrank⟩

end Instances
end Collection

instance (kind : ObjectKind) : Collection.Numbering kind.collection :=
  match kind with
  | .firewallChain => inferInstanceAs (Collection.Numbering (.plain Chain))
  | .firewallRule => inferInstanceAs (Collection.Numbering (.ranked FirewallRule))
  | .dhcpPool => inferInstanceAs (Collection.Numbering (.ranked DhcpPool))
  | .dhcpStaticAddress => inferInstanceAs (Collection.Numbering (.plain StaticAddress))
  | .dhcpClient => inferInstanceAs (Collection.Numbering (.plain DhcpClient))
  | .conditionalPool => inferInstanceAs (Collection.Numbering (.ranked ConditionalPool))
  | .portMapping => inferInstanceAs (Collection.Numbering (.plain PortMapping))
  | .ipInterface => inferInstanceAs (Collection.Numbering (.plain IpInterface))
  | .ipv4Address => inferInstanceAs (Collection.Numbering (.plain Ipv4Entry))
  | .ipv6Prefix => inferInstanceAs (Collection.Numbering (.plain Ipv6Prefix))
  | .mqttClient => inferInstanceAs (Collection.Numbering (.plain MqttClient))
  | .mqttSubscription => inferInstanceAs (Collection.Numbering (.plain Subscription))
  | .audioOutput => inferInstanceAs (Collection.Numbering (.plain AudioOutput))

end Cwmp
