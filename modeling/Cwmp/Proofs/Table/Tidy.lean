import Cwmp.Proofs.Entity.Tidy
import Cwmp.Proofs.Objects.Regular
import Cwmp.Proofs.Table.Reranked

/-! # What documents keep of tables

Documents keep the tables that were loaded and those that are made of them by creating and deleting
rows and by requests. They keep the order of rankings, which are without gaps at all times.
-/
namespace Cwmp

namespace Table

variable {E : Type} [Entity E] [BEq E] [Regular E] {t t' : Table E} {i : InstanceNumber} {row : E}

theorem tidy_empty (options : Options) : (Table.empty options : Table E).Tidy := by
  intro i row h
  cases h

theorem Tidy.of_subset (h : t.Tidy) (hsub : t'.rows.entries ⊆ t.rows.entries) : t'.Tidy :=
  fun i row hmem => h i row (hsub hmem)

theorem Tidy.reranked [Ranked E] (h : t.Tidy) (hrank : Reranked t t') : t'.Tidy := by
  intro i row hmem
  obtain ⟨old, n, hold, rfl⟩ := hrank.mem_entries hmem
  exact (h i old hold).withRank n

theorem Tidy.insert (h : t.Tidy) (hrow : Entity.Tidy row) {aliases : AliasIndex}
    {next : InstanceNumber} : Tidy { t with
      rows := t.rows.insert i row
      aliases := aliases
      next := next } := by
  intro j other hmem
  rcases Rows.mem_entries_insert.1 hmem with ⟨-, rfl⟩ | ⟨-, hold⟩
  · exact hrow
  · exact h j other hold

theorem tidy_named {named : E} (hrow : Entity.Tidy row) (h : t.named i row = .ok named) :
    Entity.Tidy named := by
  unfold Table.named at h
  split_ifs at h
  · obtain ⟨s, -, rfl⟩ := map_eq_ok_iff.1 h
    exact hrow.withAlias s
  · cases h
    exact hrow

theorem Tidy.add (h : t.Tidy) (hrow : Entity.Tidy row) (hadd : t.add row = .ok (i, t')) :
    t'.Tidy := by
  obtain ⟨-, rfl, named, hnamed, -, -, rfl⟩ := add_eq_ok_iff.1 hadd
  exact h.insert (tidy_named hrow hnamed)

theorem Tidy.remove (h : t.Tidy) (hremove : t.remove i = .ok (row, t')) : t'.Tidy := by
  obtain ⟨-, rfl⟩ := remove_eq_ok_iff.1 hremove
  exact h.of_subset fun e he => (Rows.mem_entries_erase.1 he).2

theorem Tidy.write (h : t.Tidy) {origin : Origin} {updates : Updates}
    (hwrite : t.write i origin updates = .ok t') : t'.Tidy := by
  obtain ⟨old, row, hold, hrow, -, rfl⟩ := write_eq_ok_iff.1 hwrite
  intro j other hmem
  have hold' : (i, old) ∈ t.rows.entries := Rows.get?_eq_some_iff.1 hold
  rcases (Rows.mem_entries_replace (Rows.mem_instances_iff.2 ⟨old, hold'⟩)).1 hmem with
    ⟨-, rfl⟩ | ⟨-, hother⟩
  · exact (h i old hold').write hrow
  · exact h j other hother

section Loading

variable [Keepable E]

theorem tidy_of_loadRows {members : List (Key × Doc)} : ∀ {rows rows' : Rows E},
    (∀ i row, (i, row) ∈ rows.entries → Entity.Tidy row) → loadRows rows members = .ok rows' →
      ∀ i row, (i, row) ∈ rows'.entries → Entity.Tidy row := by
  induction members with
  | nil =>
    intro rows rows' h hload
    cases hload
    exact h
  | cons member members ih =>
    intro rows rows' h hload
    obtain ⟨key, d⟩ := member
    cases key with
    | name s => cases hload
    | index n =>
      simp only [loadRows] at hload
      split at hload
      next => cases hload
      next i hi =>
        obtain ⟨row, hrow, hrest⟩ := bind_eq_ok_iff.1 hload
        refine ih (fun j other hmem => ?_) hrest
        rcases Rows.mem_entries_insert.1 hmem with ⟨-, rfl⟩ | ⟨-, hold⟩
        · exact Entity.tidy_of_decode hrow
        · exact h j other hold

theorem tidy_of_decode {d : Doc} (h : decode d = .ok t) : t.Tidy := by
  unfold decode at h
  split at h
  next =>
    obtain ⟨rows, hload, rfl⟩ := map_eq_ok_iff.1 h
    exact tidy_of_loadRows (fun i row hmem => by cases hmem) hload
  next => cases h

theorem holds_encode (t : Table E) : Json.Holds t.encode := by
  refine Json.holdsMembers_iff.2 fun key value hmem => ?_
  obtain ⟨⟨i, row⟩, -, heq⟩ := List.mem_map.1 hmem
  cases heq
  exact ⟨Json.keyOf_decimal i.number, Entity.holds_encode row⟩

instance : Kept (Table E) where
  tidy_of_isEmpty {t} h i row hmem := by
    rw [show t.rows.entries = [] from h] at hmem
    cases hmem
  tidy_of_decode := tidy_of_decode
  holds_encode := holds_encode

end Loading
end Table

namespace Ranking

open Table (Reranked)

variable {E : Type} [Entity E] [Ranked E] [BEq E] [Regular E] {t t' : Ranking E}
  {i : InstanceNumber} {row : E}

theorem tidy_settle {table : Table E} (h : table.Tidy) (moved : Option InstanceNumber) :
    (settle table moved).Tidy :=
  ⟨h.reranked (reranked_settle table moved), dense_settle table moved⟩

theorem tidy_empty (options : Options) : (Ranking.empty options : Ranking E).Tidy :=
  ⟨Table.tidy_empty options, (Initial.empty options).dense⟩

theorem Tidy.insert (h : t.Tidy) (hrow : Entity.Tidy row) {requested : Option UInt32}
    (hinsert : t.insert row requested = .ok (i, t')) : t'.Tidy := by
  obtain ⟨-, table, hadd, rfl⟩ := insert_eq_ok_iff.1 hinsert
  exact tidy_settle (h.1.add (hrow.withRank _) hadd) _

theorem Tidy.remove (h : t.Tidy) (hremove : t.remove i = .ok (row, t')) : t'.Tidy := by
  obtain ⟨table, htable, rfl⟩ := remove_eq_ok_iff.1 hremove
  exact tidy_settle (h.1.remove htable) none

theorem Tidy.write (h : t.Tidy) {origin : Origin} {updates : Updates}
    (hwrite : t.write i origin updates = .ok t') : t'.Tidy := by
  obtain ⟨table, htable, rfl⟩ := write_eq_ok_iff.1 hwrite
  exact tidy_settle (h.1.write htable) _

theorem tidy_of_decode [Keepable E] {d : Doc} (h : decode d = .ok t) : t.Tidy := by
  obtain ⟨table, htable, rfl⟩ := map_eq_ok_iff.1 h
  exact tidy_settle (Table.tidy_of_decode htable) none

instance [Keepable E] : Kept (Ranking E) where
  tidy_of_isEmpty {t} h := by
    have hnil : t.table.rows.entries = [] := h
    refine ⟨fun i row hmem => by simp [hnil] at hmem, ?_⟩
    simp [Dense, byRank, sorted, Rows.size, hnil]
  tidy_of_decode := tidy_of_decode
  holds_encode t := Table.holds_encode t.table

end Ranking

theorem initial_values_tidy {E : Type} [Entity E]
    (h : (Entity.values (Entity.initial : E)).all fun p => decide p.2.Tidy) :
    ∀ f v, (f, v) ∈ Entity.values (Entity.initial : E) → v.Tidy := by
  intro f v hmem
  simpa using List.all_eq_true.1 h (f, v) hmem

instance : Keepable FirewallRule where
  toKeptAll := inferInstanceAs (KeptAll [])
  initial_values_tidy := initial_values_tidy rfl

instance : Keepable StaticAddress where
  toKeptAll := inferInstanceAs (KeptAll [])
  initial_values_tidy := initial_values_tidy rfl

instance : Keepable DhcpClient where
  toKeptAll := inferInstanceAs (KeptAll [])
  initial_values_tidy := initial_values_tidy rfl

instance : Keepable ConditionalPool where
  toKeptAll := inferInstanceAs (KeptAll [])
  initial_values_tidy := initial_values_tidy rfl

instance : Keepable PortMapping where
  toKeptAll := inferInstanceAs (KeptAll [])
  initial_values_tidy := initial_values_tidy rfl

instance : Keepable Ipv4Entry where
  toKeptAll := inferInstanceAs (KeptAll [])
  initial_values_tidy := initial_values_tidy rfl

instance : Keepable Ipv6Prefix where
  toKeptAll := inferInstanceAs (KeptAll [])
  initial_values_tidy := initial_values_tidy rfl

instance : Keepable Subscription where
  toKeptAll := inferInstanceAs (KeptAll [])
  initial_values_tidy := initial_values_tidy rfl

instance : Keepable AudioOutput where
  toKeptAll := inferInstanceAs (KeptAll [])
  initial_values_tidy := initial_values_tidy rfl

instance : Keepable Chain where
  toKeptAll := inferInstanceAs (KeptAll [⟨"Rule", Ranking FirewallRule⟩])
  initial_values_tidy := initial_values_tidy rfl

instance : Keepable DhcpPool where
  toKeptAll := inferInstanceAs (KeptAll [⟨"StaticAddress", Table StaticAddress⟩,
    ⟨"Client", Table DhcpClient⟩])
  initial_values_tidy := initial_values_tidy rfl

instance : Keepable IpInterface where
  toKeptAll := inferInstanceAs (KeptAll [⟨"IPv4Address", Table Ipv4Entry⟩,
    ⟨"IPv6Prefix", Table Ipv6Prefix⟩])
  initial_values_tidy := initial_values_tidy rfl

instance : Keepable MqttClient where
  toKeptAll := inferInstanceAs (KeptAll [⟨"Subscription", Table Subscription⟩])
  initial_values_tidy := initial_values_tidy rfl

end Cwmp
