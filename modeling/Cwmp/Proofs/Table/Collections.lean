import Cwmp.ObjectKind
import Cwmp.Proofs.Table.Alike
import Cwmp.Proofs.Table.FieldFaults
import Cwmp.Proofs.Table.Reload
import Cwmp.Proofs.Table.Tidy
import Cwmp.Proofs.Table.Violations

/-! # Valid tables

A table is valid when no parameter of a row has a fault and no row breaks a rule between rows. The
changes that are made by command keep tables valid, and documents give back valid tables of valid
ones. This holds of tables with and without ranks.
-/
namespace Cwmp

namespace Table

variable {E : Type} [Entity E] {t t' : Table E} {checked? written? : Option InstanceNumber}

/-- There is nothing wrong with any row, neither by itself nor beside others. -/
structure Valid (t : Table E) : Prop where
  faultless : t.Faultless
  reported_eq_nil : t.reported = []

theorem valid_empty (options : Options) : (Table.empty options : Table E).Valid :=
  ⟨faultless_empty options, rfl⟩

theorem Valid.of_rows_eq (h : t.Valid) (hrows : t'.rows = t.rows) : t'.Valid where
  faultless i row hrow := h.faultless i row (by rwa [get?, ← hrows])
  reported_eq_nil := by
    have hreported := h.reported_eq_nil
    rwa [reported, violations, ← hrows] at hreported

theorem Valid.kept (h : t.Valid) (hfaults : FaultsKept t t' checked?)
    (hviolations : Contained t t' written?) : t'.Valid where
  faultless := h.faultless.kept hfaults
  reported_eq_nil := by
    have hsub := hviolations.subset
    rw [h.reported_eq_nil] at hsub
    exact List.subset_nil.1 hsub

theorem Valid.reloaded [BEq E] [Regular E] (h : t.Valid) : t.reloaded.Valid where
  faultless := by
    intro i row hrow
    obtain ⟨old, hold, rfl⟩ := Rows.mem_entries_map.1 (Rows.get?_eq_some_iff.1 hrow)
    rw [(Entity.same_reloaded old).validate_eq]
    exact h.faultless i old (Rows.get?_eq_some_iff.2 hold)
  reported_eq_nil := by
    have hkept : t.reloaded.rows.kept = t.rows.kept := by
      simp [Table.reloaded, ofRows, Rows.kept, Rows.map_map]
    rw [reported, Related.violations_eq (Rows.kept_eq_iff.1 hkept) oblivious_same]
    exact h.reported_eq_nil

end Table

theorem Ranking.dense_ranks {E : Type} [Entity E] [Ranked E] {t : Ranking E} (h : t.Dense) :
    (t.table.rows.entries.map fun e => Entity.get? e.2 (Ranked.rankName E)).Perm
      ((List.range' 1 t.table.rows.size).map fun n => some (.unsigned n)) := by
  have hranks : (t.byRank.map fun e => Entity.get? e.2 (Ranked.rankName E)) =
      (List.range' 1 t.table.rows.size).map fun n => some (.unsigned n) := by
    rw [← h, List.map_map]
    exact List.map_congr_left fun e _ => Ranked.get?_rankName e.2
  rw [← hranks]
  exact (t.byRank_perm.map _).symm

namespace Collection

section Changes

variable (c : Collection)

inductive Change (s : c.State) : c.State → Prop
  | written {i : InstanceNumber} {origin : Origin} {updates : Updates} {s' : c.State} :
      c.write s i origin updates = .ok s' → Change s s'
  | added {origin : Origin} {updates : Updates} {row : c.Row} {rank? : Option UInt32}
      {i : InstanceNumber} {s' : c.State} :
      Entity.write origin updates (Entity.initial : c.Row) = .ok row →
      c.add s row rank? = .ok (i, s') → Change s s'
  | removed {i : InstanceNumber} {row : c.Row} {s' : c.State} :
      c.remove s i = .ok (row, s') → Change s s'

def RankedInOrder (s : c.State) : Prop :=
  ∀ name, c.rankName? = some name →
    ((c.table s).rows.entries.map fun e => Entity.get? e.2 name).Perm
      ((List.range' 1 (c.table s).rows.size).map fun n => some (.unsigned n))

/-- Documents keep the tables that commands handle. -/
class Lawful [BEq c.Row] where
  /-- All of the table is kept in documents. -/
  Tidy : c.State → Prop
  tidy_empty : Tidy c.empty
  tidy_of_decode : ∀ {d s}, Codec.decode d = .ok s → Tidy s
  tidy_setOptions : ∀ {s options}, Tidy s → Tidy (c.setOptions s options)
  tidy_change : ∀ {s s'}, Tidy s → c.Change s s' → Tidy s'
  valid_empty : (c.table c.empty).Valid
  valid_change : ∀ {s s'}, (c.table s).Valid → c.Change s s' → (c.table s').Valid
  rows_setOptions : ∀ s options, (c.table (c.setOptions s options)).rows = (c.table s).rows
  exists_decode_encode : ∀ {s}, Tidy s → ∃ s', Codec.decode (Codec.encode s) = .ok s' ∧
    Table.RowsEqual (c.table s).rows.entries (c.table s').rows.entries ∧
    ((c.table s).Valid → (c.table s').Valid)
  rankedInOrder : ∀ {s}, Tidy s → c.RankedInOrder s
  holds_encode : ∀ s : c.State, Json.Holds (Codec.encode s)

end Changes

section Instances

variable (E : Type) [Entity E] [BEq E]

instance : BEq (plain E).Row :=
  inferInstanceAs (BEq E)

instance [Ranked E] : BEq (ranked E).Row :=
  inferInstanceAs (BEq E)

variable [Regular E] [Keepable E]

instance : Lawful (plain E) where
  Tidy s := Table.Tidy (E := E) s
  tidy_empty := Table.tidy_empty {}
  tidy_of_decode := Table.tidy_of_decode
  tidy_setOptions h := h
  tidy_change := by
    intro s s' h hchange
    cases hchange with
    | written hwrite => exact Table.Tidy.write h hwrite
    | added hrow hadd => exact Table.Tidy.add h (Entity.tidy_initial.write hrow) hadd
    | removed hremove => exact Table.Tidy.remove h hremove
  valid_empty := Table.valid_empty {}
  valid_change := by
    intro s s' h hchange
    obtain ⟨op, w, hstep⟩ : ∃ op w, Table.Step (E := E) s op w s' := by
      cases hchange with
      | written hwrite => exact ⟨_, _, .written hwrite⟩
      | added _ hadd => exact ⟨_, _, .added hadd⟩
      | removed hremove => exact ⟨_, _, .removed hremove⟩
    exact h.kept hstep.faultsKept hstep.contained
  rows_setOptions _ _ := rfl
  exists_decode_encode h :=
    ⟨_, Table.decode_encode h, Table.rowsEqual_reloaded (E := E) _, Table.Valid.reloaded (E := E)⟩
  rankedInOrder _ _ h := by cases h
  holds_encode s := Table.holds_encode (E := E) s

instance [Ranked E] : Lawful (ranked E) where
  Tidy s := Ranking.Tidy (E := E) s
  tidy_empty := Ranking.tidy_empty {}
  tidy_of_decode := Ranking.tidy_of_decode
  tidy_setOptions h := h
  tidy_change := by
    intro s s' h hchange
    cases hchange with
    | written hwrite => exact Ranking.Tidy.write h hwrite
    | added hrow hadd => exact Ranking.Tidy.insert h (Entity.tidy_initial.write hrow) hadd
    | removed hremove => exact Ranking.Tidy.remove h hremove
  valid_empty := Table.valid_empty {}
  valid_change := by
    intro s s' h hchange
    obtain ⟨op, w, hstep⟩ : ∃ op w, Ranking.Step (E := E) s op w s' := by
      cases hchange with
      | written hwrite => exact ⟨_, _, .written hwrite⟩
      | added _ hadd => exact ⟨_, _, .inserted hadd⟩
      | removed hremove => exact ⟨_, _, .removed hremove⟩
    exact h.kept hstep.faultsKept hstep.contained
  rows_setOptions _ _ := rfl
  exists_decode_encode h :=
    ⟨_, Ranking.decode_encode h, Table.rowsEqual_reloaded (E := E) _,
      Table.Valid.reloaded (E := E)⟩
  rankedInOrder h name hname := by
    cases hname
    exact Ranking.dense_ranks (E := E) h.2
  holds_encode s := Table.holds_encode (E := E) (Ranking.table s)

end Instances
end Collection

namespace ObjectKind

instance (kind : ObjectKind) : BEq kind.collection.Row :=
  match kind with
  | firewallChain => inferInstanceAs (BEq Chain)
  | firewallRule => inferInstanceAs (BEq FirewallRule)
  | dhcpPool => inferInstanceAs (BEq DhcpPool)
  | dhcpStaticAddress => inferInstanceAs (BEq StaticAddress)
  | dhcpClient => inferInstanceAs (BEq DhcpClient)
  | conditionalPool => inferInstanceAs (BEq ConditionalPool)
  | portMapping => inferInstanceAs (BEq PortMapping)
  | ipInterface => inferInstanceAs (BEq IpInterface)
  | ipv4Address => inferInstanceAs (BEq Ipv4Entry)
  | ipv6Prefix => inferInstanceAs (BEq Ipv6Prefix)
  | mqttClient => inferInstanceAs (BEq MqttClient)
  | mqttSubscription => inferInstanceAs (BEq Subscription)
  | audioOutput => inferInstanceAs (BEq AudioOutput)

instance (kind : ObjectKind) : Regular kind.collection.Row :=
  match kind with
  | firewallChain => inferInstanceAs (Regular Chain)
  | firewallRule => inferInstanceAs (Regular FirewallRule)
  | dhcpPool => inferInstanceAs (Regular DhcpPool)
  | dhcpStaticAddress => inferInstanceAs (Regular StaticAddress)
  | dhcpClient => inferInstanceAs (Regular DhcpClient)
  | conditionalPool => inferInstanceAs (Regular ConditionalPool)
  | portMapping => inferInstanceAs (Regular PortMapping)
  | ipInterface => inferInstanceAs (Regular IpInterface)
  | ipv4Address => inferInstanceAs (Regular Ipv4Entry)
  | ipv6Prefix => inferInstanceAs (Regular Ipv6Prefix)
  | mqttClient => inferInstanceAs (Regular MqttClient)
  | mqttSubscription => inferInstanceAs (Regular Subscription)
  | audioOutput => inferInstanceAs (Regular AudioOutput)

instance (kind : ObjectKind) : Collection.Lawful kind.collection :=
  match kind with
  | firewallChain => inferInstanceAs (Collection.Lawful (.plain Chain))
  | firewallRule => inferInstanceAs (Collection.Lawful (.ranked FirewallRule))
  | dhcpPool => inferInstanceAs (Collection.Lawful (.ranked DhcpPool))
  | dhcpStaticAddress => inferInstanceAs (Collection.Lawful (.plain StaticAddress))
  | dhcpClient => inferInstanceAs (Collection.Lawful (.plain DhcpClient))
  | conditionalPool => inferInstanceAs (Collection.Lawful (.ranked ConditionalPool))
  | portMapping => inferInstanceAs (Collection.Lawful (.plain PortMapping))
  | ipInterface => inferInstanceAs (Collection.Lawful (.plain IpInterface))
  | ipv4Address => inferInstanceAs (Collection.Lawful (.plain Ipv4Entry))
  | ipv6Prefix => inferInstanceAs (Collection.Lawful (.plain Ipv6Prefix))
  | mqttClient => inferInstanceAs (Collection.Lawful (.plain MqttClient))
  | mqttSubscription => inferInstanceAs (Collection.Lawful (.plain Subscription))
  | audioOutput => inferInstanceAs (Collection.Lawful (.plain AudioOutput))

end ObjectKind
end Cwmp
