import Cwmp.Objects.Dhcp
import Cwmp.Objects.IpInterface
import Cwmp.Proofs.Table.Purging

/-! # Rows that never expire

A rule or a prefix whose end is marked as a time that never comes has not expired at any time, not
even at the time of the mark itself or after it, and no purge deletes it. The lease of a client
knows no such mark: an infinite one is a time like any other, and at that time the client expires.
-/
namespace Cwmp

section Purges

variable {E : Type} [Entity E] [Expiring E] {row : E} {now : Instant}

theorem Table.get?_purge (t : Table E) (now : Instant) (i : InstanceNumber) :
    (t.purge now).2.get? i = (t.get? i).filter fun row => !Expiring.isExpired row now := by
  apply Option.ext
  intro row
  rw [Option.filter_eq_some_iff, Table.get?, Table.get?, Rows.get?_eq_some_iff,
    Rows.get?_eq_some_iff, Table.purge, Table.mem_entries_removeWhere, Bool.not_eq_true']

theorem Ranking.exists_get?_purge [Ranked E] (t : Ranking E) {i : InstanceNumber}
    (hrow : t.table.get? i = some row) (h : Expiring.isExpired row now = false) :
    ∃ n, (t.purge now).2.table.get? i = some (Ranked.withRank row n) := by
  have hkept : (t.table.purge now).2.get? i = some row := by
    rw [Table.get?_purge, hrow, Option.filter_some, h, Bool.not_false, if_pos rfl]
  rcases removeWhere_table t (Expiring.isExpired · now) with ⟨hpurge, -⟩ | hpurge
  · refine ⟨Ranked.rank row, ?_⟩
    rw [show (t.purge now).2 = t from hpurge, hrow, Ranked.withRank_rank]
  · obtain ⟨n, hn⟩ := (reranked_settle (t.table.purge now).2 none).exists_mem
      (Rows.get?_eq_some_iff.1 hkept)
    refine ⟨n, ?_⟩
    rw [show (t.purge now).2 = settle (t.table.purge now).2 none from hpurge]
    exact Rows.get?_eq_some_iff.2 hn

/-- A row that has not expired at a time and that a purge at this time leaves in every table. -/
structure Outlasts (row : E) (now : Instant) : Prop where
  not_expired : Expiring.isExpired row now = false
  kept : ∀ (t : Table E) i, t.get? i = some row → (t.purge now).2.get? i = some row

theorem outlasts_iff : Outlasts row now ↔ Expiring.isExpired row now = false := by
  constructor
  · exact Outlasts.not_expired
  · intro h
    refine ⟨h, fun t i hrow => ?_⟩
    rw [Table.get?_purge, hrow, Option.filter_some, h, Bool.not_false, if_pos rfl]

end Purges

theorem FirewallRule.isExpired_of_infinite {row : FirewallRule} (h : row.expiryDate = .infinite)
    (now : Instant) : Expiring.isExpired row now = false := by
  simp [Expiring.isExpired, Expiring.expiresAt, h]

theorem Ipv6Prefix.isExpired_of_infinite {row : Ipv6Prefix} (h : row.validLifetime = .infinite)
    (now : Instant) : Expiring.isExpired row now = false := by
  simp [Expiring.isExpired, Expiring.expiresAt, h]

theorem DhcpClient.isExpired_of_infinite {row : DhcpClient}
    (h : row.leaseTimeRemaining = .infinite) (now : Instant) :
    Expiring.isExpired row now = decide (.infinite ≤ now) := by
  have hknown : Instant.infinite ≠ .unknown := by decide
  simp only [Expiring.isExpired, Expiring.expiresAt, h, hknown, ↓reduceIte, Option.any_some]

/-- A rule that is marked never to expire outlasts every time, and a prefix that is marked so does,
whatever table they stand in; purging a ranking may give the rule another rank. A client with a
lease of this mark outlasts the times before the mark only, and later purges delete it. -/
theorem infinite_outlasts (now : Instant) :
    (∀ row : FirewallRule, row.expiryDate = .infinite → Outlasts row now ∧
      ∀ (t : Ranking FirewallRule) i, t.table.get? i = some row →
        ∃ n, (t.purge now).2.table.get? i = some (Ranked.withRank row n)) ∧
    (∀ row : Ipv6Prefix, row.validLifetime = .infinite → Outlasts row now) ∧
    ∀ row : DhcpClient, row.leaseTimeRemaining = .infinite →
      (Outlasts row now ↔ ¬ .infinite ≤ now) ∧
      ∀ (t : Table DhcpClient) i, t.get? i = some row → .infinite ≤ now →
        (t.purge now).2.get? i = none := by
  refine ⟨fun row h => ?_, fun row h => ?_, fun row h => ?_⟩
  · have hrow := FirewallRule.isExpired_of_infinite h now
    exact ⟨outlasts_iff.2 hrow, fun t i hi => t.exists_get?_purge hi hrow⟩
  · exact outlasts_iff.2 (Ipv6Prefix.isExpired_of_infinite h now)
  · have hrow := DhcpClient.isExpired_of_infinite h now
    constructor
    · rw [outlasts_iff, hrow, decide_eq_false_iff_not]
    · intro t i hi hnow
      rw [Table.get?_purge, hi, Option.filter_some, hrow, decide_eq_true hnow, Bool.not_true,
        if_neg Bool.false_ne_true]

def tenThousand : Instant where
  seconds := 253402300800
  nanos := 0

/-- A second after the mark only the client has expired. -/
theorem infinite_outlasts_tenThousand :
    let rule : FirewallRule := {}
    let assigned : Ipv6Prefix := { validLifetime := .infinite }
    let client : DhcpClient := { leaseTimeRemaining := .infinite }
    rule.expiryDate = .infinite ∧ Outlasts rule tenThousand ∧ Outlasts assigned tenThousand ∧
      ¬ Outlasts client tenThousand := by
  intro rule assigned client
  obtain ⟨hrules, hprefixes, hclients⟩ := infinite_outlasts tenThousand
  refine ⟨rfl, (hrules rule rfl).1, hprefixes assigned rfl, fun hlasts => ?_⟩
  exact (hclients client rfl).1.1 hlasts (by decide)

def endlessLease : Doc :=
  .table [(.index 1, .table [(.name "Alias", .text "box"),
    (.name "LeaseTimeRemaining", .text "9999-12-31T23:59:59Z")])]

/-- An infinite lease expires: at the time that marks it a purge deletes the client. -/
theorem endless_lease_expires : ∃ (t : Table DhcpClient) (row : DhcpClient),
    Table.decode endlessLease = .ok t ∧ t.get? .first = some row ∧
      row.leaseTimeRemaining = .infinite ∧ Expiring.isExpired row .infinite = true ∧
      (t.purge .infinite).2.get? .first = none := by
  have hlease : (Table.decode endlessLease).toOption.bind (fun t : Table DhcpClient =>
      (t.get? .first).map (·.leaseTimeRemaining)) = some .infinite := by decide +kernel
  cases hdecode : Table.decode (E := DhcpClient) endlessLease with
  | error fault => simp [hdecode, Except.toOption] at hlease
  | ok t =>
    rw [hdecode] at hlease
    obtain ⟨row, hrow, hinfinite⟩ := Option.map_eq_some_iff.1 hlease
    have hexpired : Expiring.isExpired row .infinite = true := by
      rw [DhcpClient.isExpired_of_infinite hinfinite]
      decide
    refine ⟨t, row, rfl, hrow, hinfinite, hexpired, ?_⟩
    rw [Table.get?_purge, hrow, Option.filter_some, hexpired]
    rfl

end Cwmp
