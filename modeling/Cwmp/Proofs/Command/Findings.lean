import Cwmp.Proofs.Command.Documents
import Cwmp.Proofs.Entity.ParameterMap

/-! # Findings of validation

What is wrong with the rows by themselves and what is wrong with them beside others is collected in
two passes over a table, and then sorted by row. Sorting keeps findings about one row in their
order, so a row's own faults come first. The command succeeds just when there is nothing to find.
-/
namespace Cwmp

section Sorting

variable {α : Type} (key : α → Nat)

theorem keyLe_trans (a b c : α) (hab : decide (key a ≤ key b) = true)
    (hbc : decide (key b ≤ key c) = true) : decide (key a ≤ key c) = true := by
  simp only [decide_eq_true_eq] at hab hbc ⊢
  exact hab.trans hbc

theorem keyLe_total (a b : α) : (decide (key a ≤ key b) || decide (key b ≤ key a)) = true := by
  simp only [Bool.or_eq_true, decide_eq_true_eq]
  exact Nat.le_total _ _

theorem pairwise_key_mergeSort (l : List α) :
    (l.mergeSort fun a b => key a ≤ key b).Pairwise fun a b => key a ≤ key b :=
  (List.pairwise_mergeSort (keyLe_trans key) (keyLe_total key) l).imp of_decide_eq_true

theorem filter_mergeSort (l : List α) (n : Nat) :
    (l.mergeSort fun a b => key a ≤ key b).filter (fun a => key a == n) =
      l.filter fun a => key a == n := by
  have hsame : (l.filter fun a => key a == n).Pairwise
      fun a b => decide (key a ≤ key b) = true := by
    refine List.pairwise_of_forall_mem_list fun a ha b hb => ?_
    simp only [List.mem_filter, beq_iff_eq] at ha hb
    exact decide_eq_true (ha.2.trans hb.2.symm).le
  have hsorted := List.sublist_mergeSort (keyLe_trans key) (keyLe_total key) hsame
    List.filter_sublist
  have hsub := hsorted.filter fun a => key a == n
  simp only [List.filter_filter, Bool.and_self] at hsub
  exact (hsub.eq_of_length ((List.mergeSort_perm l _).filter _).length_eq.symm).symm

variable {key} {l l' : List α}

theorem mem_of_filter_eq (h : ∀ n, l.filter (fun a => key a == n) = l'.filter fun a => key a == n)
    {a : α} (ha : a ∈ l) : a ∈ l' := by
  have hmem : a ∈ l.filter fun b => key b == key a := List.mem_filter.2 ⟨ha, by simp⟩
  rw [h] at hmem
  exact (List.mem_filter.1 hmem).1

/-- A list that is sorted by a key is told by its entries of each key. -/
theorem eq_of_filter_eq (hl : l.Pairwise fun a b => key a ≤ key b)
    (hl' : l'.Pairwise fun a b => key a ≤ key b)
    (h : ∀ n, l.filter (fun a => key a == n) = l'.filter fun a => key a == n) : l = l' := by
  induction l generalizing l' with
  | nil => exact (List.eq_nil_iff_forall_not_mem.2 fun a ha =>
      List.not_mem_nil (mem_of_filter_eq (fun n => (h n).symm) ha)).symm
  | cons a l ih =>
    cases l' with
    | nil => exact absurd (mem_of_filter_eq h List.mem_cons_self) List.not_mem_nil
    | cons b l' =>
      rw [List.pairwise_cons] at hl hl'
      have hle : key b ≤ key a := by
        rcases List.mem_cons.1 (mem_of_filter_eq h List.mem_cons_self) with rfl | hmem
        · exact Nat.le_refl _
        · exact hl'.1 a hmem
      have hge : key a ≤ key b := by
        rcases List.mem_cons.1 (mem_of_filter_eq (fun n => (h n).symm) List.mem_cons_self) with
          rfl | hmem
        · exact Nat.le_refl _
        · exact hl.1 b hmem
      have hkey : key a = key b := Nat.le_antisymm hge hle
      have hhead : a = b := by simpa [hkey] using congrArg List.head? (h (key a))
      subst hhead
      congr 1
      refine ih hl.2 hl'.2 fun n => ?_
      have hn := h n
      simp only [List.filter_cons] at hn
      split_ifs at hn
      · exact List.tail_eq_of_cons_eq hn
      · exact hn

end Sorting

variable {E : Type} [Entity E] {t : Table E}

namespace Entity

instance (k : Kind) (v : Value) : Decidable (k.Takes v) :=
  decidable_of_iff _ Kind.accepts_iff

/-- What is wrong with an object by itself are the values outside of their bounds, each once. -/
theorem parameters_validate (e : E) : (validate e).map ParameterFault.parameter =
    ((values e).filter fun v => !decide (v.1.shape.kind.Takes v.2)).map (·.1.name) := by
  unfold validate
  induction values e with
  | nil => rfl
  | cons v values ih =>
    by_cases htakes : v.1.shape.kind.Takes v.2
    · have hcheck : v.1.shape.kind.check v.1.name v.2 = .ok () :=
        Kind.check_eq_ok_iff.2 (Kind.accepts_iff.2 htakes)
      simp [hcheck, htakes, ih]
    · cases hmisfit : v.1.shape.kind.misfit? v.2 with
      | none => exact absurd (Kind.accepts_iff.1 hmisfit) htakes
      | some misfit =>
        have hcheck : v.1.shape.kind.check v.1.name v.2 =
            .error ⟨v.1.name, misfit.faultCode, misfit.message⟩ := by
          rw [Kind.check, hmisfit]
        simp [hcheck, htakes, ih]

end Entity

namespace Finding

section Rows

variable {A : Type} (f : InstanceNumber × A → List ParameterFault)

def ofRows (rows : List (InstanceNumber × A)) : List Finding :=
  rows.flatMap fun e => (f e).map (Finding.mk e.1)

theorem filter_ofRows (rows : List (InstanceNumber × A)) (n : Nat) :
    (ofRows f rows).filter (fun a => a.row.number == n) =
      ofRows f (rows.filter fun e => e.1.number == n) := by
  induction rows with
  | nil => rfl
  | cons e rows ih =>
    rw [ofRows, List.flatMap_cons, List.filter_append, List.filter_map, List.filter_cons]
    change _ ++ (ofRows f rows).filter _ = _
    rw [ih]
    by_cases hn : e.1.number = n <;> simp [ofRows, hn, Function.comp_def]

variable {f}

theorem pairwise_ofRows {rows : List (InstanceNumber × A)}
    (h : rows.Pairwise fun a b => a.1.number < b.1.number) :
    (ofRows f rows).Pairwise fun a b => a.row.number ≤ b.row.number := by
  rw [ofRows, List.pairwise_flatMap]
  constructor
  · intro e _
    rw [List.pairwise_map]
    exact List.pairwise_of_forall fun _ _ => Nat.le_refl _
  · refine h.imp fun hlt x hx y hy => ?_
    obtain ⟨_, -, rfl⟩ := List.mem_map.1 hx
    obtain ⟨_, -, rfl⟩ := List.mem_map.1 hy
    exact hlt.le

theorem filter_number (rows : Rows A) (n : Nat) :
    (rows.entries.filter fun e => e.1.number == n) = [] ∨
      ∃ e, (rows.entries.filter fun e => e.1.number == n) = [e] := by
  have hnumber : ∀ e ∈ rows.entries.filter fun e => e.1.number == n, e.1.number = n := by
    intro e he
    simpa using (List.mem_filter.1 he).2
  have hnodup : ((rows.entries.filter fun e => e.1.number == n).map Prod.fst).Nodup :=
    (List.filter_sublist.map Prod.fst).nodup rows.nodup
  match hfilter : rows.entries.filter fun e => e.1.number == n with
  | [] => exact .inl hfilter
  | [e] => exact .inr ⟨e, hfilter⟩
  | e :: e' :: rest =>
    rw [hfilter] at hnumber hnodup
    have hne : e.1 ≠ e'.1 := by simp_all
    exact absurd (InstanceNumber.ext ((hnumber e (by simp)).trans (hnumber e' (by simp)).symm)) hne

theorem exists_sorted (rows : Rows A) : ∃ sorted : List (InstanceNumber × A),
    sorted.Perm rows.entries ∧ sorted.Pairwise (fun a b => a.1.number < b.1.number) ∧
      ∀ n, sorted.filter (fun e => e.1.number == n) =
        rows.entries.filter fun e => e.1.number == n := by
  refine ⟨_, List.mergeSort_perm _ _, ?_, filter_mergeSort (·.1.number) rows.entries⟩
  have hperm := (List.mergeSort_perm rows.entries fun a b => a.1.number ≤ b.1.number).map Prod.fst
  have hne := List.pairwise_map.1 (hperm.nodup_iff.2 rows.nodup)
  refine (pairwise_key_mergeSort (·.1.number) rows.entries).imp₂ ?_ hne
  exact fun _ _ hle hne => lt_of_le_of_ne hle fun heq => hne (InstanceNumber.ext heq)

end Rows

theorem flatMap_violations (t : Table E) :
    (t.violations.flatMap fun v => v.2.map (Finding.mk v.1)) =
      ofRows (fun e => t.sharedFaults e.1 e.2) t.rows.entries := by
  rw [Table.violations_eq, ofRows]
  induction t.rows.entries with
  | nil => rfl
  | cons e entries ih =>
    rw [List.map_cons, List.filter_cons, List.flatMap_cons, ← ih]
    by_cases hnil : t.sharedFaults e.1 e.2 = [] <;> simp [hnil]

theorem ofTable_eq (t : Table E) : ofTable t =
    (ofRows (fun e => Entity.validate e.2) t.rows.entries ++
      ofRows (fun e => t.sharedFaults e.1 e.2) t.rows.entries).mergeSort
        fun a b => a.row.number ≤ b.row.number := by
  rw [← flatMap_violations]
  rfl

theorem ofTable_eq_ofRows {sorted : List (InstanceNumber × E)}
    (h : sorted.Pairwise fun a b => a.1.number < b.1.number)
    (hfilter : ∀ n, sorted.filter (fun e => e.1.number == n) =
      t.rows.entries.filter fun e => e.1.number == n) :
    ofTable t = ofRows (fun e => Entity.validate e.2 ++ t.sharedFaults e.1 e.2) sorted := by
  rw [ofTable_eq]
  refine eq_of_filter_eq (pairwise_key_mergeSort (fun a : Finding => a.row.number) _)
    (pairwise_ofRows h) fun n => ?_
  rw [filter_mergeSort, List.filter_append, filter_ofRows, filter_ofRows, filter_ofRows, hfilter]
  rcases filter_number t.rows n with hnone | ⟨e, hone⟩
  · rw [hnone]
    rfl
  · rw [hone]
    simp [ofRows]

end Finding

/-- The findings in a table: row by row in the order of their numbers, and what is wrong with a row
by itself before what is wrong with it beside others. -/
structure Table.FindingsExact (t : Table E) : Prop where
  exists_rows : ∃ rows : List (InstanceNumber × E), rows.Perm t.rows.entries ∧
    rows.Pairwise (fun a b => a.1.number < b.1.number) ∧
    Finding.ofTable t = Finding.ofRows (fun e => Entity.validate e.2 ++ t.sharedFaults e.1 e.2) rows
  /-- Every parameter of a row that is out of bounds is found, in the order of the schema. -/
  own_eq : ∀ row : E, (Entity.validate row).map ParameterFault.parameter =
    ((Entity.values row).filter fun v => !decide (v.1.shape.kind.Takes v.2)).map (·.1.name)
  /-- What is wrong with a row beside others is what it is reported for. -/
  shared_iff : ∀ i faults, (i, faults) ∈ t.violations ↔
    ∃ row, t.get? i = some row ∧ t.sharedFaults i row = faults ∧ faults ≠ []
  length_eq : (Finding.ofTable t).length =
    (t.rows.entries.flatMap fun e => Entity.validate e.2).length +
      (t.violations.flatMap Prod.snd).length

variable (t) in
theorem Table.findingsExact : t.FindingsExact where
  exists_rows := by
    obtain ⟨sorted, hperm, hlt, hfilter⟩ := Finding.exists_sorted t.rows
    exact ⟨sorted, hperm, hlt, Finding.ofTable_eq_ofRows hlt hfilter⟩
  own_eq := Entity.parameters_validate
  shared_iff _ _ := mem_violations_iff
  length_eq := by
    simp only [Finding.ofTable, List.length_mergeSort, List.length_append, List.length_flatMap,
      List.length_map]

/-- No value of a row is out of its bounds, and no row breaks a rule between rows. -/
structure Table.Flawless (t : Table E) : Prop where
  in_bounds : ∀ i row f v, t.get? i = some row → (f, v) ∈ Entity.values row →
    f.shape.kind.Takes v
  consistent : t.Consistent

theorem Table.faultless_iff : t.Faultless ↔ ∀ i row f v, t.get? i = some row →
    (f, v) ∈ Entity.values row → f.shape.kind.Takes v := by
  simp only [Faultless, Entity.validate_eq_nil_iff, Kind.accepts_iff]
  exact ⟨fun h i row f v hrow hv => h i row hrow f v hv,
    fun h i row hrow f v hv => h i row f v hrow hv⟩

theorem Finding.ofTable_eq_nil_iff_flawless : ofTable t = [] ↔ t.Flawless := by
  rw [ofTable_eq_nil_iff]
  constructor
  · intro h
    exact ⟨Table.faultless_iff.1 h.faultless, Table.reported_eq_nil_iff.1 h.reported_eq_nil⟩
  · intro h
    exact ⟨Table.faultless_iff.2 h.in_bounds, Table.reported_eq_nil_iff.2 h.consistent⟩

section Runs

variable {m : Type → Type} [Monad m] [Surroundings m] {place : DocumentPlace} {c : Context}
  {d : Directory} {s : place.State}

/-- A run tells what is wrong with a table, and how many things are, and changes nothing. -/
structure Launch.Tells (launch : Launch m) (common : CommonOptions) (place : DocumentPlace)
    (d : Directory) (c : Context) (s : place.State) : Prop where
  standardOutput_eq : (launch.runIn d).1.standardOutput =
    printed common.quiet (place.shownFindings c s)
  fault?_eq : (launch.runIn d).1.fault? = (place.complaint? s).map .error
  exitCode_eq : (launch.runIn d).1.exitCode =
    if Finding.ofTable (place.table s) = [] then 0 else 3
  unchanged : (launch.runIn d).2 = d

theorem Launch.tells_of_asks {launch : Launch m} {common : CommonOptions}
    (hasks : launch.Asks common (.validate place)) (hc : launch.context common d = .ok c)
    (hs : place.loaded c.options d = .ok s) : launch.Tells common place d c s := by
  have hrun : Command.runIn (.validate place) launch.host launch.toStart common d = _ :=
    Start.result_run (by simp)
  rw [hc] at hrun
  have hresult := runIn_ok hasks (hrun.trans (DocumentPlace.result_validate_ok launch.host hs))
  constructor <;> rw [hresult]
  dsimp only [DocumentPlace.complaint?]
  split_ifs <;> rfl

def clashingMappings : Directory where
  root := .folder [("home", .empty), ("srv", .folder [("m.json", .file (
    "\x7b\"2\": \x7b\"PortMappingEnabled\": true, \"Alias\": \"web\", \"ExternalPort\": 80\x7d, " ++
    "\"1\": \x7b\"PortMappingEnabled\": true, \"Alias\": \"web\", \"ExternalPort\": 80, " ++
    "\"InternalPort\": 70000\x7d\x7d"))])]
  working := ["home"]

def validateMappings : Launch (StateM Directory) where
  arguments := ["validate", "port-mapping", "../srv/m.json", "-o", "plain"]
  environment := []
  host := .unattended

def plainLines : Context where
  output := .plain
  color := .auto
  options := {}
  yes := false
  terminal := false

end Runs

end Cwmp
