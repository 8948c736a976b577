import Cwmp.Objects.ConditionalPool
import Cwmp.Objects.Dhcp
import Cwmp.Objects.Firewall
import Mathlib.Tactic

/-! # Excluding

A row applies to a candidate when all its criteria hold. The exclude flag of a criterion that has a
value exchanges the candidates that it leaves in for those that it leaves out, within what the rest
of the row applies to. Without a value neither the flag counts nor what else belongs to the value.
-/
namespace Cwmp

namespace Criterion

variable {S V D : Type}

/-- Criteria made of a value, what else belongs to it, and the exclude flag: there is a test exactly
when there is a value, and the flag does not change it. -/
structure Flagged (unset : V) (criterion : V → D → Bool → Criterion S) : Prop where
  test?_eq_none_iff : ∀ {v d x}, (criterion v d x).test? = none ↔ v = unset
  test?_eq : ∀ v d x y, (criterion v d x).test? = (criterion v d y).test?
  exclude_eq : ∀ v d x, (criterion v d x).exclude = x

theorem Flagged.holds_ne {unset : V} {criterion : V → D → Bool → Criterion S}
    (h : Flagged unset criterion) {v : V} (hv : v ≠ unset) (d : D) (seen : Option S) :
    (criterion v d false).holds seen ≠ (criterion v d true).holds seen := by
  cases htest : (criterion v d false).test? with
  | none => exact absurd (h.test?_eq_none_iff.1 htest) hv
  | some test =>
    have htest' := (h.test?_eq v d true false).trans htest
    simp only [holds, htest, htest', h.exclude_eq]
    cases seen.any test <;> decide

theorem Flagged.holds_unset {unset : V} {criterion : V → D → Bool → Criterion S}
    (h : Flagged unset criterion) (d : D) (x : Bool) (seen : Option S) :
    (criterion unset d x).holds seen = true := by
  apply holds_of_not_active
  rw [isActive, h.test?_eq_none_iff.2 rfl]
  rfl

theorem flagged_textBy (compare : D → String → String → Bool) :
    Flagged "" fun v d x => textBy (compare d) v x where
  test?_eq_none_iff := by simp [textBy]
  test?_eq _ _ _ _ := rfl
  exclude_eq _ _ _ := rfl

theorem flagged_text : Flagged "" fun v (_ : Unit) x => text v x :=
  flagged_textBy fun _ configured seen => configured == seen

theorem flagged_masked {n : Nat} :
    Flagged none fun (v mask : Option (Octets n)) x => masked v mask x where
  test?_eq_none_iff := by simp [masked]
  test?_eq _ _ _ _ := rfl
  exclude_eq _ _ _ := rfl

theorem flagged_numeric : Flagged (-1) fun (v : Int32) (_ : Unit) x => numeric v.toInt x where
  test?_eq_none_iff := by simp [numeric, ← Int32.toInt_inj]
  test?_eq _ _ _ _ := rfl
  exclude_eq _ _ _ := rfl

theorem flagged_port : Flagged (-1) fun (v top : Int32) x => port v.toInt top.toInt x where
  test?_eq_none_iff := by simp [port, ← Int32.toInt_inj]
  test?_eq _ _ _ _ := rfl
  exclude_eq _ _ _ := rfl

end Criterion

/-- One of the criteria of a row: its value, what else belongs to it (a mask, the end of a range or
the way to compare), and how the row keeps them. -/
structure RowCriterion (E : Type) where
  Value : Type
  Detail : Type
  /-- The value that leaves the criterion out. -/
  unset : Value
  /-- The row with another value, detail and exclude flag of the criterion. -/
  set : E → Value → Detail → Bool → E

namespace RowCriterion

open Classifier (applies)

variable {E C S : Type} [Classifier E C] {k : RowCriterion E}

/-- Without a value of the criterion the row applies to some candidates, whatever the detail and the
flag. With a value it applies to none but these, and each of them is left in either with the flag or
without it. -/
structure Complements (k : RowCriterion E) : Prop where
  exactly_one : ∀ e v d x c, v ≠ k.unset → applies (k.set e k.unset d x) c = true →
    applies (k.set e v d false) c ≠ applies (k.set e v d true) c
  neither : ∀ e v d x c, applies (k.set e k.unset d x) c = false →
    applies (k.set e v d false) c = false ∧ applies (k.set e v d true) c = false
  independent : ∀ e d d' x x' c,
    applies (k.set e k.unset d x) c = applies (k.set e k.unset d' x') c

/-- It is enough that the row applies when the rest of it does and a criterion made of the value,
the detail and the flag holds. -/
theorem complements_of {criterion : k.Value → k.Detail → Bool → Criterion S}
    (h : Criterion.Flagged k.unset criterion) (seen : C → Option S) (rest : E → C → Bool)
    (happlies : ∀ e v d x c,
      applies (k.set e v d x) c = (rest e c && (criterion v d x).holds (seen c))) :
    k.Complements := by
  have hunset : ∀ e d x c, applies (k.set e k.unset d x) c = rest e c := by
    intro e d x c
    rw [happlies, h.holds_unset, Bool.and_true]
  constructor
  · intro e v d x c hv hrest
    rw [hunset] at hrest
    rw [happlies, happlies, hrest, Bool.true_and, Bool.true_and]
    exact h.holds_ne hv d (seen c)
  · intro e v d x c hrest
    rw [hunset] at hrest
    simp only [happlies, hrest, Bool.false_and, and_self]
  · intro e d d' x x' c
    rw [hunset, hunset]

/-- A criterion of one part of a row is one of the row, if the part is all that it changes. -/
theorem Complements.lift {E' : Type} [Classifier E' C] (h : k.Complements) {part : E' → E}
    {own : E' → C → Bool} {set : E' → k.Value → k.Detail → Bool → E'}
    (happlies : ∀ e c, applies e c = (own e c && applies (part e) c))
    (hown : ∀ e v d x, own (set e v d x) = own e)
    (hpart : ∀ e v d x, part (set e v d x) = k.set (part e) v d x) :
    RowCriterion.Complements (C := C) ⟨k.Value, k.Detail, k.unset, set⟩ := by
  constructor
  · intro e v d x c hv hrest
    rw [happlies, hown, hpart, Bool.and_eq_true] at hrest
    rw [happlies, happlies, hown, hown, hpart, hpart, hrest.1, Bool.true_and, Bool.true_and]
    exact h.exactly_one _ v d x c hv hrest.2
  · intro e v d x c hrest
    rw [happlies, hown, hpart, Bool.and_eq_false_iff] at hrest
    rw [happlies, happlies, hown, hown, hpart, hpart]
    rcases hrest with hrest | hrest
    · simp [hrest]
    · simp [h.neither _ v d x c hrest]
  · intro e d d' x x' c
    rw [happlies, happlies, hown, hown, hpart, hpart, h.independent _ d d' x x']

end RowCriterion

inductive RuleCriterion
  | sourceInterface
  | destIp
  | sourceIp
  | protocol
  | destPort
  | sourcePort
  | dscp

namespace RuleCriterion

open Criterion

def ofRule : RuleCriterion → RowCriterion FirewallRule
  | sourceInterface =>
    { Value := String
      Detail := Unit
      unset := ""
      set := fun e v _ x => { e with sourceInterface := v, sourceInterfaceExclude := x } }
  | destIp =>
    { Value := Option Ipv4
      Detail := Option Ipv4
      unset := none
      set := fun e v mask x => { e with destIp := v, destMask := mask, destIpExclude := x } }
  | sourceIp =>
    { Value := Option Ipv4
      Detail := Option Ipv4
      unset := none
      set := fun e v mask x => { e with sourceIp := v, sourceMask := mask, sourceIpExclude := x } }
  | protocol =>
    { Value := Int32
      Detail := Unit
      unset := -1
      set := fun e v _ x => { e with protocol := v, protocolExclude := x } }
  | destPort =>
    { Value := Int32
      Detail := Int32
      unset := -1
      set := fun e v top x =>
        { e with destPort := v, destPortRangeMax := top, destPortExclude := x } }
  | sourcePort =>
    { Value := Int32
      Detail := Int32
      unset := -1
      set := fun e v top x =>
        { e with sourcePort := v, sourcePortRangeMax := top, sourcePortExclude := x } }
  | dscp =>
    { Value := Int32
      Detail := Unit
      unset := -1
      set := fun e v _ x => { e with dscp := v, dscpExclude := x } }

/-- The rest of a rule is the rule without a value of the criterion. -/
theorem complements (k : RuleCriterion) : k.ofRule.Complements := by
  cases k with
  | sourceInterface =>
    refine RowCriterion.complements_of flagged_text Packet.sourceInterface
      (fun e => Classifier.applies { e with sourceInterface := "" }) fun e v _ x p => ?_
    simp only [ofRule, Classifier.applies, flagged_text.holds_unset ()]
    ac_rfl
  | destIp =>
    refine RowCriterion.complements_of flagged_masked (fun p : Packet => some p.destIp)
      (fun e => Classifier.applies { e with destIp := none }) fun e v mask x p => ?_
    simp only [ofRule, Classifier.applies, flagged_masked.holds_unset]
    ac_rfl
  | sourceIp =>
    refine RowCriterion.complements_of flagged_masked (fun p : Packet => some p.sourceIp)
      (fun e => Classifier.applies { e with sourceIp := none }) fun e v mask x p => ?_
    simp only [ofRule, Classifier.applies, flagged_masked.holds_unset]
    ac_rfl
  | protocol =>
    refine RowCriterion.complements_of flagged_numeric
      (fun p : Packet => some (p.protocol.toNat : Int))
      (fun e => Classifier.applies { e with protocol := -1 }) fun e v _ x p => ?_
    simp only [ofRule, Classifier.applies, flagged_numeric.holds_unset ()]
    ac_rfl
  | destPort =>
    refine RowCriterion.complements_of flagged_port
      (fun p : Packet => p.destPort.map fun n => (n.toNat : Int))
      (fun e => Classifier.applies { e with destPort := -1 }) fun e v top x p => ?_
    simp only [ofRule, Classifier.applies, flagged_port.holds_unset]
    ac_rfl
  | sourcePort =>
    refine RowCriterion.complements_of flagged_port
      (fun p : Packet => p.sourcePort.map fun n => (n.toNat : Int))
      (fun e => Classifier.applies { e with sourcePort := -1 }) fun e v top x p => ?_
    simp only [ofRule, Classifier.applies, flagged_port.holds_unset]
    ac_rfl
  | dscp =>
    refine RowCriterion.complements_of flagged_numeric
      (fun p : Packet => some (p.dscp.toNat : Int))
      (fun e => Classifier.applies { e with dscp := -1 }) fun e v _ x p => ?_
    simp only [ofRule, Classifier.applies, flagged_numeric.holds_unset ()]
    ac_rfl

end RuleCriterion

/-- The address pool that has the criteria of a conditional pool, but for the interfaces. -/
def ConditionalPool.criteria (e : ConditionalPool) : DhcpPool where
  enable := e.enable
  vendorClassId := e.vendorClassId
  vendorClassIdExclude := e.vendorClassIdExclude
  vendorClassIdMode := e.vendorClassIdMode
  clientId := e.clientId
  clientIdExclude := e.clientIdExclude
  userClassId := e.userClassId
  userClassIdExclude := e.userClassIdExclude
  chaddr := e.chaddr
  chaddrMask := e.chaddrMask
  chaddrExclude := e.chaddrExclude

theorem ConditionalPool.applies_eq (e : ConditionalPool) (r : DhcpRequest) :
    Classifier.applies e r =
      (e.servesInterface r.interface && Classifier.applies e.criteria r) := by
  simp only [Classifier.applies, criteria, Criterion.flagged_text.holds_unset ()]
  ac_rfl

inductive PoolCriterion
  | vendorClassId
  | clientId
  | userClassId
  | chaddr

namespace PoolCriterion

open Criterion

def ofPool : PoolCriterion → RowCriterion DhcpPool
  | vendorClassId =>
    { Value := String
      Detail := VendorMode
      unset := ""
      set := fun e v mode x =>
        { e with vendorClassId := v, vendorClassIdMode := mode, vendorClassIdExclude := x } }
  | clientId =>
    { Value := String
      Detail := Unit
      unset := ""
      set := fun e v _ x => { e with clientId := v, clientIdExclude := x } }
  | userClassId =>
    { Value := String
      Detail := Unit
      unset := ""
      set := fun e v _ x => { e with userClassId := v, userClassIdExclude := x } }
  | chaddr =>
    { Value := Option Mac
      Detail := Option Mac
      unset := none
      set := fun e v mask x => { e with chaddr := v, chaddrMask := mask, chaddrExclude := x } }

def ofConditionalPool : PoolCriterion → RowCriterion ConditionalPool
  | vendorClassId =>
    { Value := String
      Detail := VendorMode
      unset := ""
      set := fun e v mode x =>
        { e with vendorClassId := v, vendorClassIdMode := mode, vendorClassIdExclude := x } }
  | clientId =>
    { Value := String
      Detail := Unit
      unset := ""
      set := fun e v _ x => { e with clientId := v, clientIdExclude := x } }
  | userClassId =>
    { Value := String
      Detail := Unit
      unset := ""
      set := fun e v _ x => { e with userClassId := v, userClassIdExclude := x } }
  | chaddr =>
    { Value := Option Mac
      Detail := Option Mac
      unset := none
      set := fun e v mask x => { e with chaddr := v, chaddrMask := mask, chaddrExclude := x } }

theorem complements_pool (k : PoolCriterion) : k.ofPool.Complements := by
  cases k with
  | vendorClassId =>
    refine RowCriterion.complements_of (flagged_textBy VendorMode.holds) DhcpRequest.vendorClassId
      (fun e => Classifier.applies { e with vendorClassId := "" }) fun e v mode x r => ?_
    simp only [ofPool, Classifier.applies, (flagged_textBy VendorMode.holds).holds_unset]
    ac_rfl
  | clientId =>
    refine RowCriterion.complements_of flagged_text DhcpRequest.clientId
      (fun e => Classifier.applies { e with clientId := "" }) fun e v _ x r => ?_
    simp only [ofPool, Classifier.applies, flagged_text.holds_unset ()]
    ac_rfl
  | userClassId =>
    refine RowCriterion.complements_of flagged_text DhcpRequest.userClassId
      (fun e => Classifier.applies { e with userClassId := "" }) fun e v _ x r => ?_
    simp only [ofPool, Classifier.applies, flagged_text.holds_unset ()]
    ac_rfl
  | chaddr =>
    refine RowCriterion.complements_of flagged_masked (fun r : DhcpRequest => some r.chaddr)
      (fun e => Classifier.applies { e with chaddr := none }) fun e v mask x r => ?_
    simp only [ofPool, Classifier.applies, flagged_masked.holds_unset]
    ac_rfl

theorem complements_conditionalPool (k : PoolCriterion) : k.ofConditionalPool.Complements := by
  cases k with
  | vendorClassId =>
    exact (complements_pool .vendorClassId).lift ConditionalPool.applies_eq (fun _ _ _ _ => rfl)
      fun _ _ _ _ => rfl
  | clientId =>
    exact (complements_pool .clientId).lift ConditionalPool.applies_eq (fun _ _ _ _ => rfl)
      fun _ _ _ _ => rfl
  | userClassId =>
    exact (complements_pool .userClassId).lift ConditionalPool.applies_eq (fun _ _ _ _ => rfl)
      fun _ _ _ _ => rfl
  | chaddr =>
    exact (complements_pool .chaddr).lift ConditionalPool.applies_eq (fun _ _ _ _ => rfl)
      fun _ _ _ _ => rfl

end PoolCriterion

/-- Whichever criterion of a rule or a pool has an exclude flag: of the candidates to which the row
applies without a value of the criterion, the row with a value applies to some and the row that
excludes the value to the others. Without a value the flag does not count, nor does a mask, the end
of a range or the way to compare. -/
theorem exclude_complements (inRule : RuleCriterion) (inPool : PoolCriterion) :
    inRule.ofRule.Complements ∧ inPool.ofPool.Complements ∧
      inPool.ofConditionalPool.Complements :=
  ⟨inRule.complements, inPool.complements_pool, inPool.complements_conditionalPool⟩

def ping : Packet where
  sourceInterface := some "Device.IP.Interface.1."
  sourceIp := ⟨[192, 168, 1, 2], rfl⟩
  destIp := ⟨[192, 168, 1, 1], rfl⟩
  protocol := 1
  sourcePort := none
  destPort := none
  dscp := 0

/-- No packet has a port in a range that ends before it begins, so excluding the range leaves all
in. -/
theorem exclude_complements_ping : ∃ e : FirewallRule,
    (443 : Int32) ≠ RuleCriterion.destPort.ofRule.unset ∧
    Classifier.applies { e with destPort := -1, destPortRangeMax := 80 } ping = true ∧
    Classifier.applies { e with destPort := 443, destPortRangeMax := 80, destPortExclude := false }
      ping = false ∧
    Classifier.applies { e with destPort := 443, destPortRangeMax := 80, destPortExclude := true }
      ping = true := by
  let e : FirewallRule := { enable := true }
  have hset : (443 : Int32) ≠ RuleCriterion.destPort.ofRule.unset := by
    change (443 : Int32) ≠ -1
    decide
  have hrest : Classifier.applies { e with destPort := -1, destPortRangeMax := 80 } ping = true :=
    rfl
  have hout : Classifier.applies
      { e with destPort := 443, destPortRangeMax := 80, destPortExclude := false } ping = false :=
    rfl
  have hne := (exclude_complements .destPort .chaddr).1.exactly_one e (443 : Int32) (80 : Int32)
    false ping hset hrest
  refine ⟨e, hset, hrest, hout, ?_⟩
  exact Bool.eq_true_of_not_eq_false fun hout' => hne (hout.trans hout'.symm)

end Cwmp
