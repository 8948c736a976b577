import Cwmp.Objects.ConditionalPool
import Cwmp.Objects.Dhcp
import Cwmp.Proofs.Match.Exclusion
import Cwmp.Proofs.Text.CommaList

/-! # Pools with the same criteria

Address pools and conditional pools tell by the same criteria which requests they apply to, except
that a conditional pool may name several interfaces. With the same criteria and one interface they
apply to the same requests. In a wider way of comparing vendor classes a pool applies to no fewer
requests, or to no more if it excludes the vendor class.
-/
namespace Cwmp

theorem containsText_iff_infix {needle s : List Char} :
    containsText needle s = true ↔ needle <:+: s := by
  induction s with
  | nil =>
    rw [containsText, List.isPrefixOf_iff_prefix, List.prefix_nil, List.infix_nil]
  | cons c s ih =>
    rw [containsText, Bool.or_eq_true, List.isPrefixOf_iff_prefix, ih, List.infix_cons_iff]

namespace VendorMode

/-- The second mode is the next wider one. -/
inductive Narrower : VendorMode → VendorMode → Prop
  | exact_leading : Narrower .exact .leading
  | exact_trailing : Narrower .exact .trailing
  | leading_within : Narrower .leading .within
  | trailing_within : Narrower .trailing .within

theorem Narrower.holds {m m' : VendorMode} (h : Narrower m m') {configured seen : String}
    (hm : m.holds configured seen = true) : m'.holds configured seen = true := by
  cases h with
  | exact_leading =>
    obtain rfl : seen = configured := by simpa [VendorMode.holds] using hm
    exact List.isPrefixOf_iff_prefix.2 (List.prefix_refl _)
  | exact_trailing =>
    obtain rfl : seen = configured := by simpa [VendorMode.holds] using hm
    exact List.isSuffixOf_iff_suffix.2 (List.suffix_refl _)
  | leading_within =>
    apply containsText_iff_infix.2
    exact (List.isPrefixOf_iff_prefix.1 hm).isInfix
  | trailing_within =>
    apply containsText_iff_infix.2
    exact (List.isSuffixOf_iff_suffix.1 hm).isInfix

end VendorMode

namespace Criterion

/-- A criterion whose test is passed by more candidates leaves in no fewer, and no more if those
that pass are excluded. -/
theorem holds_textBy_of_imp {compare compare' : String → String → Bool}
    (h : ∀ configured seen, compare configured seen = true → compare' configured seen = true)
    (value : String) (seen : Option String) :
    ((textBy compare value false).holds seen = true →
      (textBy compare' value false).holds seen = true) ∧
    ((textBy compare' value true).holds seen = true →
      (textBy compare value true).holds seen = true) := by
  by_cases hvalue : value = ""
  · simp [textBy, holds, hvalue]
  · have hany : seen.any (compare value) = true → seen.any (compare' value) = true := by
      cases seen with
      | none => exact id
      | some s => exact h value s
    simp only [textBy, holds, hvalue, ↓reduceIte, bne_iff_ne, ne_eq, Bool.not_eq_false,
      Bool.not_eq_true]
    constructor
    · exact hany
    · intro hwide
      rw [← Bool.not_eq_true] at hwide ⊢
      exact fun hnarrow => hwide (hany hnarrow)

end Criterion

/-- Pools of which all but the mode and the exclude flag of the vendor class is left open. In a
wider mode they apply to no fewer requests, or to no more if they exclude what the mode finds. -/
structure WidensWithMode (applies : VendorMode → Bool → DhcpRequest → Bool) : Prop where
  included : ∀ {m m' : VendorMode}, m.Narrower m' → ∀ r,
    applies m false r = true → applies m' false r = true
  excluded : ∀ {m m' : VendorMode}, m.Narrower m' → ∀ r,
    applies m' true r = true → applies m true r = true

theorem widensWithMode_of {applies : VendorMode → Bool → DhcpRequest → Bool} (value : String)
    (rest : DhcpRequest → Bool) (happlies : ∀ m x r, applies m x r =
      (rest r && (Criterion.textBy m.holds value x).holds r.vendorClassId)) :
    WidensWithMode applies := by
  constructor
  · intro m m' hm r h
    rw [happlies, Bool.and_eq_true] at h ⊢
    exact ⟨h.1, (Criterion.holds_textBy_of_imp (fun _ _ => hm.holds) value _).1 h.2⟩
  · intro m m' hm r h
    rw [happlies, Bool.and_eq_true] at h ⊢
    exact ⟨h.1, (Criterion.holds_textBy_of_imp (fun _ _ => hm.holds) value _).2 h.2⟩

/-- A text that names one interface at most: there is no comma in it and no blank at its ends. -/
structure OneInterface (s : String) : Prop where
  no_comma : ',' ∉ s.toList
  start : ∀ c, s.toList.head? = some c → Text.isBlank c = false
  stop : ∀ c, s.toList.getLast? = some c → Text.isBlank c = false

theorem OneInterface.servesInterface_eq {e : ConditionalPool} (h : OneInterface e.sourceInterface)
    (interface : String) : e.servesInterface interface =
      (Criterion.text e.sourceInterface false).holds (some interface) := by
  unfold ConditionalPool.servesInterface
  rw [Text.splitAt_of_not_mem h.no_comma, List.any_cons, List.any_nil, Bool.or_false,
    Text.trim_eq_self_of_ends h.start h.stop, Bool.eq_iff_iff]
  by_cases hempty : e.sourceInterface = ""
  · simp [Criterion.text, Criterion.textBy, Criterion.holds, hempty]
  · simp [Criterion.text, Criterion.textBy, Criterion.holds, hempty, String.toList_inj]

structure SameCriteria (s : DhcpPool) (c : ConditionalPool) : Prop where
  enable : s.enable = c.enable
  interface : s.interface = c.sourceInterface
  vendorClassId : s.vendorClassId = c.vendorClassId
  vendorClassIdExclude : s.vendorClassIdExclude = c.vendorClassIdExclude
  vendorClassIdMode : s.vendorClassIdMode = c.vendorClassIdMode
  clientId : s.clientId = c.clientId
  clientIdExclude : s.clientIdExclude = c.clientIdExclude
  userClassId : s.userClassId = c.userClassId
  userClassIdExclude : s.userClassIdExclude = c.userClassIdExclude
  chaddr : s.chaddr = c.chaddr
  chaddrMask : s.chaddrMask = c.chaddrMask
  chaddrExclude : s.chaddrExclude = c.chaddrExclude

theorem SameCriteria.applies_eq {s : DhcpPool} {c : ConditionalPool} (h : SameCriteria s c)
    (hone : OneInterface s.interface) (r : DhcpRequest) :
    Classifier.applies s r = Classifier.applies c r := by
  rw [h.interface] at hone
  simp only [Classifier.applies, hone.servesInterface_eq, h.enable, h.interface, h.vendorClassId,
    h.vendorClassIdExclude, h.vendorClassIdMode, h.clientId, h.clientIdExclude, h.userClassId,
    h.userClassIdExclude, h.chaddr, h.chaddrMask, h.chaddrExclude]

theorem DhcpPool.widensWithMode (s : DhcpPool) : WidensWithMode fun m x =>
    Classifier.applies { s with vendorClassIdMode := m, vendorClassIdExclude := x } := by
  apply widensWithMode_of s.vendorClassId (Classifier.applies { s with vendorClassId := "" })
  intro m x r
  simp only [Classifier.applies, (Criterion.flagged_textBy VendorMode.holds).holds_unset]
  ac_rfl

theorem ConditionalPool.widensWithMode (c : ConditionalPool) : WidensWithMode fun m x =>
    Classifier.applies { c with vendorClassIdMode := m, vendorClassIdExclude := x } := by
  have hpool := c.criteria.widensWithMode
  constructor
  · intro m m' hm r h
    rw [applies_eq, Bool.and_eq_true] at h ⊢
    exact ⟨h.1, hpool.included hm r h.2⟩
  · intro m m' hm r h
    rw [applies_eq, Bool.and_eq_true] at h ⊢
    exact ⟨h.1, hpool.excluded hm r h.2⟩

/-- An address pool and a conditional pool with the same criteria apply to the same requests, if
they name one interface or none. Pools of either kind apply to no fewer requests in a wider way of
comparing vendor classes, and to no more if they exclude the vendor class. -/
theorem pools_agree :
    (∀ (s : DhcpPool) (c : ConditionalPool), SameCriteria s c → OneInterface s.interface →
      ∀ r, Classifier.applies s r = Classifier.applies c r) ∧
    (∀ s : DhcpPool, WidensWithMode fun m x =>
      Classifier.applies { s with vendorClassIdMode := m, vendorClassIdExclude := x }) ∧
    ∀ c : ConditionalPool, WidensWithMode fun m x =>
      Classifier.applies { c with vendorClassIdMode := m, vendorClassIdExclude := x } :=
  ⟨fun _ _ h hone r => h.applies_eq hone r, DhcpPool.widensWithMode,
    ConditionalPool.widensWithMode⟩

def boxRequest : DhcpRequest where
  interface := "Device.IP.Interface.1."
  vendorClassId := some "udhcp 1.36"
  clientId := none
  userClassId := none
  chaddr := ⟨[2, 0, 0, 0, 0, 1], rfl⟩

/-- Two pools for the class "udhcp", in whatever version, and two that exclude the class "MSFT". -/
theorem pools_agree_box :
    let s : DhcpPool :=
      { enable := true
        interface := "Device.IP.Interface.1."
        vendorClassId := "udhcp"
        vendorClassIdMode := .leading }
    let c : ConditionalPool :=
      { enable := true
        sourceInterface := "Device.IP.Interface.1."
        vendorClassId := "udhcp"
        vendorClassIdMode := .leading }
    let t : DhcpPool := { s with vendorClassId := "MSFT", vendorClassIdExclude := true }
    SameCriteria s c ∧ OneInterface s.interface ∧ Classifier.applies s boxRequest = true ∧
      Classifier.applies c boxRequest = true ∧
      Classifier.applies { s with vendorClassIdMode := .exact } boxRequest = false ∧
      Classifier.applies { s with vendorClassIdMode := .within } boxRequest = true ∧
      Classifier.applies t boxRequest = true ∧
      Classifier.applies { t with vendorClassIdMode := .exact } boxRequest = true := by
  intro s c t
  have hsame : SameCriteria s c := ⟨rfl, rfl, rfl, rfl, rfl, rfl, rfl, rfl, rfl, rfl, rfl, rfl⟩
  have hstart : s.interface.toList.head? = some 'D' := by decide
  have hstop : s.interface.toList.getLast? = some '.' := by decide
  have hone : OneInterface s.interface := by
    constructor
    · decide
    · intro c hc
      obtain rfl := Option.some.inj (hstart.symm.trans hc)
      decide
    · intro c hc
      obtain rfl := Option.some.inj (hstop.symm.trans hc)
      decide
  have hs : Classifier.applies s boxRequest = true := by decide
  have ht : Classifier.applies t boxRequest = true := by decide
  have hagree := pools_agree.1 s c hsame hone boxRequest
  have hwide := (pools_agree.2.1 s).included .leading_within boxRequest hs
  have hnarrow := (pools_agree.2.1 t).excluded .exact_leading boxRequest ht
  exact ⟨hsame, hone, hs, hagree.symm.trans hs, by decide, hwide, ht, hnarrow⟩

end Cwmp
