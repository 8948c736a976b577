import Cwmp.Notification
import Cwmp.Objects.Mqtt
import Cwmp.Proofs.Entity.Request
import Cwmp.Proofs.Objects.Regular
import Cwmp.Proofs.Table.Operations

/-! # Levels of notification and reports of changes

A parameter of which the policy forces notification is active whatever was requested, one of which
it may be denied is never active, and any other has the level that was last requested of it. A
report of what a request has changed lists the parameters that read otherwise than before and are
not off.
-/
namespace Cwmp

namespace Notification

variable {E : Type} [Entity E] {n : Notification E} {name : String} {level : Level} {f : Field}
  {r : String × Level} {requests : List (String × Level)}

/-- How a request is answered: a known parameter is refused active notification only, and only if
its policy says so, and a forced one keeps its level. -/
inductive Setting (n : Notification E) (name : String) (level : Level) :
    Except ParameterFault (Notification E) → Prop
  | unknown {message : String} : Entity.field? E name = none →
      Setting n name level (.error ⟨name, .invalidParameterName, message⟩)
  | denied {f : Field} {message : String} : Entity.field? E name = some f →
      f.notify = .canDeny → level = .active →
      Setting n name level (.error ⟨name, .notificationRequestRejected, message⟩)
  | ignored {f : Field} : Entity.field? E name = some f → f.notify = .forceEnabled →
      Setting n name level (.ok n)
  | kept {f : Field} : Entity.field? E name = some f → f.notify ≠ .forceEnabled →
      (f.notify = .canDeny → level ≠ .active) →
      Setting n name level (.ok ⟨(name, level) :: n.levels.filter fun p => p.1 != name⟩)

theorem setting (n : Notification E) (name : String) (level : Level) :
    Setting n name level (n.set name level) := by
  unfold set
  cases hf : Entity.field? E name with
  | none => exact .unknown hf
  | some f =>
    dsimp only
    split
    next hpolicy => exact .denied hf hpolicy rfl
    next hpolicy => exact .ignored hf hpolicy
    next hdeny hforce => exact .kept hf hdeny hforce

/-- The state after a request, which a refused one leaves as it is. -/
def after (n : Notification E) (r : String × Level) : Notification E :=
  outcome n (n.set r.1 r.2)

def run (n : Notification E) (requests : List (String × Level)) : Notification E :=
  requests.foldl after n

def accepted (n : Notification E) : List (String × Level) → List (String × Level)
  | [] => []
  | r :: requests =>
    if (n.set r.1 r.2).isOk then r :: (n.after r).accepted requests
    else (n.after r).accepted requests

/-- The level of the last request of a run that is accepted and names a parameter. -/
def last? (n : Notification E) (name : String) (requests : List (String × Level)) : Option Level :=
  ((n.accepted requests).filter fun r => r.1 == name).getLast?.map Prod.snd

section Steps

variable (hf : Entity.field? E name = some f)

include hf

theorem level_of_forced (h : f.notify = .forceEnabled) (n : Notification E) :
    n.level name = .active := by
  simp only [level, hf, h, ↓reduceIte]

theorem level_eq (h : f.notify ≠ .forceEnabled) (n : Notification E) :
    n.level name = (n.levels.lookup name).getD .off := by
  simp only [level, hf, h, ↓reduceIte]

/-- An accepted request sets the level of the parameter that it names, and no other one. -/
theorem level_after (h : f.notify ≠ .forceEnabled) (n : Notification E) (r : String × Level) :
    (n.after r).level name =
      if (n.set r.1 r.2).isOk ∧ r.1 = name then r.2 else n.level name := by
  obtain ⟨other, level⟩ := r
  have hsetting := setting n other level
  unfold after
  dsimp only at hsetting ⊢
  generalize n.set other level = result at hsetting ⊢
  cases hsetting with
  | unknown hg => simp [outcome, Except.isOk, Except.toBool]
  | denied hg hpolicy hactive => simp [outcome, Except.isOk, Except.toBool]
  | ignored hg hpolicy =>
    rw [if_neg]
    · rfl
    · rintro ⟨-, rfl⟩
      exact h (Option.some.inj (hf.symm.trans hg) ▸ hpolicy)
  | kept hg hforced hdeny =>
    rw [level_eq hf h, level_eq hf h]
    by_cases hname : other = name
    · simp [outcome, Except.isOk, Except.toBool, hname]
    · have hb : (name == other) = false := by simpa using Ne.symm hname
      simp [outcome, hname, List.lookup_cons, hb, lookup_filter_of_ne (Ne.symm hname)]

end Steps

theorem isOk_set_iff : (n.set name level).isOk ↔ ∃ f, Entity.field? E name = some f ∧
    ¬ (f.notify = .canDeny ∧ level = .active) := by
  have hsetting := setting n name level
  generalize n.set name level = result at hsetting ⊢
  cases hsetting with
  | unknown hf => simp [Except.isOk, Except.toBool, hf]
  | denied hf hpolicy hactive => simp [Except.isOk, Except.toBool, hf, hpolicy, hactive]
  | ignored hf hpolicy => simp [Except.isOk, Except.toBool, hf, hpolicy]
  | kept hf hforced hdeny =>
    simp only [Except.isOk, Except.toBool, hf, Option.some.injEq, exists_eq_left', true_iff]
    rintro ⟨hpolicy, hactive⟩
    exact hdeny hpolicy hactive

theorem after_eq_self (h : (n.set r.1 r.2).isOk = false ∨
    ∃ f, Entity.field? E r.1 = some f ∧ f.notify = .forceEnabled) : n.after r = n := by
  have hsetting := setting n r.1 r.2
  unfold after
  generalize n.set r.1 r.2 = result at h hsetting ⊢
  cases hsetting with
  | unknown hg => rfl
  | denied hg hpolicy hactive => rfl
  | ignored hg hpolicy => rfl
  | kept hg hforced hdeny =>
    rcases h with hrefused | ⟨f, hf, hpolicy⟩
    · cases hrefused
    · cases hf.symm.trans hg
      exact absurd hpolicy hforced

theorem level_after_of_ne (n : Notification E) (h : r.1 ≠ name) :
    (n.after r).level name = n.level name := by
  cases hf : Entity.field? E name with
  | none => simp only [level, hf]
  | some f =>
    by_cases hforced : f.notify = .forceEnabled
    · rw [level_of_forced hf hforced, level_of_forced hf hforced]
    · rw [level_after hf hforced, if_neg fun hand => h hand.2]

theorem last?_cons (n : Notification E) (name : String) (r : String × Level)
    (requests : List (String × Level)) : n.last? name (r :: requests) =
      if (n.set r.1 r.2).isOk ∧ r.1 = name then
        some (((n.after r).last? name requests).getD r.2)
      else (n.after r).last? name requests := by
  rw [last?, last?, accepted]
  by_cases hok : (n.set r.1 r.2).isOk
  · by_cases hname : r.1 = name
    · rw [if_pos hok, List.filter_cons_of_pos (by simpa using hname), List.getLast?_cons,
        if_pos ⟨hok, hname⟩, Option.map_some, Option.getD_map]
    · rw [if_pos hok, List.filter_cons_of_neg (by simpa using hname),
        if_neg fun hand => hname hand.2]
  · rw [if_neg hok, if_neg fun hand => hok hand.1]

/-- The level of a parameter that is not forced is the last one that was accepted, and the one at
first if there is none. -/
theorem level_run (hf : Entity.field? E name = some f) (h : f.notify ≠ .forceEnabled)
    (n : Notification E) (requests : List (String × Level)) :
    (n.run requests).level name = (n.last? name requests).getD (n.level name) := by
  induction requests generalizing n with
  | nil => rfl
  | cons r requests ih =>
    have hrun : (n.run (r :: requests)).level name = ((n.after r).run requests).level name := rfl
    rw [hrun, ih, last?_cons, level_after hf h]
    split_ifs
    · rw [Option.getD_some]
    · rfl

theorem level_run_ne_active (hf : Entity.field? E name = some f) (h : f.notify = .canDeny)
    (hn : n.level name ≠ .active) (requests : List (String × Level)) :
    (n.run requests).level name ≠ .active := by
  have hforced : f.notify ≠ .forceEnabled := by simp [h]
  induction requests generalizing n with
  | nil => exact hn
  | cons r requests ih =>
    apply ih
    rw [level_after hf hforced]
    split_ifs with hset
    · obtain ⟨hok, rfl⟩ := hset
      obtain ⟨g, hg, hnot⟩ := isOk_set_iff.1 hok
      cases hf.symm.trans hg
      exact fun hactive => hnot ⟨h, hactive⟩
    · exact hn

/-- The level that a parameter has at first if it is not forced. -/
def levelAtFirst (f : Field) : Level :=
  if f.notify = .forceDefaultEnabled then .active else .off

section Objects

variable [BEq E] [Regular E]

theorem level_initial (hf : f ∈ Entity.fields E) (h : f.notify ≠ .forceEnabled) :
    (initial E).level f.name = levelAtFirst f := by
  have hmem : ∀ level, (f.name, level) ∈ (initial E).levels ↔
      level = .active ∧ f.notify = .forceDefaultEnabled := by
    intro level
    rw [initial, List.mem_filterMap]
    constructor
    · rintro ⟨g, hg, heq⟩
      split_ifs at heq with hpolicy
      obtain ⟨hname, rfl⟩ := Prod.mk.inj (Option.some.inj heq)
      rw [List.inj_on_of_nodup_map (Entity.nodup_fieldNames E) hg hf hname] at hpolicy
      exact ⟨rfl, hpolicy.resolve_left h⟩
    · rintro ⟨rfl, hpolicy⟩
      exact ⟨f, hf, by rw [if_pos (Or.inr hpolicy)]⟩
  rw [level_eq (Entity.field?_name hf) h, levelAtFirst]
  cases hlookup : (initial E).levels.lookup f.name with
  | none =>
    rw [if_neg, Option.getD_none]
    intro hpolicy
    have hne := List.lookup_eq_none_iff.1 hlookup _ ((hmem .active).2 ⟨rfl, hpolicy⟩)
    simp at hne
  | some level =>
    obtain ⟨before, rest, hlevels, -⟩ := List.lookup_eq_some_iff.1 hlookup
    obtain ⟨rfl, hpolicy⟩ := (hmem level).1 (by simp [hlevels])
    rw [if_pos hpolicy, Option.getD_some]

def change? (n : Notification E) (before after : E) (f : Field) : Option ValueChange :=
  match n.level f.name with
  | .off => none
  | level =>
    match Entity.read? before f.name, Entity.read? after f.name with
    | some v, some w => if v = w then none else some ⟨f.name, v, w, level⟩
    | _, _ => none

theorem exists_change?_eq (n : Notification E) (before after : E) (hf : f ∈ Entity.fields E) :
    ∃ v w, Entity.read? before f.name = some v ∧ Entity.read? after f.name = some w ∧
      n.change? before after f =
        if v ≠ w ∧ n.level f.name ≠ .off then some ⟨f.name, v, w, n.level f.name⟩ else none := by
  obtain ⟨v, hv⟩ := Entity.exists_read? before hf
  obtain ⟨w, hw⟩ := Entity.exists_read? after hf
  refine ⟨v, w, hv, hw, ?_⟩
  rw [change?, hv, hw]
  cases n.level f.name <;> by_cases hvw : v = w <;> simp [hvw]

variable (n) in
structure ReportExact (updates : Updates) (before after : E) : Prop where
  /-- It lists the parameters that were requested, read otherwise than before and are not off, in
  the order of the object. -/
  parameters : (n.changes before after).map (·.parameter) =
    ((Entity.fields E).map (·.name)).filter fun name =>
      decide (name ∈ updates.map Prod.fst ∧ Entity.read? before name ≠ Entity.read? after name ∧
        n.level name ≠ .off)
  nodup : ((n.changes before after).map (·.parameter)).Nodup
  /-- Of each it says what was read before and after, and the level in effect. -/
  entries : ∀ c ∈ n.changes before after, Entity.read? before c.parameter = some c.before ∧
    Entity.read? after c.parameter = some c.after ∧ c.level = n.level c.parameter

theorem reportExact (n : Notification E) {updates : Updates} {before after : E}
    (hframe : ∀ name, name ∉ updates.map Prod.fst →
      Entity.read? after name = Entity.read? before name) :
    n.ReportExact updates before after := by
  have hchanges : n.changes before after =
      (Entity.fields E).filterMap (n.change? before after) := rfl
  have hparameters : (n.changes before after).map (·.parameter) =
      ((Entity.fields E).map (·.name)).filter fun name =>
        decide (name ∈ updates.map Prod.fst ∧
          Entity.read? before name ≠ Entity.read? after name ∧ n.level name ≠ .off) := by
    rw [hchanges, List.map_filterMap, ← List.filterMap_eq_filter, List.filterMap_map]
    refine List.filterMap_congr fun f hf => ?_
    obtain ⟨v, w, hv, hw, hchange⟩ := n.exists_change?_eq before after hf
    have hrequested : v ≠ w → f.name ∈ updates.map Prod.fst := by
      intro hvw
      by_contra hnot
      have hsame := hframe f.name hnot
      rw [hv, hw] at hsame
      exact hvw (Option.some.inj hsame).symm
    rw [hchange, Function.comp_apply, Option.guard, hv, hw]
    by_cases hvw : v = w
    · simp [hvw]
    · by_cases hlevel : n.level f.name = .off <;> simp [hvw, hlevel, hrequested hvw]
  refine ⟨hparameters, hparameters ▸ (Entity.nodup_fieldNames E).filter _, fun c hc => ?_⟩
  rw [hchanges, List.mem_filterMap] at hc
  obtain ⟨f, hf, hc⟩ := hc
  obtain ⟨v, w, hv, hw, hchange⟩ := n.exists_change?_eq before after hf
  rw [hchange] at hc
  split_ifs at hc with hreported
  obtain rfl := Option.some.inj hc
  exact ⟨hv, hw, rfl⟩

variable (n) in
/-- The levels after a run of requests, and what becomes of them by one more. -/
structure LevelsExact (requests : List (String × Level)) : Prop where
  forced : ∀ f ∈ Entity.fields E, f.notify = .forceEnabled → n.level f.name = .active
  denied : ∀ f ∈ Entity.fields E, f.notify = .canDeny → n.level f.name ≠ .active
  /-- Any parameter that is not forced has the level of the last accepted request that names it. -/
  last : ∀ f ∈ Entity.fields E, f.notify ≠ .forceEnabled →
    n.level f.name = ((initial E).last? f.name requests).getD (levelAtFirst f)
  unknown : ∀ name, Entity.field? E name = none → n.level name = .off
  accepts_iff : ∀ name level, (n.set name level).isOk ↔ ∃ f, Entity.field? E name = some f ∧
    ¬ (f.notify = .canDeny ∧ level = .active)
  /-- A request that is refused or ignored changes nothing. -/
  unchanged : ∀ r, (n.set r.1 r.2).isOk = false ∨
    (∃ f, Entity.field? E r.1 = some f ∧ f.notify = .forceEnabled) → n.after r = n
  others : ∀ r name, r.1 ≠ name → (n.after r).level name = n.level name

variable (E) in
theorem levelsExact_run (requests : List (String × Level)) :
    ((initial E).run requests).LevelsExact requests where
  forced f hf h := level_of_forced (Entity.field?_name hf) h _
  denied f hf h := by
    have hforced : f.notify ≠ .forceEnabled := by simp [h]
    apply level_run_ne_active (Entity.field?_name hf) h
    rw [level_initial hf hforced, levelAtFirst, h]
    decide
  last f hf h := by rw [level_run (Entity.field?_name hf) h, level_initial hf h]
  unknown name h := by simp only [level, h]
  accepts_iff _ _ := isOk_set_iff
  unchanged _ h := after_eq_self h
  others _ _ h := level_after_of_ne _ h

variable (E) in
/-- After every run of requests for levels, accepted or not, a forced parameter is active, one that
may be denied is not, and any other one has the level that was last accepted, or the one at first;
and whatever an accepted write has changed, the report lists exactly the parameters of the write
that read otherwise and are not off, each once and in order, with their levels. -/
theorem levels_and_reports (requests : List (String × Level)) :
    ((initial E).run requests).LevelsExact requests ∧
      ∀ origin updates (e e' : E), Entity.write origin updates e = .ok e' →
        ((initial E).run requests).ReportExact updates e e' := by
  constructor
  · exact levelsExact_run E requests
  · intro origin updates e e' hwrite
    apply reportExact
    intro name hname
    rw [Entity.read?, Entity.read?, (Entity.write_eq_ok origin hwrite).1.get?_of_not_mem hname]

end Objects

def clientRequests : List (String × Level) :=
  [("Status", .off), ("Password", .active), ("BrokerAddress", .passive), ("Bogus", .active)]

/-- Of all that changes only the address is reported: the password is not shown. -/
theorem levels_and_reports_client :
    let n := (initial MqttClient).run clientRequests
    let e : MqttClient := {}
    let updates := [("Status", "Connected"), ("Password", "secret"), ("Name", "hall"),
      ("BrokerAddress", "mqtt.example.net")]
    ∃ e', Entity.write .device updates e = .ok e' ∧ n.level "Password" = .active ∧
      (n.changes e e').map (·.parameter) = ["BrokerAddress"] ∧ n.LevelsExact clientRequests ∧
      n.ReportExact updates e e' := by
  intro n e updates
  have hwrite : Entity.write .device updates e = .ok { e with
      status := .connected, password := "secret", name := "hall",
      brokerAddress := "mqtt.example.net" } := rfl
  obtain ⟨hlevels, hreports⟩ := levels_and_reports MqttClient clientRequests
  exact ⟨_, hwrite, rfl, rfl, hlevels, hreports .device updates e _ hwrite⟩

end Notification
end Cwmp
