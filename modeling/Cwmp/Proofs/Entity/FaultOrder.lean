import Cwmp.Objects.Mqtt
import Cwmp.Proofs.Entity.Request

/-! # The order of the faults

A request is looked through twice: first entry by entry, and then, when all that passed is stored,
gate by gate. The faults of the second pass follow those of the first, so that each pass names its
parameters in the order of the request, but not both together: an entry whose gate is closed is
named after all that were refused by themselves, wherever it stands.
-/
namespace Cwmp.Entity

variable {E : Type} [Entity E]

/-- The names for which a request is blamed, in two lists: those of the entries that do not pass by
themselves, and those of the entries that pass and meet a closed gate in the staged object. Either
list is in the order of the request. -/
inductive Sifts (origin : Origin) (staged : E) :
    (earlier : List String) → Updates → (refused shut : List String) → Prop
  | done {earlier : List String} : Sifts origin staged earlier [] [] []
  | refused {earlier : List String} {name text : String} {updates : Updates}
      {refused shut : List String} : (∀ f v, ¬ Passes E origin earlier name text f v) →
      Sifts origin staged (name :: earlier) updates refused shut →
      Sifts origin staged earlier ((name, text) :: updates) (name :: refused) shut
  | shut {earlier : List String} {name text : String} {f : Field} {v : Value} {g : Gate}
      {updates : Updates} {refused shut : List String} :
      Passes E origin earlier name text f v → origin = .controller → g ∈ f.gates →
      isOpen staged g = false → Sifts origin staged (name :: earlier) updates refused shut →
      Sifts origin staged earlier ((name, text) :: updates) refused (name :: shut)
  | fine {earlier : List String} {name text : String} {updates : Updates}
      {refused shut : List String} :
      (∀ code, ¬ Offence origin staged earlier name text code) →
      Sifts origin staged (name :: earlier) updates refused shut →
      Sifts origin staged earlier ((name, text) :: updates) refused shut

namespace Sifts

variable {origin : Origin} {staged : E} {earlier : List String} {updates : Updates}
  {refused shut : List String}

theorem refused_sublist (h : Sifts origin staged earlier updates refused shut) :
    refused.Sublist (updates.map Prod.fst) := by
  induction h with
  | done => exact .refl _
  | refused _ _ ih => exact ih.cons_cons _
  | shut _ _ _ _ _ ih => exact ih.cons _
  | fine _ _ ih => exact ih.cons _

theorem shut_sublist (h : Sifts origin staged earlier updates refused shut) :
    shut.Sublist (updates.map Prod.fst) := by
  induction h with
  | done => exact .refl _
  | refused _ _ ih => exact ih.cons _
  | shut _ _ _ _ _ ih => exact ih.cons_cons _
  | fine _ _ ih => exact ih.cons _

theorem shut_of_device (h : Sifts origin staged earlier updates refused shut)
    (horigin : origin = .device) : shut = [] := by
  induction h with
  | done => rfl
  | shut _ hc _ _ _ _ => cases horigin.symm.trans hc
  | refused _ _ ih => exact ih
  | fine _ _ ih => exact ih

theorem pair_sublist_of_cons {name a b : String} {names : List String} (hname : name ∉ names)
    (ha : a ∈ names) (h : [a, b].Sublist (name :: names)) : [a, b].Sublist names := by
  rcases List.sublist_cons_iff.1 h with h | ⟨r, hr, -⟩
  · exact h
  · exact absurd ((List.cons.inj hr).1 ▸ ha) hname

/-- In a request whose names are all different, the two lists one after the other are in the order
of the request if each entry of the first stands before each of the second. -/
theorem append_sublist (h : Sifts origin staged earlier updates refused shut)
    (hdistinct : (updates.map Prod.fst).Nodup)
    (hbefore : ∀ a ∈ refused, ∀ b ∈ shut, [a, b].Sublist (updates.map Prod.fst)) :
    (refused ++ shut).Sublist (updates.map Prod.fst) := by
  induction h with
  | done => exact .refl _
  | @refused _ name _ _ refused shut _ hrest ih =>
    obtain ⟨hname, hdistinct⟩ := List.nodup_cons.1 hdistinct
    refine (ih hdistinct fun a ha b hb => ?_).cons_cons name
    exact pair_sublist_of_cons hname (hrest.refused_sublist.subset ha)
      (hbefore a (List.mem_cons_of_mem _ ha) b hb)
  | @shut _ name _ _ _ _ _ refused shut _ _ _ _ hrest _ =>
    obtain ⟨hname, -⟩ := List.nodup_cons.1 hdistinct
    have hnone : refused = [] := by
      refine List.eq_nil_iff_forall_not_mem.2 fun a ha => hname ?_
      have hpair := pair_sublist_of_cons hname (hrest.refused_sublist.subset ha)
        (hbefore a ha name List.mem_cons_self)
      exact hpair.subset (List.mem_cons_of_mem _ List.mem_cons_self)
    subst hnone
    exact hrest.shut_sublist.cons_cons name
  | @fine _ name _ _ refused shut _ hrest ih =>
    obtain ⟨hname, hdistinct⟩ := List.nodup_cons.1 hdistinct
    refine (ih hdistinct fun a ha b hb => ?_).cons name
    exact pair_sublist_of_cons hname (hrest.refused_sublist.subset ha) (hbefore a ha b hb)

end Sifts

/-- The two passes over a request find the names of its two kinds of offending entries. -/
theorem sifts_verdicts (origin : Origin) (staged : E) (updates : Updates) :
    ∀ earlier : List String, Sifts origin staged earlier updates
      (((verdicts E origin earlier updates).filterMap refusal?).map (·.parameter))
      (((verdicts E origin earlier updates).filterMap (shut? origin staged)).map
        (·.parameter)) := by
  induction updates with
  | nil => exact fun _ => .done
  | cons u updates ih =>
    obtain ⟨name, text⟩ := u
    intro earlier
    have hrest := ih (name :: earlier)
    simp only [verdicts, List.filterMap_cons]
    cases hj : judge E origin earlier name text with
    | error fault =>
      obtain ⟨rfl, -⟩ := offence_of_judge staged hj
      refine .refused (fun f v hp => ?_) hrest
      cases hj.symm.trans (judge_of_passes hp)
    | ok p =>
      obtain ⟨f, v⟩ := p
      have hp := passes_of_judge hj
      cases hs : shut? origin staged (.ok (f, v)) with
      | none =>
        refine .fine (not_offence_of_passes hp ?_) hrest
        rintro rfl
        exact gateFault?_eq_none.1 hs
      | some fault =>
        cases origin with
        | device => cases hs
        | controller =>
          obtain ⟨hname, -, g, hg, hshut⟩ := gateFault?_eq_some hs
          simp only [List.map_cons, hname, name_of_field? hp.known]
          exact .shut hp rfl hg hshut hrest

variable {origin : Origin} {updates : Updates} {e : E} {fault : SetFault}

theorem exists_sifts (h : (request origin updates e).1 = .error fault) :
    ∃ (staged : E) (refused shut : List String), Stages origin [] updates e staged ∧
      Sifts origin staged [] updates refused shut ∧ fault.parameters = refused ++ shut := by
  refine ⟨_, _, _, stages_stored origin updates [] e, sifts_verdicts origin _ updates [], ?_⟩
  simp only [request, write] at h
  split_ifs at h
  cases h
  exact List.map_append

/-- A refused request names the parameters of the entries that do not pass by themselves, then those
of the entries whose gates are closed in the staged object. Either part is in the order of the
request. The whole is in that order only if no entry with a closed gate stands before one that was
refused by itself, and it is so if, besides, no name stands in the request twice. -/
theorem parameters_of_refused (h : (request origin updates e).1 = .error fault) :
    ∃ (staged : E) (refused shut : List String), Stages origin [] updates e staged ∧
      Sifts origin staged [] updates refused shut ∧ fault.parameters = refused ++ shut ∧
      refused.Sublist (updates.map Prod.fst) ∧ shut.Sublist (updates.map Prod.fst) ∧
      (origin = .device → shut = []) ∧
      (fault.parameters.Sublist (updates.map Prod.fst) →
        ∀ a ∈ refused, ∀ b ∈ shut, [a, b].Sublist (updates.map Prod.fst)) ∧
      ((updates.map Prod.fst).Nodup →
        (∀ a ∈ refused, ∀ b ∈ shut, [a, b].Sublist (updates.map Prod.fst)) →
          fault.parameters.Sublist (updates.map Prod.fst)) := by
  obtain ⟨staged, refused, shut, hstages, hsifts, hparameters⟩ := exists_sifts h
  refine ⟨staged, refused, shut, hstages, hsifts, hparameters, hsifts.refused_sublist,
    hsifts.shut_sublist, hsifts.shut_of_device, ?_, ?_⟩
  · intro hsub a ha b hb
    rw [hparameters] at hsub
    have hpair := (List.singleton_sublist.2 ha).append (List.singleton_sublist.2 hb)
    exact hpair.trans hsub
  · rw [hparameters]
    exact hsifts.append_sublist

/-- The will is not in use and the port is no number: the port was refused by itself, and so it is
named first. -/
theorem parameters_of_refused_will : ∃ fault,
    (request .controller [("WillTopic", "x"), ("BrokerPort", "abc")]
      (initial : MqttClient)).1 = .error fault ∧
    fault.parameters = ["BrokerPort", "WillTopic"] ∧
    ∃ (staged : MqttClient) (refused shut : List String),
      Sifts .controller staged [] [("WillTopic", "x"), ("BrokerPort", "abc")] refused shut ∧
      fault.parameters = refused ++ shut := by
  have hrefused : (request .controller [("WillTopic", "x"), ("BrokerPort", "abc")]
      (initial : MqttClient)).1 = .error
        { faults := [⟨"BrokerPort", .invalidParameterType, "'abc' is not an unsigned integer"⟩,
          ⟨"WillTopic", .nonWritableParameter, "writable only when WillEnable=true"⟩] } := by
    decide +kernel
  obtain ⟨staged, refused, shut, -, hsifts, hparameters, -⟩ := parameters_of_refused hrefused
  exact ⟨_, hrefused, rfl, staged, refused, shut, hsifts, hparameters⟩

/-- The names of a refused request need not be in its order: of the topic of a will that is not in
use and a port that is no number, the port is named first. -/
theorem not_sublist_of_refused_will : ∃ fault,
    (request .controller [("WillTopic", "x"), ("BrokerPort", "abc")]
      (initial : MqttClient)).1 = .error fault ∧
    ¬ fault.parameters.Sublist ["WillTopic", "BrokerPort"] := by
  refine ⟨{ faults := [⟨"BrokerPort", .invalidParameterType, "'abc' is not an unsigned integer"⟩,
    ⟨"WillTopic", .nonWritableParameter, "writable only when WillEnable=true"⟩] }, ?_, ?_⟩
  · decide +kernel
  · decide +kernel

end Cwmp.Entity
