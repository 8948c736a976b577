import Cwmp.Objects.Firewall
import Cwmp.Proofs.Answers
import Cwmp.Proofs.Entity.Request

/-! # Requests as sets

The order in which a request lists its entries does not matter. Every entry is judged by itself as
long as no name is repeated, values of different parameters are stored beside each other, and gates
are looked at in the object that all entries together lead to. The device, to which no gate is
closed, may as well write entry by entry.
-/
namespace Cwmp

namespace Record

def assign (name : String) (v : Value) : (fields : List Field) → Record fields → Record fields
  | [], r => r
  | f :: fields, (a, r) =>
    if f.name = name then ((f.shape.store v).toOption.getD a, r)
    else (a, assign name v fields r)

theorem toOption_put (name : String) (v : Value) : ∀ {fields : List Field} (r : Record fields),
    (put name v fields r).toOption.getD r = assign name v fields r
  | [], _ => rfl
  | f :: fields, (a, r) => by
    have ih := toOption_put name v r
    by_cases hf : f.name = name
    · simp only [put, assign, hf, ↓reduceIte]
      cases f.shape.store v <;> rfl
    · simp only [put, assign, hf, ↓reduceIte, ← ih]
      cases put name v fields r <;> rfl

theorem assign_comm {name other : String} (h : name ≠ other) (v w : Value) :
    ∀ {fields : List Field} (r : Record fields), assign name v fields (assign other w fields r) =
      assign other w fields (assign name v fields r)
  | [], _ => rfl
  | f :: fields, (a, r) => by
    have ih := assign_comm h v w r
    by_cases hf : f.name = name
    · have hfo : f.name ≠ other := fun heq => h (hf.symm.trans heq)
      simp only [assign, hf, ↓reduceIte, h]
      rfl
    · by_cases hfo : f.name = other
      · simp only [assign, hfo, ↓reduceIte, Ne.symm h]
        rfl
      · simp only [assign, hf, hfo, ↓reduceIte, ih]
        rfl

end Record

namespace Entity

variable {E : Type} [Entity E]

theorem assign_eq (e : E) (name : String) (v : Value) :
    assign e name v = withRecord e ((record e).assign name v) := by
  rw [← Record.toOption_put]
  unfold assign put
  cases (record e).put name v with
  | ok r => rfl
  | error fault => exact (withRecord_record e).symm

theorem assign_comm {name other : String} (h : name ≠ other) (v w : Value) (e : E) :
    assign (assign e other w) name v = assign (assign e name v) other w := by
  simp only [assign_eq, record_withRecord, Record.assign_comm h]
  simp only [withRecord, parts_ofParts]

variable {origin : Origin} {updates updates' : Updates} {e e' : E}

variable (E) in
def verdict (origin : Origin) (entry : String × String) :
    Except ParameterFault (Field × Value) :=
  judge E origin [] entry.1 entry.2

theorem judge_of_not_mem {earlier : List String} {name text : String} (h : name ∉ earlier) :
    judge E origin earlier name text = verdict E origin (name, text) := by
  simp [verdict, judge, h]

theorem verdicts_eq_map : ∀ {earlier : List String} {updates : Updates},
    (updates.map Prod.fst).Nodup → (∀ u ∈ updates, u.1 ∉ earlier) →
      verdicts E origin earlier updates = updates.map (verdict E origin)
  | _, [], _, _ => rfl
  | earlier, (name, text) :: updates, hnodup, hnew => by
    rw [List.map_cons, List.nodup_cons] at hnodup
    have hrest : ∀ u ∈ updates, u.1 ∉ name :: earlier := by
      intro u hu hmem
      rcases List.mem_cons.1 hmem with rfl | hmem
      · exact hnodup.1 (List.mem_map.2 ⟨u, hu, rfl⟩)
      · exact hnew u (List.mem_cons_of_mem _ hu) hmem
    rw [verdicts, judge_of_not_mem (hnew _ List.mem_cons_self),
      verdicts_eq_map hnodup.2 hrest, List.map_cons]

theorem verdicts_of_nodup (h : (updates.map Prod.fst).Nodup) :
    verdicts E origin [] updates = updates.map (verdict E origin) :=
  verdicts_eq_map h fun _ _ => List.not_mem_nil

theorem name_of_verdict {entry : String × String} {p : Field × Value}
    (h : verdict E origin entry = .ok p) : p.1.name = entry.1 :=
  name_of_field? (passes_of_judge h).known

/-- Entries with different names lead to one object in whatever order they are stored. -/
theorem stored_perm (h : updates.Perm updates') (hnodup : (updates.map Prod.fst).Nodup) (e : E) :
    stored (updates.map (verdict E origin)) e = stored (updates'.map (verdict E origin)) e := by
  have hmem : ∀ {p}, p ∈ (updates.map (verdict E origin)).filterMap Except.toOption →
      ∃ u ∈ updates, verdict E origin u = .ok p := by
    intro p hp
    obtain ⟨judged, hjudged, hok⟩ := List.mem_filterMap.1 hp
    obtain ⟨u, hu, rfl⟩ := List.mem_map.1 hjudged
    refine ⟨u, hu, ?_⟩
    cases hverdict : verdict E origin u with
    | error fault => simp [hverdict, Except.toOption] at hok
    | ok q => simpa [hverdict, Except.toOption] using hok
  refine List.Perm.foldl_eq' ((h.map _).filterMap _) ?_ e
  intro p hp q hq e
  by_cases hname : p.1.name = q.1.name
  · obtain ⟨u, hu, hverdict⟩ := hmem hp
    obtain ⟨u', hu', hverdict'⟩ := hmem hq
    rw [name_of_verdict hverdict, name_of_verdict hverdict'] at hname
    obtain rfl := List.inj_on_of_nodup_map hnodup hu hu' hname
    obtain rfl := Except.ok.inj (hverdict.symm.trans hverdict')
    rfl
  · exact assign_comm (Ne.symm hname) q.2 p.2 e

theorem write_eq_ok_iff : write origin updates e = .ok e' ↔
    faultsOf origin updates e = [] ∧ stored (verdicts E origin [] updates) e = e' := by
  rcases request_spec origin updates e with ⟨hnone, hreq⟩ | ⟨hsome, fault, hreq, -⟩
  · cases hwrite : write origin updates e <;> simp_all [request]
  · cases hwrite : write origin updates e <;> simp_all [request]

theorem perm_of_write_eq_error {fault : SetFault} (h : write origin updates e = .error fault) :
    fault.faults.Perm (faultsOf origin updates e) := by
  rcases request_spec origin updates e with ⟨-, hreq⟩ | ⟨-, fault', hreq, hperm⟩
  · simp [request, h] at hreq
  · obtain rfl : fault = fault' := by simpa [request, h] using hreq
    exact hperm

theorem faultsOf_perm (h : updates.Perm updates') (hnodup : (updates.map Prod.fst).Nodup) (e : E) :
    (faultsOf origin updates e).Perm (faultsOf origin updates' e) := by
  have hnodup' := (h.map Prod.fst).nodup_iff.1 hnodup
  simp only [faultsOf, verdicts_of_nodup hnodup, verdicts_of_nodup hnodup', stored_perm h hnodup]
  exact (h.map _).filterMap _

theorem nodup_of_write_eq_ok (h : write origin updates e = .ok e') :
    (updates.map Prod.fst).Nodup :=
  (blames_nil_iff.1 (write_eq_ok origin h).2).2.distinct

theorem write_perm (h : updates.Perm updates') (hwrite : write origin updates e = .ok e') :
    write origin updates' e = .ok e' := by
  have hnodup := nodup_of_write_eq_ok hwrite
  have hnodup' := (h.map Prod.fst).nodup_iff.1 hnodup
  obtain ⟨hnone, rfl⟩ := write_eq_ok_iff.1 hwrite
  refine write_eq_ok_iff.2 ⟨?_, ?_⟩
  · have hperm : (faultsOf origin updates e).Perm (faultsOf origin updates' e) :=
      faultsOf_perm h hnodup e
    rw [hnone] at hperm
    exact hperm.symm.eq_nil
  · rw [verdicts_of_nodup hnodup, verdicts_of_nodup hnodup', stored_perm h hnodup]

theorem exists_error_of_perm (h : updates.Perm updates') (hnodup : (updates.map Prod.fst).Nodup)
    {fault : SetFault} (hwrite : write origin updates e = .error fault) :
    ∃ fault', write origin updates' e = .error fault' ∧ fault'.faults.Perm fault.faults := by
  cases hwrite' : write origin updates' e with
  | ok e' => cases hwrite.symm.trans (write_perm h.symm hwrite')
  | error fault' =>
    refine ⟨fault', rfl, ?_⟩
    exact (perm_of_write_eq_error hwrite').trans
      ((faultsOf_perm h hnodup e).symm.trans (perm_of_write_eq_error hwrite).symm)

/-- Writes the entries one after the other, each as a request of its own, until one is refused. -/
def writeEach (origin : Origin) (updates : Updates) (e : E) : Except SetFault E :=
  updates.foldlM (fun e u => write origin [u] e) e

theorem write_device_eq_ok_iff (h : (updates.map Prod.fst).Nodup) :
    write .device updates e = .ok e' ↔ (∀ u ∈ updates, ∃ p, verdict E .device u = .ok p) ∧
      stored (updates.map (verdict E .device)) e = e' := by
  rw [write_eq_ok_iff, faultsOf, verdicts_of_nodup h]
  refine and_congr_left fun _ => ?_
  simp only [List.filterMap_map, List.filterMap_eq_nil_iff, Function.comp_apply]
  refine forall₂_congr fun u _ => ?_
  cases verdict E .device u <;> simp [blame?, refusal?, shut?]

theorem write_device_single {u : String × String} : write .device [u] e = .ok e' ↔
    ∃ p, verdict E .device u = .ok p ∧ assign e p.1.name p.2 = e' := by
  rw [write_device_eq_ok_iff (by simp)]
  cases hverdict : verdict E .device u with
  | error fault => simp [hverdict]
  | ok p =>
    obtain ⟨f, v⟩ := p
    simp [stored, hverdict, Except.toOption]

theorem writeEach_device_eq_ok_iff : writeEach .device updates e = .ok e' ↔
    (∀ u ∈ updates, ∃ p, verdict E .device u = .ok p) ∧
      stored (updates.map (verdict E .device)) e = e' := by
  induction updates generalizing e with
  | nil => simp [writeEach, stored, pure, Except.pure]
  | cons u updates ih =>
    have hstep : writeEach .device (u :: updates) e =
        write .device [u] e >>= fun e => writeEach .device updates e := by
      simp only [writeEach, List.foldlM_cons]
    rw [hstep, bind_eq_ok_iff]
    simp only [write_device_single, ih, List.forall_mem_cons]
    constructor
    · rintro ⟨_, ⟨p, hp, rfl⟩, hrest, rfl⟩
      exact ⟨⟨⟨p, hp⟩, hrest⟩, by simp [stored, hp, Except.toOption]⟩
    · rintro ⟨⟨⟨p, hp⟩, hrest⟩, rfl⟩
      exact ⟨_, ⟨p, hp, rfl⟩, hrest, by simp [stored, hp, Except.toOption]⟩

/-- A request is a set of entries. In another order it is accepted too, and leads to the same
object, or refused too, and then for the same faults if it repeats no name. Such a request of the
device is accepted exactly when each of its entries is on its own, and it leads to the object to
which they lead one by one. -/
theorem request_unordered (h : updates.Perm updates') (e : E) :
    (∀ origin e', write origin updates e = .ok e' ↔ write origin updates' e = .ok e') ∧
    ((updates.map Prod.fst).Nodup →
      (∀ origin fault, write origin updates e = .error fault →
        ∃ fault', write origin updates' e = .error fault' ∧ fault'.faults.Perm fault.faults) ∧
      ((∃ e', write .device updates e = .ok e') ↔
        ∀ u ∈ updates, ∃ e', write .device [u] e = .ok e') ∧
      ∀ e', write .device updates e = .ok e' ↔ writeEach .device updates' e = .ok e') := by
  refine ⟨fun origin e' => ⟨write_perm h, write_perm h.symm⟩, fun hnodup => ⟨?_, ?_, ?_⟩⟩
  · exact fun origin fault hwrite => exists_error_of_perm h hnodup hwrite
  · simp [write_device_eq_ok_iff hnodup, write_device_single]
  · intro e'
    have hnodup' := (h.map Prod.fst).nodup_iff.1 hnodup
    rw [writeEach_device_eq_ok_iff, ← write_device_eq_ok_iff hnodup']
    exact ⟨write_perm h, write_perm h.symm⟩

def chainFirst : Updates :=
  [("TargetChain", "guests"), ("Target", "TargetChain")]

theorem request_unordered_chainFirst : ∃ e : FirewallRule, e.targetChain = "guests" ∧
    (chainFirst.map Prod.fst).Nodup ∧ chainFirst.Perm chainFirst.reverse ∧
    write .controller chainFirst.reverse {} = .ok e ∧ write .controller chainFirst {} = .ok e ∧
    writeEach .device chainFirst.reverse {} = .ok e := by
  have hnodup : (chainFirst.map Prod.fst).Nodup := by decide
  have hperm : chainFirst.Perm chainFirst.reverse := (List.reverse_perm chainFirst).symm
  let e : FirewallRule := { target := .targetChain, targetChain := "guests" }
  have hmode : write .controller chainFirst.reverse {} = .ok e := rfl
  have hdevice : write .device chainFirst {} = .ok e := rfl
  obtain ⟨horder, hset⟩ := request_unordered hperm ({} : FirewallRule)
  exact ⟨e, rfl, hnodup, hperm, hmode, (horder _ e).2 hmode, ((hset hnodup).2.2 e).1 hdevice⟩

end Entity
end Cwmp
