import Cwmp.Entity.Write
import Cwmp.Proofs.Entity.Stored

/-! # The meaning of a write request

A request is described without the order in which its checks are made: which entries pass by
themselves, which object they lead to when they are stored together, and for which entry the request
is blamed with which code. A request succeeds exactly when there is nothing to blame.
-/
namespace Cwmp.Entity

variable {E : Type} [Entity E]

def OpenTo (origin : Origin) (f : Field) : Prop :=
  origin = .controller → f.access = .readWrite

variable (E) in
/-- An entry that stands after those with the names `earlier` passes by itself, writing the value
`v` to the parameter `f`. -/
structure Passes (origin : Origin) (earlier : List String) (name text : String) (f : Field)
    (v : Value) : Prop where
  new : name ∉ earlier
  known : field? E name = some f
  writable : OpenTo origin f
  reads : f.shape.kind.read text = .ok v
  accepts : f.shape.kind.Accepts v

/-- The object to which the passing entries of a request lead, all others being left out. -/
inductive Stages (origin : Origin) : (earlier : List String) → Updates → E → E → Prop
  | done {earlier : List String} {e : E} : Stages origin earlier [] e e
  | pass {earlier : List String} {name text : String} {f : Field} {v : Value} {updates : Updates}
      {e e₁ e₂ : E} : Passes E origin earlier name text f v → put e name v = .ok e₁ →
      Stages origin (name :: earlier) updates e₁ e₂ →
      Stages origin earlier ((name, text) :: updates) e e₂
  | skip {earlier : List String} {name text : String} {updates : Updates} {e e₂ : E} :
      (∀ f v, ¬ Passes E origin earlier name text f v) →
      Stages origin (name :: earlier) updates e e₂ →
      Stages origin earlier ((name, text) :: updates) e e₂

/-- The code with which a request is blamed for an entry, the entries before it and the object
staged from the whole request being given. Each case supposes that those above it do not apply. -/
inductive Offence (origin : Origin) (staged : E) (earlier : List String) (name text : String) :
    FaultCode → Prop
  | repeated : name ∈ earlier → Offence origin staged earlier name text .invalidArguments
  | unknown : name ∉ earlier → field? E name = none →
      Offence origin staged earlier name text .invalidParameterName
  | readOnly {f : Field} : name ∉ earlier → field? E name = some f → ¬ OpenTo origin f →
      Offence origin staged earlier name text .nonWritableParameter
  | unreadable {f : Field} {fault : ReadFault} : name ∉ earlier → field? E name = some f →
      OpenTo origin f → f.shape.kind.read text = .error fault →
      Offence origin staged earlier name text .invalidParameterType
  | misfit {f : Field} {v : Value} {misfit : Misfit} : name ∉ earlier → field? E name = some f →
      OpenTo origin f → f.shape.kind.read text = .ok v → f.shape.kind.misfit? v = some misfit →
      Offence origin staged earlier name text misfit.faultCode
  | gated {f : Field} {v : Value} {g : Gate} : Passes E origin earlier name text f v →
      origin = .controller → g ∈ f.gates → isOpen staged g = false →
      Offence origin staged earlier name text .nonWritableParameter

/-- The names and codes for which a request is blamed: one for every offending entry, in the order
of the request, and none for an entry without offence. -/
inductive Blames (origin : Origin) (staged : E) :
    (earlier : List String) → Updates → List (String × FaultCode) → Prop
  | done {earlier : List String} : Blames origin staged earlier [] []
  | offending {earlier : List String} {name text : String} {code : FaultCode} {updates : Updates}
      {blamed : List (String × FaultCode)} : Offence origin staged earlier name text code →
      Blames origin staged (name :: earlier) updates blamed →
      Blames origin staged earlier ((name, text) :: updates) ((name, code) :: blamed)
  | fine {earlier : List String} {name text : String} {updates : Updates}
      {blamed : List (String × FaultCode)} :
      (∀ code, ¬ Offence origin staged earlier name text code) →
      Blames origin staged (name :: earlier) updates blamed →
      Blames origin staged earlier ((name, text) :: updates) blamed

/-- A request to which nothing is to be objected, `staged` being the object with all of it. -/
structure Admissible (origin : Origin) (updates : Updates) (staged : E) : Prop where
  distinct : (updates.map Prod.fst).Nodup
  fits : ∀ name text, (name, text) ∈ updates → ∃ f v,
    field? E name = some f ∧ f.shape.kind.read text = .ok v ∧ f.shape.kind.Accepts v
  open_to : origin = .controller → ∀ name text, (name, text) ∈ updates → ∀ f,
    field? E name = some f → f.access = .readWrite ∧ ∀ g ∈ f.gates, isOpen staged g = true

section Entries

variable {origin : Origin} {earlier : List String} {name text : String} {f : Field} {v : Value}

theorem openTo_iff : OpenTo origin f ↔ ¬ (origin = .controller ∧ f.access = .readOnly) := by
  unfold OpenTo
  cases origin <;> cases f.access <;> simp

theorem name_of_field? (h : field? E name = some f) : f.name = name := by
  simpa using List.find?_some h

theorem Passes.unique {g : Field} {w : Value} (h : Passes E origin earlier name text f v)
    (h' : Passes E origin earlier name text g w) : f = g ∧ v = w := by
  obtain rfl : f = g := Option.some.inj (h.known.symm.trans h'.known)
  exact ⟨rfl, Except.ok.inj (h.reads.symm.trans h'.reads)⟩

theorem judge_of_passes (h : Passes E origin earlier name text f v) :
    judge E origin earlier name text = .ok (f, v) := by
  obtain ⟨a, hstore, -⟩ := Shape.exists_keeps h.accepts
  have hopen := openTo_iff.1 h.writable
  have hcheck : f.shape.kind.check f.name v = .ok () := Kind.check_eq_ok_iff.2 h.accepts
  simp only [judge, h.new, ↓reduceIte, h.known, hopen, h.reads, hcheck, hstore]

theorem passes_of_judge (h : judge E origin earlier name text = .ok (f, v)) :
    Passes E origin earlier name text f v := by
  unfold judge at h
  split_ifs at h with hnew
  split at h
  next => cases h
  next g hknown =>
    split_ifs at h with hopen
    split at h
    next => cases h
    next w hreads =>
      split at h
      next => cases h
      next hcheck =>
        split at h
        next => cases h
        next =>
          obtain ⟨rfl, rfl⟩ : g = f ∧ w = v := by simpa using h
          exact ⟨hnew, hknown, openTo_iff.2 hopen, hreads, Kind.check_eq_ok_iff.1 hcheck⟩

/-- An entry that is refused by itself is an offence, whatever object is staged. -/
theorem offence_of_judge {fault : ParameterFault} (staged : E)
    (h : judge E origin earlier name text = .error fault) :
    fault.parameter = name ∧ Offence origin staged earlier name text fault.code := by
  unfold judge at h
  split_ifs at h with hnew
  · cases h
    exact ⟨rfl, .repeated hnew⟩
  split at h
  next hknown =>
    cases h
    exact ⟨rfl, .unknown hnew hknown⟩
  next f hknown =>
    split_ifs at h with hopen
    · cases h
      exact ⟨rfl, .readOnly hnew hknown (fun ho => openTo_iff.1 ho hopen)⟩
    split at h
    next readFault hreads =>
      cases h
      exact ⟨rfl, .unreadable hnew hknown (openTo_iff.2 hopen) hreads⟩
    next v hreads =>
      cases hm : f.shape.kind.misfit? v with
      | some misfit =>
        simp only [Kind.check, hm, Except.error.injEq] at h
        subst h
        exact ⟨name_of_field? hknown, .misfit hnew hknown (openTo_iff.2 hopen) hreads hm⟩
      | none =>
        obtain ⟨a, hstore, -⟩ := Shape.exists_keeps (s := f.shape) (v := v) hm
        simp [Kind.check, hm, hstore] at h

end Entries

section Offences

variable {origin : Origin} {earlier : List String} {name text : String} {f : Field} {v : Value}
  {staged : E} {updates : Updates}

/-- An entry that passes and whose gates are open is no offence. -/
theorem not_offence_of_passes (h : Passes E origin earlier name text f v)
    (hgates : origin = .controller → ∀ g ∈ f.gates, isOpen staged g = true) (code : FaultCode) :
    ¬ Offence origin staged earlier name text code := by
  have hfield : ∀ {g : Field}, field? E name = some g → g = f := fun hg =>
    Option.some.inj (hg.symm.trans h.known)
  intro ho
  cases ho with
  | repeated hmem => exact h.new hmem
  | unknown _ hnone => exact Option.some_ne_none _ (h.known.symm.trans hnone)
  | readOnly _ hg hclosed => exact hclosed (hfield hg ▸ h.writable)
  | unreadable _ hg _ hfault =>
    obtain rfl := hfield hg
    cases h.reads.symm.trans hfault
  | misfit _ hg _ hreads hm =>
    obtain rfl := hfield hg
    obtain rfl := Except.ok.inj (h.reads.symm.trans hreads)
    exact Option.some_ne_none _ (hm.symm.trans h.accepts)
  | gated h' hc hg hshut =>
    obtain ⟨rfl, -⟩ := h.unique h'
    exact Bool.false_ne_true (hshut.symm.trans (hgates hc _ hg))

theorem no_offence_iff : (∀ code, ¬ Offence origin staged earlier name text code) ↔
    ∃ f v, Passes E origin earlier name text f v ∧
      (origin = .controller → ∀ g ∈ f.gates, isOpen staged g = true) := by
  constructor
  · intro hno
    cases hj : judge E origin earlier name text with
    | error fault => exact absurd (offence_of_judge staged hj).2 (hno _)
    | ok p =>
      obtain ⟨f, v⟩ := p
      have hp := passes_of_judge hj
      refine ⟨f, v, hp, fun hc g hg => ?_⟩
      cases ho : isOpen staged g with
      | true => rfl
      | false => exact absurd (.gated hp hc hg ho) (hno _)
  · rintro ⟨f, v, hp, hgates⟩
    exact not_offence_of_passes hp hgates

theorem Offence.unique {code code' : FaultCode}
    (h : Offence origin staged earlier name text code)
    (h' : Offence origin staged earlier name text code') : code = code' := by
  cases h <;> cases h' <;> grind [Passes, Kind.Accepts]

/-- Nothing is blamed exactly when no name has come before and the request is admissible. -/
theorem blames_nil_iff : Blames origin staged earlier updates [] ↔
    (∀ name text, (name, text) ∈ updates → name ∉ earlier) ∧
      Admissible origin updates staged := by
  induction updates generalizing earlier with
  | nil =>
    refine ⟨fun _ => ⟨by simp, ⟨by simp, by simp, by simp⟩⟩, fun _ => .done⟩
  | cons u updates ih =>
    obtain ⟨name, text⟩ := u
    constructor
    · rintro (_ | _ | ⟨hno, hrest⟩)
      obtain ⟨f, v, hp, hgates⟩ := no_offence_iff.1 hno
      obtain ⟨hnew, hadm⟩ := ih.1 hrest
      refine ⟨?_, ?_, ?_, ?_⟩
      · intro n t hmem
        rcases List.mem_cons.1 hmem with he | hmem
        · cases he
          exact hp.new
        · exact fun hn => hnew n t hmem (List.mem_cons_of_mem _ hn)
      · rw [List.map_cons, List.nodup_cons]
        refine ⟨fun hmem => ?_, hadm.distinct⟩
        obtain ⟨⟨n, t⟩, hu, rfl⟩ := List.mem_map.1 hmem
        exact hnew n t hu List.mem_cons_self
      · intro n t hmem
        rcases List.mem_cons.1 hmem with he | hmem
        · cases he
          exact ⟨f, v, hp.known, hp.reads, hp.accepts⟩
        · exact hadm.fits n t hmem
      · intro hc n t hmem g hg
        rcases List.mem_cons.1 hmem with he | hmem
        · cases he
          obtain rfl := Option.some.inj (hp.known.symm.trans hg)
          exact ⟨hp.writable hc, hgates hc⟩
        · exact hadm.open_to hc n t hmem g hg
    · rintro ⟨hnew, hadm⟩
      obtain ⟨f, v, hknown, hreads, haccepts⟩ := hadm.fits name text List.mem_cons_self
      have hhead := fun hc => hadm.open_to hc name text List.mem_cons_self f hknown
      have hdistinct := List.nodup_cons.1 hadm.distinct
      refine .fine (no_offence_iff.2 ⟨f, v, ?_, fun hc => (hhead hc).2⟩) (ih.2 ⟨?_, ?_, ?_, ?_⟩)
      · exact ⟨hnew name text List.mem_cons_self, hknown, fun hc => (hhead hc).1, hreads, haccepts⟩
      · intro n t hmem hn
        rcases List.mem_cons.1 hn with rfl | hn
        · exact hdistinct.1 (List.mem_map.2 ⟨(n, t), hmem, rfl⟩)
        · exact hnew n t (List.mem_cons_of_mem _ hmem) hn
      · exact hdistinct.2
      · exact fun n t hmem => hadm.fits n t (List.mem_cons_of_mem _ hmem)
      · exact fun hc n t hmem => hadm.open_to hc n t (List.mem_cons_of_mem _ hmem)

theorem Blames.unique {l l' : List (String × FaultCode)}
    (h : Blames origin staged earlier updates l) (h' : Blames origin staged earlier updates l') :
    l = l' := by
  induction h generalizing l' with
  | done =>
    cases h'
    rfl
  | offending ho _ ih =>
    cases h' with
    | offending ho' hrest' => rw [ho.unique ho', ih hrest']
    | fine hno _ => exact absurd ho (hno _)
  | fine hno _ ih =>
    cases h' with
    | offending ho' _ => exact absurd ho' (hno _)
    | fine _ hrest' => exact ih hrest'

end Offences

section Staging

variable {origin : Origin} {earlier : List String} {updates : Updates} {e e' staged : E}

theorem Stages.get?_of_not_mem (h : Stages origin earlier updates e e') {name : String}
    (hn : name ∉ updates.map Prod.fst) : get? e' name = get? e name := by
  induction h with
  | done => rfl
  | pass hp hput _ ih =>
    rw [List.map_cons, List.mem_cons, not_or] at hn
    rw [ih hn.2, get?_put_of_ne hput hn.1]
  | skip _ _ ih =>
    rw [List.map_cons, List.mem_cons, not_or] at hn
    exact ih hn.2

theorem Stages.children_eq (h : Stages origin earlier updates e e') :
    (parts e').2 = (parts e).2 := by
  induction h with
  | done => rfl
  | pass _ hput _ ih => rw [ih, children_put hput]
  | skip _ _ ih => exact ih

/-- A request leads to one object only. -/
theorem Stages.unique {e'' : E} (h : Stages origin earlier updates e e')
    (h' : Stages origin earlier updates e e'') : e' = e'' := by
  induction h with
  | done =>
    cases h'
    rfl
  | pass hp hput _ ih =>
    cases h' with
    | pass hp' hput' hrest' =>
      obtain ⟨rfl, rfl⟩ := hp.unique hp'
      obtain rfl := Except.ok.inj (hput.symm.trans hput')
      exact ih hrest'
    | skip hno _ => exact absurd hp (hno _ _)
  | skip hno _ ih =>
    cases h' with
    | pass hp' _ _ => exact absurd hp' (hno _ _)
    | skip _ hrest' => exact ih hrest'

/-- In a request without offence every entry is stored, and none is overwritten by another. -/
theorem Stages.get?_of_mem (h : Stages origin earlier updates e e')
    (hb : Blames origin staged earlier updates []) {name text : String} {f : Field} {v : Value}
    (hmem : (name, text) ∈ updates) (hf : field? E name = some f)
    (hr : f.shape.kind.read text = .ok v) : get? e' name = some (f.shape.canonical v) := by
  induction h with
  | done => cases hmem
  | pass hp hput hrest ih =>
    rcases hb with _ | _ | ⟨-, hb⟩
    rcases List.mem_cons.1 hmem with he | hmem
    · cases he
      obtain rfl := Option.some.inj (hp.known.symm.trans hf)
      obtain rfl := Except.ok.inj (hp.reads.symm.trans hr)
      obtain ⟨e₁', hput', hget⟩ := put_of_accepts _ hp.known hp.accepts
      obtain rfl := Except.ok.inj (hput.symm.trans hput')
      rw [hrest.get?_of_not_mem, hget]
      intro hin
      obtain ⟨⟨n, t⟩, hu, rfl⟩ := List.mem_map.1 hin
      exact (blames_nil_iff.1 hb).1 n t hu List.mem_cons_self
    · exact ih hb hmem
  | skip hno _ _ =>
    rcases hb with _ | _ | ⟨hfree, -⟩
    obtain ⟨f, v, hp, -⟩ := no_offence_iff.1 hfree
    exact absurd hp (hno f v)

end Staging

section Verdicts

variable (origin : Origin)

/-- The fault that a verdict brings about, `staged` being the object with all accepted values. -/
def blame? (staged : E) (verdict : Except ParameterFault (Field × Value)) :
    Option ParameterFault :=
  (refusal? verdict).or (shut? origin staged verdict)

theorem stages_stored (updates : Updates) : ∀ (earlier : List String) (e : E),
    Stages origin earlier updates e (stored (verdicts E origin earlier updates) e) := by
  induction updates with
  | nil => exact fun _ _ => .done
  | cons u updates ih =>
    obtain ⟨name, text⟩ := u
    intro earlier e
    cases hj : judge E origin earlier name text with
    | error fault =>
      have hno : ∀ f v, ¬ Passes E origin earlier name text f v := by
        intro f v hp
        cases hj.symm.trans (judge_of_passes hp)
      have he : stored (verdicts E origin earlier ((name, text) :: updates)) e =
          stored (verdicts E origin (name :: earlier) updates) e := by
        simp [stored, verdicts, hj, Except.toOption, List.filterMap_cons]
      exact .skip hno (he ▸ ih _ e)
    | ok p =>
      obtain ⟨f, v⟩ := p
      have hp := passes_of_judge hj
      obtain ⟨e₁, hput, -⟩ := put_of_accepts e hp.known hp.accepts
      have he : stored (verdicts E origin earlier ((name, text) :: updates)) e =
          stored (verdicts E origin (name :: earlier) updates) e₁ := by
        simp [stored, verdicts, hj, Except.toOption, name_of_field? hp.known, assign_of_put hput]
      exact .pass hp hput (he ▸ ih _ e₁)

theorem gateFault?_eq_some {e : E} {f : Field} {fault : ParameterFault}
    (h : gateFault? e f = some fault) : fault.parameter = f.name ∧
      fault.code = .nonWritableParameter ∧ ∃ g ∈ f.gates, isOpen e g = false := by
  obtain ⟨g, hg, rfl⟩ := Option.map_eq_some_iff.1 h
  refine ⟨rfl, rfl, g, List.mem_of_find?_eq_some hg, ?_⟩
  simpa using List.find?_some hg

theorem gateFault?_eq_none {e : E} {f : Field} :
    gateFault? e f = none ↔ ∀ g ∈ f.gates, isOpen e g = true := by
  simp [gateFault?]

theorem blames_verdicts (staged : E) (updates : Updates) : ∀ earlier : List String,
    Blames origin staged earlier updates
      (((verdicts E origin earlier updates).filterMap (blame? origin staged)).map
        fun fault => (fault.parameter, fault.code)) := by
  induction updates with
  | nil => exact fun _ => .done
  | cons u updates ih =>
    obtain ⟨name, text⟩ := u
    intro earlier
    have hrest := ih (name :: earlier)
    rw [verdicts, List.filterMap_cons]
    cases hj : judge E origin earlier name text with
    | error fault =>
      obtain ⟨rfl, ho⟩ := offence_of_judge staged hj
      exact .offending ho hrest
    | ok p =>
      obtain ⟨f, v⟩ := p
      have hp := passes_of_judge hj
      cases hb : blame? origin staged (.ok (f, v)) with
      | none =>
        refine .fine (not_offence_of_passes hp ?_) hrest
        rintro rfl
        exact gateFault?_eq_none.1 hb
      | some fault =>
        cases origin with
        | device => cases hb
        | controller =>
          obtain ⟨hname, hcode, g, hg, hshut⟩ := gateFault?_eq_some hb
          rw [name_of_field? hp.known] at hname
          subst hname
          simp only [List.map_cons, hcode]
          exact .offending (.gated hp rfl hg hshut) hrest

/-- The faults found first and those of the gates are, up to their order, one for each verdict that
brings about a fault. -/
theorem refusals_append_shut_perm (staged : E)
    (judged : List (Except ParameterFault (Field × Value))) :
    (judged.filterMap refusal? ++ judged.filterMap (shut? origin staged)).Perm
      (judged.filterMap (blame? origin staged)) := by
  induction judged with
  | nil => exact .refl _
  | cons verdict judged ih =>
    cases verdict with
    | error fault =>
      simp only [List.filterMap_cons, refusal?, shut?, blame?, Option.some_or]
      exact ih.cons fault
    | ok p =>
      cases hs : shut? origin staged (.ok p) with
      | none => simpa [List.filterMap_cons, refusal?, blame?, hs] using ih
      | some fault =>
        simp only [List.filterMap_cons, refusal?, blame?, hs, Option.none_or]
        exact List.perm_middle.trans (ih.cons fault)

def faultsOf (updates : Updates) (e : E) : List ParameterFault :=
  let judged := verdicts E origin [] updates
  judged.filterMap (blame? origin (stored judged e))

/-- A request is carried out when no verdict brings about a fault, and else it is answered with all
of them. -/
theorem request_spec (updates : Updates) (e : E) :
    (faultsOf origin updates e = [] ∧
      request origin updates e = (.ok (), stored (verdicts E origin [] updates) e)) ∨
    (faultsOf origin updates e ≠ [] ∧ ∃ fault : SetFault,
      request origin updates e = (.error fault, e) ∧
        fault.faults.Perm (faultsOf origin updates e)) := by
  have hperm := refusals_append_shut_perm origin (stored (verdicts E origin [] updates) e)
    (verdicts E origin [] updates)
  unfold request write
  dsimp only
  split_ifs with hnone
  · rw [hnone] at hperm
    exact Or.inl ⟨hperm.symm.eq_nil, rfl⟩
  · refine Or.inr ⟨fun hf => hnone ?_, _, rfl, hperm⟩
    exact List.Perm.eq_nil (hf ▸ hperm)

/-- A write that succeeds leads to the staged object, and there is nothing to blame. -/
theorem write_eq_ok {updates : Updates} {e e' : E} (h : write origin updates e = .ok e') :
    Stages origin [] updates e e' ∧ Blames origin e' [] updates [] := by
  have hreq : request origin updates e = (.ok (), e') := by simp only [request, h]
  rcases request_spec origin updates e with ⟨hnone, hok⟩ | ⟨-, fault, herror, -⟩
  · obtain ⟨-, rfl⟩ := Prod.mk.inj (hreq.symm.trans hok)
    have hblames : Blames origin (stored (verdicts E origin [] updates) e) [] updates
        ((faultsOf origin updates e).map fun fault => (fault.parameter, fault.code)) :=
      blames_verdicts origin _ updates []
    rw [hnone, List.map_nil] at hblames
    exact ⟨stages_stored origin updates [] e, hblames⟩
  · cases (Prod.mk.inj (hreq.symm.trans herror)).1

/-- A request to which nothing is to be objected, whatever it leads to, is carried out. -/
theorem exists_write_eq_ok {updates : Updates} {e : E}
    (h : ∀ staged : E, Admissible origin updates staged) :
    ∃ e', write origin updates e = .ok e' := by
  rcases request_spec origin updates e with ⟨-, hok⟩ | ⟨hsome, -⟩
  · cases hwrite : write origin updates e with
    | ok e' => exact ⟨e', rfl⟩
    | error fault => simp [request, hwrite] at hok
  · have hblames := blames_verdicts origin (stored (verdicts E origin [] updates) e) updates []
    have hnil : Blames origin (stored (verdicts E origin [] updates) e) [] updates [] :=
      blames_nil_iff.2 ⟨by simp, h _⟩
    exact absurd (List.map_eq_nil_iff.1 (hblames.unique hnil)) hsome

theorem exists_ofTexts_single_iff {name text : String} {f : Field} {v : Value}
    (hf : field? E name = some f) (hread : f.shape.kind.read text = .ok v) :
    (∃ e : E, ofTexts [(name, text)] = .ok e) ↔ f.shape.kind.Accepts v := by
  constructor
  · rintro ⟨e, hwrite⟩
    obtain ⟨g, w, hg, hw, haccepts⟩ := (blames_nil_iff.1 (write_eq_ok _ hwrite).2).2.fits
      name text List.mem_cons_self
    obtain rfl := Option.some.inj (hf.symm.trans hg)
    obtain rfl := Except.ok.inj (hread.symm.trans hw)
    exact haccepts
  · intro haccepts
    refine exists_write_eq_ok .device fun staged => ⟨by simp, ?_, fun hc => by cases hc⟩
    intro other t hmem
    obtain ⟨rfl, rfl⟩ : other = name ∧ t = text := by simpa using hmem
    exact ⟨f, v, hf, hread, haccepts⟩

end Verdicts

/-- The meaning of a request: it leads to one staged object, which holds all entries that pass by
themselves. The request succeeds exactly when it is admissible, and the object is then the staged
one, in which every named parameter has its canonical value and all else is as before. Otherwise the
object stays, and there is one fault for each offending entry and no other. -/
theorem request_meaning (origin : Origin) (updates : Updates) (e : E) :
    ∃ staged : E, Stages origin [] updates e staged ∧
      (∀ other, Stages origin [] updates e other → other = staged) ∧
      ((request origin updates e).1 = .ok () ↔ Admissible origin updates staged) ∧
      (∀ result, request origin updates e = (.ok (), result) → result = staged ∧
        (∀ name text f v, (name, text) ∈ updates → field? E name = some f →
          f.shape.kind.read text = .ok v → get? result name = some (f.shape.canonical v)) ∧
        (∀ name, name ∉ updates.map Prod.fst → get? result name = get? e name) ∧
        (parts result).2 = (parts e).2) ∧
      (∀ fault result, request origin updates e = (.error fault, result) → result = e ∧
        ∃ blamed, Blames origin staged [] updates blamed ∧
          (fault.faults.map fun f => (f.parameter, f.code)).Perm blamed) := by
  have hstages := stages_stored origin updates [] e
  have hblames : Blames origin (stored (verdicts E origin [] updates) e) [] updates
      ((faultsOf origin updates e).map fun fault => (fault.parameter, fault.code)) :=
    blames_verdicts origin _ updates []
  have hiff : Blames origin (stored (verdicts E origin [] updates) e) [] updates [] ↔ _ :=
    blames_nil_iff
  refine ⟨_, hstages, fun other hother => hother.unique hstages, ?_⟩
  rcases request_spec origin updates e with ⟨hnone, hreq⟩ | ⟨hsome, fault, hreq, hperm⟩
  · rw [hnone, List.map_nil] at hblames
    refine ⟨⟨fun _ => (hiff.1 hblames).2, fun _ => by rw [hreq]⟩, ?_, ?_⟩
    · rintro result hresult
      obtain ⟨-, rfl⟩ := Prod.mk.inj (hresult.symm.trans hreq)
      refine ⟨rfl, ?_, fun name hn => hstages.get?_of_not_mem hn, hstages.children_eq⟩
      intro name text f v hmem hf hr
      exact hstages.get?_of_mem hblames hmem hf hr
    · intro fault result hresult
      cases (Prod.mk.inj (hresult.symm.trans hreq)).1
  · refine ⟨⟨fun hok => ?_, fun hadm => ?_⟩, ?_, ?_⟩
    · rw [hreq] at hok
      cases hok
    · have hnil := hiff.2 ⟨by simp, hadm⟩
      exact absurd (List.map_eq_nil_iff.1 (hblames.unique hnil)) hsome
    · intro result hresult
      cases (Prod.mk.inj (hresult.symm.trans hreq)).1
    · intro fault' result hresult
      obtain ⟨hfault, rfl⟩ := Prod.mk.inj (hresult.symm.trans hreq)
      obtain rfl := Except.error.inj hfault
      exact ⟨rfl, _, hblames, hperm.map _⟩

end Cwmp.Entity
