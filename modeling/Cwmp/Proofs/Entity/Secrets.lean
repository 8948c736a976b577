import Cwmp.Notification
import Cwmp.Proofs.Entity.Request
import Cwmp.Proofs.Entity.Same

/-! # Secrets

The values of secret parameters are written and used but not shown. Two objects that differ only in
what their secret parameters hold read alike. If no rule of the objects depends on a secret, they
also answer a request alike, even if it gives each of them a text of its own for a secret, and they
differ in nothing else afterwards.
-/
namespace Cwmp

namespace Field

variable {f : Field} {v w : Value}

/-- Values of a parameter between which readers cannot tell: equal ones, and any two that a secret
parameter takes. -/
def Veils (f : Field) (v w : Value) : Prop :=
  v = w ∨ f.secret = true ∧ f.shape.kind.Accepts v ∧ f.shape.kind.Accepts w

theorem Veils.eq (h : f.Veils v w) (hf : f.secret = false) : v = w := by
  rcases h with rfl | ⟨hsecret, -⟩
  · rfl
  · cases hf.symm.trans hsecret

theorem Veils.shown_eq (h : f.Veils v w) : f.shown v = f.shown w := by
  rcases h with rfl | ⟨hsecret, -⟩
  · rfl
  · simp only [shown, hsecret, ↓reduceIte]

theorem Veils.check_eq (h : f.Veils v w) :
    f.shape.kind.check f.name v = f.shape.kind.check f.name w := by
  rcases h with rfl | ⟨-, hv, hw⟩
  · rfl
  · rw [Kind.check_eq_ok_iff.2 hv, Kind.check_eq_ok_iff.2 hw]

/-- The store refuses both values or keeps both of them veiled, as it keeps texts as they are. -/
theorem Veils.store (htext : f.secret = true → ∃ n, f.shape = .text n) (h : f.Veils v w) :
    AnswerAlike (fun a b => f.Veils (f.shape.value a) (f.shape.value b)) (f.shape.store v)
      (f.shape.store w) := by
  rcases h with rfl | ⟨hsecret, hv, hw⟩
  · cases f.shape.store v with
    | ok a => exact .ok (.inl rfl)
    | error fault => exact .error fault
  · obtain ⟨n, hshape⟩ := htext hsecret
    have hcanonical : ∀ u, f.shape.canonical u = u := by
      intro u
      rw [hshape]
      rfl
    obtain ⟨a, ha, hav⟩ := Shape.exists_keeps hv
    obtain ⟨b, hb, hbw⟩ := Shape.exists_keeps hw
    rw [hcanonical] at hav hbw
    rw [ha, hb]
    apply AnswerAlike.ok
    rw [hav, hbw]
    exact .inr ⟨hsecret, hv, hw⟩

end Field

namespace Record

/-- Records that agree but for what their secret parameters hold. -/
def Veiled : (fields : List Field) → Record fields → Record fields → Prop
  | [], _, _ => True
  | f :: fields, (a, r), (b, s) =>
    f.Veils (f.shape.value a) (f.shape.value b) ∧ Veiled fields r s

namespace Veiled

variable {fields : List Field} {r s : Record fields} {name : String} {f : Field}

theorem get?_eq (h : Veiled fields r s) (hpublic : ∀ f ∈ fields, f.name = name → f.secret = false) :
    get? name fields r = get? name fields s := by
  induction fields with
  | nil => rfl
  | cons g fields ih =>
    obtain ⟨a, r⟩ := r
    obtain ⟨b, s⟩ := s
    rw [List.forall_mem_cons] at hpublic
    by_cases hg : g.name = name
    · simp only [get?, hg, ↓reduceIte, h.1.eq (hpublic.1 hg)]
    · simp only [get?, hg, ↓reduceIte]
      exact ih h.2 hpublic.2

theorem shown_get?_eq (h : Veiled fields r s)
    (hfind : fields.find? (fun g => g.name == name) = some f) :
    (get? name fields r).map f.shown = (get? name fields s).map f.shown := by
  induction fields with
  | nil => rfl
  | cons g fields ih =>
    obtain ⟨a, r⟩ := r
    obtain ⟨b, s⟩ := s
    by_cases hg : g.name = name
    · obtain rfl : g = f := by simpa [hg] using hfind
      simp only [get?, hg, ↓reduceIte, Option.map_some, h.1.shown_eq]
    · simp only [get?, hg, ↓reduceIte]
      apply ih h.2
      simpa [hg] using hfind

theorem filterMap_values_eq {α : Type} {g : Field × Value → Option α}
    (hg : ∀ f v w, Field.Veils f v w → g (f, v) = g (f, w)) (h : Veiled fields r s) :
    (values fields r).filterMap g = (values fields s).filterMap g := by
  induction fields with
  | nil => rfl
  | cons f fields ih =>
    obtain ⟨a, r⟩ := r
    obtain ⟨b, s⟩ := s
    simp only [values, List.filterMap_cons, hg f _ _ h.1]
    rw [ih h.2]

theorem put {v w : Value} (h : Veiled fields r s)
    (htext : ∀ f ∈ fields, f.secret = true → ∃ n, f.shape = .text n)
    (hvw : ∀ f ∈ fields, f.name = name → f.Veils v w) :
    AnswerAlike (Veiled fields) (put name v fields r) (put name w fields s) := by
  induction fields with
  | nil => exact .error _
  | cons g fields ih =>
    obtain ⟨a, r⟩ := r
    obtain ⟨b, s⟩ := s
    rw [List.forall_mem_cons] at htext hvw
    by_cases hg : g.name = name
    · simp only [Record.put, hg, ↓reduceIte]
      exact ((hvw.1 hg).store htext.1).map fun a b hab => ⟨hab, h.2⟩
    · simp only [Record.put, hg, ↓reduceIte]
      exact (ih h.2 htext.2 hvw.2).map fun r' s' hrs => ⟨h.1, hrs⟩

end Veiled
end Record

namespace Entity

variable {E : Type} [Entity E]

def Veiled (a b : E) : Prop :=
  Record.Veiled (fields E) (record a) (record b) ∧ (parts a).2 = (parts b).2

variable (E) in
def Public (name : String) : Prop :=
  ∀ f ∈ fields E, f.name = name → f.secret = false

instance (name : String) : Decidable (Public E name) :=
  inferInstanceAs (Decidable (∀ f ∈ fields E, f.name = name → f.secret = false))

/-- An object such that no rule depends on a secret. -/
class Discreet (E : Type) [Entity E] : Prop where
  public_alias : Public E aliasName
  public_mode : ∀ f ∈ fields E, ∀ g ∈ f.gates, Public E g.mode
  public_key : ∀ key ∈ uniqueKeys E, ∀ name ∈ key, Public E name
  isEnabled_eq : ∀ a b : E, Veiled a b → isEnabled a = isEnabled b

variable (E) in
/-- Entries of two requests for the same parameter. Their texts are the same, or the parameter is a
secret one that takes both. -/
def VeiledEntries (p q : String × String) : Prop :=
  p.1 = q.1 ∧ (p.2 = q.2 ∨ ∃ f, field? E p.1 = some f ∧ f.secret = true ∧
    ∃ v w, f.shape.kind.read p.2 = .ok v ∧ f.shape.kind.Accepts v ∧
      f.shape.kind.read q.2 = .ok w ∧ f.shape.kind.Accepts w)

variable (E) in
/-- Verdicts on entries of two requests: the same parameter is written, a reader not being able to
tell between the values, or both entries are refused with the same fault. -/
inductive VeiledVerdicts :
    Except ParameterFault (Field × Value) → Except ParameterFault (Field × Value) → Prop
  | accepted {f : Field} {v w : Value} : field? E f.name = some f → f.Veils v w →
      VeiledVerdicts (.ok (f, v)) (.ok (f, w))
  | refused (fault : ParameterFault) : VeiledVerdicts (.error fault) (.error fault)

variable {a b : E}

namespace Veiled

theorem get?_eq {name : String} (h : Veiled a b) (hname : Public E name) :
    get? a name = get? b name :=
  h.1.get?_eq hname

theorem read?_eq (h : Veiled a b) (name : String) : read? a name = read? b name := by
  unfold read?
  cases hfield : field? E name with
  | none => rfl
  | some f => exact h.1.shown_get?_eq hfield

theorem texts_eq (h : Veiled a b) : texts a = texts b := by
  rw [texts, texts, ← List.filterMap_eq_map]
  apply h.1.filterMap_values_eq
  intro f v w hvw
  simp only [Function.comp_apply, hvw.shown_eq]

theorem validate_eq (h : Veiled a b) : validate a = validate b := by
  apply h.1.filterMap_values_eq
  intro f v w hvw
  simp only [hvw.check_eq]

end Veiled

theorem Veiled.changes_eq {a' b' : E} (h : Veiled a b) (h' : Veiled a' b')
    (n : Notification E) : n.changes a a' = n.changes b b' := by
  simp only [Notification.changes, h.read?_eq, h'.read?_eq]

section Requests

variable {updates updates' : Updates} {origin : Origin} {p q : String × String}
  {judged judged' : List (Except ParameterFault (Field × Value))}

theorem VeiledEntries.judge (h : VeiledEntries E p q) (earlier : List String) :
    VeiledVerdicts E (judge E origin earlier p.1 p.2) (judge E origin earlier q.1 q.2) := by
  obtain ⟨name, text⟩ := p
  obtain ⟨name', text'⟩ := q
  obtain ⟨hname, htexts⟩ := h
  dsimp only at hname htexts
  subst hname
  rcases htexts with rfl | ⟨f, hf, hsecret, v, w, hv, hacceptsv, hw, hacceptsw⟩
  · cases hjudge : Entity.judge E origin earlier name text with
    | error fault => exact .refused fault
    | ok fv =>
      have hknown := (passes_of_judge hjudge).known
      refine .accepted ?_ (.inl rfl)
      rwa [name_of_field? hknown]
  · by_cases hnew : name ∈ earlier
    · simp only [Entity.judge, hnew, ↓reduceIte]
      exact .refused _
    by_cases hopen : OpenTo origin f
    · rw [judge_of_passes ⟨hnew, hf, hopen, hv, hacceptsv⟩,
        judge_of_passes ⟨hnew, hf, hopen, hw, hacceptsw⟩]
      refine .accepted ?_ (.inr ⟨hsecret, hacceptsv, hacceptsw⟩)
      rwa [name_of_field? hf]
    · rw [openTo_iff, not_not] at hopen
      simp only [Entity.judge, hnew, hf, hopen, and_self, ↓reduceIte]
      exact .refused _

theorem veiled_verdicts (h : List.Forall₂ (VeiledEntries E) updates updates')
    (earlier : List String) : List.Forall₂ (VeiledVerdicts E) (verdicts E origin earlier updates)
      (verdicts E origin earlier updates') := by
  induction h generalizing earlier with
  | nil => exact .nil
  | @cons p q _ _ hpq _ ih =>
    apply List.Forall₂.cons
    · exact hpq.judge earlier
    · exact hpq.1 ▸ ih (p.1 :: earlier)

theorem names_of_veiledEntries (h : List.Forall₂ (VeiledEntries E) updates updates') :
    updates.map Prod.fst = updates'.map Prod.fst := by
  induction h with
  | nil => rfl
  | cons hpq _ ih => rw [List.map_cons, List.map_cons, hpq.1, ih]

theorem refusals_eq (h : List.Forall₂ (VeiledVerdicts E) judged judged') :
    judged.filterMap refusal? = judged'.filterMap refusal? := by
  induction h with
  | nil => rfl
  | cons hverdict _ ih =>
    cases hverdict with
    | accepted hf hvw => exact ih
    | refused fault => exact congrArg (fault :: ·) ih

section Discreet

variable [Discreet E]

theorem Veiled.alias?_eq (h : Veiled a b) : alias? a = alias? b := by
  rw [alias?, alias?, h.get?_eq Discreet.public_alias]

theorem Veiled.gateFault?_eq {f : Field} (h : Veiled a b) (hf : f ∈ fields E) :
    gateFault? a f = gateFault? b f := by
  unfold gateFault?
  congr 1
  apply List.find?_congr
  intro g hg
  rw [isOpen, isOpen, h.get?_eq (Discreet.public_mode f hf g hg)]

theorem Veiled.shuts_eq (h : Veiled a b)
    (hjudged : List.Forall₂ (VeiledVerdicts E) judged judged') :
    judged.filterMap (shut? origin a) = judged'.filterMap (shut? origin b) := by
  induction hjudged with
  | nil => rfl
  | cons hverdict _ ih =>
    cases hverdict with
    | @accepted f v w hf hvw =>
      have hgate : shut? origin a (.ok (f, v)) = shut? origin b (.ok (f, w)) := by
        unfold shut?
        simp only [h.gateFault?_eq (List.mem_of_find?_eq_some hf)]
      rw [List.filterMap_cons, List.filterMap_cons, hgate, ih]
    | refused fault => exact ih

end Discreet

variable [BEq E] [Regular E]

section Storing

variable {name : String} {v w : Value}

theorem Veiled.put (h : Veiled a b) (hvw : ∀ f ∈ fields E, f.name = name → f.Veils v w) :
    AnswerAlike Veiled (put a name v) (put b name w) := by
  refine (h.1.put Regular.text_of_secret hvw).map fun r s hrs => ?_
  rw [Veiled, record_withRecord, record_withRecord, children_withRecord, children_withRecord]
  exact ⟨hrs, h.2⟩

theorem Veiled.assign (h : Veiled a b) (hvw : ∀ f ∈ fields E, f.name = name → f.Veils v w) :
    Veiled (assign a name v) (assign b name w) :=
  assign_related h (h.put hvw)

theorem Veiled.withAlias (h : Veiled a b) (s : String) :
    Veiled (withAlias a s) (withAlias b s) := by
  apply h.assign
  intro f _ _
  exact .inl rfl

end Storing

theorem Veiled.stored (h : Veiled a b) (hjudged : List.Forall₂ (VeiledVerdicts E) judged judged') :
    Veiled (stored judged a) (stored judged' b) := by
  induction hjudged generalizing a b with
  | nil => exact h
  | cons hverdict _ ih =>
    cases hverdict with
    | @accepted f v w hf hvw =>
      refine ih (h.assign fun g hg hname => ?_)
      rw [← hname, field?_name hg] at hf
      obtain rfl := Option.some.inj hf
      exact hvw
    | refused fault => exact ih h

/-- Objects that differ in secrets only answer a request alike, whatever texts it gives them for the
secrets, and it leads to such objects again. -/
theorem Veiled.write [Discreet E] (h : Veiled a b)
    (hupdates : List.Forall₂ (VeiledEntries E) updates updates') :
    AnswerAlike Veiled (write origin updates a) (write origin updates' b) := by
  have hjudged : List.Forall₂ (VeiledVerdicts E) (verdicts E origin [] updates)
      (verdicts E origin [] updates') := veiled_verdicts hupdates []
  have hstored := h.stored hjudged
  unfold Entity.write
  simp only [refusals_eq hjudged, hstored.shuts_eq hjudged]
  split
  · exact .ok hstored
  · exact .error _

end Requests

end Entity
end Cwmp
