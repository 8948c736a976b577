import Cwmp.Proofs.Entity.Batch
import Cwmp.Proofs.Entity.ParameterMap
import Cwmp.Proofs.Entity.Secrets
import Cwmp.Proofs.Schema.WrittenBack

/-! # Sending a listing again

The parameters that a request set are listed with texts that may be sent again: the request is
carried out and the object lists the same afterwards. The one exception are times which the offset
moved out of the years of four digits; a request with their texts is refused.
-/
namespace Cwmp

/-- An object whose modes are no secrets, so that gates depend on what is listed only. -/
class PublicModes (E : Type) [Entity E] : Prop where
  public_mode : ∀ f ∈ Entity.fields E, ∀ g ∈ f.gates, Entity.Public E g.mode := by decide

instance : PublicModes Firewall where
instance : PublicModes Chain where
instance : PublicModes FirewallRule where
instance : PublicModes DhcpPool where
instance : PublicModes StaticAddress where
instance : PublicModes DhcpClient where
instance : PublicModes ConditionalPool where
instance : PublicModes PortMapping where
instance : PublicModes IpInterface where
instance : PublicModes Ipv4Entry where
instance : PublicModes Ipv6Prefix where
instance : PublicModes MqttClient where
instance : PublicModes Subscription where
instance : PublicModes AudioOutput where

/-- What is read off the parameters one by one is the same of records in which it is the same of
each parameter. -/
theorem Record.map_values_eq {α : Type} {g : Field → Value → α} :
    ∀ {fields : List Field} {r s : Record fields}, (fields.map (·.name)).Nodup →
      (∀ f ∈ fields, (r.get? f.name).map (g f) = (s.get? f.name).map (g f)) →
        r.values.map (fun p => g p.1 p.2) = s.values.map fun p => g p.1 p.2
  | [], _, _, _, _ => rfl
  | f :: fields, (a, r), (b, s), hnodup, hsame => by
    rw [List.map_cons, List.nodup_cons] at hnodup
    have hhead := hsame f List.mem_cons_self
    simp only [get?, ↓reduceIte, Option.map_some, Option.some.injEq] at hhead
    have htail : r.values.map (fun p => g p.1 p.2) = s.values.map fun p => g p.1 p.2 := by
      refine map_values_eq hnodup.2 fun h hh => ?_
      have hne : f.name ≠ h.name := fun heq => hnodup.1 (heq ▸ List.mem_map_of_mem hh)
      simpa [get?, hne] using hsame h (List.mem_cons_of_mem f hh)
    simp only [values, List.map_cons, hhead, htail]

theorem Record.get?_eq_none {name : String} : ∀ {fields : List Field} (r : Record fields),
    (∀ f ∈ fields, f.name ≠ name) → r.get? name = none
  | [], _, _ => rfl
  | f :: fields, (a, r), h => by
    rw [List.forall_mem_cons] at h
    simp only [get?, h.1, ↓reduceIte]
    exact get?_eq_none r h.2

namespace Entity

variable {E : Type} [Entity E]

def shownText? (e : E) (f : Field) : Option String :=
  (get? e f.name).map fun v => (f.shown v).write

theorem isOpen_eq_of_shownText? {a b : E} {g : Gate}
    (h : ∀ f ∈ fields E, shownText? a f = shownText? b f)
    (hmode : Public E g.mode) : isOpen a g = isOpen b g := by
  by_cases hknown : ∃ f ∈ fields E, f.name = g.mode
  · obtain ⟨f, hf, hname⟩ := hknown
    have hshown := h f hf
    simp only [shownText?, hname, Field.shown, hmode f hf hname] at hshown
    unfold isOpen
    cases ha : get? a g.mode <;> cases hb : get? b g.mode <;> simp_all
  · have hnone : ∀ e : E, get? e g.mode = none := fun e =>
      Record.get?_eq_none (record e) fun f hf hname => hknown ⟨f, hf, hname⟩
    rw [isOpen, isOpen, hnone a, hnone b]

section Listing

variable [BEq E] [Regular E] {a b e : E}

theorem texts_eq_of_shownText? (h : ∀ f ∈ fields E, shownText? a f = shownText? b f) :
    texts a = texts b := by
  refine Record.map_values_eq (g := fun f v => (f.name, (f.shown v).write))
    (nodup_fieldNames E) fun f hf => ?_
  have hshown := congrArg (Option.map (f.name, ·)) (h f hf)
  simp only [shownText?, Option.map_map, get?] at hshown
  exact hshown

theorem shownText?_of_mem_texts {name text : String} (h : (name, text) ∈ texts e) :
    ∃ f, field? E name = some f ∧ shownText? e f = some text := by
  obtain ⟨f, v, hv, rfl, rfl⟩ := mem_texts_iff.1 h
  have hget : get? e f.name = some v := Record.get?_of_mem_values (nodup_fieldNames E) hv
  exact ⟨f, field?_name (Record.exists_value_eq hv).1, by simp [shownText?, hget]⟩

end Listing

/-- A parameter that holds what a request set it to, and that the writer may set again. -/
structure Settled (origin : Origin) (e : E) (name : String) (f : Field) (a : f.shape.Carrier) :
    Prop where
  known : field? E name = some f
  writable : OpenTo origin f
  gates : origin = .controller → ∀ g ∈ f.gates, isOpen e g = true
  value : get? e name = some (f.shape.value a)
  accepts : f.shape.kind.Accepts (f.shape.value a)
  tidy : (f.shape.value a).Tidy

theorem exists_settled {origin : Origin} {updates : Updates} {e e' : E} {name : String}
    (h : write origin updates e = .ok e') (hname : name ∈ updates.map Prod.fst) :
    ∃ f a, Settled origin e' name f a := by
  obtain ⟨hstages, hblames⟩ := write_eq_ok origin h
  obtain ⟨-, -, hfits, hopen⟩ := blames_nil_iff.1 hblames
  obtain ⟨⟨_, text⟩, hmem, rfl⟩ := List.mem_map.1 hname
  obtain ⟨f, v, hknown, hread, haccepts⟩ := hfits _ _ hmem
  obtain ⟨a, hstore, hvalue⟩ := Shape.exists_keeps haccepts
  have hget := hstages.get?_of_mem hblames hmem hknown hread
  refine ⟨f, a, hknown, fun hc => (hopen hc _ _ hmem f hknown).1,
    fun hc => (hopen hc _ _ hmem f hknown).2, hvalue ▸ hget, ?_, ?_⟩
  · exact hvalue ▸ Shape.accepts_canonical haccepts
  · exact Shape.tidy_of_store (Kind.tidy_of_read hread) hstore

namespace Settled

variable [BEq E] [Regular E] {origin : Origin} {e : E} {name : String} {f : Field}
  {a : f.shape.Carrier}

theorem text_eq {text : String} (h : Settled origin e name f a) (hmem : (name, text) ∈ texts e) :
    (f.shown (f.shape.value a)).write = text := by
  obtain ⟨g, hg, hshown⟩ := shownText?_of_mem_texts hmem
  obtain rfl := Option.some.inj (h.known.symm.trans hg)
  simpa only [shownText?, name_of_field? h.known, h.value, Option.map_some,
    Option.some.injEq] using hshown

/-- The text that is shown of the parameter leads to a value of which the same is shown. -/
theorem read_shown (h : Settled origin e name f a) (hera : (f.shape.value a).InEra) :
    ∃ w, f.shape.kind.read (f.shown (f.shape.value a)).write = .ok w ∧
      f.shape.kind.Accepts w ∧
      (f.shown (f.shape.canonical w)).write = (f.shown (f.shape.value a)).write := by
  cases hsecret : f.secret with
  | false =>
    simp only [Field.shown, hsecret, Bool.false_eq_true, ↓reduceIte]
    exact ⟨_, (Shape.yields_value h.tidy).read_write hera, Shape.accepts_whole h.accepts,
      f.shape.write_canonical_whole a⟩
  | true =>
    simp only [Field.shown, hsecret, ↓reduceIte]
    obtain ⟨n, hshape⟩ := Regular.text_of_secret f (List.mem_of_find?_eq_some h.known) hsecret
    refine ⟨.text "", ?_, ?_, trivial⟩
    · rw [hshape]
      rfl
    · rw [hshape]
      exact Kind.accepts_iff.2 (.text (by simp))

theorem read_shown_of_not_inEra (h : Settled origin e name f a)
    (hera : ¬ (f.shape.value a).InEra) :
    ∃ fault, f.shape.kind.read (f.shown (f.shape.value a)).write = .error fault := by
  cases hsecret : f.secret with
  | false =>
    simp only [Field.shown, hsecret, Bool.false_eq_true, ↓reduceIte]
    exact ⟨_, Kind.read_write_of_not_inEra (Shape.yields_value h.tidy) hera⟩
  | true =>
    obtain ⟨n, hshape⟩ := Regular.text_of_secret f (List.mem_of_find?_eq_some h.known) hsecret
    obtain ⟨name, shape, access, notify, gates, secret⟩ := f
    obtain rfl : shape = .text n := hshape
    exact absurd trivial hera

end Settled

section Resending

variable [BEq E] [Regular E] {origin : Origin} {again : Updates} {e staged : E}

/-- No time outside the years of four digits is held under these names. -/
def InEra (e : E) (names : List String) : Prop :=
  ∀ name ∈ names, ∀ v, get? e name = some v → v.InEra

/-- The texts of a listing are read if its times are in the era, and only then. -/
theorem fits_iff_inEra (hagain : again ⊆ texts e)
    (hsettled : ∀ name ∈ again.map Prod.fst, ∃ f a, Settled origin e name f a) :
    (∀ name text, (name, text) ∈ again → ∃ f v, field? E name = some f ∧
      f.shape.kind.read text = .ok v ∧ f.shape.kind.Accepts v) ↔
      InEra e (again.map Prod.fst) := by
  constructor
  · intro hfits name hname v hv
    obtain ⟨f, a, hf⟩ := hsettled name hname
    obtain ⟨⟨_, text⟩, hmem, rfl⟩ := List.mem_map.1 hname
    obtain rfl := Option.some.inj (hf.value.symm.trans hv)
    by_contra hera
    obtain ⟨fault, hrefused⟩ := hf.read_shown_of_not_inEra hera
    obtain ⟨g, w, hg, hread, -⟩ := hfits _ _ hmem
    obtain rfl := Option.some.inj (hf.known.symm.trans hg)
    rw [hf.text_eq (hagain hmem)] at hrefused
    cases hread.symm.trans hrefused
  · intro hera name text hmem
    have hname : name ∈ again.map Prod.fst := List.mem_map_of_mem hmem
    obtain ⟨f, a, hf⟩ := hsettled name hname
    obtain ⟨w, hread, haccepts, -⟩ := hf.read_shown (hera name hname _ hf.value)
    rw [hf.text_eq (hagain hmem)] at hread
    exact ⟨f, w, hf.known, hread, haccepts⟩

theorem admissible_of_inEra (hagain : again ⊆ texts e) (hdistinct : (again.map Prod.fst).Nodup)
    (hsettled : ∀ name ∈ again.map Prod.fst, ∃ f a, Settled origin e name f a)
    (hera : InEra e (again.map Prod.fst)) : Admissible origin again e := by
  refine ⟨hdistinct, (fits_iff_inEra hagain hsettled).2 hera, fun hc name text hmem f hf => ?_⟩
  obtain ⟨g, a, hg⟩ := hsettled name (List.mem_map_of_mem hmem)
  obtain rfl := Option.some.inj (hg.known.symm.trans hf)
  exact ⟨hg.writable hc, hg.gates hc⟩

/-- Whatever is sent again of a listing, the object lists the same afterwards. -/
theorem shownText?_of_stages (hagain : again ⊆ texts e)
    (hsettled : ∀ name ∈ again.map Prod.fst, ∃ f a, Settled origin e name f a)
    (hera : InEra e (again.map Prod.fst)) (hadmissible : Admissible origin again e)
    (hstages : Stages origin [] again e staged) {f : Field} (hf : f ∈ fields E) :
    shownText? staged f = shownText? e f := by
  by_cases hname : f.name ∈ again.map Prod.fst
  · obtain ⟨g, a, hg⟩ := hsettled f.name hname
    obtain rfl := Option.some.inj ((field?_name hf).symm.trans hg.known)
    obtain ⟨⟨_, text⟩, hmem, heq⟩ := List.mem_map.1 hname
    dsimp only at heq
    subst heq
    obtain ⟨w, hread, -, hshown⟩ := hg.read_shown (hera f.name hname _ hg.value)
    rw [hg.text_eq (hagain hmem)] at hread
    have hblames : Blames origin e [] again [] := blames_nil_iff.2 ⟨by simp, hadmissible⟩
    have hget := hstages.get?_of_mem hblames hmem hg.known hread
    simp only [shownText?, hget, hg.value, Option.map_some, hshown]
  · rw [shownText?, shownText?, hstages.get?_of_not_mem hname]

variable [PublicModes E]

/-- What is sent again of a listing is accepted if its times are in the era, and only then. -/
theorem write_again_iff (hagain : again ⊆ texts e) (hdistinct : (again.map Prod.fst).Nodup)
    (hsettled : ∀ name ∈ again.map Prod.fst, ∃ f a, Settled origin e name f a) :
    (∃ e', write origin again e = .ok e') ↔ InEra e (again.map Prod.fst) := by
  constructor
  · rintro ⟨e', hwrite⟩
    have hadmissible := (blames_nil_iff.1 (write_eq_ok origin hwrite).2).2
    exact (fits_iff_inEra hagain hsettled).1 hadmissible.fits
  · intro hera
    have hadmissible := admissible_of_inEra hagain hdistinct hsettled hera
    have hstages := stages_stored origin again [] e
    have hshown : ∀ f ∈ fields E, shownText? _ f = shownText? e f := fun f hf =>
      shownText?_of_stages hagain hsettled hera hadmissible hstages hf
    have hnil : Blames origin (stored (verdicts E origin [] again) e) [] again [] := by
      refine blames_nil_iff.2 ⟨by simp, hdistinct, hadmissible.fits, ?_⟩
      intro hc name text hmem f hf
      obtain ⟨hwritable, hgates⟩ := hadmissible.open_to hc name text hmem f hf
      refine ⟨hwritable, fun g hg => ?_⟩
      have hmode := PublicModes.public_mode f (List.mem_of_find?_eq_some hf) g hg
      rw [isOpen_eq_of_shownText? hshown hmode]
      exact hgates g hg
    have hblames := blames_verdicts origin (stored (verdicts E origin [] again) e) again []
    exact ⟨_, write_eq_ok_iff.2 ⟨List.map_eq_nil_iff.1 (hblames.unique hnil), rfl⟩⟩

theorem texts_write_again {e' : E} (hagain : again ⊆ texts e)
    (hdistinct : (again.map Prod.fst).Nodup)
    (hsettled : ∀ name ∈ again.map Prod.fst, ∃ f a, Settled origin e name f a)
    (h : write origin again e = .ok e') : texts e' = texts e := by
  have hera := (write_again_iff hagain hdistinct hsettled).1 ⟨e', h⟩
  have hadmissible := admissible_of_inEra hagain hdistinct hsettled hera
  exact texts_eq_of_shownText? fun f hf =>
    shownText?_of_stages hagain hsettled hera hadmissible (write_eq_ok origin h).1 hf

end Resending

/-- The text of a value that was read is read again, to the same text, unless the value is a time of
the year before those of four digits or of the year after them, whose text is refused. So what a
request set may be sent again as it is listed, all of it or a part, if no such time is among it and
only then, and it changes nothing of the listing. -/
theorem texts_resent [BEq E] [Regular E] [PublicModes E] :
    (∀ (k : Kind) (text : String) (v : Value), k.read text = .ok v →
      (v.InEra ∧ k.read v.write = .ok v.whole ∧ v.whole.write = v.write) ∨
        ∃ t, v = .moment t ∧ (t.date.year = -1 ∨ t.date.year = 10000) ∧
          k.read v.write = .error (.notMoment v.write .invalid)) ∧
    ∀ (origin : Origin) (updates again : Updates) (e e' : E), write origin updates e = .ok e' →
      again ⊆ texts e' → (again.map Prod.fst).Nodup →
      again.map Prod.fst ⊆ updates.map Prod.fst →
      ((∃ e'', write origin again e' = .ok e'') ↔ InEra e' (again.map Prod.fst)) ∧
        ∀ e'', write origin again e' = .ok e'' → texts e'' = texts e' := by
  refine ⟨fun k text v h => Kind.read_write_of_read h, ?_⟩
  intro origin updates again e e' hwrite hagain hdistinct hnames
  have hsettled : ∀ name ∈ again.map Prod.fst, ∃ f a, Settled origin e' name f a :=
    fun name hname => exists_settled hwrite (hnames hname)
  exact ⟨write_again_iff hagain hdistinct hsettled,
    fun e'' h => texts_write_again hagain hdistinct hsettled h⟩

def expiring : Updates :=
  [("ExpiryDate", "2030-01-01T01:00:00.5+01:00"), ("Description", "guests")]

theorem texts_resent_expiring : ∃ e' : FirewallRule, write .controller expiring {} = .ok e' ∧
    Kind.moment.read "2030-01-01T00:00:00Z" = .ok (.moment e'.expiryDate.whole) ∧
    ∃ e'', write .controller [("ExpiryDate", "2030-01-01T00:00:00Z")] e' = .ok e'' ∧
      texts e'' = texts e' := by
  let t : Instant := { seconds := 1893456000, nanos := 500000000 }
  let e' : FirewallRule := { expiryDate := t, description := "guests" }
  have hread : Kind.moment.read "2030-01-01T01:00:00.5+01:00" = .ok (.moment t) := by
    decide +kernel
  have hstored : ((write .controller expiring {}).toOption == some e') = true := by decide +kernel
  have hwrite : write .controller expiring {} = .ok e' := by
    cases hwritten : write .controller expiring ({} : FirewallRule) with
    | error fault => simp [hwritten, Except.toOption] at hstored
    | ok e =>
      have heq : (e == e') = true := by simpa [hwritten, Except.toOption] using hstored
      have hrecord : record e = record e' := ((Regular.beq_iff e e').1 heq).1
      exact congrArg (fun r => Except.ok (withRecord e' r)) hrecord
  obtain ⟨hkinds, hresent⟩ := texts_resent (E := FirewallRule)
  refine ⟨e', hwrite, ?_, ?_⟩
  · have htext : (Value.moment t).write = "2030-01-01T00:00:00Z" := by decide +kernel
    have hera : (Value.moment t).InEra := by decide +kernel
    rcases hkinds _ _ _ hread with ⟨-, hagain, -⟩ | ⟨u, hu, hyear, -⟩
    · rwa [htext] at hagain
    · cases hu
      simp only [Value.InEra] at hera
      omega
  · have hagain : [("ExpiryDate", "2030-01-01T00:00:00Z")] ⊆ texts e' := by decide +kernel
    obtain ⟨hiff, htexts⟩ := hresent .controller expiring _ {} e' hwrite hagain (by decide)
      (by decide)
    obtain ⟨e'', hwrite'⟩ := hiff.2 (by
      intro name hname v hv
      obtain rfl := List.mem_singleton.1 hname
      obtain rfl := Option.some.inj hv
      decide +kernel)
    exact ⟨e'', hwrite', htexts e'' hwrite'⟩

/-- The last second of year 9999 in a place behind universal time is written with year 10000, and
this is not read. -/
theorem not_read_again_after_last_year : ∃ v,
    Kind.moment.read "9999-12-31T23:59:59-01:00" = .ok v ∧ v.write = "+10000-01-01T00:59:59Z" ∧
      ∀ w, Kind.moment.read v.write ≠ .ok w := by
  let t : Instant := { seconds := 253402304399, nanos := 0 }
  have hread : Kind.moment.read "9999-12-31T23:59:59-01:00" = .ok (.moment t) := by
    decide +kernel
  have hrefused : Kind.moment.read (Value.moment t).write =
      .error (.notMoment (Value.moment t).write .invalid) := by decide +kernel
  refine ⟨.moment t, hread, by decide +kernel, fun w hw => ?_⟩
  cases hw.symm.trans hrefused

end Entity
end Cwmp
