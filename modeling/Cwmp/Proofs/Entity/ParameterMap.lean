import Cwmp.Proofs.Entity.Request
import Cwmp.Proofs.Objects.Regular

/-! # Objects and the texts of their parameters

An object whose parameters all keep their bounds is written as the texts of its parameters. They
lead back to the object exactly when they say all of it.
-/
namespace Cwmp.Entity

open Text

variable {E : Type} [Entity E]

theorem validate_eq_nil_iff {e : E} :
    validate e = [] ↔ ∀ f v, (f, v) ∈ values e → f.shape.kind.Accepts v := by
  simp only [validate, List.filterMap_eq_nil_iff, Prod.forall]
  refine forall₂_congr fun f v => imp_congr Iff.rfl ?_
  unfold Kind.check Kind.Accepts
  cases f.shape.kind.misfit? v <;> simp

theorem mem_texts_iff {e : E} {name text : String} : (name, text) ∈ texts e ↔
    ∃ f v, (f, v) ∈ values e ∧ f.name = name ∧ (f.shown v).write = text := by
  simp [texts]

theorem names_texts (e : E) : (texts e).map Prod.fst = (fields E).map (·.name) := by
  rw [← Record.map_fst_values (record e), texts, values, List.map_map, List.map_map]
  rfl

/-- An object that the texts of its parameters say in full: times without fractions of a second and
with years of four digits, lists of items such as reading gives them, no secrets and no rows. -/
structure Representable [BEq E] [Regular E] (e : E) : Prop where
  moments : ∀ f t, (f, .moment t) ∈ values e →
    (t.nanos = 0 ∨ t.nanos = 1000000000) ∧ 0 ≤ t.date.year ∧ t.date.year ≤ 9999
  lists : ∀ f items, (f, .list items) ∈ values e → ∀ s ∈ items, IsItem s
  secrets : ∀ f v, (f, v) ∈ values e → f.secret = true → v = .text ""
  childless : Childless e

variable [BEq E] [Regular E] {e e' : E}

theorem representable_iff : Representable e ↔
    (∀ f v, (f, v) ∈ values e → v.Textual ∧ (f.secret = true → v = .text "")) ∧ Childless e := by
  constructor
  · rintro ⟨hmoments, hlists, hsecrets, hchildless⟩
    refine ⟨fun f v hv => ⟨?_, hsecrets f v hv⟩, hchildless⟩
    cases v with
    | moment t => exact hmoments f t hv
    | list items => exact hlists f items hv
    | _ => trivial
  · rintro ⟨hvalues, hchildless⟩
    exact ⟨fun f t hv => (hvalues f _ hv).1, fun f items hv => (hvalues f _ hv).1,
      fun f v hv => (hvalues f v hv).2, hchildless⟩

theorem exists_read_iff (h : validate e = []) {f : Field} {v : Value} (hv : (f, v) ∈ values e) :
    (∃ w, f.shape.kind.read (f.shown v).write = .ok w ∧ f.shape.kind.Accepts w ∧
      f.shape.canonical w = v) ↔ v.Textual ∧ (f.secret = true → v = .text "") := by
  obtain ⟨hf, a, rfl⟩ := Record.exists_value_eq hv
  exact f.exists_read_shown_iff (Regular.text_of_secret f hf) (validate_eq_nil_iff.1 h f _ hv)

theorem beq_iff_of_childless (h : Childless e') : (e' == e) = true ↔
    record e' = record e ∧ Childless e :=
  (Regular.beq_iff e' e).trans (and_congr Iff.rfl (NestedAll.allBEq_iff_allEmpty h))

theorem representable_of_ofTexts (h : validate e = []) (hwrite : ofTexts (texts e) = .ok e')
    (hbeq : (e' == e) = true) : Representable e := by
  obtain ⟨hstages, hblames⟩ := write_eq_ok _ hwrite
  have hchildless : Childless e' := by
    rw [Childless, hstages.children_eq]
    exact Regular.initial_allEmpty
  obtain ⟨hrecord, he⟩ := (beq_iff_of_childless hchildless).1 hbeq
  refine representable_iff.2 ⟨fun f v hv => (exists_read_iff h hv).1 ?_, he⟩
  have hmem : (f.name, (f.shown v).write) ∈ texts e := mem_texts_iff.2 ⟨f, v, hv, rfl, rfl⟩
  have hfield := field?_name (Record.exists_value_eq hv).1
  obtain ⟨g, w, hg, hread, haccepts⟩ := (blames_nil_iff.1 hblames).2.fits _ _ hmem
  obtain rfl := Option.some.inj (hfield.symm.trans hg)
  refine ⟨w, hread, haccepts, ?_⟩
  have hget := hstages.get?_of_mem hblames hmem hfield hread
  rw [get?, hrecord, Record.get?_of_mem_values (nodup_fieldNames E) hv] at hget
  exact (Option.some.inj hget).symm

theorem ofTexts_of_representable (h : validate e = []) (hrep : Representable e) :
    ∃ e', ofTexts (texts e) = .ok e' ∧ (e' == e) = true := by
  obtain ⟨hvalues, hchildless⟩ := representable_iff.1 hrep
  have hadmissible : ∀ staged : E, Admissible .device (texts e) staged := by
    intro staged
    refine ⟨?_, ?_, fun hc => by cases hc⟩
    · rw [names_texts]
      exact nodup_fieldNames E
    · intro name text hmem
      obtain ⟨f, v, hv, rfl, rfl⟩ := mem_texts_iff.1 hmem
      obtain ⟨w, hread, haccepts, -⟩ := (exists_read_iff h hv).2 (hvalues f v hv)
      exact ⟨f, w, field?_name (Record.exists_value_eq hv).1, hread, haccepts⟩
  obtain ⟨e', hwrite⟩ := exists_write_eq_ok .device (e := initial) hadmissible
  obtain ⟨hstages, hblames⟩ := write_eq_ok _ hwrite
  have hempty : Childless e' := by
    rw [Childless, hstages.children_eq]
    exact Regular.initial_allEmpty
  refine ⟨e', hwrite, (beq_iff_of_childless hempty).2 ⟨?_, hchildless⟩⟩
  refine Record.ext_of_get? (nodup_fieldNames E) fun f v hv => ?_
  obtain ⟨w, hread, -, rfl⟩ := (exists_read_iff h hv).2 (hvalues f v hv)
  exact hstages.get?_of_mem hblames (mem_texts_iff.2 ⟨f, _, hv, rfl, rfl⟩)
    (field?_name (Record.exists_value_eq hv).1) hread

/-- The texts of the parameters of an object lead back to it if and only if they say all of it. -/
theorem ofTexts_texts_iff (e : E) (h : validate e = []) :
    (∃ e', ofTexts (texts e) = .ok e' ∧ (e' == e) = true) ↔ Representable e :=
  ⟨fun ⟨_, hwrite, hbeq⟩ => representable_of_ofTexts h hwrite hbeq, ofTexts_of_representable h⟩

/-- An output with two connectors is told by its texts. -/
theorem ofTexts_texts_iff_output :
    let e : AudioOutput := { aliasText := "tv", scartReferences := ["Device.SCART.1", "SCART 2"] }
    validate e = [] ∧
      ((∃ e', ofTexts (texts e) = .ok e' ∧ (e' == e) = true) ↔ Representable e) :=
  ⟨rfl, ofTexts_texts_iff _ rfl⟩

end Cwmp.Entity
