import Cwmp.Proofs.Entity.Request
import Cwmp.Proofs.Objects.Regular
import Cwmp.Proofs.Text.CommaList

/-! # Texts of lists

A text stands for the list of its items, which are bare: not empty, without commas and without
blanks at their ends. Lists of such items, and no others, come back from their texts. A parameter
that holds a list takes the same one from a text by whichever way the text comes: read as a value,
stored as it is, in a document or in a request.
-/
namespace Cwmp.Entity

open Text

variable {E : Type} [Entity E]

variable (E) in
/-- Every way by which the list parameter `f` takes a text leads to the items of the text. -/
structure TakesItems (f : Field) (maxLength : Nat) (text : String) : Prop where
  reads : f.shape.kind.read text = .ok (.list (commaItems text))
  stores : ∀ e : E, ∃ e', put e f.name (.text text) = .ok e' ∧
    get? e' f.name = some (.list (commaItems text))
  /-- The text of a member of a document, next to any other members. -/
  loads : ∀ (d : Doc) (members : List (Key × Doc)) (e : E), d.asText = .ok text →
    (.name f.name, d) ∈ members → decode (.table members) = .ok e →
      get? e f.name = some (.list (commaItems text))
  loads_alone : ∀ d : Doc, d.asText = .ok text →
    ∃ e : E, decode (.table [(.name f.name, d)]) = .ok e
  /-- The text of an entry of a request, next to any other entries. -/
  writes : ∀ (origin : Origin) (updates : Updates) (e e' : E), (f.name, text) ∈ updates →
    write origin updates e = .ok e' → get? e' f.name = some (.list (commaItems text))
  /-- The list has to keep the bound of the parameter, which counts the commas between items. -/
  writes_alone : (∃ e : E, ofTexts [(f.name, text)] = .ok e) ↔
    (commaText (commaItems text)).length ≤ maxLength

section Ways

variable {f : Field} {n : Nat} {text : String}

theorem read_of_list (hshape : f.shape = .list n) (text : String) :
    f.shape.kind.read text = .ok (.list (commaItems text)) := by
  rw [hshape]
  rfl

theorem exists_put_of_list (e : E) (hf : field? E f.name = some f) (hshape : f.shape = .list n)
    (text : String) : ∃ e', put e f.name (.text text) = .ok e' ∧
      get? e' f.name = some (.list (commaItems text)) := by
  have hstore : ∃ a, f.shape.store (.text text) = .ok a ∧
      f.shape.value a = .list (commaItems text) := by
    rw [hshape]
    exact ⟨commaItems text, rfl, rfl⟩
  obtain ⟨a, hstore, hvalue⟩ := hstore
  rw [← hvalue]
  exact put_of_store e hf hstore

theorem value_of_decode_list {d : Doc} {a : f.shape.Carrier} (hshape : f.shape = .list n)
    (hd : d.asText = .ok text) (h : f.shape.decode d = .ok a) :
    f.shape.value a = .list (commaItems text) := by
  revert a
  rw [hshape]
  intro a h
  simp only [Shape.decode, hd] at h
  cases h
  rfl

theorem exists_ofTexts_list_iff (hf : field? E f.name = some f) (hshape : f.shape = .list n) :
    (∃ e : E, ofTexts [(f.name, text)] = .ok e) ↔ (commaText (commaItems text)).length ≤ n := by
  have haccepts : f.shape.kind.Accepts (.list (commaItems text)) ↔
      (commaText (commaItems text)).length ≤ n := by
    rw [hshape, Kind.accepts_iff]
    refine ⟨fun h => ?_, fun h => .list (by simpa using h)⟩
    cases h with
    | list hlength => exact hlength n rfl
  rw [exists_ofTexts_single_iff hf (read_of_list hshape text), haccepts]

end Ways

theorem takesItems [BEq E] [Regular E] {f : Field} {n : Nat} (hf : f ∈ fields E)
    (hshape : f.shape = .list n) (text : String) : TakesItems E f n text := by
  have hfield : field? E f.name = some f := field?_name hf
  have hcanonical : f.shape.canonical (.list (commaItems text)) = .list (commaItems text) := by
    rw [hshape]
    rfl
  constructor
  · exact read_of_list hshape text
  · exact fun e => exists_put_of_list e hfield hshape text
  · intro d members e hd hmem hdecode
    obtain ⟨a, ha, hget⟩ := (reads_of_loadMembers hdecode).get?_of_mem hfield hmem
    rw [hget, value_of_decode_list hshape hd ha]
  · intro d hd
    refine (exists_decode_single_iff hfield).2 ?_
    rw [hshape]
    exact ⟨commaItems text, by simp only [Shape.decode, hd]; rfl⟩
  · intro origin updates e e' hmem hwrite
    obtain ⟨hstages, hblames⟩ := write_eq_ok _ hwrite
    rw [hstages.get?_of_mem hblames hmem hfield (read_of_list hshape text), hcanonical]
  · exact exists_ofTexts_list_iff hfield hshape

/-- Reading a list gives bare items, from whose text the same list is read again, and only lists of
bare items come back from their texts. The parameters that hold lists take the items of a text
whichever way it comes. -/
theorem listTexts_exact :
    (∀ text : String, (∀ item ∈ commaItems text, IsBare item) ∧
      commaItems (commaText (commaItems text)) = commaItems text) ∧
    (∀ items : List String, commaItems (commaText items) = items ↔ ∀ s ∈ items, IsBare s) ∧
    ∀ (E : Type) [Entity E] [BEq E] [Regular E] (f : Field) (n : Nat), f ∈ fields E →
      f.shape = .list n → ∀ text : String, TakesItems E f n text := by
  refine ⟨fun text => ?_, fun items => commaItems_commaText_iff_isBare, ?_⟩
  · have hbare : ∀ item ∈ commaItems text, IsBare item := fun item hitem =>
      isItem_iff_isBare.1 (isItem_of_mem_commaItems hitem)
    exact ⟨hbare, commaItems_commaText_iff_isBare.2 hbare⟩
  · intro E _ _ _ f n hf hshape text
    exact takesItems hf hshape text

/-- Two connectors of an output, the text with blanks and an empty place between commas. -/
theorem listTexts_exact_connectors :
    commaItems " SCART 1,, SCART\t2 " = ["SCART 1", "SCART\t2"] ∧
      TakesItems AudioOutput (.ro "SCARTs" (.list 1024)) 1024 " SCART 1,, SCART\t2 " := by
  refine ⟨by decide, ?_⟩
  exact listTexts_exact.2.2 AudioOutput (.ro "SCARTs" (.list 1024)) 1024
    (by simp [fields]) rfl " SCART 1,, SCART\t2 "

end Cwmp.Entity
