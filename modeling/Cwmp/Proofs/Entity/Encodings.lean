import Cwmp.Proofs.Entity.Regular
import Cwmp.Proofs.Objects.Members

/-! # The two written forms of an object

An object is written to documents and as the texts of its parameters. Both give the same of every
parameter that is not secret, but for the fractions of seconds, which only documents have; beside
parameters and tables a document has nothing of the object.
-/
namespace Cwmp

open Text

def Doc.scalarText? : Doc → Option String
  | .text s => some s
  | .integer i => some (decimalInt i)
  | .boolean b => some (Value.booleanText b)
  | _ => none

namespace Rfc3339

/-- The text of a time without what it says of the fraction of a second. -/
def withoutFraction (s : String) : String :=
  if '.' ∈ s.toList then String.ofList (s.toList.takeWhile (· ≠ '.')) ++ "Z" else s

example : withoutFraction "2024-02-29T12:00:60.250Z" = "2024-02-29T12:00:60Z" := by decide

theorem point_not_mem_padded (width n : Nat) : '.' ∉ (padded width n).toList :=
  fun h => Bool.false_ne_true (isDigit_of_mem_padded h)

theorem point_not_mem_yearText (year : Int) : '.' ∉ (yearText year).toList := by
  unfold yearText
  split_ifs <;> simp [point_not_mem_padded]

theorem point_not_mem_clockText (t : Instant) : '.' ∉ (clockText t).toList := by
  rw [← List.append_nil (clockText t).toList, toList_clockText]
  simp [point_not_mem_padded, point_not_mem_yearText]

theorem fractionText_eq (nanos : Nat) :
    fractionText nanos = "" ∨ ∃ digits, fractionText nanos = "." ++ digits := by
  unfold fractionText
  split_ifs
  · exact .inl rfl
  · exact .inr ⟨_, rfl⟩
  · exact .inr ⟨_, rfl⟩
  · exact .inr ⟨_, rfl⟩

theorem withoutFraction_writeExact (t : Instant) : withoutFraction (writeExact t) = write t := by
  have hclock := point_not_mem_clockText t
  unfold withoutFraction writeExact write
  rcases fractionText_eq (t.nanos % 1000000000) with hfraction | ⟨digits, hfraction⟩
  · have hpoint : '.' ∉ (clockText t ++ "" ++ "Z").toList := by simp [hclock]
    rw [hfraction, if_neg hpoint, String.append_empty]
  · have hpoint : '.' ∈ (clockText t ++ ("." ++ digits) ++ "Z").toList := by simp
    have hhead : (clockText t ++ ("." ++ digits) ++ "Z").toList.takeWhile (· ≠ '.') =
        (clockText t).toList := by
      rw [String.append_assoc, String.toList_append, List.takeWhile_append_of_pos]
      · simp
      · intro c hc
        simpa using fun h : c = '.' => hclock (h ▸ hc)
    rw [hfraction, if_pos hpoint, hhead, String.ofList_toList]

end Rfc3339

namespace Shape

def toSecond (s : Shape) (text : String) : String :=
  if s.kind = .moment then Rfc3339.withoutFraction text else text

theorem scalarText?_encode (s : Shape) (a : s.Carrier) :
    (s.encode a).scalarText?.map s.toSecond = some (s.value a).write := by
  cases s with
  | boolean => rfl
  | int => rfl
  | unsigned => rfl
  | text => rfl
  | choice => rfl
  | moment =>
    have hcut : moment.toSecond = Rfc3339.withoutFraction := funext fun _ => if_pos rfl
    rw [hcut]
    exact congrArg some (Rfc3339.withoutFraction_writeExact (a : Instant))
  | ipv4 => rfl
  | mac => rfl
  | list => rfl

end Shape

namespace Record

/-- Both forms of a record have each of its parameters under the name of the parameter. -/
theorem exists_lookup {fields : List Field} (r : Record fields) {f : Field} (hf : f ∈ fields)
    (hnodup : (fields.map (·.name)).Nodup) : ∃ a : f.shape.Carrier,
      (encode fields r).lookup (.name f.name) = some (f.shape.encode a) ∧
        ((values fields r).map fun p => (p.1.name, (p.1.shown p.2).write)).lookup f.name =
          some (f.shown (f.shape.value a)).write := by
  induction fields with
  | nil => cases hf
  | cons g fields ih =>
    obtain ⟨a, r⟩ := r
    rw [List.map_cons, List.nodup_cons] at hnodup
    rcases List.mem_cons.1 hf with rfl | hf
    · exact ⟨a, List.lookup_cons_self, List.lookup_cons_self⟩
    · have hne : f.name ≠ g.name := fun heq => hnodup.1 (heq ▸ List.mem_map_of_mem hf)
      obtain ⟨b, hencode, hvalues⟩ := ih r hf hnodup.2
      have hkey : (Key.name f.name == Key.name g.name) = false := by simpa using hne
      have hname : (f.name == g.name) = false := by simpa using hne
      refine ⟨b, ?_, ?_⟩
      · rwa [encode, List.lookup_cons, hkey]
      · rwa [values, List.map_cons, List.lookup_cons, hname]

end Record

namespace Entity

variable {E : Type} [Entity E] [BEq E] [Regular E] [Listed E]

/-- The two written forms of an object agree. A document has exactly one member for each parameter
and each table, and the member of a parameter that is not secret, rendered as text, is the text of
the parameter, times being the same to the second. -/
theorem encodings_agree (e : E) :
    encode e = .table (Listed.members e) ∧
      (Listed.members e).map Prod.fst = (memberNames E).map Key.name ∧ (memberNames E).Nodup ∧
      ∀ f ∈ fields E, f.secret = false → ∃ d text,
        (Listed.members e).lookup (.name f.name) = some d ∧
          (texts e).lookup f.name = some text ∧
          d.scalarText?.map f.shape.toSecond = some text := by
  have hmembers : Listed.members e =
      Record.encode (fields E) (record e) ++ Children.encode (children E) (parts e).2 := by
    have hencode := Listed.encode_eq e
    exact (Doc.table.inj hencode).symm
  refine ⟨Listed.encode_eq e, ?_, Regular.nodup_memberNames, fun f hf hsecret => ?_⟩
  · rw [hmembers, List.map_append, Record.keys_encode, Children.keys_encode, ← List.map_append]
    rfl
  · obtain ⟨a, hencode, htexts⟩ := (record e).exists_lookup hf (nodup_fieldNames E)
    refine ⟨f.shape.encode a, (f.shape.value a).write, ?_, ?_, f.shape.scalarText?_encode a⟩
    · rw [hmembers, List.lookup_append, hencode, Option.some_or]
    · have hshown : f.shown (f.shape.value a) = f.shape.value a := by simp [Field.shown, hsecret]
      rwa [hshown] at htexts

end Entity
end Cwmp
