import Cwmp.Proofs.Command.Documents
import Cwmp.Proofs.Table.DeviceAliases
import Cwmp.Proofs.Table.Paths

/-! # Rows by number and by alias

A row of a document is named on the command line by its number or by its alias. A valid alias begins
with a letter, so it is never taken for a number, and the index of a document that was loaded leads
from it to a row that has it. As long as the rows break no rule between them there is one such row
only. So a command does the same to a row whichever name it is given.
-/
namespace Cwmp

theorem Alias.isDigit_of_isLetter {c : Char} (h : isLetter c = true) : Text.isDigit c = false := by
  simp only [isLetter, Bool.or_eq_true, Bool.and_eq_true, decide_eq_true_eq, Char.le_def,
    UInt32.le_iff_toNat_le] at h
  rw [Bool.eq_false_iff, ne_eq, Text.isDigit_iff]
  simp only [Char.le_def, UInt32.le_iff_toNat_le, Char.reduceVal, UInt32.reduceToNat] at h ⊢
  omega

theorem Alias.IsValid.read_eq_none {s : String} (h : IsValid s) : InstanceNumber.read s = none := by
  obtain ⟨⟨c, rest, hs, hletter⟩, -⟩ := spelled_of_isValid h
  have hdigits : Text.digits? (c :: rest) = none :=
    Text.digits?_eq_none List.mem_cons_self (isDigit_of_isLetter hletter)
  have hunsigned : Text.unsigned? Text.uint32Max (c :: rest) = none := by
    unfold Text.unsigned?
    split
    next heq =>
      obtain ⟨rfl, -⟩ := List.cons.inj heq
      cases hletter
    next => simp only [hdigits, Option.filter_none]
  rw [InstanceNumber.read, hs, hunsigned, Option.bind_none]

theorem Entity.exists_alias {E : Type} [Entity E] [Named E] [BEq E] [Regular E] (e : E) :
    ∃ s, alias? e = some s := by
  have hfield : field? E aliasName = some _ := Named.field?_aliasName
  obtain ⟨v, hv⟩ := Record.exists_mem_values (record e) (List.mem_of_find?_eq_some hfield)
  obtain ⟨-, s, rfl⟩ := Record.exists_value_eq hv
  have hget : get? e aliasName = some _ := Record.get?_of_mem_values (nodup_fieldNames E) hv
  exact ⟨s, by simp only [alias?, hget]; rfl⟩

namespace Table

variable {E : Type} [Entity E] {t : Table E} {i : InstanceNumber} {row : E} {s : String}

theorem Indexed.setOptions (h : t.Indexed) (options : Options) : (t.setOptions options).Indexed :=
  ⟨h.aliases, h.counted⟩

theorem Indexed.resolve_eq (h : t.Indexed) (hconsistent : t.Consistent) (hrow : t.get? i = some row)
    (halias : Entity.alias? row = some s) : t.resolve s = .ok i := by
  have hheld : Holds t.rows.entries s i := holds_iff_get?.2 ⟨row, hrow, halias⟩
  obtain ⟨j, hj⟩ := Option.ne_none_iff_exists'.1 (h.aliases.complete s i hheld)
  obtain ⟨other, hother, halias'⟩ := holds_iff_get?.1 (h.aliases.sound s j hj)
  obtain rfl := hconsistent.aliases_distinct i j row other s hrow hother halias halias'
  exact resolve_eq_ok_iff.2 hj

end Table

theorem Ranking.indexed_of_decode {E : Type} [Entity E] [Ranked E] {d : Doc} {t : Ranking E}
    (h : decode d = .ok t) : t.table.Indexed := by
  obtain ⟨s, hs, hrank⟩ := (Initial.loaded h).reranked
  exact hrank.indexed hs.indexed

namespace ObjectKind

variable (kind : ObjectKind)

theorem indexed_of_decode {d : Doc} {s : kind.collection.State} (h : Codec.decode d = .ok s) :
    (kind.collection.table s).Indexed := by
  cases kind with
  | firewallRule => exact Ranking.indexed_of_decode (E := FirewallRule) h
  | dhcpPool => exact Ranking.indexed_of_decode (E := DhcpPool) h
  | conditionalPool => exact Ranking.indexed_of_decode (E := ConditionalPool) h
  | _ => exact Table.Initial.indexed (.loaded h)

theorem table_setOptions (s : kind.collection.State) (options : Options) :
    kind.collection.table (kind.collection.setOptions s options) =
      (kind.collection.table s).setOptions options := by
  cases kind <;> rfl

end ObjectKind

namespace DocumentPlace

section Resolving

variable {place : DocumentPlace} {d : Directory} {options options' : Options} {s s' : place.State}
  {i : InstanceNumber} {row : place.Row} {name : String}

theorem rows_eq_of_loaded (hs : place.loaded options d = .ok s)
    (hs' : place.loaded options' d = .ok s') :
    (place.table s').rows = (place.table s).rows := by
  obtain ⟨text, loaded, hread, hload, rfl⟩ := loaded_eq_ok_iff.1 hs
  obtain ⟨text', loaded', hread', hload', rfl⟩ := loaded_eq_ok_iff.1 hs'
  cases hread.symm.trans hread'
  cases hload.symm.trans hload'
  exact (Collection.Lawful.rows_setOptions loaded options').trans
    (Collection.Lawful.rows_setOptions loaded options).symm

theorem indexed_of_loaded (hs : place.loaded options d = .ok s) : (place.table s).Indexed := by
  obtain ⟨text, loaded, -, hload, rfl⟩ := loaded_eq_ok_iff.1 hs
  obtain ⟨tree, hdecode⟩ := DocumentForm.exists_decode hload
  rw [table, ObjectKind.table_setOptions]
  exact (place.kind.indexed_of_decode hdecode).setOptions options

theorem resolve_text (s : place.State) (i : InstanceNumber) : place.resolve s i.text = .ok i := by
  rw [resolve, InstanceNumber.read_text]

theorem resolve_alias (hs : place.loaded options d = .ok s)
    (hnone : (place.table s).violations = []) (hrow : (place.table s).get? i = some row)
    (halias : Entity.alias? row = some name) : place.resolve s name = .ok i := by
  have hconsistent : (place.table s).Consistent :=
    Table.consistent_of_reported (by rw [Table.reported, hnone]; rfl)
  have hvalid := hconsistent.aliases_valid i row name hrow halias
  have hresolve := (indexed_of_loaded hs).resolve_eq hconsistent hrow halias
  rw [resolve, hvalid.read_eq_none]
  exact mapError_eq_ok_iff.2 hresolve

end Resolving

inductive Renames (place : DocumentPlace) (name name' : RowName) : Command → Command → Prop
  | set (values : Assignments) (origin : Origin) (save : Bool) :
      Renames place name name' (.set place name values origin save)
        (.set place name' values origin save)
  | delete (save : Bool) :
      Renames place name name' (.delete place name save) (.delete place name' save)

section Renaming

variable {m : Type → Type} [Monad m] [Surroundings m] {place : DocumentPlace}
  {name name' : RowName} {command command' : Command}

theorem Renames.ne_settings (h : place.Renames name name' command command')
    (what : SettingsCommand) : command ≠ .settings what ∧ command' ≠ .settings what := by
  cases h <;> simp

theorem Renames.executeIn_eq (h : place.Renames name name' command command') {host : Host m}
    {c : Context} {d : Directory} (hresolve : ∀ s, place.loaded c.options d = .ok s →
      place.resolve s name' = place.resolve s name) :
    command'.executeIn host c d = command.executeIn host c d := by
  cases h with
  | set values origin save =>
    refine Host.result_bind_congr result_load fun s hs => ?_
    simp only [written, hresolve s hs]
  | delete save =>
    refine Host.result_bind_congr result_load fun s hs => ?_
    simp only [hresolve s hs]

theorem Renames.runIn_eq (h : place.Renames name name' command command') {host : Host m}
    {start : Start} {common : CommonOptions} {d : Directory}
    (hresolve : ∀ options s, place.loaded options d = .ok s →
      place.resolve s name' = place.resolve s name) :
    command'.runIn host start common d = command.runIn host start common d := by
  rw [Start.result_run fun what => (h.ne_settings what).2,
    Start.result_run fun what => (h.ne_settings what).1]
  cases start.context common d with
  | error e => rfl
  | ok c => exact h.executeIn_eq fun s hs => hresolve c.options s hs

variable (m place) in
/-- The row `i` of the document goes by its number and by a name, and it is the same by which of
them it is changed or deleted: the run answers the same and leaves the same behind. -/
structure GoesBy (d : Directory) (s : place.State) (i : InstanceNumber) (name : RowName) :
    Prop where
  resolve_number : place.resolve s i.text = .ok i
  resolve_name : place.resolve s name = .ok i
  command_eq : ∀ command command', place.Renames i.text name command command' →
    ∀ (host : Host m) (start : Start) (common : CommonOptions),
      command'.runIn host start common d = command.runIn host start common d
  run_eq : ∀ command command', place.Renames i.text name command command' →
    ∀ (launch : Launch m) (arguments : List String) (common : CommonOptions),
      launch.Asks common command →
      ({ launch with arguments := arguments } : Launch m).Asks common command' →
        ({ launch with arguments := arguments } : Launch m).runIn d = launch.runIn d

theorem goesBy_alias {d : Directory} {options : Options} {s : place.State} {i : InstanceNumber}
    {row : place.Row} (hs : place.loaded options d = .ok s)
    (hnone : (place.table s).violations = []) (hrow : (place.table s).get? i = some row)
    (halias : Entity.alias? row = some name) : place.GoesBy m d s i name := by
  have hresolve : ∀ options' s', place.loaded options' d = .ok s' →
      place.resolve s' name = place.resolve s' i.text := by
    intro options' s' hs'
    have hrows := rows_eq_of_loaded hs hs'
    have hnone' : (place.table s').violations = [] := by
      rwa [Table.violations, hrows]
    have hrow' : (place.table s').get? i = some row := by
      rwa [Table.get?, hrows]
    rw [resolve_alias hs' hnone' hrow' halias, resolve_text]
  constructor
  · exact resolve_text s i
  · exact resolve_alias hs hnone hrow halias
  · exact fun command command' h host start common => h.runIn_eq hresolve
  · intro command command' h launch arguments common hasks hasks'
    exact Launch.runIn_congr hasks hasks' (h.runIn_eq hresolve)

end Renaming

theorem listing_row (place : DocumentPlace) (s : place.State) (i : InstanceNumber) :
    place.listing s (some i) = Table.below place.kind.tablePath i
      ((place.table s).parameters place.kind.tablePath) :=
  rfl

end DocumentPlace

variable (m : Type → Type) [Monad m] [Surroundings m]

def twoMappings : Directory where
  root := .folder [("home", .empty), ("srv", .folder [("m.json", .file (
    "\x7b\"12\": \x7b\"Alias\": \"web\", \"ExternalPort\": 80\x7d, " ++
    "\"1\": \x7b\"Alias\": \"ssh\", \"ExternalPort\": 22\x7d\x7d"))])]
  working := ["home"]

end Cwmp
