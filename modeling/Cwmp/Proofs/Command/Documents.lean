import Cwmp.Proofs.Command.Actions
import Cwmp.Proofs.Table.Reports

/-! # Documents stay valid

Whatever is asked of a document by commands that save, and whether they are refused or not, it can
be loaded afterwards and nothing is found in it. A command succeeds if what it asks for can be done,
and then the document holds the rows that the command made, with their ranks in order. Otherwise the
command leaves the document as it was, and fails unless somebody declined to lose a row.
-/
namespace Cwmp

/-- Nothing is found in valid tables, and only there. -/
theorem Finding.ofTable_eq_nil_iff {E : Type} [Entity E] {t : Table E} :
    Finding.ofTable t = [] ↔ t.Valid := by
  rw [ofTable, ← List.length_eq_zero_iff, List.length_mergeSort, List.length_eq_zero_iff,
    List.append_eq_nil_iff, List.flatMap_eq_nil_iff, List.flatMap_eq_nil_iff]
  simp only [List.map_eq_nil_iff, Prod.forall]
  constructor
  · rintro ⟨hown, hshared⟩
    refine ⟨fun i row hrow => hown i row (Rows.get?_eq_some_iff.1 hrow), ?_⟩
    refine List.map_eq_nil_iff.2 (List.eq_nil_iff_forall_not_mem.2 ?_)
    rintro ⟨i, faults⟩ h
    obtain ⟨-, -, -, hne⟩ := Table.mem_violations_iff.1 h
    exact hne (hshared i faults h)
  · intro h
    have hnone : t.violations = [] := List.map_eq_nil_iff.1 h.reported_eq_nil
    refine ⟨fun i row hrow => h.faultless i row (Rows.get?_eq_some_iff.2 hrow), ?_⟩
    simp [hnone]

/-- What a document was loaded from is some tree. -/
theorem DocumentForm.exists_decode {A : Type} [Codec A] {form : DocumentForm} {text : String}
    {a : A} (h : form.load text = .ok a) : ∃ d, Codec.decode d = .ok a := by
  cases form with
  | json =>
    simp only [load, Json.load] at h
    split at h
    next b hb =>
      split_ifs at h
      cases h
      exact ⟨_, hb⟩
    next => cases h
  | yaml =>
    simp only [load, Yaml.load] at h
    split at h
    next d _ => exact ⟨d, h⟩
    next => cases h

variable {m : Type → Type} [Monad m] [Surroundings m]

namespace DocumentPlace

variable {place : DocumentPlace} {d d' : Directory} {options : Options} {s s' : place.State}
  {text : String}

variable (place) in
/-- Documents keep the table, and there is nothing wrong with it. -/
structure TidyValid (s : place.State) : Prop where
  tidy : Collection.Lawful.Tidy s
  valid : (place.table s).Valid

theorem TidyValid.setOptions (h : place.TidyValid s) (options : Options) :
    place.TidyValid (place.kind.collection.setOptions s options) where
  tidy := Collection.Lawful.tidy_setOptions h.tidy
  valid := h.valid.of_rows_eq (Collection.Lawful.rows_setOptions s options)

theorem tidyValid_empty : place.TidyValid place.kind.collection.empty :=
  ⟨Collection.Lawful.tidy_empty, Collection.Lawful.valid_empty⟩

theorem TidyValid.change (h : place.TidyValid s) (hchange : place.kind.collection.Change s s') :
    place.TidyValid s' :=
  ⟨Collection.Lawful.tidy_change h.tidy hchange, Collection.Lawful.valid_change h.valid hchange⟩

variable (place) in
/-- The document is not there, or a valid table can be loaded from it. -/
def ValidIfPresent (d : Directory) : Prop :=
  d.contains place.file = true → ∃ text s, d.read place.file = .ok text ∧
    place.load? text = .ok s ∧ (place.table s).Valid

theorem ValidIfPresent.tidyValid_held (h : place.ValidIfPresent d)
    (hs : place.held options d = .ok s) : place.TidyValid s := by
  unfold held at hs
  split_ifs at hs with hthere
  · obtain ⟨text, loaded, hread, hload, hvalid⟩ := h hthere
    obtain ⟨text', loaded', hread', hload', rfl⟩ := loaded_eq_ok_iff.1 hs
    cases hread.symm.trans hread'
    cases hload.symm.trans hload'
    obtain ⟨tree, hdecode⟩ := DocumentForm.exists_decode hload
    exact TidyValid.setOptions ⟨Collection.Lawful.tidy_of_decode hdecode, hvalid⟩ options
  · cases hs
    exact tidyValid_empty.setOptions options

theorem ValidIfPresent.tidyValid_produced (h : place.ValidIfPresent d) {c : Context}
    {answer? : String → Option Bool} {command : Command}
    (hproduces : place.Produces c d answer? command s') : place.TidyValid s' := by
  obtain ⟨s, hs, hchange⟩ := hproduces.change
  exact (h.tidyValid_held hs).change hchange

variable (place) in
def ReadsBack (s : place.State) : Prop :=
  place.load? (place.text s) = Codec.decode (Codec.encode s)

theorem readsBack_json (h : DocumentForm.ofPath place.file = .json) (s : place.State) :
    place.ReadsBack s := by
  rw [ReadsBack, load?, text, h]
  exact Json.load_pretty (Collection.Lawful.holds_encode s)

/-- The document was saved of a table: it is loaded with the rows of the table, and the ranks in it
are in order. -/
structure Stored (d : Directory) (s : place.State) : Prop where
  read_eq : d.read place.file = .ok (place.text s)
  rankedInOrder : place.kind.collection.RankedInOrder s
  exists_load : ∃ loaded, place.load? (place.text s) = .ok loaded ∧
    Table.RowsEqual (place.table s).rows.entries (place.table loaded).rows.entries

theorem TidyValid.stored (h : place.TidyValid s)
    (hwrite : d.write place.file (place.text s) = .ok d') (hreads : place.ReadsBack s) :
    place.Stored d' s ∧ place.ValidIfPresent d' := by
  have hread := (Directory.overwritten_of_write hwrite).read_eq
  obtain ⟨loaded, hdecode, hrows, hvalid⟩ := Collection.Lawful.exists_decode_encode h.tidy
  have hload : place.load? (place.text s) = .ok loaded := hreads.trans hdecode
  exact ⟨⟨hread, Collection.Lawful.rankedInOrder h.tidy, loaded, hload, hrows⟩,
    fun _ => ⟨place.text s, loaded, hread, hload, hvalid h.valid⟩⟩

variable (place m) in
def Accepted (d : Directory) : Prop :=
  ∃ (launch : Launch m) (common : CommonOptions), launch.Asks common (.validate place) ∧
    (launch.runIn d).1.exitCode = 0

theorem Accepted.validIfPresent (h : place.Accepted m d) : place.ValidIfPresent d := by
  obtain ⟨launch, common, hasks, hexit⟩ := h
  obtain ⟨c, s, -, hs, hnone⟩ := (Launch.exitCode_validate_iff hasks).1 hexit
  obtain ⟨text, loaded, hread, hload, rfl⟩ := loaded_eq_ok_iff.1 hs
  refine fun _ => ⟨text, loaded, hread, hload, ?_⟩
  exact (Finding.ofTable_eq_nil_iff.1 hnone).of_rows_eq
    (Collection.Lawful.rows_setOptions loaded c.options).symm

variable (place m) in
/-- The document can be loaded, and validation with settings that are sound finds nothing in it. -/
structure LoadsAndValidates (d : Directory) : Prop where
  exists_load : ∃ text s, d.read place.file = .ok text ∧ place.load? text = .ok s
  exitCode_eq : ∀ {launch : Launch m} {common : CommonOptions} {c : Context},
    launch.Asks common (.validate place) → launch.context common d = .ok c →
      (launch.runIn d).1.exitCode = 0

theorem ValidIfPresent.loadsAndValidates (h : place.ValidIfPresent d)
    (hthere : d.contains place.file = true) : place.LoadsAndValidates m d := by
  obtain ⟨text, s, hread, hload, hvalid⟩ := h hthere
  refine ⟨⟨text, s, hread, hload⟩, fun hasks hc => ?_⟩
  refine (Launch.exitCode_validate_iff hasks).2
    ⟨_, _, hc, loaded_eq_ok_iff.2 ⟨text, s, hread, hload, rfl⟩, ?_⟩
  exact Finding.ofTable_eq_nil_iff.2
    (hvalid.of_rows_eq (Collection.Lawful.rows_setOptions s _))

variable (place) in
def SavedBy (launch : Launch m) : Prop :=
  ∃ common command, launch.Asks common command ∧ command.Saves place

variable (place) in
/-- The table that the run makes of the document, if nothing of what it asks for is refused. -/
def Makes (launch : Launch m) (d : Directory) (s' : place.State) : Prop :=
  ∃ common command c, launch.Asks common command ∧ launch.context common d = .ok c ∧
    place.Produces c d launch.host.answer? command s'

variable {launch : Launch m}

theorem Makes.unique {s'' : place.State} (h : place.Makes launch d s')
    (h' : place.Makes launch d s'') : s' = s'' := by
  obtain ⟨common, command, c, hasks, hc, hproduces⟩ := h
  obtain ⟨common', command', c', hasks', hc', hproduces'⟩ := h'
  cases hasks.symm.trans hasks'
  cases hc.symm.trans hc'
  exact hproduces.unique hproduces'

variable (place) in
/-- What the run asks for can be done: it makes a table, and the file can be written. -/
def Possible (launch : Launch m) (d : Directory) : Prop :=
  ∃ s' d', place.Makes launch d s' ∧ d.write place.file (place.text s') = .ok d'

theorem Possible.exitCode_eq (h : place.Possible launch d) :
    (launch.runIn d).1.exitCode = 0 := by
  obtain ⟨s', d', ⟨common, command, c, hasks, hc, hproduces⟩, hwrite⟩ := h
  exact Launch.exitCode_of_produces hasks hc hproduces hwrite

variable (place) in
/-- The run asks for a row to be deleted, and somebody who is asked wants to keep it. -/
def DeclinedIn (launch : Launch m) (d : Directory) : Prop :=
  ∃ common command c, launch.Asks common command ∧ launch.context common d = .ok c ∧
    place.Declined c d launch.host.answer? command

theorem DeclinedIn.exitCode_eq (h : place.DeclinedIn launch d) :
    (launch.runIn d).1.exitCode = 0 := by
  obtain ⟨common, command, c, hasks, hc, hdeclined⟩ := h
  exact Launch.exitCode_of_declined hasks hc hdeclined

theorem DeclinedIn.not_makes (h : place.DeclinedIn launch d) : ¬place.Makes launch d s' := by
  obtain ⟨common, command, c, hasks, hc, hdeclined⟩ := h
  rintro ⟨common', command', c', hasks', hc', hproduces⟩
  cases hasks.symm.trans hasks'
  cases hc.symm.trans hc'
  exact hdeclined.not_produces hproduces

theorem DeclinedIn.exists_answer (h : place.DeclinedIn launch d) :
    ∃ question, launch.host.answer? question = some false := by
  obtain ⟨_, _, _, _, _, hdeclined⟩ := h
  exact hdeclined.exists_answer

variable (place) in
/-- The run made the change that it asked for, and the document holds what came out. -/
def CarriedOut (launch : Launch m) (d : Directory) : Prop :=
  ∃ s', place.Makes launch d s' ∧ place.Stored (launch.runIn d).2 s'

theorem CarriedOut.contains (h : place.CarriedOut launch d) :
    (launch.runIn d).2.contains place.file = true := by
  obtain ⟨s', -, hstored⟩ := h
  exact Directory.contains_of_read hstored.read_eq

variable (place) in
/-- How a run that saves ends. It carries out what it asks for if that can be done. Otherwise it
changes nothing, and it fails unless somebody wanted it so. -/
structure Ends (launch : Launch m) (d : Directory) : Prop where
  exitCode_eq_zero_iff : (launch.runIn d).1.exitCode = 0 ↔
    place.Possible launch d ∨ place.DeclinedIn launch d
  carriedOut : place.Possible launch d → place.CarriedOut launch d
  unchanged : ¬place.Possible launch d → (launch.runIn d).2 = d

theorem Ends.carriedOut_of_exitCode (h : place.Ends launch d)
    (hexit : (launch.runIn d).1.exitCode = 0)
    (hanswers : ∀ question, launch.host.answer? question ≠ some false) :
    place.CarriedOut launch d := by
  rcases h.exitCode_eq_zero_iff.1 hexit with hpossible | hdeclined
  · exact h.carriedOut hpossible
  · obtain ⟨question, hanswer⟩ := hdeclined.exists_answer
    exact absurd hanswer (hanswers question)

theorem ValidIfPresent.run (h : place.ValidIfPresent d) (hsaved : place.SavedBy launch)
    (hreads : ∀ s', place.Makes launch d s' → place.ReadsBack s') :
    place.ValidIfPresent (launch.runIn d).2 ∧ place.Ends launch d := by
  have hzero : place.Possible launch d ∨ place.DeclinedIn launch d →
      (launch.runIn d).1.exitCode = 0 :=
    fun h => h.elim Possible.exitCode_eq DeclinedIn.exitCode_eq
  obtain ⟨common, command, hasks, hsaves⟩ := hsaved
  rcases Launch.runIn_of_saves hasks hsaves (d := d) with
    ⟨hexit, hsame⟩ | ⟨c, hc, hdeclined, hsame⟩ | ⟨c, s', hc, hproduces, hwrite⟩
  · refine ⟨by rwa [hsame], ⟨fun h => absurd h hexit, hzero⟩, fun hpossible => ?_, fun _ => hsame⟩
    exact absurd hpossible.exitCode_eq hexit
  · have hdeclined : place.DeclinedIn launch d := ⟨common, command, c, hasks, hc, hdeclined⟩
    refine ⟨by rwa [hsame], ⟨fun _ => .inr hdeclined, hzero⟩, fun hpossible => ?_, fun _ => hsame⟩
    obtain ⟨s', d', hmakes, -⟩ := hpossible
    exact absurd hmakes hdeclined.not_makes
  · have hmakes : place.Makes launch d s' := ⟨common, command, c, hasks, hc, hproduces⟩
    have hpossible : place.Possible launch d := ⟨s', _, hmakes, hwrite⟩
    obtain ⟨hstored, hvalid⟩ := (h.tidyValid_produced hproduces).stored hwrite (hreads s' hmakes)
    exact ⟨hvalid, ⟨fun _ => .inl hpossible, hzero⟩, fun _ => ⟨s', hmakes, hstored⟩,
      absurd hpossible⟩

end DocumentPlace

namespace Launch

def runAll (d : Directory) (launches : List (Launch m)) : Directory :=
  launches.foldl (fun d launch => (launch.runIn d).2) d

/-- During runs one after the other one of them starts in a directory. -/
def Occurs (d : Directory) (launches : List (Launch m)) (launch : Launch m) (d' : Directory) :
    Prop :=
  ∃ before after, launches = before ++ launch :: after ∧ runAll d before = d'

theorem occurs_singleton {d d' : Directory} {only launch : Launch m} :
    Occurs d [only] launch d' ↔ launch = only ∧ d' = d := by
  constructor
  · rintro ⟨before, after, hsplit, rfl⟩
    rcases List.append_eq_singleton_iff.1 hsplit.symm with ⟨rfl, hlaunch⟩ | ⟨-, hnil⟩
    · exact ⟨(List.cons.inj hlaunch).1, rfl⟩
    · cases hnil
  · rintro ⟨rfl, rfl⟩
    exact ⟨[], [], rfl, rfl⟩

end Launch

def oneOutput : Table AudioOutput :=
  Table.empty.run [.add {}]

def outputsIn (file : String) : DocumentPlace :=
  ⟨.audioOutput, file⟩

/-- Somebody is there to consent to what is asked. -/
def addOutput (file : String) : Launch Attended where
  arguments := ["add", "audio-output", file, "--write"]
  environment := []
  host := .attended fun _ => some true

def deleteOutput (file : String) : Launch Attended where
  arguments := ["delete", "audio-output", file, "1", "--write"]
  environment := []
  host := .attended fun _ => some true

theorem makes_oneOutput :
    (outputsIn "o.yaml").Makes (addOutput "o.yaml") .empty oneOutput := by
  have hproduces (c : Context) (hempty : (outputsIn "o.yaml").held c.options .empty =
      .ok (Table.empty : Table AudioOutput)) : (outputsIn "o.yaml").Produces c .empty
        (fun _ => some true) (.add (outputsIn "o.yaml") [] none .controller true) oneOutput :=
    .add (by decide) hempty (show assignments [] = .ok [] from rfl)
      (show Entity.write .controller [] (Entity.initial : AudioOutput) = .ok {} from rfl)
      (show (outputsIn "o.yaml").requestedRank none ({} : AudioOutput) [] = .ok none from rfl)
      (show (Table.empty : Table AudioOutput).add {} = .ok (.first, oneOutput) from rfl)
  exact ⟨{}, _, _, rfl, rfl, hproduces _ rfl⟩

set_option maxRecDepth 100000 in
theorem readsBack_oneOutput : (outputsIn "o.yaml").ReadsBack oneOutput :=
  rfl

def filled : Directory :=
  ((addOutput "o.json").runIn .empty).2

def twoFolders : Directory where
  root := .folder [("home", .empty), ("srv", .empty)]
  working := ["home"]

def addRule : Launch (StateM Directory) where
  arguments := ["add", "rule", "/srv/r.json", "Order=1", "--write"]
  environment := []
  host := .unattended

end Cwmp
