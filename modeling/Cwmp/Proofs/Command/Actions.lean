import Cwmp.Command.Run
import Cwmp.Proofs.Answers
import Cwmp.Proofs.Command.Host
import Cwmp.Proofs.Files.Directory
import Cwmp.Proofs.Table.Collections

/-! # Commands in a directory

A command on a document that fails leaves its directory alone. One that saves a table has loaded the
table before and changed it, and the changed table is the only thing that it writes. Nothing happens
where somebody declines to lose a row.
-/
namespace Cwmp

variable {m : Type → Type} [Monad m] [Surroundings m] {host : Host m}

namespace DocumentPlace

variable (place : DocumentPlace)

def text (state : place.State) : String :=
  (DocumentForm.ofPath place.file).write (Codec.encode state)

def load? (text : String) : Except LoadFault place.State :=
  (DocumentForm.ofPath place.file).load text

def loaded (options : Options) (d : Directory) : Except CommandError place.State :=
  match d.read place.file with
  | .ok text => place.parse options text
  | .error fault => .error (.file fault)

/-- The table of the document, or an empty one if there is no document. -/
def held (options : Options) (d : Directory) : Except CommandError place.State :=
  if d.contains place.file then place.loaded options d
  else .ok (place.kind.collection.setOptions place.kind.collection.empty options)

variable {place} {c : Context} {d : Directory} {options : Options} {state : place.State}

theorem loaded_eq_ok_iff : place.loaded options d = .ok state ↔
    ∃ text s, d.read place.file = .ok text ∧ place.load? text = .ok s ∧
      place.kind.collection.setOptions s options = state := by
  unfold loaded
  cases d.read place.file with
  | error fault => simp
  | ok text =>
    simp only [parse, load?, Except.ok.injEq, exists_and_left, exists_eq_left']
    split
    next s hs => simp [hs]
    next fault hfault => simp [hfault]

theorem held_of_loaded (h : place.loaded options d = .ok state) :
    place.held options d = .ok state := by
  obtain ⟨text, -, hread, -⟩ := loaded_eq_ok_iff.1 h
  rw [held, if_pos (Directory.contains_of_read hread), h]

theorem result_load : host.result (place.load c) d = (place.loaded c.options d, d) := by
  refine (Host.result_bind_ok (Host.result_lift (host.run_read _ _))).trans ?_
  rw [loaded]
  cases d.read place.file <;> simp

theorem result_load_ok (h : place.loaded c.options d = .ok state) :
    host.result (place.load c) d = (.ok state, d) := by
  rw [result_load, h]

theorem result_loadOrCreate :
    host.result (place.loadOrCreate c) d = (place.held c.options d, d) := by
  refine (Host.result_bind_ok (Host.result_lift (host.run_contains _ _))).trans ?_
  rw [held]
  split_ifs
  · exact result_load
  · exact host.result_pure

theorem result_loadOrCreate_ok (h : place.held c.options d = .ok state) :
    host.result (place.loadOrCreate c) d = (.ok state, d) := by
  rw [result_loadOrCreate, h]

theorem result_finish_ok {d' : Directory} (h : d.write place.file (place.text state) = .ok d')
    (only? : Option InstanceNumber) (done : String) :
    host.result (place.finish c state only? done true) d =
      (.ok { shown := done ++ " (" ++ place.file ++ ")" }, d') := by
  have hwrite : host.run (Surroundings.write place.file (place.text state)) d = (.ok (), d') := by
    simp [host.run_write, Directory.attempt, h]
  rw [finish, if_pos rfl]
  exact (Host.result_bind_ok (Host.result_lift hwrite)).trans host.result_pure

theorem result_finish_error {fault : FileFault}
    (h : d.write place.file (place.text state) = .error fault) (only? : Option InstanceNumber)
    (done : String) :
    host.result (place.finish c state only? done true) d = (.error (.file fault), d) := by
  have hwrite : host.run (Surroundings.write place.file (place.text state)) d =
      (.error fault, d) := by
    simp [host.run_write, Directory.attempt, h]
  rw [finish, if_pos rfl]
  exact (Host.result_bind_ok (Host.result_lift hwrite)).trans host.result_throw

variable (place) in
def question (i : InstanceNumber) : String :=
  "Delete " ++ place.rowPath i ++ " from " ++ place.file ++ "?"

variable (place c) in
/-- Whether a row may be lost, as somebody says who may be there to be asked. -/
def permission (answer? : String → Option Bool) (i : InstanceNumber) : Except CommandError Bool :=
  if c.yes then .ok true
  else match answer? (place.question i) with
    | some answer => .ok answer
    | none => .error (.unconfirmed (place.question i))

variable {answer? : String → Option Bool}

variable (place c d answer?) in
/-- The table that a command makes of the document, if nothing of what it asks for is refused. -/
inductive Produces : Command → place.State → Prop
  | set {row : RowName} {values : Assignments} {origin : Origin} {updates : Updates}
      {i : InstanceNumber} {s s' : place.State} :
      place.loaded c.options d = .ok s → assignments values = .ok updates →
      place.resolve s row = .ok i → place.kind.collection.write s i origin updates = .ok s' →
      Produces (.set place row values origin true) s'
  | add {values : Assignments} {rank? rank'? : Option UInt32} {origin : Origin}
      {updates : Updates} {row : place.Row} {i : InstanceNumber} {s s' : place.State} :
      ¬(origin = .controller ∧ place.kind.isDeviceMade = true) →
      place.held c.options d = .ok s → assignments values = .ok updates →
      Entity.write origin updates (Entity.initial : place.Row) = .ok row →
      place.requestedRank rank? row updates = .ok rank'? →
      place.kind.collection.add s row rank'? = .ok (i, s') →
      Produces (.add place values rank? origin true) s'
  | delete {name : RowName} {i : InstanceNumber} {row : place.Row} {s s' : place.State} :
      place.loaded c.options d = .ok s → place.resolve s name = .ok i →
      place.permission c answer? i = .ok true →
      place.kind.collection.remove s i = .ok (row, s') →
      Produces (.delete place name true) s'

variable (place c d answer?) in
/-- The row that a command is to delete is kept at the wish of somebody who was asked. -/
inductive Declined : Command → Prop
  | delete {name : RowName} {i : InstanceNumber} {s : place.State} :
      place.loaded c.options d = .ok s → place.resolve s name = .ok i →
      place.permission c answer? i = .ok false → Declined (.delete place name true)

variable {s s' : place.State} {command : Command}

theorem Produces.change (h : place.Produces c d answer? command s') :
    ∃ s, place.held c.options d = .ok s ∧ place.kind.collection.Change s s' := by
  cases h with
  | set hs _ _ hwrite => exact ⟨_, held_of_loaded hs, .written hwrite⟩
  | add _ hs _ hrow _ hadd => exact ⟨_, hs, .added hrow hadd⟩
  | delete hs _ _ hremove => exact ⟨_, held_of_loaded hs, .removed hremove⟩

theorem Produces.unique {s'' : place.State} (h : place.Produces c d answer? command s')
    (h' : place.Produces c d answer? command s'') : s' = s'' := by
  cases h with
  | set hs hupdates hi hwrite =>
    cases h' with
    | set hs' hupdates' hi' hwrite' =>
      cases hs.symm.trans hs'
      cases hupdates.symm.trans hupdates'
      cases hi.symm.trans hi'
      exact Except.ok.inj (hwrite.symm.trans hwrite')
  | add _ hs hupdates hrow hrank hadd =>
    cases h' with
    | add _ hs' hupdates' hrow' hrank' hadd' =>
      cases hs.symm.trans hs'
      cases hupdates.symm.trans hupdates'
      cases hrow.symm.trans hrow'
      cases hrank.symm.trans hrank'
      cases hadd.symm.trans hadd'
      rfl
  | delete hs hi _ hremove =>
    cases h' with
    | delete hs' hi' _ hremove' =>
      cases hs.symm.trans hs'
      cases hi.symm.trans hi'
      cases hremove.symm.trans hremove'
      rfl

theorem Declined.not_produces (h : place.Declined c d answer? command) :
    ¬place.Produces c d answer? command s' := by
  intro hproduces
  cases h with
  | delete hs hi hmay =>
    cases hproduces with
    | delete hs' hi' hmay' _ =>
      cases hs.symm.trans hs'
      cases hi.symm.trans hi'
      cases hmay.symm.trans hmay'

theorem Declined.exists_answer (h : place.Declined c d answer? command) :
    ∃ question, answer? question = some false := by
  cases h with
  | @delete _ i _ _ _ hmay =>
    refine ⟨place.question i, ?_⟩
    unfold permission at hmay
    split_ifs at hmay
    · cases hmay
    · cases hanswer : answer? (place.question i) with
      | none => simp [hanswer] at hmay
      | some answer => simpa [hanswer] using hmay

theorem written_eq_ok_iff {row : RowName} {values : Assignments} {origin : Origin} :
    (∃ i done, place.written s row values origin = .ok (s', i, done)) ↔
      ∃ updates i, assignments values = .ok updates ∧ place.resolve s row = .ok i ∧
        place.kind.collection.write s i origin updates = .ok s' := by
  constructor
  · rintro ⟨i, done, h⟩
    obtain ⟨updates, hupdates, h⟩ := bind_eq_ok_iff.1 h
    obtain ⟨i, hi, h⟩ := bind_eq_ok_iff.1 h
    obtain ⟨s', hwrite, h⟩ := bind_eq_ok_iff.1 h
    cases h
    exact ⟨updates, i, hupdates, hi, mapError_eq_ok_iff.1 hwrite⟩
  · rintro ⟨updates, i, hupdates, hi, hwrite⟩
    exact ⟨i, _, bind_eq_ok_iff.2 ⟨updates, hupdates, bind_eq_ok_iff.2 ⟨i, hi,
      bind_eq_ok_iff.2 ⟨s', mapError_eq_ok_iff.2 hwrite, rfl⟩⟩⟩⟩

theorem extended_eq_ok_iff {values : Assignments} {rank? : Option UInt32} {origin : Origin}
    {i : InstanceNumber} : (∃ done, place.extended s values rank? origin = .ok (s', i, done)) ↔
      ∃ updates row rank'?, assignments values = .ok updates ∧
        Entity.write origin updates (Entity.initial : place.Row) = .ok row ∧
        place.requestedRank rank? row updates = .ok rank'? ∧
        place.kind.collection.add s row rank'? = .ok (i, s') := by
  constructor
  · rintro ⟨done, h⟩
    obtain ⟨updates, hupdates, h⟩ := bind_eq_ok_iff.1 h
    obtain ⟨row, hrow, h⟩ := bind_eq_ok_iff.1 h
    obtain ⟨rank'?, hrank, h⟩ := bind_eq_ok_iff.1 h
    obtain ⟨⟨i, s'⟩, hadd, h⟩ := bind_eq_ok_iff.1 h
    cases h
    exact ⟨updates, row, rank'?, hupdates, mapError_eq_ok_iff.1 (mapError_eq_ok_iff.1 hrow),
      hrank, mapError_eq_ok_iff.1 hadd⟩
  · rintro ⟨updates, row, rank'?, hupdates, hrow, hrank, hadd⟩
    exact ⟨_, bind_eq_ok_iff.2 ⟨updates, hupdates, bind_eq_ok_iff.2
      ⟨row, mapError_eq_ok_iff.2 (mapError_eq_ok_iff.2 hrow), bind_eq_ok_iff.2 ⟨rank'?, hrank,
        bind_eq_ok_iff.2 ⟨(i, s'), mapError_eq_ok_iff.2 hadd, rfl⟩⟩⟩⟩⟩

theorem reduced_eq_ok_iff {i : InstanceNumber} : place.reduced s i = .ok s' ↔
    ∃ row, place.kind.collection.remove s i = .ok (row, s') := by
  constructor
  · intro h
    obtain ⟨⟨row, s'⟩, hremove, h⟩ := bind_eq_ok_iff.1 h
    cases h
    exact ⟨row, mapError_eq_ok_iff.1 hremove⟩
  · rintro ⟨row, hremove⟩
    exact bind_eq_ok_iff.2 ⟨(row, s'), mapError_eq_ok_iff.2 hremove, rfl⟩

theorem result_mayDelete (i : InstanceNumber) : host.result (place.mayDelete c i true) d =
    (place.permission c host.answer? i, d) := by
  unfold mayDelete permission
  by_cases hyes : c.yes = true
  · rw [if_pos (.inl hyes), if_pos hyes]
    exact host.result_pure
  · have hask : ¬(c.yes = true ∨ ¬true = true) := by simp [hyes]
    rw [if_neg hask, if_neg hyes]
    refine (Host.result_bind_ok (Host.result_lift (host.run_confirm? _ _))).trans ?_
    rw [question]
    cases host.answer? ("Delete " ++ place.rowPath i ++ " from " ++ place.file ++ "?") with
    | none => exact host.result_throw
    | some answer => exact host.result_pure

variable (place c d answer?) in
/-- How a command that saves ends: it fails and changes nothing, or somebody declines what it is to
do, or the table that it produces takes the place of the document. -/
inductive Saving (command : Command) : Except CommandError Outcome × Directory → Prop
  | refused (e : CommandError) : Saving command (.error e, d)
  | declined : place.Declined c d answer? command → Saving command (.ok {}, d)
  | saved {s' : place.State} {d' : Directory} {shown : String} :
      place.Produces c d answer? command s' → d.write place.file (place.text s') = .ok d' →
      Saving command (.ok { shown := shown }, d')

theorem Saving.bind {A : Type} {x : Action m A} {f : A → Action m Outcome}
    {r : Except CommandError A} (hx : host.result x d = (r, d))
    (hf : ∀ a, r = .ok a → place.Saving c d answer? command (host.result (f a) d)) :
    place.Saving c d answer? command (host.result (x >>= f) d) := by
  cases r with
  | error e =>
    rw [Host.result_bind_error hx]
    exact .refused e
  | ok a =>
    rw [Host.result_bind_ok hx]
    exact hf a rfl

theorem Saving.finish (h : place.Produces c d answer? command s') (only? : Option InstanceNumber)
    (done : String) :
    place.Saving c d answer? command (host.result (place.finish c s' only? done true) d) := by
  cases hwrite : d.write place.file (place.text s') with
  | error fault =>
    rw [result_finish_error hwrite]
    exact .refused _
  | ok d' =>
    rw [result_finish_ok hwrite]
    exact .saved h hwrite

theorem saving_set (row : RowName) (values : Assignments) (origin : Origin) :
    place.Saving c d answer? (.set place row values origin true)
      (host.result (place.set c row values origin true) d) := by
  refine .bind result_load fun s hs => .bind (host.result_ofExcept _) ?_
  rintro ⟨s', i, done⟩ h
  obtain ⟨updates, i, hupdates, hi, hwrite⟩ := written_eq_ok_iff.1 ⟨i, done, h⟩
  exact .finish (.set hs hupdates hi hwrite) _ _

theorem saving_add (values : Assignments) (rank? : Option UInt32) (origin : Origin) :
    place.Saving c d answer? (.add place values rank? origin true)
      (host.result (place.add c values rank? origin true) d) := by
  unfold add
  split_ifs with hdevice
  · rw [Host.result_bind_error host.result_throw]
    exact .refused _
  · refine .bind result_loadOrCreate fun s hs => .bind (host.result_ofExcept _) ?_
    rintro ⟨s', i, done⟩ h
    obtain ⟨updates, row, rank'?, hupdates, hrow, hrank, hadd⟩ := extended_eq_ok_iff.1 ⟨done, h⟩
    exact .finish (.add hdevice hs hupdates hrow hrank hadd) _ _

theorem saving_delete (name : RowName) :
    place.Saving c d host.answer? (.delete place name true)
      (host.result (place.delete c name true) d) := by
  refine .bind result_load fun s hs => .bind (host.result_ofExcept _) fun i hi =>
    .bind (result_mayDelete i) fun may hmay => ?_
  split_ifs with hallowed
  · refine .bind (host.result_ofExcept _) fun s' h => ?_
    obtain ⟨row, hremove⟩ := reduced_eq_ok_iff.1 h
    exact .finish (.delete hs hi (hallowed ▸ hmay) hremove) _ _
  · rw [Host.result_pure]
    exact .declined (.delete hs hi (by rw [hmay, Bool.eq_false_of_not_eq_true hallowed]))

def shownFindings (place : DocumentPlace) (c : Context) (s : place.State) : String :=
  let findings := Finding.ofTable (place.table s)
  if findings = [] ∧ c.output = .table then
    place.file ++ ": " ++ Text.decimal (place.table s).rows.entries.length ++ " row(s) valid"
  else (Finding.report c.paints findings).text c.output

/-- What validation complains about in a table: the number of problems, if there are some. -/
def complaint? (place : DocumentPlace) (s : place.State) : Option CommandError :=
  let findings := Finding.ofTable (place.table s)
  if findings = [] then none else some (.invalidDocument findings.length)

theorem complaint?_eq_none_iff : place.complaint? s = none ↔
    Finding.ofTable (place.table s) = [] := by
  simp [complaint?]

theorem result_validate_ok (host : Host m) (hs : place.loaded c.options d = .ok s) :
    host.result (place.validate c) d =
      (.ok { shown := place.shownFindings c s, complaint? := place.complaint? s }, d) := by
  rw [validate, Host.result_bind_ok (result_load_ok hs), shownFindings, complaint?]
  dsimp only
  by_cases hshort : Finding.ofTable (place.table s) = [] ∧ c.output = .table
  · rw [if_pos hshort, if_pos hshort, if_pos hshort.1]
    exact host.result_pure
  · rw [if_neg hshort, if_neg hshort]
    exact host.result_pure

theorem result_validate_error {e : CommandError} (h : place.loaded c.options d = .error e) :
    host.result (place.validate c) d = (.error e, d) := by
  have hload : host.result (place.load c) d = (.error e, d) := by rw [result_load, h]
  rw [validate, Host.result_bind_error hload]

end DocumentPlace

abbrev Command.executeIn (command : Command) (host : Host m) (c : Context) (d : Directory) :
    Except CommandError Outcome × Directory :=
  host.result (command.execute c) d

abbrev Command.runIn (command : Command) (host : Host m) (start : Start) (common : CommonOptions)
    (d : Directory) : Except CommandError Outcome × Directory :=
  host.result (command.run start common) d

/-- A command that changes the table of a document and saves it. -/
inductive Command.Saves (place : DocumentPlace) : Command → Prop
  | set (row : RowName) (values : Assignments) (origin : Origin) :
      Saves place (.set place row values origin true)
  | add (values : Assignments) (rank? : Option UInt32) (origin : Origin) :
      Saves place (.add place values rank? origin true)
  | delete (row : RowName) : Saves place (.delete place row true)

theorem Command.Saves.ne_settings {place : DocumentPlace} {command : Command}
    (h : command.Saves place) (what : SettingsCommand) : command ≠ .settings what := by
  rintro rfl
  cases h

theorem Command.Saves.saving {place : DocumentPlace} {command : Command}
    (h : command.Saves place) (host : Host m) (c : Context) (d : Directory) :
    place.Saving c d host.answer? command (command.executeIn host c d) := by
  cases h with
  | set row values origin => exact DocumentPlace.saving_set row values origin
  | add values rank? origin => exact DocumentPlace.saving_add values rank? origin
  | delete row => exact DocumentPlace.saving_delete row

section

variable {place : DocumentPlace} {command : Command} {c : Context} {d : Directory}
  {s' : place.State}

theorem DocumentPlace.Produces.saves {answer? : String → Option Bool}
    (h : place.Produces c d answer? command s') : command.Saves place := by
  cases h with
  | set => exact .set _ _ _
  | add => exact .add _ _ _
  | delete => exact .delete _

theorem DocumentPlace.Declined.saves {answer? : String → Option Bool}
    (h : place.Declined c d answer? command) : command.Saves place := by
  cases h
  exact .delete _

theorem DocumentPlace.executeIn_add {values : Assignments} {rank? : Option UInt32} {origin : Origin}
    {s : place.State} {i : InstanceNumber} {done : String}
    (hdevice : ¬(origin = .controller ∧ place.kind.isDeviceMade = true))
    (hs : place.held c.options d = .ok s)
    (hextended : place.extended s values rank? origin = .ok (s', i, done)) :
    Command.executeIn (.add place values rank? origin true) host c d =
      host.result (place.finish c s' (some i) done true) d := by
  rw [Command.executeIn, Command.execute, DocumentPlace.add, if_neg hdevice,
    Host.result_bind_ok (result_loadOrCreate_ok hs),
    Host.result_bind_ok (Host.result_ofExcept_ok hextended)]

/-- What a command makes is what it finishes with. -/
theorem DocumentPlace.Produces.executeIn_eq (h : place.Produces c d host.answer? command s') :
    ∃ only? done, command.executeIn host c d =
      host.result (place.finish c s' only? done true) d := by
  cases h with
  | set hs hupdates hi hproduced =>
    obtain ⟨i, done, hwritten⟩ := written_eq_ok_iff.2 ⟨_, _, hupdates, hi, hproduced⟩
    refine ⟨some i, done, ?_⟩
    rw [Command.executeIn, Command.execute, DocumentPlace.set,
      Host.result_bind_ok (result_load_ok hs),
      Host.result_bind_ok (Host.result_ofExcept_ok hwritten)]
  | @add _ _ _ _ _ _ i _ _ hdevice hs hupdates hrow hrank hadd =>
    obtain ⟨done, hextended⟩ := extended_eq_ok_iff.2 ⟨_, _, _, hupdates, hrow, hrank, hadd⟩
    exact ⟨some i, done, executeIn_add hdevice hs hextended⟩
  | @delete _ i _ _ _ hs hi hmay hremove =>
    have hreduced := reduced_eq_ok_iff.2 ⟨_, hremove⟩
    refine ⟨none, "Deleted " ++ place.rowPath i, ?_⟩
    rw [Command.executeIn, Command.execute, DocumentPlace.delete,
      Host.result_bind_ok (result_load_ok hs),
      Host.result_bind_ok (Host.result_ofExcept_ok hi),
      Host.result_bind_ok ((result_mayDelete i).trans (by rw [hmay])), if_pos rfl,
      Host.result_bind_ok (Host.result_ofExcept_ok hreduced)]

theorem DocumentPlace.Declined.executeIn_eq (h : place.Declined c d host.answer? command) :
    command.executeIn host c d = (.ok {}, d) := by
  cases h with
  | delete hs hi hmay =>
    rw [Command.executeIn, Command.execute, DocumentPlace.delete,
      Host.result_bind_ok (result_load_ok hs),
      Host.result_bind_ok (Host.result_ofExcept_ok hi),
      Host.result_bind_ok ((result_mayDelete _).trans (by rw [hmay])), if_neg Bool.false_ne_true,
      Host.result_pure]

end

namespace Start

variable (start : Start) (common : CommonOptions) (d : Directory)

/-- What a command on a document goes by, if the settings are sound. -/
def context : Except CommandError Context :=
  let path := common.settingsFile.getD (standardSettingsFile start.environment)
  match Settings.load? (d.read path).toOption start.environment with
  | some settings => Context.resolve common settings start.terminal
  | none => .error .settingsUnreadable

def Asks (command : Command) : Prop :=
  Invocation.read? start.environment start.arguments = some ⟨common, command⟩

variable {start common d} {command : Command}

theorem result_loadSettings (path : String) :
    host.result (loadSettings path start.environment) d =
      (match Settings.load? (d.read path).toOption start.environment with
        | some settings => .ok settings
        | none => .error .settingsUnreadable, d) := by
  refine (Host.result_bind_ok (Host.result_lift (host.run_read _ _))).trans ?_
  cases Settings.load? (d.read path).toOption start.environment with
  | none => exact host.result_throw
  | some settings => exact host.result_pure

theorem result_run (hcommand : ∀ what, command ≠ .settings what) :
    command.runIn host start common d = match start.context common d with
      | .ok c => command.executeIn host c d
      | .error e => (.error e, d) := by
  unfold Command.runIn Command.run
  split
  next => exact absurd rfl (hcommand _)
  next => exact absurd rfl (hcommand _)
  next => exact absurd rfl (hcommand _)
  next =>
    simp only [context]
    cases hsettings : Settings.load? (d.read (common.settingsFile.getD
      (standardSettingsFile start.environment))).toOption start.environment with
    | none =>
      exact Host.result_bind_error (by rw [result_loadSettings, hsettings])
    | some settings =>
      refine (Host.result_bind_ok (by rw [result_loadSettings, hsettings])).trans ?_
      dsimp only
      cases Context.resolve common settings start.terminal with
      | error e => exact Host.result_bind_error (host.result_ofExcept _)
      | ok c => exact Host.result_bind_ok (host.result_ofExcept _)

end Start

structure Launch (m : Type → Type) [Monad m] [Surroundings m] extends Start where
  host : Host m

namespace Launch

def runIn (launch : Launch m) (d : Directory) : RunResult × Directory :=
  launch.host.run launch.run d

variable {launch : Launch m} {common : CommonOptions} {command : Command} {d d' : Directory}
  {place : DocumentPlace}

theorem runIn_eq (hasks : launch.Asks common command) {result : Except CommandError Outcome} :
    command.runIn launch.host launch.toStart common d = (result, d') →
      launch.runIn d = (match result with
        | .ok outcome => {
            standardOutput := printed common.quiet outcome.shown
            fault? := outcome.complaint?.map .error }
        | .error e => { fault? := some (.error e) }, d') := by
  intro h
  have hrun : launch.host.run (command.run launch.toStart common).run d = _ := h
  unfold runIn Start.run
  rw [hasks]
  dsimp only
  rw [launch.host.run_bind, hrun]
  cases result with
  | ok outcome => exact launch.host.run_pure _ _
  | error e => exact launch.host.run_pure _ _

theorem runIn_error (hasks : launch.Asks common command) {e : CommandError}
    (h : command.runIn launch.host launch.toStart common d = (.error e, d')) :
    launch.runIn d = ({ fault? := some (.error e) }, d') :=
  runIn_eq hasks h

theorem runIn_ok (hasks : launch.Asks common command) {outcome : Outcome}
    (h : command.runIn launch.host launch.toStart common d = (.ok outcome, d')) :
    launch.runIn d = ({
        standardOutput := printed common.quiet outcome.shown
        fault? := outcome.complaint?.map .error }, d') :=
  runIn_eq hasks h

theorem runIn_congr {launch' : Launch m} {command' : Command} (hasks : launch.Asks common command)
    (hasks' : launch'.Asks common command')
    (h : command'.runIn launch'.host launch'.toStart common d =
      command.runIn launch.host launch.toStart common d) : launch'.runIn d = launch.runIn d := by
  cases hresult : command.runIn launch.host launch.toStart common d with
  | mk result d' => exact (runIn_eq hasks' (h.trans hresult)).trans (runIn_eq hasks hresult).symm

theorem exists_outcome (hasks : launch.Asks common command)
    (hexit : (launch.runIn d).1.exitCode = 0) :
    ∃ outcome d', command.runIn launch.host launch.toStart common d = (.ok outcome, d') := by
  cases hresult : command.runIn launch.host launch.toStart common d with
  | mk result d' =>
    cases result with
    | ok outcome => exact ⟨outcome, d', rfl⟩
    | error e =>
      rw [runIn_error hasks hresult, RunResult.exitCode_eq_zero_iff] at hexit
      cases hexit

/-- Validation ends well if the document loads and nothing is found in it. -/
theorem exitCode_validate_iff (hasks : launch.Asks common (.validate place)) :
    (launch.runIn d).1.exitCode = 0 ↔ ∃ c s, launch.context common d = .ok c ∧
      place.loaded c.options d = .ok s ∧ Finding.ofTable (place.table s) = [] := by
  have hrun : Command.runIn (.validate place) launch.host launch.toStart common d = _ :=
    Start.result_run (by simp)
  rw [RunResult.exitCode_eq_zero_iff]
  cases hc : launch.context common d with
  | error e =>
    rw [hc] at hrun
    simp [runIn_error hasks hrun]
  | ok c =>
    rw [hc] at hrun
    cases hs : place.loaded c.options d with
    | error e =>
      simp [runIn_error hasks (hrun.trans (DocumentPlace.result_validate_error hs)), hs]
    | ok s =>
      have hvalidate := DocumentPlace.result_validate_ok launch.host hs
      simp [runIn_ok hasks (hrun.trans hvalidate), DocumentPlace.complaint?_eq_none_iff, hs]

/-- A command that saves ends in a failure that changes nothing, or is declined, or leaves the table
that it produces in the place of the document. -/
theorem runIn_of_saves (hasks : launch.Asks common command) (hsaves : command.Saves place) :
    ((launch.runIn d).1.exitCode ≠ 0 ∧ (launch.runIn d).2 = d) ∨
      (∃ c, launch.context common d = .ok c ∧
        place.Declined c d launch.host.answer? command ∧ (launch.runIn d).2 = d) ∨
      ∃ c s', launch.context common d = .ok c ∧
        place.Produces c d launch.host.answer? command s' ∧
        d.write place.file (place.text s') = .ok (launch.runIn d).2 := by
  have hrun : command.runIn launch.host launch.toStart common d = _ :=
    Start.result_run hsaves.ne_settings
  have hfailed : ∀ {e : CommandError},
      command.runIn launch.host launch.toStart common d = (.error e, d) →
        (launch.runIn d).1.exitCode ≠ 0 ∧ (launch.runIn d).2 = d := by
    intro e h
    rw [runIn_error hasks h, ne_eq, RunResult.exitCode_eq_zero_iff]
    simp
  cases hc : launch.context common d with
  | error e =>
    rw [hc] at hrun
    exact .inl (hfailed hrun)
  | ok c =>
    rw [hc] at hrun
    have hsaving := hsaves.saving launch.host c d
    dsimp only at hrun
    rw [← hrun] at hsaving
    generalize hresult : command.runIn launch.host launch.toStart common d = result at hsaving
    cases hsaving with
    | refused e => exact .inl (hfailed hresult)
    | declined hdeclined =>
      rw [runIn_ok hasks hresult]
      exact .inr (.inl ⟨c, rfl, hdeclined, rfl⟩)
    | saved hproduces hwrite =>
      rw [runIn_ok hasks hresult]
      exact .inr (.inr ⟨c, _, rfl, hproduces, hwrite⟩)

theorem exitCode_of_produces (hasks : launch.Asks common command) {c : Context}
    (hc : launch.context common d = .ok c) {s' : place.State}
    (hproduces : place.Produces c d launch.host.answer? command s')
    (hwrite : d.write place.file (place.text s') = .ok d') :
    (launch.runIn d).1.exitCode = 0 := by
  have hrun : command.runIn launch.host launch.toStart common d = _ :=
    Start.result_run hproduces.saves.ne_settings
  obtain ⟨only?, done, hfinish⟩ := hproduces.executeIn_eq
  rw [hc] at hrun
  have hsaved := hfinish.trans (DocumentPlace.result_finish_ok hwrite only? done)
  rw [runIn_ok hasks (hrun.trans hsaved)]
  exact RunResult.exitCode_eq_zero_iff.2 rfl

theorem exitCode_of_declined (hasks : launch.Asks common command) {c : Context}
    (hc : launch.context common d = .ok c)
    (hdeclined : place.Declined c d launch.host.answer? command) :
    (launch.runIn d).1.exitCode = 0 := by
  have hrun : command.runIn launch.host launch.toStart common d = _ :=
    Start.result_run hdeclined.saves.ne_settings
  rw [hc] at hrun
  rw [runIn_ok hasks (hrun.trans hdeclined.executeIn_eq)]
  exact RunResult.exitCode_eq_zero_iff.2 rfl

end Launch
end Cwmp
