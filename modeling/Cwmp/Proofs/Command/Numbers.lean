import Cwmp.Proofs.Command.Documents
import Cwmp.Proofs.Table.Numbering
import Cwmp.Proofs.Table.Paths

/-! # Numbers of a document's rows

A document stands for its rows from one command to the next, but nothing else is kept of its table.
A new row gets the number after the largest one in the document. So a number is given twice exactly
when the row with the largest number of all has gone, or when no larger number is left.
-/
namespace Cwmp

variable {m : Type → Type} [Monad m] [Surroundings m]

namespace DocumentPlace

variable {place : DocumentPlace} {d d' : Directory} {options : Options} {s s' : place.State}
  {launch : Launch m} {i j : InstanceNumber}

variable (place) in
/-- The parameters of the row that the document holds under a number, its rank left out. -/
def content? (d : Directory) (i : InstanceNumber) : Option (String → Option Value) :=
  match place.held {} d with
  | .ok s => (place.table s).content? place.kind.collection.rankName? i
  | .error _ => none

/-- Options have nothing to do with the rows of a document. -/
theorem content?_of_held (h : place.held options d = .ok s) (i : InstanceNumber) :
    place.content? d i = (place.table s).content? place.kind.collection.rankName? i := by
  have hsame : ∀ s : place.State, ∀ options' : Options,
      (place.table (place.kind.collection.setOptions s options')).content?
        place.kind.collection.rankName? i =
      (place.table s).content? place.kind.collection.rankName? i := by
    intro s options'
    rw [Table.content?, Table.content?, Table.get?, Table.get?, table,
      Collection.Lawful.rows_setOptions, table]
  unfold held at h
  split_ifs at h with hthere
  · obtain ⟨text, loaded, hread, hload, rfl⟩ := loaded_eq_ok_iff.1 h
    have hheld : place.held {} d = .ok (place.kind.collection.setOptions loaded {}) :=
      held_of_loaded (loaded_eq_ok_iff.2 ⟨text, loaded, hread, hload, rfl⟩)
    rw [content?, hheld]
    dsimp only
    rw [hsame, hsame]
  · cases h
    rw [content?, held, if_neg hthere]
    dsimp only
    rw [hsame, hsame]

theorem content?_of_missing (h : d.contains place.file = false) (i : InstanceNumber) :
    place.content? d i = none := by
  have hheld : place.held {} d =
      .ok (place.kind.collection.setOptions place.kind.collection.empty {}) := by
    rw [held, h, if_neg Bool.false_ne_true]
  rw [content?_of_held hheld, Table.content?_eq_none, table, Collection.Lawful.rows_setOptions,
    Collection.Numbering.table_empty]
  exact List.not_mem_nil

theorem Stored.content?_eq (h : place.Stored d s) (i : InstanceNumber) :
    place.content? d i = (place.table s).content? place.kind.collection.rankName? i := by
  obtain ⟨loaded, hload, hrows⟩ := h.exists_load
  have hheld : place.held {} d = .ok (place.kind.collection.setOptions loaded {}) :=
    held_of_loaded (loaded_eq_ok_iff.2 ⟨_, loaded, h.read_eq, hload, rfl⟩)
  have hrelated : Rows.Related (fun a b => (a == b) = true) (place.table s).rows
      (place.table loaded).rows := hrows
  rw [content?_of_held hheld, Table.content?, Table.content?, Table.get?, Table.get?, table,
    Collection.Lawful.rows_setOptions]
  rcases hrelated.get? i with ⟨hold, hnew⟩ | ⟨old, new, hold, hnew, hsame⟩
  · rw [hold, ← table, hnew]
  · rw [hold, ← table, hnew, Option.map_some, Option.map_some,
      Collection.Numbering.unranked_eq hsame]

/-- The counter of a loaded table stands after the largest number in the document. -/
theorem next_of_held (h : place.held options d = .ok s) :
    ((∀ j, place.content? d j = none) ∧ (place.table s).next = .first) ∨
      ∃ j, Largest (fun j => place.content? d j ≠ none) j ∧ (place.table s).next = j.next := by
  have hnext : (place.table s).next = Table.nextAfter (place.table s).rows.instances := by
    unfold held at h
    split_ifs at h
    · obtain ⟨text, loaded, -, hload, rfl⟩ := loaded_eq_ok_iff.1 h
      obtain ⟨tree, hdecode⟩ := DocumentForm.exists_decode hload
      rw [table, Collection.Numbering.next_setOptions, Collection.Lawful.rows_setOptions]
      exact Collection.Numbering.next_of_decode hdecode
    · cases h
      rw [table, Collection.Numbering.next_setOptions, Collection.Lawful.rows_setOptions,
        Collection.Numbering.table_empty]
      rfl
  have hmem : ∀ j, place.content? d j ≠ none ↔ j ∈ (place.table s).rows.instances := by
    intro j
    rw [content?_of_held h, ne_eq, Table.content?_eq_none, not_not]
  simp only [hmem, hnext]
  rcases Table.nextAfter_eq (place.table s).rows.instances with ⟨hnil, hfirst⟩ | hlargest
  · left
    refine ⟨fun j => ?_, hfirst⟩
    rw [content?_of_held h, Table.content?_eq_none, hnil]
    exact List.not_mem_nil
  · exact .inr hlargest

variable (place) in
/-- The run adds a row to the document, under the number `i`, and ends well. -/
structure Adds (launch : Launch m) (d : Directory) (i : InstanceNumber) : Prop where
  exitCode_eq : (launch.runIn d).1.exitCode = 0
  exists_extended : ∃ common values rank? origin c s s' done,
    launch.Asks common (.add place values rank? origin true) ∧ launch.context common d = .ok c ∧
      place.held c.options d = .ok s ∧ place.extended s values rank? origin = .ok (s', i, done)

/-- A new row gets the number after the largest one in the document. -/
theorem Adds.next_largest (h : place.Adds launch d i) :
    ((∀ j, place.content? d j = none) ∧ i = .first) ∨
      ∃ j, Largest (fun j => place.content? d j ≠ none) j ∧ i = j.next := by
  obtain ⟨_, _, _, _, _, s, _, _, -, -, hs, hextended⟩ := h.exists_extended
  obtain ⟨_, _, _, -, -, -, hadd⟩ := extended_eq_ok_iff.1 ⟨_, hextended⟩
  obtain ⟨rfl, -⟩ := Collection.Numbering.add hadd
  exact next_of_held hs

theorem Adds.unique (hi : place.Adds launch d i) (hj : place.Adds launch d j) : i = j := by
  obtain ⟨_, _, _, _, _, _, _, _, hasks, hc, hs, hextended⟩ := hi.exists_extended
  obtain ⟨_, _, _, _, _, _, _, _, hasks', hc', hs', hextended'⟩ := hj.exists_extended
  cases hasks.symm.trans hasks'
  cases hc.symm.trans hc'
  cases hs.symm.trans hs'
  cases hextended.symm.trans hextended'
  rfl

variable (place) in
def report (i : InstanceNumber) : String :=
  "Added " ++ place.rowPath i ++ " (" ++ place.file ++ ")"

theorem done_of_extended {values : Assignments} {rank? : Option UInt32} {origin : Origin}
    {done : String} (h : place.extended s values rank? origin = .ok (s', i, done)) :
    done = "Added " ++ place.rowPath i := by
  obtain ⟨_, -, h⟩ := bind_eq_ok_iff.1 h
  obtain ⟨_, -, h⟩ := bind_eq_ok_iff.1 h
  obtain ⟨_, -, h⟩ := bind_eq_ok_iff.1 h
  obtain ⟨_, -, h⟩ := bind_eq_ok_iff.1 h
  cases h
  rfl

/-- A run that adds a row reports its number. -/
theorem Adds.standardOutput_eq (h : place.Adds launch d i) {common : CommonOptions}
    {command : Command} (hasks : launch.Asks common command) :
    (launch.runIn d).1.standardOutput = printed common.quiet (place.report i) := by
  obtain ⟨common', values, rank?, origin, c, s, s', done, hasks', hc, hs, hextended⟩ :=
    h.exists_extended
  cases hasks.symm.trans hasks'
  obtain ⟨outcome, d', houtcome⟩ := Launch.exists_outcome hasks h.exitCode_eq
  have hrun : Command.runIn (.add place values rank? origin true) launch.host launch.toStart common
      d = _ := Start.result_run (by simp)
  rw [hc, houtcome] at hrun
  dsimp only at hrun
  have hdevice : ¬(origin = .controller ∧ place.kind.isDeviceMade = true) := by
    intro hdevice
    rw [Command.executeIn, Command.execute, add, if_pos hdevice,
      Host.result_bind_error launch.host.result_throw] at hrun
    cases hrun
  rw [executeIn_add hdevice hs hextended] at hrun
  cases hwrite : d.write place.file (place.text s') with
  | error fault =>
    rw [result_finish_error hwrite] at hrun
    cases hrun
  | ok written =>
    rw [result_finish_ok hwrite] at hrun
    cases hrun
    rw [Launch.runIn_ok hasks houtcome, report, done_of_extended hextended]

theorem exists_adds {common : CommonOptions} {values : Assignments} {rank? : Option UInt32}
    {origin : Origin} (hasks : launch.Asks common (.add place values rank? origin true))
    (hexit : (launch.runIn d).1.exitCode = 0) : ∃ i, place.Adds launch d i := by
  rcases Launch.runIn_of_saves hasks (.add values rank? origin) (d := d) with
    ⟨hfailed, -⟩ | ⟨_, -, hdeclined, -⟩ | ⟨c, s', hc, hproduces, -⟩
  · exact absurd hexit hfailed
  · cases hdeclined
  · cases hproduces with
    | @add _ _ _ _ _ _ i s _ _ hs hupdates hrow hrank hadd =>
      obtain ⟨done, hextended⟩ := extended_eq_ok_iff.2 ⟨_, _, _, hupdates, hrow, hrank, hadd⟩
      exact ⟨i, hexit, common, values, rank?, origin, c, s, s', done, hasks, hc, hs, hextended⟩

theorem rowPath_injective : Function.Injective place.rowPath := by
  intro i j h
  simp only [rowPath, String.append_left_inj, String.append_right_inj] at h
  exact InstanceNumber.text_injective h

theorem printed_report (i : InstanceNumber) :
    printed false (place.report i) = place.report i ++ "\n" := by
  have hne : place.report i ≠ "" := fun h => by simpa [report] using congrArg String.toList h
  simp [printed, hne]

theorem report_injective : Function.Injective place.report := by
  intro i j h
  simp only [report, String.append_left_inj, String.append_right_inj] at h
  exact rowPath_injective h

theorem adds_of_result {common : CommonOptions} {values : Assignments} {rank? : Option UInt32}
    {origin : Origin} (hasks : launch.Asks common (.add place values rank? origin true))
    (hloud : common.quiet = false)
    (hresult : (launch.runIn d).1 = { standardOutput := place.report i ++ "\n" }) :
    place.Adds launch d i := by
  obtain ⟨j, hadds⟩ := exists_adds hasks (by rw [hresult]; rfl)
  have hreport := hadds.standardOutput_eq hasks
  rw [hloud, hresult, printed_report, String.append_left_inj] at hreport
  rwa [report_injective hreport]

variable (place) in
/-- The run changes the document under the number `i` only. If this number is new to the document
then the run has added a row under it. -/
structure Concerns (launch : Launch m) (d : Directory) (i : InstanceNumber) : Prop where
  content?_eq : ∀ j, j ≠ i → place.content? (launch.runIn d).2 j = place.content? d j
  adds_of_new : place.content? d i = none → place.content? (launch.runIn d).2 i ≠ none →
    place.Adds launch d i
  present_of_adds : ∀ j, place.Adds launch d j →
    j = i ∧ place.content? (launch.runIn d).2 i ≠ none

/-- A command that makes a table of the document changes the row that it writes, adds or deletes. -/
theorem exists_concerns_of_stored {common : CommonOptions} {command : Command} {c : Context}
    (hasks : launch.Asks common command) (hc : launch.context common d = .ok c)
    (hproduces : place.Produces c d launch.host.answer? command s')
    (hstored : place.Stored (launch.runIn d).2 s') (hexit : (launch.runIn d).1.exitCode = 0) :
    ∃ i, place.Concerns launch d i := by
  have hafter := hstored.content?_eq
  have hadds : ∀ {j}, place.Adds launch d j → ∃ values rank? origin,
      command = .add place values rank? origin true := by
    intro j hj
    obtain ⟨_, values, rank?, origin, _, _, _, _, hasks', -⟩ := hj.exists_extended
    cases hasks.symm.trans hasks'
    exact ⟨values, rank?, origin, rfl⟩
  cases hproduces with
  | @set _ _ _ _ i s _ hs _ _ hwrite =>
    obtain ⟨hi, hsame⟩ := Collection.Numbering.write hwrite
    have hbefore := content?_of_held (held_of_loaded hs)
    refine ⟨i, fun j hj => ?_, fun hnew _ => ?_, fun j hj => ?_⟩
    · rw [hafter, hbefore]
      exact hsame j hj
    · rw [hbefore, Table.content?_eq_none] at hnew
      exact absurd hi hnew
    · obtain ⟨_, _, _, hcommand⟩ := hadds hj
      cases hcommand
  | @add _ _ _ _ _ _ i s _ _ hs hupdates hrow hrank hadd =>
    obtain ⟨-, hi, hsame⟩ := Collection.Numbering.add hadd
    obtain ⟨done, hextended⟩ := extended_eq_ok_iff.2 ⟨_, _, _, hupdates, hrow, hrank, hadd⟩
    have hadded : place.Adds launch d i :=
      ⟨hexit, _, _, _, _, c, s, s', done, hasks, hc, hs, hextended⟩
    refine ⟨i, fun j hj => ?_, fun _ _ => hadded, fun j hj => ⟨hj.unique hadded, ?_⟩⟩
    · rw [hafter, content?_of_held hs]
      exact hsame j hj
    · rw [hafter, ne_eq, Table.content?_eq_none, not_not]
      exact hi
  | @delete _ i _ s _ hs _ _ hremove =>
    obtain ⟨hi, hsame⟩ := Collection.Numbering.remove hremove
    refine ⟨i, fun j hj => ?_, fun _ hpresent => ?_, fun j hj => ?_⟩
    · rw [hafter, content?_of_held (held_of_loaded hs)]
      exact hsame j hj
    · rw [hafter, ne_eq, Table.content?_eq_none] at hpresent
      exact absurd hi hpresent
    · obtain ⟨_, _, _, hcommand⟩ := hadds hj
      cases hcommand

theorem Ends.possible_of_adds (h : place.Ends launch d) (hadds : place.Adds launch d i) :
    place.Possible launch d := by
  obtain ⟨_, _, _, _, _, _, _, _, hasks, -⟩ := hadds.exists_extended
  rcases h.exitCode_eq_zero_iff.1 hadds.exitCode_eq with hpossible | hdeclined
  · exact hpossible
  · obtain ⟨_, _, _, hasks', -, hdeclined⟩ := hdeclined
    cases hasks.symm.trans hasks'
    cases hdeclined

/-- Every command that saves concerns the row under one number. -/
theorem ValidIfPresent.exists_concerns (h : place.ValidIfPresent d) (hsaved : place.SavedBy launch)
    (hreads : ∀ s', place.Makes launch d s' → place.ReadsBack s') :
    ∃ i, place.Concerns launch d i := by
  obtain ⟨-, hends⟩ := h.run hsaved hreads
  by_cases hpossible : place.Possible launch d
  · obtain ⟨s', ⟨common, command, c, hasks, hc, hproduces⟩, hstored⟩ := hends.carriedOut hpossible
    exact exists_concerns_of_stored hasks hc hproduces hstored hpossible.exitCode_eq
  · have hsame := hends.unchanged hpossible
    refine ⟨.first, fun j _ => by rw [hsame], fun hnew hpresent => ?_, fun j hadds => ?_⟩
    · rw [hsame] at hpresent
      exact absurd hnew hpresent
    · exact absurd (hends.possible_of_adds hadds) hpossible

variable (place) in
def Given (d : Directory) (launches : List (Launch m)) (i : InstanceNumber) : Prop :=
  ∃ launch d', Launch.Occurs d launches launch d' ∧ place.Adds launch d' i

end DocumentPlace

theorem Launch.occurs_concat {d d' : Directory} {launches : List (Launch m)}
    {last launch : Launch m} : Occurs d (launches ++ [last]) launch d' ↔
      Occurs d launches launch d' ∨ launch = last ∧ d' = runAll d launches := by
  constructor
  · rintro ⟨before, after, hsplit, rfl⟩
    rcases List.eq_nil_or_concat after with rfl | ⟨after, final, rfl⟩
    · obtain ⟨rfl, hlast⟩ := List.append_inj' hsplit rfl
      exact .inr ⟨(List.cons.inj hlast).1.symm, rfl⟩
    · left
      rw [List.concat_eq_append, ← List.cons_append, ← List.append_assoc] at hsplit
      exact ⟨before, after, (List.append_inj' hsplit rfl).1, rfl⟩
  · rintro (⟨before, after, rfl, rfl⟩ | ⟨rfl, rfl⟩)
    · exact ⟨before, after ++ [last], by rw [List.append_assoc, List.cons_append], rfl⟩
    · exact ⟨launches, [], rfl, rfl⟩

namespace DocumentPlace

variable {place : DocumentPlace} {d : Directory} {launches : List (Launch m)} {launch : Launch m}
  {i : InstanceNumber}

theorem given_concat : place.Given d (launches ++ [launch]) i ↔
    place.Given d launches i ∨ place.Adds launch (Launch.runAll d launches) i := by
  simp only [Given, Launch.occurs_concat, or_and_right, exists_or]
  apply or_congr Iff.rfl
  constructor
  · rintro ⟨_, _, ⟨rfl, rfl⟩, hadds⟩
    exact hadds
  · exact fun hadds => ⟨launch, _, ⟨rfl, rfl⟩, hadds⟩

variable (place) in
/-- What holds of a document that was not there before some runs. All of its rows were added by
them, and the numbers that they have given go without gaps from the first one to the largest. -/
structure Numbered (d : Directory) (launches : List (Launch m)) : Prop where
  validIfPresent : place.ValidIfPresent (Launch.runAll d launches)
  given_of_content : ∀ i, place.content? (Launch.runAll d launches) i ≠ none →
    place.Given d launches i
  given_of_le : ∀ i j, place.Given d launches i → j.number ≤ i.number → place.Given d launches j

theorem numbered_nil (hmissing : d.contains place.file = false) :
    place.Numbered d ([] : List (Launch m)) where
  validIfPresent hthere := by
    rw [Launch.runAll, List.foldl_nil, hmissing] at hthere
    cases hthere
  given_of_content i hi := absurd (content?_of_missing hmissing i) hi
  given_of_le := by
    rintro i j ⟨_, _, ⟨before, after, hsplit, -⟩, -⟩
    cases (List.append_eq_nil_iff.1 hsplit.symm).2

/-- One run keeps the numbers without gaps. -/
theorem Numbered.concat (h : place.Numbered d launches) (hsaved : place.SavedBy launch)
    (hreads : ∀ s', place.Makes launch (Launch.runAll d launches) s' → place.ReadsBack s') :
    place.Numbered d (launches ++ [launch]) := by
  have hrun : Launch.runAll d (launches ++ [launch]) =
      (launch.runIn (Launch.runAll d launches)).2 := by
    rw [Launch.runAll, List.foldl_append]
    rfl
  obtain ⟨i, hconcerns⟩ := h.validIfPresent.exists_concerns hsaved hreads
  refine ⟨hrun ▸ (h.validIfPresent.run hsaved hreads).1, fun j hj => ?_, fun j k hj hle => ?_⟩
  · rw [given_concat]
    rw [hrun] at hj
    by_cases hold : place.content? (Launch.runAll d launches) j = none
    · right
      by_cases hji : j = i
      · subst hji
        exact hconcerns.adds_of_new hold hj
      · rw [hconcerns.content?_eq j hji] at hj
        exact absurd hold hj
    · exact .inl (h.given_of_content j hold)
  · rw [given_concat] at hj ⊢
    rcases hj with hj | hadds
    · exact .inl (h.given_of_le j k hj hle)
    rcases hadds.next_largest with ⟨-, rfl⟩ | ⟨l, hlargest, rfl⟩
    · right
      rwa [InstanceNumber.ext (le_antisymm hle k.first_le)]
    · have hgiven := h.given_of_content l hlargest.holds
      by_cases hkl : k.number ≤ l.number
      · exact .inl (h.given_of_le l k hgiven hkl)
      · right
        have hnext := l.next_le
        rwa [show k = l.next from InstanceNumber.ext (by omega)]

/-- A number is given again exactly if the row with the largest number so far is not in the document
any more, or there is no larger number. -/
theorem Numbered.given_iff (h : place.Numbered d launches)
    (hadds : place.Adds launch (Launch.runAll d launches) i) :
    place.Given d launches i ↔ ∃ j, Largest (place.Given d launches) j ∧
      (place.content? (Launch.runAll d launches) j = none ∨ j = .last) := by
  constructor
  · intro hgiven
    obtain ⟨j, hj⟩ := exists_largest hgiven
    refine ⟨j, hj, or_iff_not_imp_left.2 fun hpresent => ?_⟩
    rcases hadds.next_largest with ⟨hnone, -⟩ | ⟨k, hk, rfl⟩
    · exact absurd (hnone j) hpresent
    · have hkj := hj.number_le k (h.given_of_content k hk.holds)
      have hjk := hk.number_le j hpresent
      have hnext := hj.number_le k.next hgiven
      have := j.le_max
      apply InstanceNumber.ext
      simp only [InstanceNumber.next, InstanceNumber.last] at hnext ⊢
      omega
  · rintro ⟨j, hj, hgone⟩
    apply h.given_of_le j i hj.holds
    rcases hgone with hgone | rfl
    · rcases hadds.next_largest with ⟨-, rfl⟩ | ⟨k, hk, rfl⟩
      · exact j.first_le
      · have hle := hj.number_le k (h.given_of_content k hk.holds)
        have hne : k.number ≠ j.number := by
          intro heq
          rw [InstanceNumber.ext heq] at hk
          exact hk.holds hgone
        have hnext := k.next_le
        omega
    · exact i.le_max

theorem numbered_runs (hmissing : d.contains place.file = false)
    (hsaved : ∀ launch ∈ launches, place.SavedBy launch)
    (hreads : ∀ launch d', Launch.Occurs d launches launch d' →
      ∀ s', place.Makes launch d' s' → place.ReadsBack s') : place.Numbered d launches := by
  induction launches using List.reverseRecOn with
  | nil => exact numbered_nil hmissing
  | append_singleton launches last ih =>
    have hbefore : place.Numbered d launches :=
      ih (fun launch hlaunch => hsaved launch (List.mem_append_left [last] hlaunch))
        fun launch d' hrun => hreads launch d' (Launch.occurs_concat.2 (.inl hrun))
    exact hbefore.concat (hsaved last (by simp))
      (hreads last _ (Launch.occurs_concat.2 (.inr ⟨rfl, rfl⟩)))

end DocumentPlace

def addNamed (name file : String) : Launch Attended where
  arguments := ["add", "audio-output", file, "Alias=" ++ name, "--write"]
  environment := []
  host := .attended fun _ => some true

def emptied : Directory :=
  ((deleteOutput "o.json").runIn filled).2

theorem asks_addOutput :
    (addOutput "o.json").Asks {} (.add (outputsIn "o.json") [] none .controller true) :=
  rfl

theorem asks_addNamed : (addNamed "second" "o.json").Asks {}
    (.add (outputsIn "o.json") ["Alias=second"] none .controller true) :=
  rfl

theorem adds_addOutput : (outputsIn "o.json").Adds (addOutput "o.json") .empty .first :=
  DocumentPlace.adds_of_result asks_addOutput rfl (by decide +kernel)

theorem adds_addNamed : (outputsIn "o.json").Adds (addNamed "second" "o.json") emptied .first :=
  DocumentPlace.adds_of_result asks_addNamed rfl (by decide +kernel)

end Cwmp
