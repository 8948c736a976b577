import Cwmp.Proofs.Command.Documents

/-! # Files that commands leave alone

A command that fails, or that is not told to save, leaves all files as they are. One that saves
writes the document that it names, as a whole and at the end, and nothing else.
-/
namespace Cwmp

namespace LineItem

variable {allowed : List LineOption} {items : List LineItem} {open? : Option LineOption}

/-- The options among the items, and the one that waits for its value, may stand on a level. -/
structure Stand (allowed : List LineOption) (items : List LineItem) (open? : Option LineOption) :
    Prop where
  mem_of_item : ∀ o value, option o value ∈ items → o ∈ allowed
  mem_of_open : ∀ o, open? = some o → o ∈ allowed

theorem Stand.nil (hopen : ∀ o, open? = some o → o ∈ allowed) : Stand allowed [] open? :=
  ⟨nofun, hopen⟩

theorem Stand.cons {o : LineOption} {value : String} (ho : o ∈ allowed)
    (h : Stand allowed items open?) : Stand allowed (option o value :: items) open? := by
  refine ⟨fun p text hp => ?_, h.mem_of_open⟩
  rcases List.mem_cons.1 hp with heq | hp
  · cases heq
    exact ho
  · exact h.mem_of_item p text hp

theorem Stand.append {others : List LineItem} {waiting? : Option LineOption}
    (h : Stand allowed items waiting?) (hothers : Stand allowed others open?) :
    Stand allowed (items ++ others) open? := by
  refine ⟨fun o value ho => ?_, hothers.mem_of_open⟩
  rcases List.mem_append.1 ho with ho | ho
  · exact h.mem_of_item o value ho
  · exact hothers.mem_of_item o value ho

theorem stand_ofLong {body : List Char} (h : ofLong allowed body = some (items, open?)) :
    Stand allowed items open? := by
  unfold ofLong at h
  dsimp only at h
  split at h
  next => cases h
  next o hfind _ =>
    have ho := List.mem_of_find?_eq_some hfind
    split_ifs at h
    · cases h
      exact .nil fun p hp => Option.some.inj hp ▸ ho
    · cases h
      exact .cons ho (.nil nofun)
  next o _ _ hfind _ =>
    split_ifs at h
    cases h
    exact .cons (List.mem_of_find?_eq_some hfind) (.nil nofun)

theorem stand_ofShort {letters : List Char}
    (h : ofShort allowed letters = some (items, open?)) : Stand allowed items open? := by
  induction letters generalizing items with
  | nil =>
    cases h
    exact .nil nofun
  | cons c rest ih =>
    unfold ofShort at h
    split at h
    next => cases h
    next o hfind =>
      have ho := List.mem_of_find?_eq_some hfind
      split_ifs at h
      · split at h
        · cases h
          exact .nil fun p hp => Option.some.inj hp ▸ ho
        · cases h
          exact .cons ho (.nil nofun)
        · cases h
          exact .cons ho (.nil nofun)
      · obtain ⟨⟨others, open?⟩, hothers, heq⟩ := Option.map_eq_some_iff.1 h
        cases heq
        exact .cons ho (ih hothers)

theorem stand_ofArguments {hasCommands : Bool} {arguments after : List String}
    (h : ofArguments allowed hasCommands open? arguments = some (items, after))
    (hopen : ∀ o, open? = some o → o ∈ allowed) :
    Stand allowed items none := by
  induction arguments generalizing open? items with
  | nil =>
    unfold ofArguments at h
    split_ifs at h
    cases h
    exact .nil nofun
  | cons argument rest ih =>
    unfold ofArguments at h
    split at h
    next => cases h
    next o _ =>
      obtain ⟨⟨others, after⟩, hothers, heq⟩ := Option.map_eq_some_iff.1 h
      cases heq
      exact .cons (hopen o rfl) (ih hothers nofun)
    next =>
      split_ifs at h
      cases h
      exact ⟨by simp, nofun⟩
    next =>
      obtain ⟨⟨first, waiting?⟩, hfirst, h⟩ := Option.bind_eq_some_iff.1 h
      obtain ⟨⟨others, after⟩, hothers, heq⟩ := Option.bind_eq_some_iff.1 h
      cases heq
      have hstand := stand_ofLong hfirst
      exact hstand.append (ih hothers hstand.mem_of_open)
    next =>
      obtain ⟨⟨first, waiting?⟩, hfirst, h⟩ := Option.bind_eq_some_iff.1 h
      obtain ⟨⟨others, after⟩, hothers, heq⟩ := Option.bind_eq_some_iff.1 h
      cases heq
      have hstand := stand_ofShort hfirst
      exact hstand.append (ih hothers hstand.mem_of_open)
    next =>
      split_ifs at h
      · cases h
        exact .nil nofun
      · obtain ⟨⟨others, after⟩, hothers, heq⟩ := Option.map_eq_some_iff.1 h
        cases heq
        exact ⟨by simpa using (ih hothers nofun).mem_of_item, nofun⟩

end LineItem

/-- A level holds only options that may stand there. -/
theorem LineLevel.mem_of_has {allowed : List LineOption} {hasCommands : Bool}
    {arguments after : List String} {l : LineLevel} {o : LineOption}
    (h : LineLevel.read? allowed hasCommands arguments = some (l, after)) (ho : l.has o = true) :
    o ∈ allowed := by
  obtain ⟨⟨items, rest⟩, hitems, h⟩ := Option.bind_eq_some_iff.1 h
  obtain ⟨-, -, heq⟩ := Option.bind_eq_some_iff.1 h
  cases heq
  obtain ⟨value, hvalue⟩ := Option.isSome_iff_exists.1 ho
  obtain ⟨before, others, hsplit, -⟩ : ∃ before others,
      items.filterMap LineItem.option? = before ++ (o, value) :: others ∧ _ :=
    List.lookup_eq_some_iff.1 hvalue
  have hmem : (o, value) ∈ items.filterMap LineItem.option? :=
    hsplit.symm ▸ List.mem_append_right before List.mem_cons_self
  obtain ⟨item, hitem, hoption⟩ := List.mem_filterMap.1 hmem
  cases item with
  | option p text =>
    cases hoption
    exact (LineItem.stand_ofArguments hitems nofun).mem_of_item o value hitem
  | word s => cases hoption

def Command.save : Command → Bool
  | set _ _ _ _ save | add _ _ _ _ save | delete _ _ save => save
  | objects | schema _ | defaults _ | params .. | validate _ | settings _ => false

theorem Command.exists_saves_iff {command : Command} :
    (∃ place, command.Saves place) ↔ command.save = true := by
  constructor
  · rintro ⟨place, hsaves⟩
    cases hsaves <;> rfl
  · intro hsave
    cases command with
    | set place row values origin save =>
      cases hsave
      exact ⟨place, .set row values origin⟩
    | add place values rank? origin save =>
      cases hsave
      exact ⟨place, .add values rank? origin⟩
    | delete place row save =>
      cases hsave
      exact ⟨place, .delete row⟩
    | _ => cases hsave

/-- A level tells its command to save by an option, if the command has that option. -/
theorem save_of_command? {name : CommandName} {l : LineLevel} {command : Command}
    (h : command? name l = some command) :
    command.save = (decide (LineOption.write ∈ name.options) && l.has .write) := by
  have hmade : ∀ {A : Type} {made? : Option A} {make : A → Command} {save : Bool},
      made?.map make = some command → (∀ a, (make a).save = save) → command.save = save := by
    intro A made? make save h hsave
    obtain ⟨a, -, rfl⟩ := Option.map_eq_some_iff.1 h
    exact hsave a
  unfold command? at h
  split at h
  next =>
    cases h
    rfl
  next => exact hmade h fun _ => rfl
  next => exact hmade h fun _ => rfl
  next => exact hmade h fun _ => rfl
  next => exact hmade h fun _ => rfl
  next => exact hmade h fun _ => rfl
  next =>
    obtain ⟨_, -, h⟩ := Option.bind_eq_some_iff.1 h
    obtain ⟨_, -, heq⟩ := Option.bind_eq_some_iff.1 h
    cases heq
    rfl
  next => exact hmade h fun _ => rfl
  next => cases h

/-- A command line tells its command to save by an option on one of its levels. -/
theorem Invocation.save_iff {arguments : List String} {levels : List LineLevel} {command : Command}
    (h : levels? arguments = some (levels, command)) :
    command.save = true ↔ ∃ level ∈ levels, level.has .write = true := by
  have hcommon : ∀ {hasCommands arguments after} {l : LineLevel},
      LineLevel.read? LineOption.common hasCommands arguments = some (l, after) →
        l.has .write = false := by
    intro hasCommands arguments after l hread
    refine Bool.eq_false_iff.2 fun hhas => ?_
    exact absurd (LineLevel.mem_of_has hread hhas) (by decide)
  obtain ⟨⟨top, rest⟩, htop, h⟩ := Option.bind_eq_some_iff.1 h
  obtain ⟨word, -, h⟩ := Option.bind_eq_some_iff.1 h
  obtain ⟨name, -, h⟩ := Option.bind_eq_some_iff.1 h
  split_ifs at h with hconfig
  · obtain ⟨⟨middle, rest'⟩, hmiddle, h⟩ := Option.bind_eq_some_iff.1 h
    obtain ⟨_, -, h⟩ := Option.bind_eq_some_iff.1 h
    obtain ⟨what, -, h⟩ := Option.bind_eq_some_iff.1 h
    obtain ⟨⟨inner, _⟩, hinner, h⟩ := Option.bind_eq_some_iff.1 h
    obtain ⟨-, -, heq⟩ := Option.bind_eq_some_iff.1 h
    cases heq
    simp [Command.save, hcommon htop, hcommon hmiddle, hcommon hinner]
  · obtain ⟨⟨inner, _⟩, hinner, h⟩ := Option.bind_eq_some_iff.1 h
    obtain ⟨_, hcommand, heq⟩ := Option.bind_eq_some_iff.1 h
    cases heq
    rw [save_of_command? hcommand]
    have hmem : inner.has .write = true → LineOption.write ∈ name.options := by
      intro hhas
      rcases List.mem_append.1 (LineLevel.mem_of_has hinner hhas) with hmem | hmem
      · exact absurd hmem (by decide)
      · exact hmem
    simpa [hcommon htop] using hmem

def Start.GivesWrite (start : Start) : Prop :=
  ∃ levels command, Invocation.levels? start.arguments = some (levels, command) ∧
    ∃ level ∈ levels, level.has .write = true

theorem Start.givesWrite_iff {start : Start} {common : CommonOptions} {command : Command}
    (hasks : start.Asks common command) : start.GivesWrite ↔ ∃ place, command.Saves place := by
  obtain ⟨⟨levels, asked⟩, hlevels, h⟩ := Option.bind_eq_some_iff.1 hasks
  obtain ⟨_, -, h⟩ := Option.bind_eq_some_iff.1 h
  obtain ⟨_, -, heq⟩ := Option.bind_eq_some_iff.1 h
  cases heq
  rw [Command.exists_saves_iff, Invocation.save_iff hlevels, iff_comm]
  constructor
  · exact fun hgiven => ⟨levels, command, hlevels, hgiven⟩
  · rintro ⟨levels', command', hlevels', hgiven⟩
    cases hlevels.symm.trans hlevels'
    exact hgiven

variable {m : Type → Type} [Monad m] [Surroundings m] {host : Host m}

namespace DocumentPlace

variable {place : DocumentPlace} {c : Context}

theorem keeps_load : host.Keeps (place.load c) := by
  intro d
  rw [result_load]

theorem keeps_loadOrCreate : host.Keeps (place.loadOrCreate c) := by
  intro d
  rw [result_loadOrCreate]

theorem keeps_finish (state : place.State) (only? : Option InstanceNumber) (done : String) :
    host.Keeps (place.finish c state only? done false) :=
  Host.keeps_pure

theorem keeps_mayDelete (i : InstanceNumber) : host.Keeps (place.mayDelete c i false) := by
  rw [mayDelete, if_pos (.inr Bool.false_ne_true)]
  exact Host.keeps_pure

theorem keeps_validate : host.Keeps (place.validate c) := by
  apply keeps_load.bind
  intro state
  dsimp only
  split_ifs <;> exact Host.keeps_pure

theorem keeps_set (row : RowName) (values : Assignments) (origin : Origin) :
    host.Keeps (place.set c row values origin false) := by
  apply keeps_load.bind
  intro state
  apply (Host.keeps_ofExcept _).bind
  rintro ⟨state, i, done⟩
  apply keeps_finish

theorem keeps_add (values : Assignments) (rank? : Option UInt32) (origin : Origin) :
    host.Keeps (place.add c values rank? origin false) := by
  unfold add
  split_ifs
  · intro d
    rw [Host.result_bind_error host.result_throw]
  · apply keeps_loadOrCreate.bind
    intro state
    apply (Host.keeps_ofExcept _).bind
    rintro ⟨state, i, done⟩
    apply keeps_finish

theorem keeps_delete (row : RowName) : host.Keeps (place.delete c row false) := by
  apply keeps_load.bind
  intro state
  apply (Host.keeps_ofExcept _).bind
  intro i
  apply (keeps_mayDelete i).bind
  intro may
  split_ifs
  · apply (Host.keeps_ofExcept _).bind
    intro state
    apply keeps_finish
  · exact Host.keeps_pure

end DocumentPlace

theorem Command.keeps_execute {command : Command} {c : Context} (h : command.save = false) :
    host.Keeps (command.execute c) := by
  cases command with
  | objects => exact Host.keeps_pure
  | schema kind => exact Host.keeps_pure
  | defaults kind => exact Host.keeps_pure
  | params place path? => exact DocumentPlace.keeps_load.bind fun state => Host.keeps_pure
  | validate place => exact DocumentPlace.keeps_validate
  | set place row values origin save =>
    cases h
    exact DocumentPlace.keeps_set row values origin
  | add place values rank? origin save =>
    cases h
    exact DocumentPlace.keeps_add values rank? origin
  | delete place row save =>
    cases h
    exact DocumentPlace.keeps_delete row
  | settings what => exact Host.keeps_pure

namespace Launch

variable {launch : Launch m} {common : CommonOptions} {command : Command} {d : Directory}

theorem runIn_of_not_understood
    (h : Invocation.read? launch.environment launch.arguments = none) :
    launch.runIn d = ({ fault? := some .usage }, d) := by
  unfold runIn Start.run
  rw [h]
  exact launch.host.run_pure _ _

theorem runIn_of_not_saves (hasks : launch.Asks common command)
    (hcommand : ∀ what, command ≠ .settings what) (h : command.save = false) :
    (launch.runIn d).2 = d := by
  have hrun : command.runIn launch.host launch.toStart common d = _ := Start.result_run hcommand
  have hkept : (command.runIn launch.host launch.toStart common d).2 = d := by
    rw [hrun]
    cases launch.context common d with
    | error e => rfl
    | ok c => exact Command.keeps_execute h d
  cases hresult : command.runIn launch.host launch.toStart common d with
  | mk result after =>
    rw [hresult] at hkept
    cases result with
    | error e => rw [runIn_error hasks hresult, hkept]
    | ok outcome => rw [runIn_ok hasks hresult, hkept]

end Launch

theorem DocumentPlace.SavedBy.runIn_eq {place : DocumentPlace} {launch : Launch m} {d : Directory}
    (h : place.SavedBy launch) (hnot : ¬place.Possible launch d) : (launch.runIn d).2 = d := by
  obtain ⟨common, command, hasks, hsaves⟩ := h
  rcases Launch.runIn_of_saves hasks hsaves (d := d) with
    ⟨-, hsame⟩ | ⟨c, -, -, hsame⟩ | ⟨c, s', hc, hproduces, hwrite⟩
  · exact hsame
  · exact hsame
  · exact absurd ⟨s', _, ⟨common, command, c, hasks, hc, hproduces⟩, hwrite⟩ hnot

end Cwmp
