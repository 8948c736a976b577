import Cwmp.Objects.PortMapping
import Cwmp.Shared
import Cwmp.Table.Change
import Mathlib.Tactic

/-! # The history of a shared state

Writers come one after the other. What is published is the state that the committed writes have made
of the first one, and their number; of a failed write nothing is left and nobody hears of it. A
subscriber has something to look at exactly if a write was committed since it looked.
-/
namespace Cwmp

/-- A write of whatever result: it leaves a state and then succeeds or fails. -/
structure Write (S : Type) where
  {Error : Type}
  {Result : Type}
  run : S → Except Error Result × S

namespace Write

variable {S : Type}

def commits (w : Write S) (s : S) : Bool :=
  (w.run s).1.isOk

def apply (w : Write S) (s : S) : S :=
  (w.run s).2

/-- Runs operations up to the first one that is refused. What the accepted ones have done is still
there when it is. -/
def transact {ε : Type} (s : S) : List (S → Except ε S) → Except ε Unit × S
  | [] => (.ok (), s)
  | op :: ops =>
    match op s with
    | .ok s => transact s ops
    | .error e => (.error e, s)

def ofOperations {ε : Type} (ops : List (S → Except ε S)) : Write S where
  run s := transact s ops

/-- The writes of a sequence that succeed, each in the state that those before it have made. -/
def committed (s : S) : List (Write S) → List (Write S)
  | [] => []
  | w :: ws => if w.commits s then w :: committed (w.apply s) ws else committed s ws

def applyAll (s : S) (ws : List (Write S)) : S :=
  ws.foldl (fun s w => w.apply s) s

/-- The state that the committed writes of a sequence make. -/
def outcome (s : S) (ws : List (Write S)) : S :=
  applyAll s (committed s ws)

theorem outcome_cons (s : S) (w : Write S) (ws : List (Write S)) :
    outcome s (w :: ws) = outcome (if w.commits s then w.apply s else s) ws := by
  simp only [outcome, committed]
  split_ifs <;> rfl

theorem length_committed_cons (s : S) (w : Write S) (ws : List (Write S)) :
    (committed s (w :: ws)).length = (if w.commits s then 1 else 0) +
      (committed (if w.commits s then w.apply s else s) ws).length := by
  simp only [committed]
  split_ifs <;> simp [Nat.add_comm]

end Write

namespace SharedState

variable {C : Type → Type} [Watch C] {S : Type} {x : SharedState C S} {w : Write S}

theorem write_of_commits (h : w.commits x.state = true) : (x.write w.run).2 =
    { state := w.apply x.state
      snapshots := Watch.send x.snapshots (w.apply x.state)
      versions := Watch.send x.versions (Watch.value x.versions + 1) } := by
  unfold Write.commits at h
  unfold write Write.apply
  rcases hrun : w.run x.state with ⟨result, s⟩
  cases result with
  | ok a => rfl
  | error e =>
    rw [hrun] at h
    cases h

theorem write_of_not_commits (h : ¬ w.commits x.state = true) : (x.write w.run).2 = x := by
  unfold Write.commits at h
  unfold write
  rcases hrun : w.run x.state with ⟨result, s⟩
  cases result with
  | ok a =>
    rw [hrun] at h
    exact absurd rfl h
  | error e => rfl

def run (x : SharedState C S) (ws : List (Write S)) : SharedState C S :=
  ws.foldl (fun x w => (x.write w.run).2) x

@[simp] theorem run_cons (x : SharedState C S) (w : Write S) (ws : List (Write S)) :
    x.run (w :: ws) = (x.write w.run).2.run ws :=
  rfl

theorem state_write (x : SharedState C S) (w : Write S) :
    (x.write w.run).2.state = if w.commits x.state then w.apply x.state else x.state := by
  split_ifs with h
  · rw [write_of_commits h]
  · rw [write_of_not_commits h]

theorem state_run (x : SharedState C S) (ws : List (Write S)) :
    (x.run ws).state = Write.outcome x.state ws := by
  induction ws generalizing x with
  | nil => rfl
  | cons w ws ih => rw [Write.outcome_cons, ← state_write, ← ih, run_cons]

/-- A write that publishes does so with the state that it leaves. -/
theorem published_run (h : x.published = x.state) (ws : List (Write S)) :
    (x.run ws).published = (x.run ws).state := by
  refine List.foldlRecOn (motive := fun x : SharedState C S => x.published = x.state) ws _ h
    fun x hx w _ => ?_
  by_cases hw : w.commits x.state
  · rw [write_of_commits hw]
    exact Watch.value_send _ _
  · rw [write_of_not_commits hw]
    exact hx

theorem versions_run (x : SharedState C S) (ws : List (Write S)) :
    Watch.value (x.run ws).versions =
      Watch.value x.versions + .ofNat (Write.committed x.state ws).length := by
  induction ws generalizing x with
  | nil => simp [run, Write.committed]
  | cons w ws ih =>
    have hstep : Watch.value (x.write w.run).2.versions =
        Watch.value x.versions + .ofNat (if w.commits x.state then 1 else 0) := by
      split_ifs with hw
      · rw [write_of_commits hw, Watch.value_send]
        rfl
      · rw [write_of_not_commits hw]
        simp
    rw [Write.length_committed_cons, ← state_write, UInt64.ofNat_add, ← UInt64.add_assoc,
      ← hstep, ← ih, run_cons]

end SharedState

/-- What a subscriber follows: the published states or the version numbers. -/
inductive Topic
  | states
  | versions
deriving DecidableEq

/-- What happens while somebody follows both: a writer takes its turn, or the subscriber looks. -/
inductive Turn (S : Type)
  | write (w : Write S)
  | look (topic : Topic)

def Turn.writes {S : Type} (turns : List (Turn S)) : List (Write S) :=
  turns.filterMap fun
    | write w => some w
    | look _ => none

/-- The number of writes committed since the subscriber last looked, if `n` were so before. -/
def Turn.commitsSince {S : Type} (topic : Topic) (s : S) (n : Nat) : List (Turn S) → Nat
  | [] => n
  | .write w :: turns =>
    if w.commits s then commitsSince topic (w.apply s) (n + 1) turns
    else commitsSince topic s n turns
  | .look looked :: turns => commitsSince topic s (if looked = topic then 0 else n) turns

structure Session (C : Type → Type) [Watch C] (S : Type) where
  shared : SharedState C S
  states : Watch.Receiver C
  versions : Watch.Receiver C

namespace Session

variable {C : Type → Type} [Watch C] {S : Type}

def begin (x : SharedState C S) : Session C S where
  shared := x
  states := x.subscribe
  versions := x.subscribeVersion

def turn (z : Session C S) : Turn S → Session C S
  | .write w => { z with shared := (z.shared.write w.run).2 }
  | .look .states => { z with states := Watch.look z.shared.snapshots z.states }
  | .look .versions => { z with versions := Watch.look z.shared.versions z.versions }

def run (z : Session C S) (turns : List (Turn S)) : Session C S :=
  turns.foldl turn z

@[simp] theorem run_cons (z : Session C S) (first : Turn S) (turns : List (Turn S)) :
    z.run (first :: turns) = (z.turn first).run turns :=
  rfl

def hasUnseen (z : Session C S) : Topic → Bool
  | .states => z.shared.hasUnseen z.states
  | .versions => z.shared.hasUnseenVersion z.versions

/-- Looking changes nothing for others. -/
theorem shared_run (z : Session C S) (turns : List (Turn S)) :
    (z.run turns).shared = z.shared.run (Turn.writes turns) := by
  induction turns generalizing z with
  | nil => rfl
  | cons first turns ih =>
    rw [run_cons, ih]
    cases first with
    | write w => rfl
    | look topic => cases topic <;> rfl

/-- The subscriber listens to both channels, and has something unseen on each one if anything was
committed since it looked there. -/
structure Hears (z : Session C S) (commits : Topic → Nat) : Prop where
  states : Watch.Listens z.shared.snapshots z.states
  versions : Watch.Listens z.shared.versions z.versions
  unseen : ∀ topic, z.hasUnseen topic = true ↔ 0 < commits topic

theorem hears_begin (x : SharedState C S) : (begin x).Hears fun _ => 0 where
  states := Watch.listens_subscribe _
  versions := Watch.listens_subscribe _
  unseen topic := by
    have hstates : x.hasUnseen x.subscribe = false := Watch.hasChanged_subscribe _
    have hversions : x.hasUnseenVersion x.subscribeVersion = false := Watch.hasChanged_subscribe _
    cases topic <;> simp [begin, hasUnseen, hstates, hversions]

variable {z : Session C S} {commits : Topic → Nat}

theorem Hears.write_of_commits (h : z.Hears commits) {w : Write S}
    (hw : w.commits z.shared.state = true) :
    (z.turn (.write w)).Hears fun topic => commits topic + 1 := by
  simp only [turn, SharedState.write_of_commits hw]
  refine ⟨Watch.listens_send _ h.states, Watch.listens_send _ h.versions,
    fun topic => iff_of_true ?_ (Nat.succ_pos _)⟩
  cases topic with
  | states => exact Watch.hasChanged_send _ h.states
  | versions => exact Watch.hasChanged_send _ h.versions

theorem Hears.write_of_not_commits (h : z.Hears commits) {w : Write S}
    (hw : ¬ w.commits z.shared.state = true) : (z.turn (.write w)).Hears commits := by
  simp only [turn, SharedState.write_of_not_commits hw]
  exact h

theorem Hears.look (h : z.Hears commits) (looked : Topic) :
    (z.turn (.look looked)).Hears fun topic => if looked = topic then 0 else commits topic := by
  cases looked with
  | states =>
    refine ⟨Watch.listens_look h.states, h.versions, fun topic => ?_⟩
    cases topic with
    | states =>
      have hseen : (z.turn (.look .states)).hasUnseen .states = false :=
        Watch.hasChanged_look h.states
      simp [hseen]
    | versions => exact h.unseen .versions
  | versions =>
    refine ⟨h.states, Watch.listens_look h.versions, fun topic => ?_⟩
    cases topic with
    | states => exact h.unseen .states
    | versions =>
      have hseen : (z.turn (.look .versions)).hasUnseen .versions = false :=
        Watch.hasChanged_look h.versions
      simp [hseen]

theorem Hears.after_run (h : z.Hears commits) (turns : List (Turn S)) : (z.run turns).Hears
    fun topic => Turn.commitsSince topic z.shared.state (commits topic) turns := by
  induction turns generalizing z commits with
  | nil => exact h
  | cons first turns ih =>
    rw [run_cons]
    cases first with
    | write w =>
      have hstate := z.shared.state_write w
      simp only [Turn.commitsSince]
      split_ifs at hstate ⊢ with hw
      · simpa only [Session.turn, hstate] using ih (h.write_of_commits hw)
      · simpa only [Session.turn, hstate] using ih (h.write_of_not_commits hw)
    | look looked =>
      have hshared : (z.turn (.look looked)).shared = z.shared := by cases looked <;> rfl
      simpa only [Turn.commitsSince, hshared] using ih (h.look looked)

end Session

/-- After any writes the state and what is published last are the first state with the committed
writes applied in their order, the version is the number of these writes, and whoever has subscribed
at some time has something unseen exactly if a write was committed since it did, or since it looked
last. -/
theorem SharedState.publishes_committed {C : Type → Type} [Watch C] {S : Type} (s : S)
    (before : List (Write S)) (turns : List (Turn S)) :
    let x : SharedState C S := (ofState s).run before
    let z := (Session.begin x).run turns
    let writes := before ++ Turn.writes turns
    z.shared.state = Write.applyAll s (Write.committed s writes) ∧
      z.shared.published = Write.applyAll s (Write.committed s writes) ∧
      Watch.value z.shared.versions = .ofNat (Write.committed s writes).length ∧
      ∀ topic, z.hasUnseen topic = true ↔ 0 < Turn.commitsSince topic x.state 0 turns := by
  intro x z writes
  have hshared : z.shared = (ofState s : SharedState C S).run writes := by
    rw [Session.shared_run, run, run, List.foldl_append]
    rfl
  have hstate : z.shared.state = Write.applyAll s (Write.committed s writes) := by
    rw [hshared, state_run]
    rfl
  refine ⟨hstate, ?_, ?_, ((Session.hears_begin x).after_run turns).unseen⟩
  · rw [← hstate, hshared]
    exact published_run (Watch.value_create s) writes
  · rw [hshared, versions_run]
    simp [ofState, Watch.value_create]

def addMappings (aliases : List String) : Write (Table PortMapping) :=
  .ofOperations (aliases.map fun s t => (t.add { aliasText := s }).map Prod.snd)

/-- Of two mappings that are added together the second one is refused, as its alias is taken. The
first one is undone with it, and a subscriber who had looked before has nothing new to look at. -/
theorem publishes_committed_mappings :
    let z := (Session.begin (Shared.ofState Table.empty)).run
      [.write (addMappings ["web"]), .look .states, .write (addMappings ["mail", "web"])]
    z.shared.published.rows.entries = [({ number := 1 }, { aliasText := "web" })] ∧
      z.shared.version = 1 ∧ z.hasUnseen .states = false ∧ z.hasUnseen .versions = true := by
  intro z
  obtain ⟨-, hpublished, hversion, hunseen⟩ := SharedState.publishes_committed (C := Counted)
    Table.empty [] [.write (addMappings ["web"]), .look .states,
      .write (addMappings ["mail", "web"])]
  refine ⟨(congrArg (fun t => t.rows.entries) hpublished).trans rfl,
    (congrArg UInt64.toNat hversion).trans rfl, ?_, (hunseen .versions).2 (by decide)⟩
  rw [← Bool.not_eq_true]
  exact fun h => absurd ((hunseen .states).1 h) (by decide)

end Cwmp
