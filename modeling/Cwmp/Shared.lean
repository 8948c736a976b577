import Cwmp.Watch

/-! # Shared state

A state with one owner and many readers. A write works on the state and then either commits, which
publishes the state and then a new version number, or fails, which puts the state back. Readers
follow the published states or the version numbers, each on a channel of its own.
-/
namespace Cwmp

/-- A state, and the channels on which it and the number of commits are published. -/
structure SharedState (C : Type → Type) (S : Type) where
  state : S
  snapshots : C S
  versions : C UInt64

namespace SharedState

variable {C : Type → Type} [Watch C] {S : Type}

/-- A state to which nothing has been committed. -/
def ofState (s : S) : SharedState C S where
  state := s
  snapshots := Watch.create s
  versions := Watch.create 0

/-- Runs a write, which gives a result and the state that it leaves. A failing write is undone. -/
def write {ε α : Type} (x : SharedState C S) (f : S → Except ε α × S) :
    Except ε α × SharedState C S :=
  let before := x.state
  match f x.state with
  | (.ok a, s) =>
    (.ok a, {
      state := s
      snapshots := Watch.send x.snapshots s
      versions := Watch.send x.versions (Watch.value x.versions + 1) })
  | (.error e, _) => (.error e, { x with state := before })

/-- The state that was published last. -/
def published (x : SharedState C S) : S :=
  Watch.value x.snapshots

/-- The version number that was published last. -/
def version (x : SharedState C S) : Nat :=
  (Watch.value x.versions).toNat

/-- A subscriber to states, which knows the one published last. -/
def subscribe (x : SharedState C S) : Watch.Receiver C :=
  Watch.subscribe x.snapshots

/-- A subscriber to version numbers. -/
def subscribeVersion (x : SharedState C S) : Watch.Receiver C :=
  Watch.subscribe x.versions

/-- Whether a state was published since a subscriber looked. -/
def hasUnseen (x : SharedState C S) (states : Watch.Receiver C) : Bool :=
  Watch.hasChanged x.snapshots states

/-- Whether a version number was published since a subscriber looked. -/
def hasUnseenVersion (x : SharedState C S) (versions : Watch.Receiver C) : Bool :=
  Watch.hasChanged x.versions versions

end SharedState

/-- Shared state whose channels count what is sent. -/
abbrev Shared (S : Type) := SharedState Counted S

def Shared.ofState {S : Type} (s : S) : Shared S :=
  SharedState.ofState s

end Cwmp
