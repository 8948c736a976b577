import Cwmp.Command.Context

/-! # Hosts

A host is a place whose files are those of a directory. What an action does there depends on the
directory, and on the answers of whoever is there to be asked.
-/
namespace Cwmp

/-- What is done in a place, as a change of a directory. -/
structure Host (m : Type → Type) [Monad m] [Surroundings m] where
  run : {A : Type} → m A → Directory → A × Directory
  /-- The answer to a question, if somebody is there to ask. -/
  answer? : String → Option Bool
  run_pure : ∀ {A : Type} (a : A) (d : Directory), run (pure a) d = (a, d)
  run_map : ∀ {A B : Type} (f : A → B) (x : m A) (d : Directory),
    run (f <$> x) d = (f (run x d).1, (run x d).2)
  run_bind : ∀ {A B : Type} (x : m A) (f : A → m B) (d : Directory),
    run (x >>= f) d = run (f (run x d).1) (run x d).2
  run_read : ∀ (path : String) (d : Directory),
    run (Surroundings.read path) d = (d.read path, d)
  run_contains : ∀ (path : String) (d : Directory),
    run (Surroundings.contains path) d = (d.contains path, d)
  run_write : ∀ (path text : String) (d : Directory),
    run (Surroundings.write path text) d = Directory.attempt (·.write path text) d
  run_confirm? : ∀ (question : String) (d : Directory),
    run (Surroundings.confirm? question) d = (answer? question, d)

abbrev Attended : Type → Type :=
  ReaderT (String → Option Bool) (StateM Directory)

instance : Surroundings Attended where
  read path := fun _ => Surroundings.read path
  contains path := fun _ => Surroundings.contains path
  write path text := fun _ => Surroundings.write path text
  makeParents path := fun _ => Surroundings.makeParents path
  confirm? question := fun answer? => pure (answer? question)

namespace Host

def unattended : Host (StateM Directory) where
  run x d := x d
  answer? _ := none
  run_pure _ _ := rfl
  run_map _ _ _ := rfl
  run_bind _ _ _ := rfl
  run_read _ _ := rfl
  run_contains _ _ := rfl
  run_write _ _ _ := rfl
  run_confirm? _ _ := rfl

def attended (answer? : String → Option Bool) : Host Attended where
  run x d := x answer? d
  answer? := answer?
  run_pure _ _ := rfl
  run_map _ _ _ := rfl
  run_bind _ _ _ := rfl
  run_read _ _ := rfl
  run_contains _ _ := rfl
  run_write _ _ _ := rfl
  run_confirm? _ _ := rfl

variable {m : Type → Type} [Monad m] [Surroundings m] (host : Host m)

def result {A : Type} (x : Action m A) (d : Directory) : Except CommandError A × Directory :=
  host.run x.run d

variable {A B : Type} {x : Action m A} {f : A → Action m B} {d d' : Directory} {a : A}
  {e : CommandError}

@[simp] theorem result_pure : host.result (pure a : Action m A) d = (.ok a, d) :=
  host.run_pure _ _

@[simp] theorem result_throw : host.result (throw e : Action m A) d = (.error e, d) :=
  host.run_pure _ _

@[simp] theorem result_ofExcept (r : Except CommandError A) :
    host.result (MonadExcept.ofExcept r : Action m A) d = (r, d) := by
  cases r with
  | error e => exact host.result_throw
  | ok a => exact host.result_pure

variable {host}

theorem result_ofExcept_ok {r : Except CommandError A} (h : r = .ok a) :
    host.result (MonadExcept.ofExcept r : Action m A) d = (.ok a, d) := by
  rw [result_ofExcept, h]

theorem result_lift {y : m A} (h : host.run y d = (a, d')) :
    host.result (liftM y : Action m A) d = (.ok a, d') := by
  change host.run (Except.ok <$> y) d = _
  rw [host.run_map, h]

theorem result_bind {r : Except CommandError A} (h : host.result x d = (r, d')) :
    host.result (x >>= f) d = host.run (ExceptT.bindCont f r) d' := by
  change host.run (x.run >>= ExceptT.bindCont f) d = _
  have hx : host.run x.run d = (r, d') := h
  rw [host.run_bind, hx]

theorem result_bind_ok (h : host.result x d = (.ok a, d')) :
    host.result (x >>= f) d = host.result (f a) d' :=
  result_bind h

theorem result_bind_error (h : host.result x d = (.error e, d')) :
    host.result (x >>= f) d = (.error e, d') :=
  (result_bind h).trans (host.run_pure _ _)

theorem result_bind_congr {g : A → Action m B} {r : Except CommandError A}
    (hx : host.result x d = (r, d'))
    (hf : ∀ a, r = .ok a → host.result (f a) d' = host.result (g a) d') :
    host.result (x >>= f) d = host.result (x >>= g) d := by
  cases r with
  | error e => rw [result_bind_error hx, result_bind_error hx]
  | ok a => rw [result_bind_ok hx, result_bind_ok hx, hf a rfl]

variable (host) in
def Keeps (x : Action m A) : Prop :=
  ∀ d, (host.result x d).2 = d

theorem keeps_pure : host.Keeps (pure a : Action m A) := by
  intro d
  rw [result_pure]

theorem keeps_ofExcept (r : Except CommandError A) :
    host.Keeps (MonadExcept.ofExcept r : Action m A) := by
  intro d
  rw [result_ofExcept]

theorem Keeps.bind (hx : host.Keeps x) (hf : ∀ a, host.Keeps (f a)) : host.Keeps (x >>= f) := by
  intro d
  have hkept := hx d
  cases hresult : host.result x d with
  | mk r d' =>
    rw [hresult] at hkept
    subst hkept
    cases r with
    | error e => rw [result_bind_error hresult]
    | ok a =>
      rw [result_bind_ok hresult]
      apply hf

end Host
end Cwmp
