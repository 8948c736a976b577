/-! # Watch channels

A channel on which one value is shown, the last one that was sent. A receiver that subscribes knows
the value shown at that time, and it can tell whether another one was sent since it looked last.
-/
namespace Cwmp

/-- Channels that show values of any type. -/
class Watch (C : Type → Type) where
  /-- What a subscriber holds. -/
  Receiver : Type
  create {A : Type} : A → C A
  value {A : Type} : C A → A
  send {A : Type} : C A → A → C A
  subscribe {A : Type} : C A → Receiver
  /-- The receiver after it has looked at the value. -/
  look {A : Type} : C A → Receiver → Receiver
  hasChanged {A : Type} : C A → Receiver → Bool
  /-- The receiver has subscribed to the channel. -/
  Listens {A : Type} : C A → Receiver → Prop
  value_create {A : Type} (a : A) : value (create a) = a
  value_send {A : Type} (c : C A) (a : A) : value (send c a) = a
  listens_subscribe {A : Type} (c : C A) : Listens c (subscribe c)
  listens_look {A : Type} {c : C A} {r : Receiver} : Listens c r → Listens c (look c r)
  listens_send {A : Type} {c : C A} {r : Receiver} (a : A) : Listens c r → Listens (send c a) r
  hasChanged_subscribe {A : Type} (c : C A) : hasChanged c (subscribe c) = false
  hasChanged_look {A : Type} {c : C A} {r : Receiver} : Listens c r →
    hasChanged c (look c r) = false
  /-- A value that is sent is a change for every receiver, whatever the value. -/
  hasChanged_send {A : Type} {c : C A} {r : Receiver} (a : A) : Listens c r →
    hasChanged (send c a) r = true

/-- A channel that counts what was sent. A receiver knows the count at its last look. -/
structure Counted (A : Type) where
  value : A
  count : Nat

instance : Watch Counted where
  Receiver := Nat
  create a := { value := a, count := 0 }
  value c := c.value
  send c a := { value := a, count := c.count + 1 }
  subscribe c := c.count
  look c _ := c.count
  hasChanged c seen := decide (seen < c.count)
  Listens c seen := seen ≤ c.count
  value_create _ := rfl
  value_send _ _ := rfl
  listens_subscribe _ := Nat.le_refl _
  listens_look _ := Nat.le_refl _
  listens_send _ h := Nat.le_succ_of_le h
  hasChanged_subscribe _ := decide_eq_false (Nat.lt_irrefl _)
  hasChanged_look _ := decide_eq_false (Nat.lt_irrefl _)
  hasChanged_send _ h := decide_eq_true (Nat.lt_succ_of_le h)

end Cwmp
