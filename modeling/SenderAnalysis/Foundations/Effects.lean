import Mathlib.Algebra.Ring.Nat
import Mathlib.Data.List.Basic

/-!
# Effects of a component on shared state

The components of the pipeline run on threads of their own. Besides its private
state, a component touches atomic counters and offers messages to channels with
`try_send`. A function of the model returns these effects as a list, in program
order. The messages are read off with `sent`; the channel decides afterwards
which of them it accepts, and no private state depends on that decision.
-/

set_option autoImplicit false

namespace SenderAnalysis

/-- One effect: a message offered to the output channel, or an update of an
atomic counter. -/
inductive Effect (Counter Message : Type*) where
  | trySend (message : Message)
  | fetchAdd (counter : Counter) (amount : Nat)
  | fetchMin (counter : Counter) (value : Nat)
  | fetchMax (counter : Counter) (value : Nat)
deriving DecidableEq, Repr

namespace Effect

variable {Counter Message : Type*}

/-- The message of an effect that offers one. -/
def message? : Effect Counter Message → Option Message
  | trySend message => some message
  | fetchAdd _ _ | fetchMin _ _ | fetchMax _ _ => none

@[simp] theorem message?_trySend (message : Message) :
    (trySend message : Effect Counter Message).message? = some message := rfl

@[simp] theorem message?_fetchAdd (counter : Counter) (amount : Nat) :
    (fetchAdd counter amount : Effect Counter Message).message? = none := rfl

@[simp] theorem message?_fetchMin (counter : Counter) (value : Nat) :
    (fetchMin counter value : Effect Counter Message).message? = none := rfl

@[simp] theorem message?_fetchMax (counter : Counter) (value : Nat) :
    (fetchMax counter value : Effect Counter Message).message? = none := rfl

end Effect

variable {Counter Message : Type*}

/-- The messages offered, in order. -/
def sent (effects : List (Effect Counter Message)) : List Message :=
  effects.filterMap Effect.message?

@[simp] theorem sent_nil : sent ([] : List (Effect Counter Message)) = [] := rfl

@[simp] theorem sent_append (first second : List (Effect Counter Message)) :
    sent (first ++ second) = sent first ++ sent second :=
  List.filterMap_append

@[simp] theorem sent_trySend (message : Message) (rest : List (Effect Counter Message)) :
    sent (.trySend message :: rest) = message :: sent rest := rfl

@[simp] theorem sent_fetchAdd (counter : Counter) (amount : Nat)
    (rest : List (Effect Counter Message)) : sent (.fetchAdd counter amount :: rest) = sent rest :=
  rfl

@[simp] theorem sent_fetchMin (counter : Counter) (value : Nat)
    (rest : List (Effect Counter Message)) : sent (.fetchMin counter value :: rest) = sent rest :=
  rfl

@[simp] theorem sent_fetchMax (counter : Counter) (value : Nat)
    (rest : List (Effect Counter Message)) : sent (.fetchMax counter value :: rest) = sent rest :=
  rfl

theorem mem_sent {effects : List (Effect Counter Message)} {message : Message} :
    message ∈ sent effects ↔ .trySend message ∈ effects := by
  rw [sent, List.mem_filterMap]
  constructor
  · rintro ⟨effect, member, offers⟩
    cases effect with
    | trySend offered => simpa [← Option.some.inj offers] using member
    | fetchAdd | fetchMin | fetchMax => cases offers
  · exact fun member => ⟨_, member, rfl⟩

/-! ## Counters -/

/-- What an effect adds to a counter. -/
def Effect.addedTo [DecidableEq Counter] (counter : Counter) : Effect Counter Message → Nat
  | fetchAdd other amount => if other = counter then amount else 0
  | trySend _ | fetchMin _ _ | fetchMax _ _ => 0

variable [DecidableEq Counter]

@[simp] theorem Effect.addedTo_trySend (counter : Counter) (message : Message) :
    (trySend message : Effect Counter Message).addedTo counter = 0 := rfl

/-- The value of a counter that started at zero. -/
def counted (counter : Counter) (effects : List (Effect Counter Message)) : Nat :=
  (effects.map (Effect.addedTo counter)).sum

@[simp] theorem counted_nil (counter : Counter) :
    counted counter ([] : List (Effect Counter Message)) = 0 := rfl

theorem counted_cons (counter : Counter) (effect : Effect Counter Message)
    (rest : List (Effect Counter Message)) :
    counted counter (effect :: rest) = effect.addedTo counter + counted counter rest := by
  simp [counted]

@[simp] theorem counted_append (counter : Counter)
    (first second : List (Effect Counter Message)) :
    counted counter (first ++ second) = counted counter first + counted counter second := by
  simp [counted]

@[simp] theorem counted_trySend (counter : Counter) (message : Message)
    (rest : List (Effect Counter Message)) :
    counted counter (.trySend message :: rest) = counted counter rest := by
  simp [counted, Effect.addedTo]

@[simp] theorem counted_fetchAdd (counter other : Counter) (amount : Nat)
    (rest : List (Effect Counter Message)) :
    counted counter (.fetchAdd other amount :: rest) =
      (if other = counter then amount else 0) + counted counter rest := by
  simp [counted, Effect.addedTo]

@[simp] theorem counted_fetchMin (counter other : Counter) (value : Nat)
    (rest : List (Effect Counter Message)) :
    counted counter (.fetchMin other value :: rest) = counted counter rest := by
  simp [counted, Effect.addedTo]

@[simp] theorem counted_fetchMax (counter other : Counter) (value : Nat)
    (rest : List (Effect Counter Message)) :
    counted counter (.fetchMax other value :: rest) = counted counter rest := by
  simp [counted, Effect.addedTo]

end SenderAnalysis
