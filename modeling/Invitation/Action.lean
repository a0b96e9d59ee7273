import Invitation.Bytes.Basic
import Invitation.Error

/-!
# Actions

Some operations draw random bytes or write to the log. Both belong to an environment that is handed
from one action to the next: the random bytes still to come, in order, and the events logged so
far. A draw takes the next bytes, or it fails and takes none (`run_draw`).
-/

namespace Invitation

/-- What the log tells of an operation. It holds lengths and times, never contents. -/
inductive Event
  /-- An issuer was built. -/
  | ready (keyLength : Nat) (lifetimeSeconds : UInt64)
  /-- A token was issued. -/
  | issued (tokenLength : Nat)
  deriving DecidableEq

namespace Event

/-- The level of every event. -/
def level : String := "DEBUG"

/-- What happened, in words. -/
def message : Event → String
  | .ready .. => "invite token generator ready"
  | .issued .. => "issued invite token"

/-- The measures that an event carries, by name. -/
def fields : Event → List (String × String)
  | .ready keyLength seconds => [("key_len", toString keyLength), ("ttl_secs", toString seconds)]
  | .issued tokenLength => [("token_len", toString tokenLength)]

end Event

/-- What actions share. -/
structure Environment where
  /-- The random bytes still to come. -/
  entropy : Bytes
  /-- The events so far, in order. -/
  log : List Event
  deriving DecidableEq

/-- An operation that may fail and may change the environment. -/
abbrev Action (α : Type) := ExceptT Error (StateM Environment) α

namespace Action

variable {α β : Type}

/-- The outcome of an action in an environment, and the environment afterwards. -/
def run (a : Action α) (env : Environment) : Except Error α × Environment :=
  StateT.run (ExceptT.run a) env

/-- Draws the next `n` random bytes. -/
def draw (n : Nat) : Action (Block n) := ExceptT.mk fun env =>
  if h : n ≤ env.entropy.length then
    (.ok ⟨env.entropy.take n, List.length_take_of_le h⟩, { env with entropy := env.entropy.drop n })
  else (.error .randomnessExhausted, env)

/-- Writes an event to the log. -/
def record (e : Event) : Action Unit := modify fun env => { env with log := env.log ++ [e] }

/-- An action without effects gives its value and leaves the environment as it is. -/
@[simp] theorem run_pure (a : α) (env : Environment) : (pure a : Action α).run env = (.ok a, env) :=
  rfl

/-- A failure leaves the environment as it is. -/
@[simp] theorem run_throw (e : Error) (env : Environment) :
    (throw e : Action α).run env = (.error e, env) := rfl

/-- Recording adds one event at the end of the log. -/
@[simp] theorem run_record (e : Event) (env : Environment) :
    (record e).run env = (.ok (), { env with log := env.log ++ [e] }) := rfl

/-- An action goes on with its value in the environment it left, and stops at its error. -/
theorem run_bind (a : Action α) (f : α → Action β) (env : Environment) :
    (a >>= f).run env =
      match a.run env with
      | (.ok x, env) => (f x).run env
      | (.error e, env) => (.error e, env) := by
  simp only [run, ExceptT.run_bind, StateT.run_bind]
  simp only [bind, pure]
  rcases StateT.run (ExceptT.run a) env with ⟨_ | _, _⟩ <;> rfl

/-- An action through a function gives the function's value at what the action gives. -/
theorem run_map (f : α → β) (a : Action α) (env : Environment) :
    (f <$> a).run env = ((a.run env).1.map f, (a.run env).2) := by
  rw [← bind_pure_comp, run_bind]
  rcases a.run env with ⟨_ | _, _⟩ <;> rfl

/-- What an action gives through a function is the function's value at what the action gives. -/
theorem run_map_eq_ok {f : α → β} {a : Action α} {env env' : Environment} {y : β}
    (h : (f <$> a).run env = (.ok y, env')) : ∃ x, a.run env = (.ok x, env') ∧ f x = y := by
  rw [run_map] at h
  rcases hrun : a.run env with ⟨e | x, env₁⟩
  · rw [hrun] at h
    cases h
  · rw [hrun] at h
    cases h
    exact ⟨x, rfl, rfl⟩

/-- What is known without acting changes nothing. -/
@[simp] theorem run_liftExcept (x : Except Error α) (env : Environment) :
    (liftExcept x : Action α).run env = (x, env) := by
  cases x <;> rfl

/-- A draw takes the next bytes if there are enough, and nothing otherwise. -/
theorem run_draw (n : Nat) (env : Environment) :
    (draw n).run env =
      if h : n ≤ env.entropy.length then
        (.ok ⟨env.entropy.take n, List.length_take_of_le h⟩,
          { env with entropy := env.entropy.drop n })
      else (.error .randomnessExhausted, env) := rfl

/-- A draw gives what stands first among the random bytes. -/
theorem run_draw_append {n : Nat} (b : Block n) (rest : Bytes) (log : List Event) :
    (draw n).run ⟨b.bytes ++ rest, log⟩ = (.ok b, ⟨rest, log⟩) := by
  have henough : n ≤ (b.bytes ++ rest).length := by
    rw [List.length_append, b.property]
    exact Nat.le_add_right _ _
  rw [run_draw, dif_pos henough]
  simp only [List.take_left' b.property, List.drop_left' b.property]

/-- Without enough random bytes a draw takes none. -/
theorem run_draw_of_short {n : Nat} {env : Environment} (h : ¬ n ≤ env.entropy.length) :
    (draw n).run env = (.error .randomnessExhausted, env) := dif_neg h

end Action

end Invitation
