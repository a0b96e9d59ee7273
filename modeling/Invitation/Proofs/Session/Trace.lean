import Invitation.Session
import Mathlib.Tactic.Lemma

/-!
# Traces of sessions

The outcomes of a session do not tell what its steps drew.  A trace records each step together with
the environments that it found and left, so that this can be said (`Entry.drawn`).  A trace has the
outcomes of the session and leaves the same environment (`run_eq_trace`), and each of its entries is
a run of its step (`run_of_mem_trace`), which is how a fact about one step becomes a fact about all
steps of a session.
-/

namespace Invitation

/-- A step of a session with its outcome and the environments that it found and left. -/
structure Entry where
  step : Step
  outcome : Except Error Answer
  before : Environment
  after : Environment

/-- The random bytes that a step drew. -/
def Entry.drawn (e : Entry) : Bytes :=
  e.before.entropy.take (e.before.entropy.length - e.after.entropy.length)

/-- What a step drew is what stands before the bytes that it left. -/
lemma Entry.drawn_eq {e : Entry} {b : Bytes} (h : e.before.entropy = b ++ e.after.entropy) :
    e.drawn = b := by
  have hlen : (b ++ e.after.entropy).length - e.after.entropy.length = b.length := by
    rw [List.length_append, Nat.add_sub_cancel]
  rw [drawn, h, hlen, List.take_left]

namespace Session

/-- The entries of all steps in order. -/
def trace : List Step → Environment → List Entry
  | [], _ => []
  | s :: steps, env => ⟨s, (s.run env).1, env, (s.run env).2⟩ :: trace steps (s.run env).2

/-- A trace has an entry for each step. -/
lemma map_step_trace (steps : List Step) (env : Environment) :
    (trace steps env).map Entry.step = steps := by
  induction steps generalizing env with
  | nil => rfl
  | cons s steps ih => rw [trace, List.map_cons, ih]

/-- A session goes on in the environment that its first step leaves. -/
lemma run_cons (s : Step) (steps : List Step) (env : Environment) :
    run (s :: steps) env = ((s.run env).1 :: (run steps (s.run env).2).1,
      (run steps (s.run env).2).2) := rfl

/-- A session has an outcome for each step. -/
lemma length_outcomes (steps : List Step) (env : Environment) :
    (run steps env).1.length = steps.length := by
  induction steps generalizing env with
  | nil => rfl
  | cons s steps ih => rw [run_cons, List.length_cons, ih, List.length_cons]

/-- The second part of a session runs in the environment that the first part leaves. -/
lemma run_append (steps later : List Step) (env : Environment) :
    run (steps ++ later) env = ((run steps env).1 ++ (run later (run steps env).2).1,
      (run later (run steps env).2).2) := by
  induction steps generalizing env with
  | nil => rfl
  | cons s steps ih => rw [List.cons_append, run_cons, run_cons, ih, List.cons_append]

/-- A trace has the outcomes of the session, and its last entry leaves what the session leaves. -/
lemma run_eq_trace (steps : List Step) (env : Environment) :
    run steps env = ((trace steps env).map Entry.outcome,
      (trace steps env).foldl (fun _ e => e.after) env) := by
  induction steps generalizing env with
  | nil => rfl
  | cons s steps ih => rw [run_cons, ih, trace, List.map_cons, List.foldl_cons]

/-- Each entry of a trace is a run of its step. -/
lemma run_of_mem_trace {steps : List Step} {env : Environment} {e : Entry}
    (h : e ∈ trace steps env) : e.step.run e.before = (e.outcome, e.after) := by
  induction steps generalizing env with
  | nil => cases h
  | cons s steps ih =>
    rcases List.mem_cons.1 h with rfl | hlater
    · rfl
    · exact ih hlater

end Session

end Invitation
