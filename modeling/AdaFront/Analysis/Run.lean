import AdaFront.Analysis.Progress

namespace AdaFront.Analysis

/-- How an analysis ended. -/
structure Outcome where
  rejection : Option Rejection
  state : State
deriving DecidableEq, Repr, Inhabited

/-- Does the tasks one after another until one of them cannot go on. -/
def run (tasks : List Task) (state : State) : Outcome :=
  match tasks with
  | [] => ⟨none, state⟩
  | task :: later =>
    match _ : task.step state with
    | .go tasks after => run (tasks ++ later) after
    | .stop rejection after => ⟨some rejection, after⟩
termination_by 24 * state.left + weight tasks
decreasing_by
  have forward := Task.step_forward state task
  rw [‹task.step state = _›] at forward
  simp only [Step.Forward] at forward
  simp only [weight_append, weight_cons]
  omega

/-- Analyses a program from the current token on. After a rejection this goes on from the offending
token, with the scopes as they are. -/
def compile (state : State) : Outcome :=
  run compilation state

end AdaFront.Analysis
