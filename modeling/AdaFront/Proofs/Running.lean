import AdaFront.Analysis.Run

namespace AdaFront.Analysis

section Equations

variable {task : Task} {tasks later : List Task} {state after : State} {rejection : Rejection}

@[simp] theorem run_nil (state : State) : run [] state = ⟨none, state⟩ := by
  rw [run.eq_def]

theorem run_go (step : task.step state = .go tasks after) :
    run (task :: later) state = run (tasks ++ later) after := by
  rw [run.eq_def]
  dsimp only
  split
  next _ _ same =>
    obtain ⟨rfl, rfl⟩ := Step.go.inj (step.symm.trans same)
    rfl
  next _ _ same => cases step.symm.trans same

theorem run_stop (step : task.step state = .stop rejection after) :
    run (task :: later) state = ⟨some rejection, after⟩ := by
  rw [run.eq_def]
  dsimp only
  split
  next _ _ same => cases step.symm.trans same
  next _ _ same =>
    obtain ⟨rfl, rfl⟩ := Step.stop.inj (step.symm.trans same)
    rfl

end Equations

/-- What holds of all tasks and states follows from the way the first task is done. -/
@[elab_as_elim]
theorem run_induction {motive : List Task → State → Prop} (tasks : List Task) (state : State)
    (ended : ∀ state, motive [] state)
    (go : ∀ (task : Task) (tasks later : List Task) (state after : State),
      task.step state = .go tasks after → motive (tasks ++ later) after →
      motive (task :: later) state)
    (stop : ∀ (task : Task) (later : List Task) (rejection : Rejection) (state after : State),
      task.step state = .stop rejection after → motive (task :: later) state) :
    motive tasks state := by
  induction tasks, state using run.induct with
  | case1 state => exact ended state
  | case2 state task later tasks after step ih => exact go task tasks later state after step ih
  | case3 state task later rejection after step => exact stop task later rejection state after step

/-- Does more tasks after those of the outcome, unless they could not all be done. -/
def Outcome.andThen (outcome : Outcome) (tasks : List Task) : Outcome :=
  match outcome.rejection with
  | none => run tasks outcome.state
  | some _ => outcome

/-- A list of tasks can be done in two portions. -/
theorem run_append (first second : List Task) (state : State) :
    run (first ++ second) state = (run first state).andThen second := by
  induction first, state using run_induction with
  | ended state => rw [run_nil, List.nil_append, Outcome.andThen]
  | go task tasks later state after step ih =>
    rw [List.cons_append, run_go step, run_go step, ← ih, List.append_assoc]
  | stop task later rejection state after step =>
    rw [List.cons_append, run_stop step, run_stop step, Outcome.andThen]

/-- The points that an analysis comes to, each with the tasks that are left to do there. -/
inductive Reaches (tasks : List Task) (state : State) : List Task → State → Prop
  | start : Reaches tasks state tasks state
  | step {task left later state' after} :
      Reaches tasks state (task :: later) state' → task.step state' = .go left after →
      Reaches tasks state (left ++ later) after

namespace Reaches

variable {tasks middle left : List Task} {state between after : State}

theorem trans (first : Reaches tasks state middle between)
    (second : Reaches middle between left after) : Reaches tasks state left after := by
  induction second with
  | start => exact first
  | step _ step ih => exact ih.step step

/-- Tasks behind those of an analysis wait until it comes to them. -/
theorem append (reach : Reaches tasks state left after) (later : List Task) :
    Reaches (tasks ++ later) state (left ++ later) after := by
  induction reach with
  | start => exact .start
  | step _ step ih =>
    rw [List.append_assoc]
    exact ih.step step

/-- An analysis stands at its beginning or has done its first task. -/
theorem first {task : Task} {later : List Task} (reach : Reaches (task :: later) state left after) :
    (left = task :: later ∧ after = state) ∨ ∃ tasks between, task.step state = .go tasks between ∧
      Reaches (tasks ++ later) between left after := by
  induction reach with
  | start => exact Or.inl ⟨rfl, rfl⟩
  | @step _ left _ _ after _ step ih =>
    rcases ih with ⟨atStart, rfl⟩ | ⟨tasks, between, begins, reach⟩
    · obtain ⟨rfl, rfl⟩ := List.cons.inj atStart
      exact Or.inr ⟨left, after, step, .start⟩
    · exact Or.inr ⟨tasks, between, begins, reach.step step⟩

/-- Of two portions of tasks, an analysis is in the first or has come to the second. -/
theorem split {second : List Task} (reach : Reaches (tasks ++ second) state left after) :
    (∃ inside, left = inside ++ second ∧ Reaches tasks state inside after) ∨
      ∃ between, Reaches tasks state [] between ∧ Reaches second between left after := by
  generalize whole : tasks ++ second = both at reach
  induction reach with
  | start => exact Or.inl ⟨tasks, whole.symm, .start⟩
  | @step task more later before after _ step ih =>
    rcases ih with ⟨inside, same, first⟩ | ⟨between, first, reach⟩
    · cases inside with
      | nil =>
        rw [List.nil_append] at same
        subst same
        exact Or.inr ⟨before, first, Reaches.start.step step⟩
      | cons _ inside =>
        obtain ⟨rfl, rfl⟩ := List.cons.inj same
        exact Or.inl ⟨more ++ inside, (List.append_assoc ..).symm, first.step step⟩
    · exact Or.inr ⟨between, first, reach.step step⟩

/-- What is left to do decides the outcome. -/
theorem run_eq (reach : Reaches tasks state left after) : run tasks state = run left after := by
  induction reach with
  | start => rfl
  | step _ step ih => rw [ih, run_go step]

end Reaches

/-- An analysis comes to the end of its tasks or to one that cannot go on. -/
theorem run_reaches (tasks : List Task) (state : State) :
    ((run tasks state).rejection = none ∧ Reaches tasks state [] (run tasks state).state) ∨
      ∃ task later before rejection, Reaches tasks state (task :: later) before ∧
        task.step before = .stop rejection (run tasks state).state ∧
        (run tasks state).rejection = some rejection := by
  suffices ∀ left before, Reaches tasks state left before →
      ((run left before).rejection = none ∧ Reaches tasks state [] (run left before).state) ∨
        ∃ task later before' rejection, Reaches tasks state (task :: later) before' ∧
          task.step before' = .stop rejection (run left before).state ∧
          (run left before).rejection = some rejection from this tasks state .start
  intro left before reach
  induction left, before using run_induction with
  | ended before =>
    rw [run_nil]
    exact Or.inl ⟨rfl, reach⟩
  | go task left later before after step ih =>
    rw [run_go step]
    exact ih (reach.step step)
  | stop task later rejection before after step =>
    rw [run_stop step]
    exact Or.inr ⟨task, later, before, rejection, reach, step, rfl⟩

theorem run_finished {tasks : List Task} {state : State} (finished : (run tasks state).rejection = none) :
    Reaches tasks state [] (run tasks state).state := by
  rcases run_reaches tasks state with ⟨_, reach⟩ | ⟨_, _, _, _, _, _, stopped⟩
  · exact reach
  · cases finished.symm.trans stopped

end AdaFront.Analysis
