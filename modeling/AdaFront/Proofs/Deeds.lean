import AdaFront.Proofs.Running

namespace AdaFront.Analysis

/-- A task that goes on behind a name which no list follows. -/
def Task.atBareName : Task → Bool
  | .assignOrCall _ false | .operand _ false => true
  | _ => false

/-- Tasks none of which goes on behind a bare name. -/
def Apart (tasks : List Task) : Prop :=
  ∀ task ∈ tasks, task.atBareName = false

instance (tasks : List Task) : Decidable (Apart tasks) :=
  inferInstanceAs (Decidable (∀ task ∈ tasks, _))

theorem apart_nil : Apart [] :=
  List.forall_mem_nil _

theorem Apart.append {first second : List Task} (left : Apart first) (right : Apart second) :
    Apart (first ++ second) :=
  List.forall_mem_append.mpr ⟨left, right⟩

/-- What a task does where it goes on: the tasks that take its place, and the state behind it. Names are
taken where an identifier stands, and a bare name is looked at again by the very next task. -/
inductive Deed (state : State) : Task → List Task → State → Prop
  | stay {task tasks} : Apart tasks → Deed state task tasks state
  | advance {task tasks} : Apart tasks → Deed state task tasks state.advance
  | declare {role} : state.kind = .identifier → Deed state (.declare role) [] (state.declare role)
  | listed {task tasks} : state.kind = .identifier → Apart tasks → Deed state task tasks state.declareListed
  | begins {task tasks} : state.kind = .identifier → Apart tasks →
      Deed state task tasks ({ state with group := none } : State).declareListed
  | name {task} (use) : state.kind = .identifier →
      Deed state task [] (state.find.2.check state.find.1 use)
  | bare {task last later} : state.kind = .identifier →
      last ∈ [Task.assignOrCall state.find.1 false, .operand state.find.1 false] → Apart later →
      Deed state task (last :: later) state.find.2
  | indexed {task tasks} : state.kind = .identifier → Apart tasks → Deed state task tasks state.find.2.advance
  | target {name indexed tasks} : Apart tasks →
      Deed state (.assignOrCall name indexed) tasks (state.check name .target).advance
  | call {name indexed tasks} : Apart tasks →
      Deed state (.assignOrCall name indexed) tasks (state.check name .call)
  | operand {name indexed} (value) :
      Deed state (.operand name indexed) [] { state.check name .operand with value := value }
  | setRole {task tasks} (role) : Apart tasks → Deed state task tasks (state.setRole role)
  | constant {task tasks} : Apart tasks → Deed state task tasks (state.advance.setRole .constant)
  | setConstant : Deed state .setConstant [] state.setConstant
  | assign {name} : Deed state (.assign name) [] (state.assign name)
  | forget {task} : Deed state task [] state.forget
  | literal : state.kind = .integer → Deed state .primary [] state.literal
  | combine {operator left} : Deed state (.combine operator left) [] (state.combine operator left)
  | print {value} : state.value = some value → Deed state .print [] (state.log (.printed value))
  | openScope : Deed state .openScope [] state.openScope
  | closeScope : Deed state .closeScope [] state.closeScope

/-- A task goes on with one of the deeds, or refuses the current token. -/
def Step.Does (state : State) (task : Task) : Step → Prop
  | .go tasks after => Deed state task tasks after
  | .stop rejection after => rejection.token = state.token ∧ after = state.report (.rejected rejection)

theorem Takes.apart {value : Option Int} {task : Task} {kind : Kind} {tasks : List Task}
    (takes : Takes value task kind tasks) : Apart tasks := by
  induction takes with
  | further _ ih => exact ih.append (by decide)
  | _ => simp [Apart, Task.atBareName, parameter, subprogram, range]

theorem Expands.apart {kind : Kind} {task : Task} {tasks : List Task} (expands : Expands kind task tasks) :
    Apart tasks := by
  cases expands <;> decide

/-- The task that learns about a name stands in front of the others. -/
theorem Heads.apart {task : Task} {last : Option EntryId → Bool → Task} {later : List Task}
    (heads : Heads task last later) (name : Option EntryId) :
    last name false ∈ [Task.assignOrCall name false, .operand name false] ∧
      Apart (last name true :: later) ∧ Apart later := by
  cases heads <;> simp [Apart, Task.atBareName]

theorem Goes.deed {state after : State} {task : Task} {tasks : List Task}
    (goes : Goes state task tasks after) : Deed state task tasks after := by
  cases goes with
  | takes takes => exact .advance takes.apart
  | omits => exact .stay apart_nil
  | expands expands => exact .stay expands.apart
  | declare atName => exact .declare atName
  | names atName | objects atName => exact .begins atName (by decide)
  | nextName atName => exact .listed atName (by decide)
  | closingName atName | typeName atName => exact .name _ atName
  | bare atName heads _ =>
    obtain ⟨among, _, apart⟩ := heads.apart state.find.1
    exact .bare atName among apart
  | listed atName heads _ =>
    obtain ⟨_, apart, _⟩ := heads.apart state.find.1
    have list : Apart arguments := by decide
    exact .indexed atName (list.append apart)
  | setRole => exact .setRole _ apart_nil
  | constantObject => exact .constant (by decide)
  | typedObject => exact .setRole _ (by decide)
  | setConstant => exact .setConstant
  | target | component => exact .target (by simp [Apart, Task.atBareName])
  | call => exact .call (by decide)
  | assign => exact .assign
  | print known => exact .print known
  | endLogic | forget => exact .forget
  | literal atLiteral => exact .literal atLiteral
  | operand => exact .operand _
  | combine => exact .combine
  | openScope => exact .openScope
  | closeScope => exact .closeScope

/-- All that a task does to the state. -/
theorem Task.step_does (state : State) (task : Task) : (task.step state).Does state task :=
  task.step_cases state Goes.deed fun _ => ⟨rfl, rfl⟩

theorem Task.step_go_deed {task : Task} {tasks : List Task} {state after : State}
    (step : task.step state = .go tasks after) : Deed state task tasks after := by
  have does := task.step_does state
  rwa [step] at does

theorem Task.step_stop_eq {task : Task} {state after : State} {rejection : Rejection}
    (step : task.step state = .stop rejection after) :
    rejection.token = state.token ∧ after = state.report (.rejected rejection) := by
  have does := task.step_does state
  rwa [step] at does

/-- An analysis that stops ends with the report of its rejection, at the current token. -/
theorem run_stopped {tasks : List Task} {start : State} {rejection : Rejection}
    (stopped : (run tasks start).rejection = some rejection) :
    ∃ task later before, Reaches tasks start (task :: later) before ∧
      task.step before = .stop rejection (run tasks start).state ∧
      (run tasks start).state = before.report (.rejected rejection) := by
  rcases run_reaches tasks start with ⟨finished, _⟩ | ⟨task, later, before, other, reach, step, same⟩
  · cases stopped.symm.trans finished
  · obtain rfl := Option.some.inj (same.symm.trans stopped)
    exact ⟨task, later, before, reach, step, (Task.step_stop_eq step).2⟩

end AdaFront.Analysis
