import AdaFront.Proofs.NameLists
import AdaFront.Proofs.ScopeDiscipline

namespace AdaFront.Analysis

/-- What an analysis is in the middle of: nothing, a list of names whose role is not known yet, constants whose
value is not known yet, or a statement that begins with a name. -/
inductive Phase where
  | idle
  | listing
  | defining
  | storing (name : Option EntryId)
deriving DecidableEq, Repr, Inhabited

/-- Tasks that leave the table alone, with all that takes their place. -/
def Task.isQuiet : Task → Bool
  | .declare _ | .openScope | .closeScope | .formalPart | .moreParameters | .names | .nextName
  | .moreNames | .setRole _ | .declarations | .typeDefinition | .object | .setConstant | .statement
  | .moreStatements | .alternatives | .assignOrCall _ _ | .assign _ => false
  | _ => true

/-- The phase behind a task, if the task belongs to the phase before it. While names are listed nothing else is
read but the colon behind them. -/
def Task.turn (phase : Phase) : Task → Option Phase
  | .accept kind => if phase = .listing ∧ kind ≠ .colon then none else some phase
  | .names => if phase = .idle then some .listing else none
  | .nextName | .moreNames => if phase = .listing then some .listing else none
  | .setRole role => if phase = .listing ∧ role ≠ .unset then some .idle else none
  | .object => if phase = .listing then some .idle else none
  | .setConstant => if phase = .defining then some .idle else none
  | .assignOrCall name _ | .assign name => if phase = .storing name then some .idle else none
  | .declare role => if phase = .idle ∧ role ≠ .unset then some .idle else none
  | .openScope | .closeScope | .formalPart | .moreParameters | .declarations | .typeDefinition
  | .statement | .moreStatements | .alternatives => if phase = .idle then some .idle else none
  | _ => if phase = .listing then none else some phase

/-- The phase behind tasks that are done one after another. -/
def turns (phase : Phase) (tasks : List Task) : Option Phase :=
  tasks.foldlM Task.turn phase

theorem turns_append (phase : Phase) (first second : List Task) :
    turns phase (first ++ second) = (turns phase first).bind (turns · second) :=
  List.foldlM_append

theorem turns_cons (phase : Phase) (task : Task) (later : List Task) :
    turns phase (task :: later) = (task.turn phase).bind (turns · later) :=
  List.foldlM_cons

theorem Task.turn_of_quiet {task : Task} {phase : Phase} (quiet : task.isQuiet = true) (other : phase ≠ .listing) :
    task.turn phase = some phase := by
  cases task with
  | declare | openScope | closeScope | formalPart | moreParameters | names | nextName | moreNames | setRole
  | declarations | typeDefinition | object | setConstant | statement | moreStatements | alternatives
  | assignOrCall | assign => cases quiet
  | accept => exact if_neg fun both => other both.1
  | _ => exact if_neg other

theorem Task.turn_listing {task : Task} {next : Phase} (quiet : task.isQuiet = true)
    (turn : task.turn .listing = some next) : task = .accept .colon ∧ next = .listing := by
  cases task with
  | declare | openScope | closeScope | formalPart | moreParameters | names | nextName | moreNames | setRole
  | declarations | typeDefinition | object | setConstant | statement | moreStatements | alternatives
  | assignOrCall | assign => cases quiet
  | accept kind =>
    obtain ⟨colon, ⟨⟩⟩ := Option.ite_none_left_eq_some.mp turn
    exact ⟨congrArg accept (by simpa using colon), rfl⟩
  | _ => cases turn

theorem turns_of_quiet {tasks : List Task} {phase : Phase} (quiet : ∀ task ∈ tasks, task.isQuiet = true)
    (other : phase ≠ .listing) : turns phase tasks = some phase := by
  induction tasks with
  | nil => rfl
  | cons task tasks ih =>
    obtain ⟨first, later⟩ := List.forall_mem_cons.mp quiet
    rw [turns_cons, Task.turn_of_quiet first other, Option.bind_some, ih later]

/-- Two states with the same table and the same names listed last. -/
def State.Agrees (state after : State) : Prop :=
  after.table = state.table ∧ after.group = state.group

namespace State.Agrees

variable (state : State)

theorem find : state.Agrees state.find.2 := by
  unfold State.find
  dsimp only
  split <;> exact ⟨rfl, rfl⟩

theorem check (name : Option EntryId) (use : NameUse) : state.Agrees (state.check name use) := by
  unfold State.check
  split
  · split <;> exact ⟨rfl, rfl⟩
  · exact ⟨rfl, rfl⟩

theorem trans {state middle after : State} (first : state.Agrees middle) (second : middle.Agrees after) :
    state.Agrees after :=
  ⟨second.1.trans first.1, second.2.trans first.2⟩

theorem name (use : NameUse) : state.Agrees (state.find.2.check state.find.1 use) :=
  (find state).trans (check _ _ _)

theorem literal : state.Agrees state.literal := by
  unfold State.literal
  dsimp only
  split <;> exact ⟨rfl, rfl⟩

theorem combine (operator : Operator) (left : Option Int) : state.Agrees (state.combine operator left) := by
  unfold State.combine
  split
  · split <;> exact ⟨rfl, rfl⟩
  · exact ⟨rfl, rfl⟩

end State.Agrees

/-- A step to tasks that leave the table alone, as the step does. -/
def Step.Leaves (state : State) : Step → Prop
  | .go tasks after => (∀ task ∈ tasks, task.isQuiet = true) ∧ state.Agrees after
  | .stop _ _ => True

theorem Takes.quiet {value : Option Int} {task : Task} {kind : Kind} {tasks : List Task}
    (takes : Takes value task kind tasks) (quiet : task.isQuiet = true) :
    ∀ task ∈ tasks, task.isQuiet = true := by
  cases takes with
  | accept | skip | rangeIndex | moreIndices | exitCondition | logic | moreLogic | comparison | plus | minus
  | moreTerms | moreFactors | not | exponent | parenthesized | moreArguments => simp [Task.isQuiet, range]
  | _ => cases quiet

theorem Expands.quiet {kind : Kind} {task : Task} {tasks : List Task} (expands : Expands kind task tasks) :
    ∀ task ∈ tasks, task.isQuiet = true := by
  cases expands <;> decide

theorem Goes.leaves {state after : State} {task : Task} {tasks : List Task} (quiet : task.isQuiet = true)
    (goes : Goes state task tasks after) : (Step.go tasks after).Leaves state := by
  have done {after : State} (agrees : state.Agrees after) : (Step.go [] after).Leaves state :=
    ⟨List.forall_mem_nil _, agrees⟩
  cases goes with
  | takes takes => exact ⟨takes.quiet quiet, rfl, rfl⟩
  | expands expands => exact ⟨expands.quiet, rfl, rfl⟩
  | bare _ heads _ =>
    cases heads with
    | primary => exact ⟨by simp [Task.isQuiet], .find state⟩
    | statement | further => cases quiet
  | listed _ heads _ =>
    cases heads with
    | primary => exact ⟨by simp [Task.isQuiet, arguments], .find state⟩
    | statement | further => cases quiet
  | closingName => exact done (.name state .call)
  | typeName => exact done (.name state .typeName)
  | literal => exact done (.literal state)
  | operand => exact done (.check state _ .operand)
  | combine => exact done (.combine state _ _)
  | omits | print | endLogic | forget => exact done ⟨rfl, rfl⟩
  | _ => cases quiet

theorem Task.step_leaves {task : Task} (quiet : task.isQuiet = true) (state : State) :
    (task.step state).Leaves state :=
  task.step_cases state (fun goes => goes.leaves quiet) fun _ => trivial

end AdaFront.Analysis
