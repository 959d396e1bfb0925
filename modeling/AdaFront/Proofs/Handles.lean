import AdaFront.Proofs.Attempts

namespace AdaFront.Analysis

namespace State

variable {state : State}

theorem attemptAt_eq {kind : Kind} {attempt : Attempt Step} {step : Step} (same : attempt = .ok step) :
    state.attemptAt kind attempt = .ok (state.require kind step) := by
  unfold attemptAt require
  by_cases fits : state.kind = kind
  · rw [if_pos fits, if_pos fits, same]
  · rw [if_neg fits, if_neg fits]

theorem Sound.attemptObject_eq (sound : state.Sound) : state.attemptObject = .ok state.objectStep := by
  unfold attemptObject State.objectStep
  by_cases constant : state.kind = .kwConstant
  · have advanced : state.advance.Sound := invariant_sound.acts state.acts_advance sound
    rw [if_pos constant, if_pos constant, advanced.attemptRole_eq]
    rfl
  · rw [if_neg constant, if_neg constant, sound.attemptRole_eq]
    rfl

theorem Knows.attemptAssignOrCall_eq {name : Option EntryId} (knows : state.Knows name) (indexed : Bool) :
    state.attemptAssignOrCall name indexed = .ok (state.assignOrCallStep name indexed) := by
  unfold attemptAssignOrCall State.assignOrCallStep
  by_cases assigns : state.kind = .assign
  · rw [if_pos assigns, if_pos assigns, knows.attemptCheck_eq]
    rfl
  · rw [if_neg assigns, if_neg assigns, knows.attemptCheck_eq]
    rfl

theorem Knows.attemptOperand_eq {name : Option EntryId} (knows : state.Knows name) (indexed : Bool) :
    state.attemptOperand name indexed = .ok (state.operandStep name indexed) := by
  have checked : (state.check name .operand).Knows name := by
    rw [Knows, State.table_check]
    exact knows
  rw [attemptOperand, knows.attemptCheck_eq]
  cases indexed with
  | true => rfl
  | false =>
    have value := checked.attemptValue_eq
    simp only [bind, Except.bind, value]
    rfl

end State

/-- The name that a task holds on to until it is done. -/
def Task.held : Task → Option EntryId
  | .assignOrCall name _ | .assign name | .operand name _ => name
  | _ => none

/-- A task that declares a name, if there is one at the current token. -/
def Task.Declares : Task → Prop
  | .declare _ | .names | .nextName | .declarations => True
  | _ => False

/-- Nothing is missing for a task in a sound state, if the name that it holds has an entry and the name that
it declares a scope. -/
theorem Task.attempt_eq {state : State} {task : Task} (sound : state.Sound) (knows : state.Knows task.held)
    (opened : task.Declares → state.table.scopes ≠ []) : task.attempt state = .ok (task.step state) := by
  have ungrouped : ({ state with group := none } : State).Sound := Action.sound .ungroup sound
  cases task with
  | declare role =>
    refine State.attemptAt_eq ?_
    rw [State.attemptDeclare_eq (opened trivial)]
    rfl
  | names =>
    refine State.attemptAt_eq ?_
    rw [ungrouped.attemptListed_eq (opened trivial)]
    rfl
  | nextName =>
    refine State.attemptAt_eq ?_
    rw [sound.attemptListed_eq (opened trivial)]
    rfl
  | declarations =>
    rw [attempt, step, State.declarationStep]
    by_cases atName : state.kind = .identifier
    · rw [if_pos atName, atName, ungrouped.attemptListed_eq (opened trivial)]
      rfl
    · rw [if_neg atName]
  | closeScope =>
    rw [attempt, sound.attemptClose_eq]
    rfl
  | closingName =>
    rw [attempt, step]
    split
    · exact sound.attemptName_eq .call
    · rfl
  | typeName => exact State.attemptAt_eq (sound.attemptName_eq .typeName)
  | typeDefinition =>
    rw [attempt, step]
    by_cases atName : state.kind = .identifier
    · rw [if_pos atName, State.typeDefinitionStep, atName]
      exact sound.attemptName_eq .typeName
    · rw [if_neg atName]
  | index =>
    rw [attempt, step]
    by_cases atName : state.kind = .identifier
    · rw [if_pos atName, State.indexStep, atName]
      exact sound.attemptName_eq .typeName
    · rw [if_neg atName]
  | setRole role =>
    rw [attempt, sound.attemptRole_eq]
    rfl
  | object => exact sound.attemptObject_eq
  | setConstant =>
    rw [attempt, sound.attemptConstant_eq]
    rfl
  | assignOrCall name indexed => exact State.Knows.attemptAssignOrCall_eq knows indexed
  | assign name =>
    have assigned : state.attemptAssign name = .ok (state.assign name) := knows.attemptAssign_eq sound
    rw [attempt, assigned]
    rfl
  | operand name indexed => exact State.Knows.attemptOperand_eq knows indexed
  | combine operator left =>
    rw [attempt, state.attemptCombine_eq]
    rfl
  | _ => rfl

/-- The names that a step leaves to its tasks have entries. -/
def Step.Holds : Step → Prop
  | .go tasks after => ∀ task ∈ tasks, after.Knows task.held
  | .stop _ _ => True

/-- Tasks that hold on to no name hold in every state. -/
theorem holds_of_free {tasks : List Task} (free : ∀ task ∈ tasks, task.held = none) (after : State) :
    (Step.go tasks after).Holds := by
  intro task inside
  rw [free task inside]
  exact after.knows_none

theorem Takes.free {value : Option Int} {task : Task} {kind : Kind} {tasks : List Task}
    (takes : Takes value task kind tasks) : ∀ task ∈ tasks, task.held = none := by
  induction takes with
  | further _ ih => exact List.forall_mem_append.mpr ⟨ih, by decide⟩
  | _ => simp [Task.held, parameter, subprogram, range]

theorem Expands.free {kind : Kind} {task : Task} {tasks : List Task} (expands : Expands kind task tasks) :
    ∀ task ∈ tasks, task.held = none := by
  cases expands <;> decide

/-- The first of the tasks holds on to the name that it is told about. -/
theorem Heads.holds {task : Task} {last : Option EntryId → Bool → Task} {later : List Task} {after : State}
    {name : Option EntryId} (heads : Heads task last later) (knows : after.Knows name) (indexed : Bool) :
    (Step.go (last name indexed :: later) after).Holds := by
  cases heads <;> exact List.forall_mem_cons.mpr ⟨knows, holds_of_free (by decide) after⟩

theorem Goes.holds {state after : State} {task : Task} {tasks : List Task} (sound : state.Sound)
    (knows : state.Knows task.held) (goes : Goes state task tasks after) : (Step.go tasks after).Holds := by
  cases goes with
  | takes takes => exact holds_of_free takes.free _
  | expands expands => exact holds_of_free expands.free _
  | bare _ heads _ => exact heads.holds sound.knows_find false
  | listed _ heads _ =>
    have list : (Step.go arguments state.find.2.advance).Holds := holds_of_free (by decide) _
    exact List.forall_mem_append.mpr ⟨list, heads.holds sound.knows_find true⟩
  | @target name =>
    have known : (state.check name .target).Knows name := by
      rw [State.Knows, State.table_check]
      exact knows
    refine List.forall_mem_cons.mpr ⟨State.knows_none _, List.forall_mem_cons.mpr ⟨known, ?_⟩⟩
    exact List.forall_mem_singleton.mpr (State.knows_none _)
  | _ => exact holds_of_free (by simp [Task.held]) _

theorem Task.step_holds {state : State} {task : Task} (sound : state.Sound) (knows : state.Knows task.held) :
    (task.step state).Holds :=
  task.step_cases state (Goes.holds sound knows) fun _ => trivial

/-- An entry that is there stays there. -/
theorem invariant_knows (name : Option EntryId) :
    Invariant fun state => state.Sound ∧ state.Knows name where
  act {state after} action holds := by
    obtain ⟨sound, knows⟩ := holds
    refine ⟨action.sound sound, fun id held => ?_⟩
    obtain ⟨entry, found⟩ := knows id held
    rcases action.performs sound with same | ⟨_, _, performs, _⟩
    · exact ⟨entry, same ▸ found⟩
    · obtain ⟨kept, atId, _⟩ := performs.keeps sound.table.toLinked found
      exact ⟨kept, atId⟩
  openScope holds := ⟨holds.1.openScope, holds.2⟩
  closeScope {state} holds := by
    refine ⟨holds.1.closeScope, ?_⟩
    rw [State.Knows, state.table_closeScope]
    exact holds.2

/-- Every name that a task holds has an entry, however much is done before the task. -/
theorem Reaches.knows {tasks left : List Task} {state after : State} (sound : state.Sound)
    (free : ∀ task ∈ tasks, task.held = none) (reach : Reaches tasks state left after) :
    ∀ task ∈ left, after.Knows task.held := by
  induction reach with
  | start => exact holds_of_free free _
  | @step task tasks later before after reach step ih =>
    have within : before.Sound := invariant_sound.reaches reach sound
    obtain ⟨first, others⟩ := List.forall_mem_cons.mp ih
    have holds := Task.step_holds within first
    rw [step] at holds
    refine List.forall_mem_append.mpr ⟨holds, fun other inside => ?_⟩
    have kept := (invariant_knows other.held).step task ⟨within, others other inside⟩
    rw [step] at kept
    exact kept.2

/-- Where a program is analysed a scope is open until the last one is closed: at its first task nothing is
declared, and what comes behind it is done within the scope that was the innermost at the beginning. -/
theorem State.Resumable.opened {start state : State} {task : Task} {later : List Task}
    (resumable : start.Resumable) (reach : Reaches compilation start (task :: later) state)
    (declares : task.Declares) : state.table.scopes ≠ [] := by
  rcases reach.first with ⟨same, _⟩ | ⟨tasks, between, step, _⟩
  · obtain ⟨rfl, _⟩ := List.cons.inj same
    exact absurd declares id
  · have atStart := (accept_go step).1
    have inside : start.table.scopes ≠ [] := by
      refine resumable.inside.resolve_right fun atEnd => ?_
      cases atEnd.symm.trans atStart
    obtain ⟨frame, outer, scopes⟩ := List.exists_cons_of_ne_nil inside
    have nests : Nests [frame].length compilation := by simp [Nests, compilation, subprogram, Task.opens]
    obtain ⟨inner, nests, within⟩ := reach.scopes nests resumable.toSound scopes
    rw [within]
    refine List.append_ne_nil_of_left_ne_nil (List.ne_nil_of_length_pos (nests.1.resolve_left ?_)) _
    rintro rfl
    exact declares

/-- Nothing that an analysis asks for is missing, whatever the text is, from whatever token it begins, and
however often it is called: each task finds the entries and groups that it asks for, each name is declared
in an open scope, and each operator is known. The predefined table is made in the same way, and each line
that is read is the line of the text with its number. -/
theorem compile_never_lacks (lines : List String) (skipped calls : Nat) :
    let start := again calls (.ofScanner ((Scanner.ofLines lines).nextMany skipped))
    Table.attemptPredefined = .ok Table.predefined ∧
      (∀ task later state, Reaches compilation start (task :: later) state →
        task.attempt state = .ok (task.step state)) ∧
      ∀ event ∈ start.journal, event.InText lines := by
  intro start
  have resumable := resumable_again ((Scanner.ofLines lines).nextMany skipped) calls
  refine ⟨rfl, fun task later state reach => ?_, again_inText lines skipped calls⟩
  have sound : state.Sound := invariant_sound.reaches reach resumable.toSound
  have knows := reach.knows resumable.toSound (by decide) task List.mem_cons_self
  exact Task.attempt_eq sound knows (resumable.opened reach)

end AdaFront.Analysis
