import AdaFront.Proofs.Additions
import AdaFront.Proofs.TableMoves

namespace AdaFront

theorem Event.OfScanning.isScope {event : Event} (scanning : event.OfScanning) : event.isScope = false := by
  cases scanning <;> rfl

/-- The scopes that have been opened and closed, the earliest first. -/
def Journal.scopes (journal : Journal) : List Event :=
  journal.reverse.filter Event.isScope

theorem Journal.scopes_append {newer older : Journal} (others : ∀ event ∈ newer, event.isScope = false) :
    Journal.scopes (newer ++ older) = older.scopes := by
  have none : newer.reverse.filter Event.isScope = [] :=
    List.filter_eq_nil_iff.mpr fun event member => by simp [others event (List.mem_reverse.mp member)]
  rw [scopes, scopes, List.reverse_append, List.filter_append, none, List.append_nil]

theorem Journal.scopes_cons {event : Event} (journal : Journal) (isScope : event.isScope = true) :
    Journal.scopes (event :: journal) = journal.scopes ++ [event] := by
  rw [scopes, scopes, List.reverse_cons, List.filter_append, List.filter_cons_of_pos isScope]
  rfl

theorem Journal.scopes_other {event : Event} (journal : Journal) (other : event.isScope = false) :
    Journal.scopes (event :: journal) = journal.scopes :=
  scopes_append (List.forall_mem_singleton.mpr other)

namespace Analysis

open Table (Command)

/-- The command that a task gives to the table. -/
def Task.command? (state : State) : Task → Option Command
  | .openScope => some .enter
  | .closeScope => some .exit
  | .declare role => if state.kind = .identifier then some (.declare state.token.lexeme role) else none
  | .names | .declarations =>
    if state.kind = .identifier then some (.declare state.token.lexeme .unset) else none
  | .nextName =>
    if state.kind = .identifier then
      some (match state.group with
        | some group => .declareIn state.token.lexeme group
        | none => .declare state.token.lexeme .unset)
    else none
  | .setRole role => state.group.map (.setRole · role)
  | .object => state.group.map (.setRole · (if state.kind = .kwConstant then .constant else .variable))
  | .setConstant =>
    match state.group, state.value with
    | some group, some value => some (.setValue group (some (.integer value)))
    | _, _ => none
  | .assign name =>
    match name.bind state.table.entry? with
    | some entry =>
      if entry.role ∈ NameUse.target.roles then
        some (.setValue entry.group (state.value.map .integer))
      else none
    | none => none
  | _ => none

/-- The commands that an analysis gives to the table. -/
def history (tasks : List Task) (state : State) : List Command :=
  match tasks with
  | [] => []
  | task :: later =>
    match _ : task.step state with
    | .go more after => (task.command? state).toList ++ history (more ++ later) after
    | .stop _ _ => []
termination_by 24 * state.left + weight tasks
decreasing_by
  have forward := Task.step_forward state task
  rw [‹task.step state = _›] at forward
  simp only [Step.Forward] at forward
  simp only [weight_append, weight_cons]
  omega

section Equations

variable {task : Task} {tasks later more left : List Task} {start state after : State} {rejection : Rejection}

theorem history_go (step : task.step state = .go more after) :
    history (task :: later) state = (task.command? state).toList ++ history (more ++ later) after := by
  rw [history.eq_def]
  dsimp only
  split
  next same =>
    obtain ⟨rfl, rfl⟩ := Step.go.inj (step.symm.trans same)
    rfl
  next same => cases step.symm.trans same

end Equations

/-- A step does to the table what the command does. -/
def Step.Carries (state : State) (command : Option Command) : Step → Prop
  | .go _ after => after.table = state.table.performAll command.toList
  | .stop _ _ => True

namespace Step.Carries

variable {state after : State} {command : Option Command} {tasks : List Task}

theorem stay (agrees : state.Agrees after) : (Step.go tasks after).Carries state none :=
  agrees.1

theorem declare (state : State) (role : Role) :
    (Step.go tasks (state.declare role)).Carries state (some (.declare state.token.lexeme role)) := by
  rw [Carries, Option.toList_some]
  unfold State.declare
  dsimp only
  split
  next declared => exact (Table.performAll_declare declared).symm
  next refused => exact (Table.performAll_declare refused).symm

theorem listed (state : State) :
    (Step.go tasks state.declareListed).Carries state (some (match state.group with
      | some group => .declareIn state.token.lexeme group
      | none => .declare state.token.lexeme .unset)) := by
  rw [Carries, Option.toList_some]
  unfold State.declareListed
  dsimp only
  cases group : state.group with
  | none =>
    have group : state.advance.group = none := group
    rw [group]
    dsimp only
    split
    next declared => exact (Table.performAll_declare declared).symm
    next refused => exact (Table.performAll_declare refused).symm
  | some leader =>
    have group : state.advance.group = some leader := group
    rw [group]
    dsimp only
    split
    next declared => exact (Table.performAll_declareIn declared).symm
    next refused => exact (Table.performAll_declareIn refused).symm

/-- The first name of a list is declared in a group of its own. -/
theorem begins (state : State) :
    (Step.go tasks ({ state with group := none } : State).declareListed).Carries state
      (some (.declare state.token.lexeme .unset)) :=
  @listed tasks { state with group := none }

theorem setRole {point : State} (agrees : state.Agrees point) (role : Role) :
    (Step.go tasks (point.setRole role)).Carries state (state.group.map (.setRole · role)) := by
  obtain ⟨table, group⟩ := agrees
  rw [Carries, point.setRole_eq, table, group]
  dsimp only
  cases state.group with
  | none => rfl
  | some leader => exact (state.table.changed_update leader _).symm

theorem setConstant (state : State) :
    (Step.go tasks state.setConstant).Carries state (Task.setConstant.command? state) := by
  unfold State.setConstant
  rw [Task.command?]
  cases state.group with
  | none => rfl
  | some group =>
    cases state.value with
    | none => rfl
    | some value => exact (state.table.changed_update group _).symm

theorem assign (state : State) (name : Option EntryId) :
    (Step.go tasks (state.assign name)).Carries state ((Task.assign name).command? state) := by
  rw [Task.command?, Carries]
  unfold State.assign
  cases name.bind state.table.entry? with
  | none => rfl
  | some entry =>
    dsimp only
    split
    next => exact (state.table.changed_update entry.group _).symm
    next => rfl

theorem closeScope (state : State) : (Step.go tasks state.closeScope).Carries state (some .exit) := by
  rw [Carries, state.table_closeScope]
  obtain ⟨feed, ⟨entries, groups, scopes⟩, value, group, journal⟩ := state
  cases scopes <;> rfl

end Step.Carries

/-- A word, or that there is nothing in the text for a task, never changes the table. -/
theorem Takes.command? {value : Option Int} {state : State} {task : Task} {tasks : List Task}
    (takes : Takes value task state.kind tasks) : task.command? state = none := by
  generalize atKind : state.kind = kind at takes
  cases takes with
  | type | procedure => exact if_neg (by simp [atKind])
  | _ => rfl

theorem Task.command?_omits {state : State} {task : Task} (optional : task.isOptional = true)
    (apart : state.kind ∉ task.openings) : task.command? state = none := by
  cases task with
  | declarations =>
    refine if_neg fun atName => apart ?_
    rw [atName]
    decide
  | declare | openScope | closeScope | names | nextName | setRole | object | setConstant | assign =>
    cases optional
  | _ => rfl

theorem Goes.carries {state after : State} {task : Task} {tasks : List Task} (goes : Goes state task tasks after) :
    (Step.go tasks after).Carries state (task.command? state) := by
  cases goes with
  | takes takes => exact takes.command? ▸ .stay ⟨rfl, rfl⟩
  | omits optional apart => exact Task.command?_omits optional apart ▸ .stay ⟨rfl, rfl⟩
  | expands expands => cases expands <;> exact .stay ⟨rfl, rfl⟩
  | declare atName =>
    rw [Task.command?, if_pos atName]
    exact .declare state _
  | names atName | objects atName =>
    rw [Task.command?, if_pos atName]
    exact .begins state
  | nextName atName =>
    rw [Task.command?, if_pos atName]
    exact .listed state
  | closingName => exact .stay (.name state .call)
  | typeName _ among =>
    simp only [List.mem_cons, List.not_mem_nil, or_false] at among
    rcases among with rfl | rfl | rfl <;> exact .stay (.name state .typeName)
  | bare _ heads _ => cases heads <;> exact .stay (.find state)
  | listed _ heads _ => cases heads <;> exact .stay (.find state)
  | setRole => exact .setRole ⟨rfl, rfl⟩ _
  | constantObject isConstant =>
    have advanced : state.Agrees state.advance := ⟨rfl, rfl⟩
    rw [Task.command?, if_pos isConstant]
    exact .setRole advanced _
  | typedObject other =>
    rw [Task.command?, if_neg other]
    exact .setRole ⟨rfl, rfl⟩ _
  | setConstant => exact .setConstant state
  | @target name | @component name => exact .stay (.check state name .target)
  | @call name => exact .stay (.check state name .call)
  | assign => exact .assign state _
  | print | endLogic | forget => exact .stay ⟨rfl, rfl⟩
  | literal => exact .stay (.literal state)
  | operand => exact .stay (.check state _ .operand)
  | combine => exact .stay (.combine state _ _)
  | openScope => rfl
  | closeScope => exact .closeScope state

/-- A task does to the table what its command does. -/
theorem Task.step_carries (state : State) (task : Task) : (task.step state).Carries state (task.command? state) :=
  task.step_cases state Goes.carries fun _ => trivial

theorem Action.scopes_journal {state after : State} (action : Action state after)
    (searched : state.feed.Searched) : after.journal.scopes = state.journal.scopes := by
  cases action with
  | advance =>
    exact Journal.scopes_append fun event member => (searched.advance.journal event member).isScope
  | report | print | overflow => exact state.journal.scopes_other rfl
  | _ => rfl

theorem Acts.scopes_journal {state after : State} (acts : Acts state after) (searched : state.feed.Searched) :
    after.journal.scopes = state.journal.scopes := by
  induction acts with
  | refl => rfl
  | tail acts action ih =>
    rw [action.scopes_journal (invariant_searched.acts acts searched), ih]

/-- A task opens and closes the scopes that its command opens and closes. -/
theorem Task.step_scopes_journal {task : Task} {state after : State} {more : List Task}
    (searched : state.feed.Searched) (step : task.step state = .go more after) :
    after.journal.scopes = state.journal.scopes ++ state.table.trace (task.command? state).toList := by
  by_cases opens : task = .openScope
  · subst opens
    obtain ⟨rfl, rfl⟩ := Step.go.inj step
    exact state.journal.scopes_cons rfl
  · by_cases closes : task = .closeScope
    · subst closes
      obtain ⟨rfl, rfl⟩ := Step.go.inj step
      rw [command?, Option.toList_some, Table.trace_singleton, Table.events]
      unfold State.closeScope
      split
      next nothing =>
        rw [nothing]
        exact (List.append_nil _).symm
      next found =>
        rw [found]
        exact state.journal.scopes_cons rfl
    · have acts := Task.step_acts state opens closes
      rw [step] at acts
      have silent : state.table.trace (task.command? state).toList = [] := by
        cases task with
        | openScope => exact absurd rfl opens
        | closeScope => exact absurd rfl closes
        | declare | names | declarations =>
          rw [command?]
          split <;> rfl
        | nextName =>
          rw [command?]
          split
          · cases state.group <;> rfl
          · rfl
        | setRole | object =>
          rw [command?]
          cases state.group <;> rfl
        | setConstant =>
          rw [command?]
          split <;> rfl
        | assign =>
          rw [command?]
          split
          · split <;> rfl
          · rfl
        | _ => rfl
      rw [silent, List.append_nil]
      exact Acts.scopes_journal acts searched

/-- A task commands what has been found out about the table: its names join the list that is being read, and
what it changes is in force. -/
theorem Task.command?_tame {tasks later : List Task} {start state : State} {task : Task} {phase next : Phase}
    (sound : state.table.Sound) (turn : task.turn phase = some next)
    (fits : Fits tasks start phase (task :: later) state)
    (inside : task = .closeScope → state.table.scopes ≠ []) :
    ∀ command ∈ task.command? state, state.table.Tame command := by
  intro command given
  cases task with
  | closeScope =>
    cases given
    exact inside rfl
  | openScope =>
    cases given
    trivial
  | declare | names | declarations =>
    obtain ⟨_, ⟨⟩⟩ := Option.ite_none_right_eq_some.mp given
    trivial
  | nextName =>
    obtain ⟨rfl, _⟩ := Option.ite_none_right_eq_some.mp turn
    obtain ⟨_, same⟩ := Option.ite_none_right_eq_some.mp given
    cases fits with
    | listing _ opened _ listed =>
      generalize state.group = group at listed same
      cases same
      cases group with
      | none => trivial
      | some leader => exact listed.fronts opened
  | setRole role =>
    obtain ⟨⟨rfl, _⟩, _⟩ := Option.ite_none_right_eq_some.mp turn
    obtain ⟨leader, group, rfl⟩ := Option.map_eq_some_iff.mp given
    cases fits with
    | listing _ opened _ listed =>
      rw [group] at listed
      exact (listed.fronts opened).visible
  | object =>
    obtain ⟨rfl, _⟩ := Option.ite_none_right_eq_some.mp turn
    obtain ⟨leader, group, rfl⟩ := Option.map_eq_some_iff.mp given
    cases fits with
    | listing _ opened _ listed =>
      rw [group] at listed
      exact (listed.fronts opened).visible
  | setConstant =>
    obtain ⟨rfl, _⟩ := Option.ite_none_right_eq_some.mp turn
    rw [command?] at given
    split at given
    next leader _ group _ =>
      cases given
      cases fits with
      | defining _ opened _ listed same =>
        rw [group] at listed same
        obtain ⟨id, shown, grouped⟩ := (listed.fronts opened).visible
        rw [same]
        refine ⟨id, shown, ?_⟩
        rw [Table.giveRole, Table.setRole,
          (listed.sound opened).toLinked.groupOf?_update (Table.gentle_setRole _), grouped]
    next => cases given
  | assign name =>
    obtain ⟨rfl, _⟩ := Option.ite_none_right_eq_some.mp turn
    rw [command?] at given
    split at given
    next entry found =>
      obtain ⟨_, same⟩ := Option.ite_none_right_eq_some.mp given
      cases same
      obtain ⟨id, rfl, found⟩ := Option.bind_eq_some_iff.mp found
      cases fits with
      | storing _ visible =>
        obtain ⟨text, known⟩ := visible id rfl
        exact ⟨id, List.mem_map_of_mem (sound.lookup_greatest known).1,
          congrArg (Option.map Entry.group) found⟩
    next => cases given
  | _ => cases given

/-- At every point the history of an analysis has led to the table and to the scopes that have been opened and
closed, by commands that are tame. -/
theorem Reaches.history {tasks left : List Task} {start state : State} (whole : turns .idle tasks = some .idle)
    (nests : Nests start.table.scopes.length tasks) (sound : start.Sound) (searched : start.feed.Searched)
    (reach : Reaches tasks start left state) :
    ∃ commands, Analysis.history tasks start = commands ++ Analysis.history left state ∧
      state.table = start.table.performAll commands ∧
      state.journal.scopes = start.journal.scopes ++ start.table.trace commands ∧
      start.table.TameAll commands := by
  induction reach with
  | start => exact ⟨[], rfl, rfl, (List.append_nil _).symm, trivial⟩
  | @step task more later before after reach step ih =>
    obtain ⟨commands, given, table, journal, tame⟩ := ih
    have within := invariant_sound.reaches reach sound
    have carries := Task.step_carries before task
    have scopes := Task.step_scopes_journal (invariant_searched.reaches reach searched) step
    rw [step, Step.Carries] at carries
    obtain ⟨phase, order, fits⟩ := reach.fits whole sound
    rw [turns_cons] at order
    obtain ⟨next, turn, _⟩ := Option.bind_eq_some_iff.mp order
    have inside (closes : task = .closeScope) : before.table.scopes ≠ [] := by
      subst closes
      obtain ⟨inner, ⟨opens, _⟩, same⟩ := reach.scopes nests sound (List.append_nil _).symm
      rw [same, List.append_nil]
      exact List.ne_nil_of_length_pos (opens.resolve_left nofun)
    have last : before.table.TameAll (task.command? before).toList := by
      cases same : task.command? before with
      | none => trivial
      | some command =>
        exact Table.tameAll_singleton.mpr (Task.command?_tame within.table turn fits inside command same)
    refine ⟨commands ++ (task.command? before).toList, ?_, ?_, ?_, ?_⟩
    · rw [given, history_go step, List.append_assoc]
    · rw [Table.performAll_append, ← table, carries]
    · rw [scopes, journal, table, Table.trace_append, List.append_assoc]
    · exact Table.tameAll_append.mpr ⟨tame, table ▸ last⟩

end Analysis

end AdaFront
