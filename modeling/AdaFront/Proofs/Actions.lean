import Mathlib.Logic.Relation
import AdaFront.Proofs.Deeds
import AdaFront.Proofs.Recognition
import AdaFront.Proofs.Showing
import AdaFront.Proofs.TableRuns

namespace AdaFront.Analysis

/-- The state behind a step. -/
def Step.state : Step → State
  | .go _ after => after
  | .stop _ after => after

@[simp] theorem Step.state_go (tasks : List Task) (after : State) : (go tasks after).state = after := rfl

/-- A relation that holds across all that an analysis does to its state, apart from opening and closing
scopes. -/
structure Crosses (Related : State → State → Prop) : Prop where
  refl (state) : Related state state
  trans {state middle after} : Related state middle → Related middle after → Related state after
  advance (state) : Related state state.advance
  declare (state role) : Related state (state.declare role)
  declareListed (state) : Related state state.declareListed
  ungroup (state : State) : Related state { state with group := none }
  find (state) : Related state state.find.2
  check (state name use) : Related state (state.check name use)
  setRole (state role) : Related state (state.setRole role)
  setConstant (state) : Related state state.setConstant
  assign (state name) : Related state (state.assign name)
  evaluate (state : State) (value) : Related state { state with value := value }
  literal (state) : Related state state.literal
  combine (state operator left) : Related state (state.combine operator left)
  print (state : State) (value) : Related state (state.log (.printed value))
  refuse (state) (obstacle : Obstacle) : Related state (state.refuse obstacle).state

namespace Crosses

variable {Related : State → State → Prop} (crosses : Crosses Related) (state : State)

include crosses

theorem forget : Related state state.forget :=
  crosses.evaluate state none

theorem deed {state after : State} {task : Task} {tasks : List Task} (deed : Deed state task tasks after)
    (noOpen : task ≠ .openScope) (noClose : task ≠ .closeScope) : Related state after := by
  cases deed with
  | stay => exact crosses.refl state
  | advance => exact crosses.advance state
  | declare => exact crosses.declare state _
  | listed => exact crosses.declareListed state
  | begins => exact crosses.trans (crosses.ungroup state) (crosses.declareListed _)
  | name => exact crosses.trans (crosses.find state) (crosses.check _ _ _)
  | bare => exact crosses.find state
  | indexed => exact crosses.trans (crosses.find state) (crosses.advance _)
  | target => exact crosses.trans (crosses.check state _ _) (crosses.advance _)
  | call => exact crosses.check state _ _
  | operand => exact crosses.trans (crosses.check state _ _) (crosses.evaluate _ _)
  | setRole => exact crosses.setRole state _
  | constant => exact crosses.trans (crosses.advance state) (crosses.setRole _ _)
  | setConstant => exact crosses.setConstant state
  | assign => exact crosses.assign state _
  | forget => exact crosses.forget state
  | literal => exact crosses.literal state
  | combine => exact crosses.combine state _ _
  | print => exact crosses.print state _
  | openScope => exact absurd rfl noOpen
  | closeScope => exact absurd rfl noClose

/-- A step that neither opens nor closes a scope is crossed. -/
theorem step {task : Task} (noOpen : task ≠ .openScope) (noClose : task ≠ .closeScope) :
    Related state (task.step state).state := by
  cases step : task.step state with
  | go tasks after => exact crosses.deed (Task.step_go_deed step) noOpen noClose
  | stop rejection after =>
    obtain ⟨token, obstacle⟩ := rejection
    obtain ⟨rfl, rfl⟩ := Task.step_stop_eq step
    exact crosses.refuse state obstacle

end Crosses

/-- What an analysis can do to its state at a time, apart from opening and closing scopes. Groups change
through the register of the names listed last, or by an assignment to a variable. -/
inductive Action (state : State) : State → Prop
  | advance : Action state state.advance
  | report {diagnostic} : diagnostic.ofProgram = true → Action state (state.report diagnostic)
  | print (value) : Action state (state.log (.printed value))
  | overflow (left operator right) : Action state (state.log (.overflowed left operator right))
  | evaluate (value) : Action state { state with value := value }
  | ungroup : Action state { state with group := none }
  | declare {name role id table} : state.table.declare name role = .ok (id, table) →
      Action state { state with table := table }
  | found {name id table} : state.group = none → state.table.declare name .unset = .ok (id, table) →
      Action state { state with table := table, group := table.groupOf? id }
  | join {name group id table} : state.group = some group →
      state.table.declareIn name group = .ok (id, table) → Action state { state with table := table }
  | setRole {group} (role) : state.group = some group →
      Action state { state with table := state.table.setRole group role }
  | setConstant {group} (value) : state.group = some group →
      Action state { state with table := state.table.setValue group (some (.integer value)) }
  | assign {id entry} (value : Option Int) : state.table.entry? id = some entry →
      entry.role ∈ NameUse.target.roles →
      Action state { state with table := state.table.setValue entry.group (value.map .integer) }

/-- One action after another. -/
abbrev Acts : State → State → Prop :=
  Relation.ReflTransGen Action

namespace State

variable (state : State)

theorem acts_advance : Acts state state.advance :=
  .single .advance

theorem acts_report {diagnostic : Diagnostic} (program : diagnostic.ofProgram = true) :
    Acts state (state.report diagnostic) :=
  .single (.report program)

theorem acts_forget : Acts state state.forget :=
  .single (.evaluate none)

theorem acts_declare (role : Role) : Acts state (state.declare role) := by
  refine state.acts_advance.trans ?_
  unfold declare
  dsimp only
  split
  next id table declared => exact .single (.declare declared)
  next => exact acts_report _ rfl

theorem acts_declareListed : Acts state state.declareListed := by
  refine state.acts_advance.trans ?_
  unfold declareListed
  dsimp only
  cases group : state.advance.group with
  | none =>
    dsimp only
    split
    next id table declared => exact .single (.found group declared)
    next => exact acts_report _ rfl
  | some leader =>
    dsimp only
    split
    next id table declared =>
      rw [Option.some_or, ← group]
      exact .single (.join group declared)
    next => exact acts_report _ rfl

theorem acts_find : Acts state state.find.2 := by
  refine state.acts_advance.trans ?_
  unfold find
  dsimp only
  split
  · exact .refl
  · exact acts_report _ rfl

theorem acts_check (name : Option EntryId) (use : NameUse) : Acts state (state.check name use) := by
  unfold check
  split
  · split
    · exact .refl
    · exact acts_report _ rfl
  · exact .refl

theorem acts_setRole (role : Role) : Acts state (state.setRole role) := by
  unfold setRole
  split
  next group same => exact .single (.setRole role same)
  next => exact .refl

theorem acts_setConstant : Acts state state.setConstant := by
  unfold setConstant
  split
  next group value same _ => exact .single (.setConstant value same)
  next => exact .refl

theorem acts_assign (name : Option EntryId) : Acts state (state.assign name) := by
  unfold assign
  split
  next entry found =>
    split
    next fits =>
      obtain ⟨id, _, atId⟩ := Option.bind_eq_some_iff.mp found
      exact .single (.assign _ atId fits)
    next => exact .refl
  next => exact .refl

theorem acts_literal : Acts state state.literal := by
  refine state.acts_advance.trans ?_
  unfold literal
  dsimp only
  split
  · exact .single (.evaluate _)
  · exact (acts_report _ rfl).trans (acts_forget _)

theorem acts_combine (operator : Operator) (left : Option Int) :
    Acts state (state.combine operator left) := by
  unfold combine
  split
  · split
    · exact .single (.evaluate _)
    · exact acts_forget _
    · exact (acts_report _ rfl).trans (acts_forget _)
    · exact ((Relation.ReflTransGen.single (.overflow _ _ _)).trans (acts_report _ rfl)).trans
        (acts_forget _)
  · exact acts_forget _

end State

/-- All that an analysis does consists of actions. -/
theorem crosses_acts : Crosses Acts where
  refl _ := .refl
  trans := .trans
  advance := State.acts_advance
  declare := State.acts_declare
  declareListed := State.acts_declareListed
  ungroup _ := .single .ungroup
  find := State.acts_find
  check := State.acts_check
  setRole := State.acts_setRole
  setConstant := State.acts_setConstant
  assign := State.acts_assign
  evaluate _ value := .single (.evaluate value)
  literal := State.acts_literal
  combine := State.acts_combine
  print _ value := .single (.print value)
  refuse state _ := state.acts_report rfl

/-- A step that neither opens nor closes a scope consists of actions. -/
theorem Task.step_acts (state : State) {task : Task} (noOpen : task ≠ .openScope)
    (noClose : task ≠ .closeScope) : Acts state (task.step state).state :=
  crosses_acts.step state noOpen noClose

/-- What every step keeps. -/
def Steady (Holds : State → Prop) : Prop :=
  ∀ (task : Task) {state : State}, Holds state → Holds (task.step state).state

namespace Steady

variable {Holds : State → Prop} {state after : State} {tasks left : List Task}

theorem reaches (steady : Steady Holds) (reach : Reaches tasks state left after) (holds : Holds state) :
    Holds after := by
  induction reach with
  | start => exact holds
  | @step task _ _ _ _ _ step ih =>
    have next := steady task ih
    rwa [step] at next

theorem run (steady : Steady Holds) (holds : Holds state) : Holds (run tasks state).state := by
  rcases run_reaches tasks state with ⟨_, reach⟩ | ⟨task, later, before, rejection, reach, step, _⟩
  · exact steady.reaches reach holds
  · have next := steady task (steady.reaches reach holds)
    rwa [step] at next

end Steady

/-- To be kept by every step is to be kept across the scopes and by every other step. -/
theorem Steady.ofOthers {Holds : State → Prop}
    (openScope : ∀ {state : State}, Holds state → Holds state.openScope)
    (closeScope : ∀ {state : State}, Holds state → Holds state.closeScope)
    (others : ∀ {task : Task} {state : State}, task ≠ .openScope → task ≠ .closeScope →
      Holds state → Holds (task.step state).state) : Steady Holds := by
  intro task state holds
  by_cases opens : task = .openScope
  · subst opens
    exact openScope holds
  · by_cases closes : task = .closeScope
    · subst closes
      exact closeScope holds
    · exact others opens closes holds

/-- What no step can break. -/
structure Invariant (Holds : State → Prop) : Prop where
  act {state after : State} : Action state after → Holds state → Holds after
  openScope {state : State} : Holds state → Holds state.openScope
  closeScope {state : State} : Holds state → Holds state.closeScope

namespace Invariant

variable {Holds : State → Prop} {state after : State} {tasks left : List Task}

theorem acts (invariant : Invariant Holds) (acts : Acts state after) (holds : Holds state) :
    Holds after := by
  induction acts with
  | refl => exact holds
  | tail _ action ih => exact invariant.act action ih

theorem step (invariant : Invariant Holds) : Steady Holds :=
  .ofOthers invariant.openScope invariant.closeScope fun opens closes =>
    invariant.acts (Task.step_acts _ opens closes)

theorem reaches (invariant : Invariant Holds) (reach : Reaches tasks state left after)
    (holds : Holds state) : Holds after :=
  invariant.step.reaches reach holds

theorem run (invariant : Invariant Holds) (holds : Holds state) : Holds (run tasks state).state :=
  invariant.step.run holds

/-- An analysis does nothing to its feed but to go on with it. -/
theorem ofFeed (Holds : Feed → Prop) (advance : ∀ {feed : Feed}, Holds feed → Holds feed.advance) :
    Invariant fun state => Holds state.feed where
  act action holds := by
    cases action with
    | advance => exact advance holds
    | _ => exact holds
  openScope holds := holds
  closeScope {state} holds := by rwa [state.feed_closeScope]

/-- Every event comes from the feed, or is a report where the feed stands, or is no report and reads no line. -/
theorem ofEvents {OfFeed : Feed → Prop} {OfEvent : Event → Prop}
    (advance : ∀ {feed : Feed}, OfFeed feed → OfFeed feed.advance)
    (found : ∀ {feed : Feed}, OfFeed feed → ∀ event ∈ feed.journal, OfEvent event)
    (reported : ∀ {feed : Feed} (diagnostic : Diagnostic), OfFeed feed → OfEvent (.reported feed.spot diagnostic))
    (others : ∀ event : Event, event.isReport = false → (∀ number text, event ≠ .lineRead number text) →
      OfEvent event) :
    Invariant fun state => OfFeed state.feed ∧ ∀ event ∈ state.journal, OfEvent event where
  act {state _} action holds := by
    obtain ⟨feed, journal⟩ := holds
    cases action with
    | advance => exact ⟨advance feed, List.forall_mem_append.mpr ⟨found (advance feed), journal⟩⟩
    | report => exact ⟨feed, List.forall_mem_cons.mpr ⟨reported _ feed, journal⟩⟩
    | print | overflow => exact ⟨feed, List.forall_mem_cons.mpr ⟨others _ rfl nofun, journal⟩⟩
    | _ => exact ⟨feed, journal⟩
  openScope holds := ⟨holds.1, List.forall_mem_cons.mpr ⟨others _ rfl nofun, holds.2⟩⟩
  closeScope {state} holds := by
    unfold State.closeScope
    split
    · exact holds
    · exact ⟨holds.1, List.forall_mem_cons.mpr ⟨others _ rfl nofun, holds.2⟩⟩

end Invariant

/-- A state as it should be: the table is sound, the group of the names listed last exists, and the input
has one end. -/
structure State.Sound (state : State) : Prop where
  table : state.table.Sound
  group {group : GroupId} : state.group = some group → group < state.table.groups.size
  ends : EndsOnce state.kinds

theorem performs_of_declare {table after : Table} {name : String} {role : Role} {id : EntryId}
    (declared : table.declare name role = .ok (id, after)) :
    table.Performs (.declare name role) (.id id) after := by
  have performs := table.performs_declare name role
  rwa [Table.perform, declared] at performs

theorem performs_of_declareIn {table after : Table} {name : String} {group : GroupId} {id : EntryId}
    (linked : table.Linked) (declared : table.declareIn name group = .ok (id, after)) :
    table.Performs (.declareIn name group) (.id id) after := by
  have performs := linked.performs_declareIn name group
  rwa [Table.perform, declared] at performs

theorem exists_members {table : Table} {group : GroupId} (known : group < table.groups.size) :
    ∃ ids, table.members? group = some ids :=
  ⟨_, Array.getElem?_eq_getElem known⟩

/-- An action leaves the table alone or carries out a command other than opening and closing. -/
theorem Action.performs {state after : State} (action : Action state after) (sound : state.Sound) :
    after.table = state.table ∨ ∃ command answer, Table.Performs state.table command answer after.table ∧
      command ≠ .enter ∧ command ≠ .exit := by
  have linked := sound.table.toLinked
  cases action with
  | declare declared => exact Or.inr ⟨_, _, performs_of_declare declared, nofun, nofun⟩
  | found _ declared => exact Or.inr ⟨_, _, performs_of_declare declared, nofun, nofun⟩
  | join _ declared => exact Or.inr ⟨_, _, performs_of_declareIn linked declared, nofun, nofun⟩
  | setRole role same =>
    obtain ⟨ids, found⟩ := exists_members (sound.group same)
    exact Or.inr ⟨_, _, .setRole role found, nofun, nofun⟩
  | setConstant value same =>
    obtain ⟨ids, found⟩ := exists_members (sound.group same)
    exact Or.inr ⟨_, _, .setValue _ found, nofun, nofun⟩
  | assign value atId =>
    obtain ⟨ids, found, _⟩ := linked.joined (congrArg (Option.map Entry.group) atId)
    exact Or.inr ⟨_, _, .setValue _ found, nofun, nofun⟩
  | _ => exact Or.inl rfl

/-- Where the end of the input stands, there is nothing else. -/
theorem EndsOnce.eq_last {feed : Feed} (ends : EndsOnce feed.kinds)
    (atEnd : feed.token.kind = .endOfInput) : ∃ spot journal, feed = .last spot journal := by
  cases feed with
  | last spot journal => exact ⟨spot, journal, rfl⟩
  | more head rest =>
    obtain ⟨others, begins⟩ := rest.kinds_begin
    have whole : EndsOnce ([] ++ .endOfInput :: rest.kinds) := by
      rw [List.nil_append, ← atEnd]
      exact ends
    rw [whole.last] at begins
    cases begins

theorem EndsOnce.advance {feed : Feed} (ends : EndsOnce feed.kinds) : EndsOnce feed.advance.kinds := by
  cases feed with
  | last => exact ends
  | more head rest =>
    obtain ⟨inner, whole, apart⟩ := ends
    change head.token.kind :: rest.kinds = _ at whole
    cases inner with
    | nil =>
      obtain ⟨others, begins⟩ := rest.kinds_begin
      simp [begins] at whole
    | cons first inner =>
      exact ⟨inner, (List.cons.inj whole).2, fun member => apart (List.mem_cons_of_mem _ member)⟩

theorem Action.sound {state after : State} (action : Action state after) (sound : state.Sound) :
    after.Sound := by
  have table : after.table.Sound ∧ state.table.groups.size ≤ after.table.groups.size := by
    rcases action.performs sound with same | ⟨_, _, performs, _⟩
    · exact ⟨same ▸ sound.table, Nat.le_of_eq (by rw [same])⟩
    · exact ⟨performs.sound sound.table, performs.groups_size_le⟩
  obtain ⟨tableSound, grows⟩ := table
  have kept {group : GroupId} (same : state.group = some group) : group < after.table.groups.size :=
    Nat.lt_of_lt_of_le (sound.group same) grows
  cases action with
  | advance => exact ⟨tableSound, kept, EndsOnce.advance sound.ends⟩
  | ungroup => exact ⟨tableSound, nofun, sound.ends⟩
  | found _ declared =>
    refine ⟨tableSound, fun same => ?_, sound.ends⟩
    obtain ⟨ids, found, _⟩ := tableSound.toLinked.joined same
    exact Table.lt_size_of_members? found
  | _ => exact ⟨tableSound, kept, sound.ends⟩

theorem State.Sound.openScope {state : State} (sound : state.Sound) : state.openScope.Sound :=
  ⟨sound.table.enter, sound.group, sound.ends⟩

/-- Closing takes the innermost scope away, if there is one, and nothing else of the table. -/
theorem State.table_closeScope (state : State) :
    state.closeScope.table = { state.table with scopes := state.table.scopes.tail } := by
  obtain ⟨feed, ⟨entries, groups, scopes⟩, value, group, journal⟩ := state
  cases scopes <;> rfl

theorem State.group_closeScope (state : State) : state.closeScope.group = state.group := by
  unfold closeScope
  split <;> rfl

theorem State.Sound.closeScope {state : State} (sound : state.Sound) : state.closeScope.Sound := by
  refine ⟨?_, fun same => ?_, ?_⟩
  · rw [state.table_closeScope]
    cases scopes : state.table.scopes with
    | nil =>
      rw [List.tail_nil, ← scopes]
      exact sound.table
    | cons frame outer => exact sound.table.exit scopes
  · rw [state.table_closeScope]
    exact sound.group (state.group_closeScope ▸ same)
  · have feed : state.closeScope.kinds = state.kinds := congrArg Feed.kinds state.feed_closeScope
    rw [feed]
    exact sound.ends

theorem invariant_sound : Invariant State.Sound :=
  ⟨Action.sound, State.Sound.openScope, State.Sound.closeScope⟩

theorem sound_ofScanner (scanner : Scanner) : (State.ofScanner scanner).Sound where
  table := Table.initial_sound true
  group := nofun
  ends := endsOnce_ofScanner scanner

end AdaFront.Analysis
