import AdaFront.Proofs.Actions

namespace AdaFront

/-- The name that an error of a table is about. -/
def TableError.name? : TableError → Option String
  | .duplicate name | .undeclared name | .noOpenScope name => some name
  | .noSuchEntry _ | .noSuchGroup _ => none

namespace Table

variable {table : Table} {name : String} {error : TableError}

theorem name?_insert {entry : Entry} (refused : table.insert entry = .error error) :
    error.name? = some entry.name := by
  unfold insert at refused
  split at refused
  · cases refused
    rfl
  · split at refused
    · cases refused
      rfl
    · cases refused

theorem name?_declare {role : Role} (refused : table.declare name role = .error error) :
    error.name? = some name := by
  unfold declare at refused
  split at refused
  next inserted =>
    cases refused
    exact name?_insert inserted
  next => cases refused

theorem name?_declareIn {group : GroupId} (refused : table.declareIn name group = .error error) :
    ∀ other ∈ error.name?, other = name := by
  unfold declareIn at refused
  split at refused
  · cases refused
    exact nofun
  · split at refused
    next inserted =>
      cases refused
      rw [name?_insert inserted]
      rintro _ ⟨⟩
      rfl
    next => cases refused

theorem name?_lookup (unknown : table.lookup name = .error error) : error.name? = some name := by
  unfold lookup at unknown
  split at unknown
  · cases unknown
  · cases unknown
    rfl

end Table

namespace Analysis

/-- The name stands for an entry, whose role is known and is none that the use asks for. -/
def State.Misuses (state : State) (name : Option EntryId) (use : NameUse) : Prop :=
  ∃ entry, name.bind state.table.entry? = some entry ∧ entry.role ≠ .unset ∧ entry.role ∉ use.roles

/-- What a task adds to the journal. An error of the table is about the identifier that the task stands at; this
and a role that does not fit are reported at the spot of the token behind the identifier. A task that goes on
behind a name reports such a role where it stands itself. -/
inductive Task.Adds (state : State) (task : Task) : Event → Prop
  | search {event} : event.OfScanning → Adds state task event
  | name {error} : state.kind = .identifier → (∀ name ∈ error.name?, name = state.token.lexeme) →
      Adds state task (.reported state.advance.feed.spot (.name error))
  | mismatch {use} : state.kind = .identifier → state.find.2.Misuses state.find.1 use →
      Adds state task (.reported state.advance.feed.spot (.roleMismatch use))
  | behind {name indexed use} : task ∈ [.assignOrCall name indexed, .operand name indexed] →
      state.Misuses name use → Adds state task (.reported state.feed.spot (.roleMismatch use))
  | arithmetic {spot diagnostic} : diagnostic ∈ [.divisionByZero, .overflow] →
      Adds state task (.reported spot diagnostic)
  | silent {event} : event.isReport = false → Adds state task event

theorem State.journal_setRole (state : State) (role : Role) :
    (state.setRole role).journal = state.journal := by
  unfold State.setRole
  split <;> rfl

theorem State.journal_setConstant (state : State) : state.setConstant.journal = state.journal := by
  unfold State.setConstant
  split <;> rfl

theorem State.journal_assign (state : State) (name : Option EntryId) :
    (state.assign name).journal = state.journal := by
  unfold State.assign
  split
  · split <;> rfl
  · rfl

/-- The journal has grown by events of a kind. -/
def State.Extends (Allowed : Event → Prop) (state after : State) : Prop :=
  ∃ added, after.journal = added ++ state.journal ∧ ∀ event ∈ added, Allowed event

namespace State.Extends

variable {Allowed : Event → Prop} {state middle after : State}

theorem ofJournal (same : after.journal = state.journal) : State.Extends Allowed state after :=
  ⟨[], same, List.forall_mem_nil _⟩

theorem refl (state : State) : State.Extends Allowed state state :=
  ofJournal rfl

theorem trans (first : State.Extends Allowed state middle) (second : State.Extends Allowed middle after) :
    State.Extends Allowed state after := by
  obtain ⟨earlier, same, each⟩ := first
  obtain ⟨later, same', each'⟩ := second
  refine ⟨later ++ earlier, ?_, List.forall_mem_append.mpr ⟨each', each⟩⟩
  rw [same', same, List.append_assoc]

theorem mono {Wider : Event → Prop} (grown : State.Extends Allowed state after)
    (wider : ∀ event, Allowed event → Wider event) : State.Extends Wider state after := by
  obtain ⟨added, same, each⟩ := grown
  exact ⟨added, same, fun event member => wider event (each event member)⟩

theorem log {event : Event} (allowed : Allowed event) : State.Extends Allowed state (state.log event) :=
  ⟨[event], rfl, List.forall_mem_singleton.mpr allowed⟩

/-- Beside its report a state may forget or know a value. -/
theorem report {diagnostic : Diagnostic} (allowed : Allowed (.reported state.feed.spot diagnostic))
    (same : after.journal = (state.report diagnostic).journal) : State.Extends Allowed state after :=
  ⟨[_], same, List.forall_mem_singleton.mpr allowed⟩

theorem check {name : Option EntryId} {use : NameUse}
    (allowed : state.Misuses name use → Allowed (.reported state.feed.spot (.roleMismatch use))) :
    State.Extends Allowed state (state.check name use) := by
  unfold State.check
  split
  next entry found =>
    split
    · exact refl state
    next unfit => exact report (allowed ⟨entry, found, not_or.mp unfit⟩) rfl
  · exact refl state

theorem combine
    (allowed : ∀ spot, ∀ diagnostic ∈ [.divisionByZero, .overflow], Allowed (.reported spot diagnostic))
    (silent : ∀ event : Event, event.isReport = false → Allowed event) (operator : Operator)
    (left : Option Int) : State.Extends Allowed state (state.combine operator left) := by
  unfold State.combine
  split
  · split
    · exact ofJournal rfl
    · exact ofJournal rfl
    · exact report (allowed _ _ List.mem_cons_self) rfl
    · exact (log (silent (.overflowed _ _ _) rfl)).trans (report (allowed _ .overflow (by decide)) rfl)
  · exact ofJournal rfl

section Taking

variable (scanning : ∀ event, event.OfScanning → Allowed event) (searched : state.feed.Searched)

include scanning searched

theorem advance : State.Extends Allowed state state.advance :=
  ⟨state.feed.advance.journal, rfl,
    fun event member => scanning event (searched.advance.journal event member)⟩

theorem literal
    (allowed : ∀ spot, ∀ diagnostic ∈ [.divisionByZero, .overflow], Allowed (.reported spot diagnostic)) :
    State.Extends Allowed state state.literal := by
  refine (advance scanning searched).trans ?_
  unfold State.literal
  dsimp only
  split
  · exact ofJournal rfl
  · exact report (allowed _ .overflow (by decide)) rfl

section Named

variable (named : ∀ error : TableError, (∀ name ∈ error.name?, name = state.token.lexeme) →
    Allowed (.reported state.advance.feed.spot (.name error)))

include named

/-- The error of a table that has been asked for the current identifier. -/
theorem refused {error : TableError} (about : error.name? = some state.token.lexeme) :
    State.Extends Allowed state (state.advance.report (.name error)) := by
  refine (advance scanning searched).trans (report (named error ?_) rfl)
  rw [about]
  rintro _ ⟨⟩
  rfl

theorem declare (role : Role) : State.Extends Allowed state (state.declare role) := by
  unfold State.declare
  dsimp only
  split
  · exact (advance scanning searched).trans (ofJournal rfl)
  next fails => exact refused scanning searched named (Table.name?_declare fails)

theorem declareListed : State.Extends Allowed state state.declareListed := by
  unfold State.declareListed
  dsimp only
  cases group : state.advance.group with
  | none =>
    dsimp only
    split
    · exact (advance scanning searched).trans (ofJournal rfl)
    next fails => exact refused scanning searched named (Table.name?_declare fails)
  | some leader =>
    dsimp only
    split
    · exact (advance scanning searched).trans (ofJournal rfl)
    next fails =>
      exact (advance scanning searched).trans (report (named _ (Table.name?_declareIn fails)) rfl)

theorem find : State.Extends Allowed state state.find.2 := by
  unfold State.find
  dsimp only
  split
  · exact advance scanning searched
  next fails => exact refused scanning searched named (Table.name?_lookup fails)

end Named

end Taking

/-- What a deed adds to the journal is what its task can add. -/
theorem ofDeed {task : Task} {tasks : List Task} (searched : state.feed.Searched)
    (deed : Deed state task tasks after) : State.Extends (task.Adds state) state after := by
  have scanning (event : Event) : event.OfScanning → task.Adds state event := .search
  have named (atName : state.kind = .identifier) (error : TableError)
      (about : ∀ name ∈ error.name?, name = state.token.lexeme) :
      task.Adds state (.reported state.advance.feed.spot (.name error)) := .name atName about
  have counted (spot : Spot) : ∀ diagnostic ∈ [.divisionByZero, .overflow],
      task.Adds state (.reported spot diagnostic) := fun _ => .arithmetic
  have silent (event : Event) : event.isReport = false → task.Adds state event := .silent
  cases deed with
  | stay => exact refl state
  | advance => exact advance scanning searched
  | declare atName => exact declare scanning searched (named atName) _
  | listed atName => exact declareListed scanning searched (named atName)
  | begins atName => exact declareListed scanning searched (named atName)
  | name use atName =>
    refine (find scanning searched (named atName)).trans (check fun misused => ?_)
    rw [state.feed_find]
    exact .mismatch atName misused
  | bare atName => exact find scanning searched (named atName)
  | indexed atName =>
    refine (find scanning searched (named atName)).trans (advance scanning ?_)
    rw [state.feed_find]
    exact searched.advance
  | target =>
    refine (check (.behind List.mem_cons_self)).trans (advance scanning ?_)
    rw [state.feed_check]
    exact searched
  | call => exact check (.behind List.mem_cons_self)
  | operand =>
    exact (check (.behind (List.mem_cons_of_mem _ List.mem_cons_self))).trans (ofJournal rfl)
  | setRole role => exact ofJournal (state.journal_setRole role)
  | constant => exact (advance scanning searched).trans (ofJournal (state.advance.journal_setRole _))
  | setConstant => exact ofJournal state.journal_setConstant
  | assign => exact ofJournal (state.journal_assign _)
  | forget => exact refl state
  | literal => exact literal scanning searched counted
  | combine => exact combine counted silent _ _
  | print => exact log (silent _ rfl)
  | openScope => exact log (silent _ rfl)
  | closeScope =>
    unfold State.closeScope
    split
    · exact refl state
    · exact (ofJournal rfl).trans (log (silent _ rfl))

end State.Extends

theorem invariant_searched : Invariant fun state => state.feed.Searched :=
  .ofFeed Feed.Searched Feed.Searched.advance

/-- An event that is added where a task on the way of an analysis is done. -/
def Origin (tasks : List Task) (start : State) (event : Event) : Prop :=
  ∃ task later before added, Reaches tasks start (task :: later) before ∧
    (task.step before).state.journal = added ++ before.journal ∧ event ∈ added ∧ task.Adds before event

/-- Whatever has happened since the start has been added by a task that was done on the way. -/
theorem Reaches.adds {tasks left : List Task} {start after : State} (searched : start.feed.Searched)
    (reach : Reaches tasks start left after) : start.Extends (Origin tasks start) after := by
  induction reach with
  | start => exact .refl start
  | @step task _ _ before after reach step ih =>
    refine ih.trans ?_
    obtain ⟨added, same, each⟩ :=
      State.Extends.ofDeed (invariant_searched.reaches reach searched) (Task.step_go_deed step)
    refine ⟨added, same, fun event member =>
      ⟨task, _, before, added, reach, ?_, member, each event member⟩⟩
    rw [step]
    exact same

end Analysis

end AdaFront
