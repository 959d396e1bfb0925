import AdaFront.Proofs.Phases

namespace AdaFront

/-- Whatever has been declared from a number on has a role. -/
def Table.Settled (base : Nat) (table : Table) : Prop :=
  ∀ id entry, base ≤ id → table.entry? id = some entry → entry.role ≠ .unset

theorem Table.Settled.update {base : Nat} {table : Table} {group : GroupId} {change : Entry → Entry}
    (linked : table.Linked) (settled : table.Settled base)
    (kept : ∀ entry, entry.role ≠ .unset → (change entry).role ≠ .unset) :
    (table.update group change).Settled base := by
  intro id entry inside found
  rw [linked.entry?_update] at found
  obtain ⟨old, atId, rfl⟩ := Option.map_eq_some_iff.mp found
  split
  · exact kept old (settled id old inside atId)
  · exact settled id old inside atId

/-- Names that are listed are settled when they get their role. -/
theorem Table.Listed.settled {base : Nat} {opening table : Table} {group : Option GroupId} {role : Role}
    (listed : opening.Listed group table) (sound : opening.Sound) (settled : opening.Settled base)
    (known : role ≠ .unset) : (table.giveRole group role).Settled base := by
  intro id entry inside found
  rw [listed.entry?_giveRole sound] at found
  obtain ⟨old, atId, rfl⟩ := Option.map_eq_some_iff.mp found
  split
  · exact known
  next before =>
    rw [listed.older sound (Nat.lt_of_not_le before)] at atId
    exact settled id old inside atId

namespace Analysis

/-- A list of names has begun at a point of an analysis where the table was this, and nothing has been done since
but to read it. -/
inductive Reading (tasks : List Task) (start : State) (opening : Table) : List Task → State → Prop
  | begins {opener later point more after} : Reaches tasks start (opener :: later) point →
      point.kind = .identifier → opener ∈ [.names, .declarations] → point.table = opening →
      opener.step point = .go more after → Reading tasks start opening (more ++ later) after
  | reads {task later state more after} : Reading tasks start opening (task :: later) state →
      task ∈ [.moreNames, .nextName, .accept .colon] → task.step state = .go more after →
      Reading tasks start opening (more ++ later) after

/-- The names of such a list have turned out to be constants, and nothing has been done since but to read their
value. -/
inductive Defining (tasks : List Task) (start : State) (opening listed : Table) : List Task → State → Prop
  | begins {later point more after} : Reading tasks start opening (.object :: later) point →
      point.table = listed → point.kind = .kwConstant → Task.object.step point = .go more after →
      Defining tasks start opening listed (more ++ later) after
  | reads {task later state more after} : Defining tasks start opening listed (task :: later) state →
      task.isQuiet = true → task.step state = .go more after →
      Defining tasks start opening listed (more ++ later) after

/-- What is known of the table and of the names listed last while an analysis is in a phase. -/
inductive Fits (tasks : List Task) (start : State) : Phase → List Task → State → Prop
  | idle {left state} : state.table.Settled start.table.entries.size → Fits tasks start .idle left state
  | listing {opening left state} : Reading tasks start opening left state → opening.Sound →
      opening.Settled start.table.entries.size → opening.Listed state.group state.table →
      Fits tasks start .listing left state
  | defining {opening listed left state} : Defining tasks start opening listed left state → opening.Sound →
      opening.Settled start.table.entries.size → opening.Listed state.group listed →
      state.table = listed.giveRole state.group .constant → Fits tasks start .defining left state
  | storing {name left state} : state.table.Settled start.table.entries.size →
      (∀ id, name = some id → ∃ text, state.table.lookup text = .ok id) →
      Fits tasks start (.storing name) left state

/-- What a task can do to the table. Roles are given to names of the list that has just been read, values to
constants of such a list, and to what can be assigned to and is in force. -/
inductive Moves (tasks : List Task) (start : State) (later : List Task) (state : State) : Task → Table → Prop
  | stay {task} : Moves tasks start later state task state.table
  | declare {name role id after} : role ≠ .unset → state.table.declare name role = .ok (id, after) →
      Moves tasks start later state (.declare role) after
  | first {task name id after} : state.table.declare name .unset = .ok (id, after) →
      Moves tasks start later state task after
  | next {opening name leader id after} : Reading tasks start opening (.nextName :: later) state →
      opening.Sound → opening.Listed (some leader) state.table →
      state.table.declareIn name leader = .ok (id, after) → Moves tasks start later state .nextName after
  | role {opening role task} : task ∈ [.setRole role, .object] → role ≠ .unset →
      Reading tasks start opening (task :: later) state → opening.Sound →
      opening.Listed state.group state.table →
      Moves tasks start later state task (state.table.giveRole state.group role)
  | constant {opening listed leader value} : state.group = some leader →
      Defining tasks start opening listed (.setConstant :: later) state → opening.Sound →
      opening.Listed state.group listed → state.table = listed.giveRole state.group .constant →
      Moves tasks start later state .setConstant (state.table.setValue leader (some (.integer value)))
  | store {text id entry} (value : Option Int) : state.table.lookup text = .ok id →
      state.table.entry? id = some entry → entry.role ∈ NameUse.target.roles →
      Moves tasks start later state (.assign (some id)) (state.table.setValue entry.group (value.map .integer))
  | enter : Moves tasks start later state .openScope state.table.enter
  | exit {frame outer} : state.table.scopes = frame :: outer →
      Moves tasks start later state .closeScope { state.table with scopes := outer }

theorem Fits.settled {tasks left : List Task} {start state : State} (fits : Fits tasks start .idle left state) :
    state.table.Settled start.table.entries.size := by
  cases fits with
  | idle settled => exact settled

theorem State.setRole_eq (state : State) (role : Role) :
    state.setRole role = { state with table := state.table.giveRole state.group role } := by
  obtain ⟨feed, table, value, group, journal⟩ := state
  cases group <;> rfl

/-- One more name of a list. -/
theorem State.declareListed_cases {opening : Table} {point : State} (listed : opening.Listed point.group point.table) :
    opening.Listed point.declareListed.group point.declareListed.table ∧
      (point.declareListed.table = point.table ∨
        (∃ name id, point.table.declare name .unset = .ok (id, point.declareListed.table)) ∨
        ∃ name leader id, point.group = some leader ∧
          point.table.declareIn name leader = .ok (id, point.declareListed.table)) := by
  unfold State.declareListed
  dsimp only
  cases group : point.advance.group with
  | none =>
    have group : point.group = none := group
    rw [group] at listed
    obtain ⟨_, atOpening⟩ := listed.group_eq.resolve_right nofun
    dsimp only
    split
    next id table declared =>
      have declared : point.table.declare point.token.lexeme .unset = .ok (id, table) := declared
      have grouped : table.groupOf? id = some opening.groups.size := by
        cases performs_of_declare declared with
        | declare => rw [Table.groupOf?_withEntry, if_pos rfl, atOpening]
        | ask _ asks => cases asks
      refine ⟨?_, Or.inr (Or.inl ⟨_, id, declared⟩)⟩
      rw [atOpening] at declared
      rw [Option.none_or, grouped]
      exact .first declared
    next => exact ⟨group ▸ listed, Or.inl rfl⟩
  | some leader =>
    have group : point.group = some leader := group
    rw [group] at listed
    dsimp only
    split
    next id table declared =>
      have declared : point.table.declareIn point.token.lexeme leader = .ok (id, table) := declared
      rw [Option.some_or]
      exact ⟨.next listed declared, Or.inr (Or.inr ⟨_, leader, id, group, declared⟩)⟩
    next => exact ⟨group ▸ listed, Or.inl rfl⟩

/-- A step moves the table, and its tasks lead from a phase that fits to the next one. -/
def Step.Turns (tasks : List Task) (start : State) (later : List Task) (state : State) (task : Task)
    (next : Phase) : Step → Prop
  | .go more after => Moves tasks start later state task after.table ∧
      ∃ between, turns between more = some next ∧ Fits tasks start between (more ++ later) after
  | .stop _ _ => True

namespace Step.Turns

variable {tasks later : List Task} {start state after : State} {task : Task} {more : List Task} {next : Phase}

/-- The table stays as it is, and all its names are settled. -/
theorem agree (agrees : state.Agrees after) (settled : state.table.Settled start.table.entries.size)
    (order : Analysis.turns .idle more = some next) :
    (Step.go more after).Turns tasks start later state task next := by
  have table := agrees.1
  refine ⟨table ▸ .stay, .idle, order, .idle ?_⟩
  rwa [table]

/-- The name that has just been looked up is in force, if it is there. -/
theorem found (agrees : state.find.2.Agrees after) (settled : state.table.Settled start.table.entries.size)
    (order : Analysis.turns (.storing state.find.1) more = some next) :
    (Step.go more after).Turns tasks start later state task next := by
  have table := ((State.Agrees.find state).trans agrees).1
  refine ⟨table ▸ .stay, .storing state.find.1, order, .storing (table ▸ settled) fun id known => ?_⟩
  refine ⟨state.token.lexeme, ?_⟩
  rw [table]
  unfold State.find at known
  dsimp only at known
  split at known
  next other atName =>
    cases known
    exact atName
  next => cases known

/-- A list begins where an identifier stands. -/
theorem begins (reach : Reaches tasks start (task :: later) state) (atName : state.kind = .identifier)
    (opens : task ∈ [.names, .declarations]) (sound : state.table.Sound)
    (settled : state.table.Settled start.table.entries.size) (order : Analysis.turns .listing more = some next)
    (step : task.step state = .go more ({ state with group := none } : State).declareListed) :
    (Step.go more ({ state with group := none } : State).declareListed).Turns tasks start later state task
      next := by
  have none : state.table.Listed ({ state with group := none } : State).group state.table := .begun
  obtain ⟨listed, cases⟩ := State.declareListed_cases none
  refine ⟨?_, .listing, order, .listing (.begins reach atName opens rfl step) sound settled listed⟩
  rcases cases with same | ⟨name, id, declared⟩ | ⟨_, _, _, group, _⟩
  · have same : ({ state with group := Option.none } : State).declareListed.table = state.table := same
    rw [same]
    exact .stay
  · exact .first declared
  · cases group

/-- A step that leaves the table alone goes on in the phase that it is done in. -/
theorem keeps {phase : Phase} (fits : Fits tasks start phase (task :: later) state) (agrees : state.Agrees after)
    (step : task.step state = .go more after) (order : Analysis.turns phase more = some next)
    (reads : phase = .listing → task ∈ [.moreNames, .nextName, .accept .colon])
    (quiet : phase = .defining → task.isQuiet = true) :
    (Step.go more after).Turns tasks start later state task next := by
  obtain ⟨table, group⟩ := agrees
  refine ⟨table ▸ .stay, phase, order, ?_⟩
  cases fits with
  | idle settled => exact .idle (table ▸ settled)
  | storing settled visible => exact .storing (table ▸ settled) (table ▸ visible)
  | listing reading sound settled listed =>
    refine .listing (reading.reads (reads rfl) step) sound settled ?_
    rwa [table, group]
  | defining defining sound settled listed same =>
    refine .defining (defining.reads (quiet rfl) step) sound settled ?_ ?_
    · rwa [group]
    · rwa [table, group]

/-- So does one that finds nothing but names which are listed. -/
theorem reads {phase : Phase} (fits : Fits tasks start phase (task :: later) state) (agrees : state.Agrees after)
    (step : task.step state = .go more after) (order : Analysis.turns phase more = some next)
    (place : phase = .idle ∨ phase = .listing ∧ task = .moreNames) :
    (Step.go more after).Turns tasks start later state task next := by
  rcases place with rfl | ⟨rfl, rfl⟩
  · exact keeps fits agrees step order nofun nofun
  · exact keeps fits agrees step order (fun _ => List.mem_cons_self) nofun

theorem nextName {opening : Table} (reading : Reading tasks start opening (.nextName :: later) state)
    (sound : opening.Sound) (settled : opening.Settled start.table.entries.size)
    (listed : opening.Listed state.group state.table)
    (step : Task.nextName.step state = .go [.moreNames] state.declareListed) :
    (Step.go [.moreNames] state.declareListed).Turns tasks start later state .nextName .listing := by
  obtain ⟨more, cases⟩ := State.declareListed_cases listed
  refine ⟨?_, .listing, rfl, .listing (reading.reads (by simp) step) sound settled more⟩
  rcases cases with same | ⟨name, id, declared⟩ | ⟨name, leader, id, group, declared⟩
  · exact same ▸ .stay
  · exact .first declared
  · exact .next reading sound (group ▸ listed) declared

/-- The names of the list get their role. -/
theorem gives {role : Role} (fits : Fits tasks start .listing (task :: later) state) (known : role ≠ .unset)
    (giver : task ∈ [.setRole role, .object]) (order : Analysis.turns .idle more = some next) :
    (Step.go more (state.setRole role)).Turns tasks start later state task next := by
  rw [state.setRole_eq]
  cases fits with
  | listing reading sound settled listed =>
    exact ⟨.role giver known reading sound listed, .idle, order, .idle (listed.settled sound settled known)⟩

/-- The names of the list are constants, whose value comes next. -/
theorem defines (fits : Fits tasks start .listing (.object :: later) state) (isConstant : state.kind = .kwConstant)
    (step : Task.object.step state =
      .go [.accept .assign, .expression, .setConstant] (state.advance.setRole .constant)) :
    (Step.go [.accept .assign, .expression, .setConstant] (state.advance.setRole .constant)).Turns tasks
      start later state .object .idle := by
  cases fits with
  | listing reading sound settled listed =>
    have defining := Defining.begins reading rfl isConstant step
    rw [state.advance.setRole_eq] at defining ⊢
    exact ⟨.role (by decide) (by decide) reading sound listed, .defining, rfl,
      .defining defining sound settled listed rfl⟩

theorem declares {role : Role} (settled : state.table.Settled start.table.entries.size) (known : role ≠ .unset) :
    (Step.go [] (state.declare role)).Turns tasks start later state (.declare role) .idle := by
  unfold State.declare
  dsimp only
  split
  next id table declared =>
    have declared : state.table.declare state.token.lexeme role = .ok (id, table) := declared
    refine ⟨.declare known declared, .idle, rfl, .idle fun other entry inside found => ?_⟩
    have found : table.entry? other = some entry := found
    cases performs_of_declare declared with
    | declare =>
      rw [Table.entry?_withEntry] at found
      split at found
      · cases found
        exact known
      · exact settled other entry inside found
    | ask _ asks => cases asks
  next => exact agree ⟨rfl, rfl⟩ settled rfl

theorem closes (settled : state.table.Settled start.table.entries.size) :
    (Step.go [] state.closeScope).Turns tasks start later state .closeScope .idle := by
  have table := state.table_closeScope
  refine ⟨?_, .idle, rfl, .idle ?_⟩
  · rw [table]
    cases scopes : state.table.scopes with
    | nil =>
      rw [List.tail_nil, ← scopes]
      exact .stay
    | cons frame outer => exact .exit scopes
  · rw [table]
    exact settled

/-- Constants get their value, if it is known. -/
theorem sets (intact : state.table.Sound) (fits : Fits tasks start .defining (.setConstant :: later) state) :
    (Step.go [] state.setConstant).Turns tasks start later state .setConstant .idle := by
  cases fits with
  | defining defining sound settled listed same =>
    have settles : state.table.Settled start.table.entries.size :=
      same ▸ listed.settled sound settled (by decide)
    unfold State.setConstant
    split
    next leader value group _ =>
      exact ⟨.constant group defining sound listed same, .idle, rfl,
        .idle (settles.update intact.toLinked fun _ known => known)⟩
    next => exact agree ⟨rfl, rfl⟩ settles rfl

theorem stores {name : Option EntryId} (intact : state.table.Sound)
    (settled : state.table.Settled start.table.entries.size)
    (visible : ∀ id, name = some id → ∃ text, state.table.lookup text = .ok id) :
    (Step.go [] (state.assign name)).Turns tasks start later state (.assign name) .idle := by
  unfold State.assign
  split
  next entry found =>
    obtain ⟨id, rfl, found⟩ := Option.bind_eq_some_iff.mp found
    obtain ⟨text, known⟩ := visible id rfl
    split
    next target =>
      exact ⟨.store state.value known found target, .idle, rfl,
        .idle (settled.update intact.toLinked fun _ known => known)⟩
    next => exact agree ⟨rfl, rfl⟩ settled rfl
  next => exact agree ⟨rfl, rfl⟩ settled rfl

/-- A task that leaves the table alone belongs to the phase that it is done in. -/
theorem quietly {phase : Phase} (quiet : task.isQuiet = true) (turn : task.turn phase = some next)
    (fits : Fits tasks start phase (task :: later) state) :
    (task.step state).Turns tasks start later state task next := by
  have leaves := Task.step_leaves quiet state
  cases step : task.step state with
  | stop => trivial
  | go more after =>
    rw [step] at leaves
    obtain ⟨others, agrees⟩ := leaves
    by_cases listing : phase = .listing
    · subst listing
      obtain ⟨rfl, rfl⟩ := Task.turn_listing quiet turn
      obtain ⟨_, rfl⟩ := accept_go step
      exact keeps fits agrees step rfl (fun _ => by simp) fun _ => quiet
    · have order : Analysis.turns phase more = some next := by
        rw [Task.turn_of_quiet quiet listing] at turn
        rw [← turn, turns_of_quiet others listing]
      exact keeps fits agrees step order (absurd · listing) fun _ => quiet

end Step.Turns

/-- What is read behind a word belongs to the phase of its task: only names that are listed stand in another one
than the first. -/
theorem Takes.turns {value : Option Int} {task : Task} {kind : Kind} {more : List Task} {phase next : Phase}
    (takes : Takes value task kind more) (loud : ¬task.isQuiet = true) (turn : task.turn phase = some next) :
    turns phase more = some next ∧ (phase = .idle ∨ phase = .listing ∧ task = .moreNames) := by
  induction takes with
  | accept | skip | rangeIndex | moreIndices | exitCondition | logic | moreLogic | comparison | plus | minus
  | moreTerms | moreFactors | not | exponent | parenthesized | moreArguments => exact absurd rfl loud
  | moreNames =>
    obtain ⟨rfl, ⟨⟩⟩ := Option.ite_none_right_eq_some.mp turn
    exact ⟨rfl, Or.inr ⟨rfl, rfl⟩⟩
  | further _ ih =>
    obtain ⟨rfl, ⟨⟩⟩ := Option.ite_none_right_eq_some.mp turn
    have first := (ih nofun rfl).1
    refine ⟨?_, Or.inl rfl⟩
    rw [turns_append, first]
    rfl
  | _ =>
    obtain ⟨rfl, ⟨⟩⟩ := Option.ite_none_right_eq_some.mp turn
    exact ⟨rfl, Or.inl rfl⟩

/-- A task for which there is nothing in the text does not leave its phase. -/
theorem Task.turn_omits {task : Task} {phase next : Phase} (optional : task.isOptional = true)
    (loud : ¬task.isQuiet = true) (turn : task.turn phase = some next) :
    next = phase ∧ (phase = .idle ∨ phase = .listing ∧ task = .moreNames) := by
  cases task with
  | formalPart | moreParameters | declarations | moreStatements | alternatives =>
    obtain ⟨rfl, ⟨⟩⟩ := Option.ite_none_right_eq_some.mp turn
    exact ⟨rfl, Or.inl rfl⟩
  | moreNames =>
    obtain ⟨rfl, ⟨⟩⟩ := Option.ite_none_right_eq_some.mp turn
    exact ⟨rfl, Or.inr ⟨rfl, rfl⟩⟩
  | declare | openScope | closeScope | names | nextName | setRole | typeDefinition | object | setConstant
  | statement | assignOrCall | assign => cases optional
  | _ => exact absurd rfl loud

theorem Heads.turns {task : Task} {last : Option EntryId → Bool → Task} {others : List Task} {phase next : Phase}
    (heads : Heads task last others) (loud : ¬task.isQuiet = true) (turn : task.turn phase = some next)
    (name : Option EntryId) (indexed : Bool) :
    phase = .idle ∧ turns (.storing name) (last name indexed :: others) = some next := by
  cases heads with
  | statement | further =>
    obtain ⟨rfl, ⟨⟩⟩ := Option.ite_none_right_eq_some.mp turn
    simp [Analysis.turns, Task.turn]
  | primary => exact absurd rfl loud

/-- A task that does not leave the table alone moves it, and leads from a phase that fits to the next one. -/
theorem Goes.turns {tasks later more : List Task} {start state after : State} {task : Task} {phase next : Phase}
    (goes : Goes state task more after) (loud : ¬task.isQuiet = true)
    (reach : Reaches tasks start (task :: later) state) (sound : state.table.Sound)
    (turn : task.turn phase = some next) (fits : Fits tasks start phase (task :: later) state) :
    (Step.go more after).Turns tasks start later state task next := by
  have step := goes.step
  cases goes with
  | takes takes =>
    obtain ⟨order, place⟩ := takes.turns loud turn
    exact .reads fits ⟨rfl, rfl⟩ step order place
  | omits optional =>
    obtain ⟨rfl, place⟩ := Task.turn_omits optional loud turn
    exact .reads fits ⟨rfl, rfl⟩ step rfl place
  | expands expands => cases expands <;> exact absurd rfl loud
  | declare =>
    obtain ⟨⟨rfl, known⟩, ⟨⟩⟩ := Option.ite_none_right_eq_some.mp turn
    exact .declares fits.settled known
  | names atName | objects atName =>
    obtain ⟨rfl, ⟨⟩⟩ := Option.ite_none_right_eq_some.mp turn
    exact .begins reach atName (by simp) sound fits.settled rfl step
  | nextName =>
    obtain ⟨rfl, ⟨⟩⟩ := Option.ite_none_right_eq_some.mp turn
    cases fits with
    | listing reading opened settled listed => exact .nextName reading opened settled listed step
  | typeName _ among =>
    simp only [List.mem_cons, List.not_mem_nil, or_false] at among
    rcases among with rfl | rfl | rfl
    · exact absurd rfl loud
    · obtain ⟨rfl, ⟨⟩⟩ := Option.ite_none_right_eq_some.mp turn
      exact .agree (.name state .typeName) fits.settled rfl
    · exact absurd rfl loud
  | bare _ heads _ =>
    obtain ⟨rfl, order⟩ := heads.turns loud turn state.find.1 false
    exact .found ⟨rfl, rfl⟩ fits.settled order
  | listed _ heads _ =>
    obtain ⟨rfl, order⟩ := heads.turns loud turn state.find.1 true
    have list : Analysis.turns (.storing state.find.1) arguments = some (.storing state.find.1) :=
      turns_of_quiet (by decide) nofun
    exact .found ⟨rfl, rfl⟩ fits.settled (by rw [turns_append, list, Option.bind_some, order])
  | setRole =>
    obtain ⟨⟨rfl, known⟩, ⟨⟩⟩ := Option.ite_none_right_eq_some.mp turn
    exact .gives fits known (by simp) rfl
  | constantObject isConstant =>
    obtain ⟨rfl, ⟨⟩⟩ := Option.ite_none_right_eq_some.mp turn
    exact .defines fits isConstant step
  | typedObject =>
    obtain ⟨rfl, ⟨⟩⟩ := Option.ite_none_right_eq_some.mp turn
    exact .gives fits (by decide) (by simp) rfl
  | setConstant =>
    obtain ⟨rfl, ⟨⟩⟩ := Option.ite_none_right_eq_some.mp turn
    exact .sets sound fits
  | @target name =>
    obtain ⟨rfl, ⟨⟩⟩ := Option.ite_none_right_eq_some.mp turn
    exact .keeps fits ((State.Agrees.check state name .target).trans ⟨rfl, rfl⟩) step
      (by simp [Analysis.turns, Task.turn]) nofun nofun
  | @component name =>
    obtain ⟨rfl, ⟨⟩⟩ := Option.ite_none_right_eq_some.mp turn
    cases fits with
    | storing settled => exact .agree ((State.Agrees.check state name .target).trans ⟨rfl, rfl⟩) settled rfl
  | @call name =>
    obtain ⟨rfl, ⟨⟩⟩ := Option.ite_none_right_eq_some.mp turn
    cases fits with
    | storing settled => exact .agree (.check state name .call) settled rfl
  | assign =>
    obtain ⟨rfl, ⟨⟩⟩ := Option.ite_none_right_eq_some.mp turn
    cases fits with
    | storing settled visible => exact .stores sound settled visible
  | openScope =>
    obtain ⟨rfl, ⟨⟩⟩ := Option.ite_none_right_eq_some.mp turn
    exact ⟨.enter, .idle, rfl, .idle fits.settled⟩
  | closeScope =>
    obtain ⟨rfl, ⟨⟩⟩ := Option.ite_none_right_eq_some.mp turn
    exact .closes fits.settled
  | closingName | print | endLogic | forget | literal | operand | combine => exact absurd rfl loud

/-- A step of an analysis moves the table, and its tasks lead from a phase that fits to the next one. -/
theorem Task.step_turns {tasks later : List Task} {start state : State} {task : Task} {phase next : Phase}
    (reach : Reaches tasks start (task :: later) state) (sound : state.table.Sound)
    (turn : task.turn phase = some next) (fits : Fits tasks start phase (task :: later) state) :
    (task.step state).Turns tasks start later state task next := by
  by_cases quiet : task.isQuiet = true
  · exact .quietly quiet turn fits
  · refine task.step_cases state (fun goes => ?_) fun _ => trivial
    exact goes.turns quiet reach sound turn fits

section Runs

variable {tasks left later more : List Task} {task : Task} {start state after : State}

/-- A step from a point that fits the tasks left to do there, and the phase behind it. -/
theorem Task.step_fits (reach : Reaches tasks start (task :: later) state) (sound : state.table.Sound)
    (fits : ∃ phase, turns phase (task :: later) = some .idle ∧
      Fits tasks start phase (task :: later) state) :
    ∃ next, turns next later = some .idle ∧ (task.step state).Turns tasks start later state task next := by
  obtain ⟨phase, order, fits⟩ := fits
  rw [turns_cons] at order
  obtain ⟨next, turn, order⟩ := Option.bind_eq_some_iff.mp order
  exact ⟨next, order, Task.step_turns reach sound turn fits⟩

/-- Wherever an analysis comes to, it fits the phase that the tasks left to do belong to. -/
theorem Reaches.fits (whole : turns .idle tasks = some .idle) (sound : start.Sound)
    (reach : Reaches tasks start left state) :
    ∃ phase, turns phase left = some .idle ∧ Fits tasks start phase left state := by
  induction reach with
  | start =>
    refine ⟨.idle, whole, .idle fun id entry new found => ?_⟩
    exact absurd (Table.lt_size_of_entry found) (Nat.not_lt.mpr new)
  | step reach step ih =>
    obtain ⟨next, order, leads⟩ := Task.step_fits reach (invariant_sound.reaches reach sound).table ih
    rw [step] at leads
    obtain ⟨_, between, inside, fits⟩ := leads
    exact ⟨between, by rw [turns_append, inside, Option.bind_some, order], fits⟩

/-- Every step of an analysis is one of the moves. -/
theorem Reaches.moves (whole : turns .idle tasks = some .idle) (sound : start.Sound)
    (reach : Reaches tasks start (task :: later) state) (step : task.step state = .go more after) :
    Moves tasks start later state task after.table := by
  obtain ⟨_, _, leads⟩ :=
    Task.step_fits reach (invariant_sound.reaches reach sound).table (reach.fits whole sound)
  rw [step] at leads
  exact leads.1

/-- Behind an analysis that goes through, whatever it has declared has a role. -/
theorem Reaches.settled (whole : turns .idle tasks = some .idle) (sound : start.Sound)
    (reach : Reaches tasks start [] state) : state.table.Settled start.table.entries.size := by
  obtain ⟨phase, order, fits⟩ := reach.fits whole sound
  obtain rfl := Option.some.inj order
  exact fits.settled

end Runs

theorem turns_compilation : turns .idle compilation = some .idle := rfl

end Analysis

end AdaFront
