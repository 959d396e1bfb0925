import AdaFront.Proofs.Actions

namespace AdaFront.Analysis

/-- The number of scopes that are open behind a task. -/
def Task.opens : Task → Nat → Nat
  | .openScope, depth => depth + 1
  | .closeScope, depth => depth - 1
  | _, depth => depth

theorem Task.opens_of_flat {task : Task} (noOpen : task ≠ .openScope) (noClose : task ≠ .closeScope)
    (depth : Nat) : task.opens depth = depth := by
  cases task with
  | openScope => exact absurd rfl noOpen
  | closeScope => exact absurd rfl noClose
  | _ => rfl

/-- Tasks that are done within a number of open scopes: they close these and those that they open, and
nothing but the opening of a scope is left for the time when none of them is open. -/
def Nests : Nat → List Task → Prop
  | depth, [] => depth = 0
  | depth, task :: tasks => (task = .openScope ∨ 0 < depth) ∧ Nests (task.opens depth) tasks

/-- Tasks that can be put in wherever a scope is open. -/
def Level (tasks : List Task) : Prop :=
  ∀ depth later, 0 < depth → Nests depth later → Nests depth (tasks ++ later)

theorem level_of_flat {tasks : List Task} (noOpen : .openScope ∉ tasks) (noClose : .closeScope ∉ tasks) :
    Level tasks := by
  induction tasks with
  | nil => exact fun _ _ _ nests => nests
  | cons task tasks ih =>
    intro depth later inside nests
    rw [List.mem_cons, not_or] at noOpen noClose
    refine ⟨Or.inr inside, ?_⟩
    rw [task.opens_of_flat (Ne.symm noOpen.1) (Ne.symm noClose.1)]
    exact ih noOpen.2 noClose.2 depth later inside nests

theorem Level.append {first second : List Task} (level : Level first) (level' : Level second) :
    Level (first ++ second) := by
  intro depth later inside nests
  rw [List.append_assoc]
  exact level depth _ inside (level' depth later inside nests)

theorem level_subprogram : Level subprogram := by
  intro depth later inside nests
  simpa [subprogram, Nests, Task.opens, inside] using nests

/-- What a step leaves to do closes the scopes that it opens. A step that stops does nothing but report
that the current token does not fit. -/
def Step.Shaped (state : State) : Step → Prop
  | .go tasks _ => Level tasks
  | .stop rejection after => rejection.token = state.token ∧ after = state.report (.rejected rejection)

theorem Takes.level {value : Option Int} {task : Task} {kind : Kind} {tasks : List Task}
    (takes : Takes value task kind tasks) : Level tasks := by
  induction takes with
  | procedure => exact level_subprogram.append (level_of_flat (by decide) (by decide))
  | further _ ih => exact ih.append (level_of_flat (by decide) (by decide))
  | _ => exact level_of_flat (by simp [parameter, range]) (by simp [parameter, range])

theorem Expands.level {kind : Kind} {task : Task} {tasks : List Task} (expands : Expands kind task tasks) :
    Level tasks := by
  cases expands <;> exact level_of_flat (by decide) (by decide)

theorem Heads.level {task : Task} {last : Option EntryId → Bool → Task} {later : List Task}
    (heads : Heads task last later) (name : Option EntryId) (indexed : Bool) :
    Level (last name indexed :: later) := by
  cases heads <;> exact level_of_flat (by simp) (by simp)

theorem Goes.level {state after : State} {task : Task} {tasks : List Task}
    (goes : Goes state task tasks after) : Level tasks := by
  have arguments : Level arguments := level_of_flat (by decide) (by decide)
  cases goes with
  | takes takes => exact takes.level
  | expands expands => exact expands.level
  | bare _ heads _ => exact heads.level _ _
  | listed _ heads _ => exact arguments.append (heads.level _ _)
  | _ => exact level_of_flat (by simp) (by simp)

theorem Task.step_shaped (state : State) (task : Task) : (task.step state).Shaped state :=
  task.step_cases state Goes.level fun _ => ⟨rfl, rfl⟩

/-- An action adds names to the innermost scope at most. -/
theorem Action.scopes {state after : State} {frame : Frame} {outer : List Frame}
    (action : Action state after) (sound : state.Sound) (scopes : state.table.scopes = frame :: outer) :
    ∃ more, after.table.scopes = (frame ++ more) :: outer := by
  rcases action.performs sound with same | ⟨_, _, performs, noEnter, noExit⟩
  · exact ⟨[], by rw [same, List.append_nil, scopes]⟩
  · exact performs.scopes_of_flat noEnter noExit scopes

theorem Acts.scopes {state after : State} {frame : Frame} {outer : List Frame}
    (acts : Acts state after) (sound : state.Sound) (scopes : state.table.scopes = frame :: outer) :
    ∃ more, after.table.scopes = (frame ++ more) :: outer := by
  induction acts with
  | refl => exact ⟨[], by rw [List.append_nil, scopes]⟩
  | tail acts action ih =>
    obtain ⟨more, within⟩ := ih
    obtain ⟨others, extended⟩ := action.scopes (invariant_sound.acts acts sound) within
    exact ⟨more ++ others, by rw [extended, List.append_assoc]⟩

/-- A required token that is there is what the step goes on from. -/
theorem require_go {kind : Kind} {state after : State} {step : Step} {tasks : List Task}
    (required : state.require kind step = .go tasks after) :
    state.kind = kind ∧ step = .go tasks after := by
  unfold State.require at required
  split at required
  next same => exact ⟨same, required⟩
  next => cases required

section Scopes

variable {state after : State} {tasks left later : List Task} {frames base : List Frame} {task : Task}

theorem Task.step_scopes (sound : state.Sound) (nests : Nests frames.length (task :: later))
    (scopes : state.table.scopes = frames ++ base) :
    ∃ inner, inner.length = task.opens frames.length ∧
      (task.step state).state.table.scopes = inner ++ base := by
  by_cases opening : task = .openScope
  · subst opening
    exact ⟨[] :: frames, rfl, congrArg ([] :: ·) scopes⟩
  · cases frames with
    | nil => exact absurd (nests.1.resolve_left opening) (Nat.lt_irrefl _)
    | cons frame frames =>
      by_cases closing : task = .closeScope
      · subst closing
        refine ⟨frames, rfl, ?_⟩
        rw [Task.step, Step.state_go, State.table_closeScope, scopes]
        rfl
      · obtain ⟨more, extended⟩ := Acts.scopes (Task.step_acts state opening closing) sound scopes
        exact ⟨(frame ++ more) :: frames, (task.opens_of_flat opening closing _).symm, extended⟩

theorem Task.step_nests {depth : Nat} (nests : Nests depth (task :: later))
    (step : task.step state = .go tasks after) : Nests (task.opens depth) (tasks ++ later) := by
  obtain ⟨inside, nests⟩ := nests
  by_cases opening : task = .openScope
  · subst opening
    obtain ⟨rfl, _⟩ := Step.go.inj step
    exact nests
  · by_cases closing : task = .closeScope
    · subst closing
      obtain ⟨rfl, _⟩ := Step.go.inj step
      exact nests
    · have level := Task.step_shaped state task
      rw [step] at level
      rw [task.opens_of_flat opening closing] at nests ⊢
      exact level depth later (inside.resolve_left opening) nests

/-- The scopes around an analysis stay as they are, and what is left to do closes those inside. -/
theorem Reaches.scopes (nests : Nests frames.length tasks) (sound : state.Sound)
    (scopes : state.table.scopes = frames ++ base) (reach : Reaches tasks state left after) :
    ∃ inner, Nests inner.length left ∧ after.table.scopes = inner ++ base := by
  induction reach with
  | start => exact ⟨frames, nests, scopes⟩
  | @step task tasks later before after reach step ih =>
    obtain ⟨inner, nests, within⟩ := ih
    obtain ⟨inner', length, scopes'⟩ :=
      Task.step_scopes (invariant_sound.reaches reach sound) nests within
    rw [step] at scopes'
    exact ⟨inner', length ▸ Task.step_nests nests step, scopes'⟩

end Scopes

/-- The table has the entry with the name and the role, and it is not one of the names listed last. -/
def State.Keeps (state : State) (id : EntryId) (name : String) (role : Role) : Prop :=
  ∃ entry, state.table.entry? id = some entry ∧ entry.name = name ∧ entry.role = role ∧
    state.group ≠ some entry.group

/-- Roles are set for the names listed last only. -/
theorem Action.keeps {state after : State} {id : EntryId} {name : String} {role : Role}
    (action : Action state after) (sound : state.Sound) (keeps : state.Keeps id name role) :
    after.Keeps id name role := by
  have linked := sound.table.toLinked
  obtain ⟨entry, found, sameName, sameRole, apart⟩ := keeps
  have valued (group : GroupId) (value : Option Value) :
      ({ state with table := state.table.setValue group value } : State).Keeps id name role := by
    have atId : Table.entry? (state.table.setValue group value) id = _ := linked.entry?_update id
    rw [found, Option.map_some] at atId
    refine ⟨_, atId, ?_⟩
    dsimp only
    split
    · exact ⟨sameName, sameRole, apart⟩
    · exact ⟨sameName, sameRole, apart⟩
  cases action with
  | declare declared =>
    exact ⟨entry, (performs_of_declare declared).entry?_of_declares rfl found, sameName, sameRole, apart⟩
  | join _ declared =>
    have performs := performs_of_declareIn linked declared
    exact ⟨entry, performs.entry?_of_declares rfl found, sameName, sameRole, apart⟩
  | found _ declared =>
    have performs := performs_of_declare declared
    refine ⟨entry, performs.entry?_of_declares rfl found, sameName, sameRole, ?_⟩
    obtain ⟨ids, old, _⟩ := linked.joined (congrArg (Option.map Entry.group) found)
    have bound := Table.lt_size_of_members? old
    intro same
    cases performs with
    | declare =>
      rw [Table.groupOf?_withEntry, if_pos rfl] at same
      exact absurd (Option.some.inj same).symm (Nat.ne_of_lt bound)
    | ask _ asks => cases asks
  | @setRole group role' same =>
    have atId : Table.entry? (state.table.setRole group role') id = _ := linked.entry?_update id
    have other : entry.group ≠ group := fun member => apart (member ▸ same)
    rw [found, Option.map_some, if_neg other] at atId
    exact ⟨entry, atId, sameName, sameRole, apart⟩
  | setConstant value => exact valued _ _
  | assign value => exact valued _ _
  | ungroup => exact ⟨entry, found, sameName, sameRole, nofun⟩
  | _ => exact ⟨entry, found, sameName, sameRole, apart⟩

theorem invariant_keeps (id : EntryId) (name : String) (role : Role) :
    Invariant fun state => state.Sound ∧ state.Keeps id name role where
  act action holds := ⟨action.sound holds.1, action.keeps holds.1 holds.2⟩
  openScope holds := ⟨holds.1.openScope, holds.2⟩
  closeScope {state} holds := by
    refine ⟨holds.1.closeScope, ?_⟩
    rw [State.Keeps, state.table_closeScope, state.group_closeScope]
    exact holds.2

/-- The innermost scope has one more name at its end, that of a procedure which keeps its entry. -/
def State.Adds (state : State) (name : String) (before scopes : List Frame) : Prop :=
  ∃ frame outer id, before = frame :: outer ∧ frame.lookup name = none ∧
    scopes = (frame ++ [(name, id)]) :: outer ∧ state.Keeps id name .procedure

/-- The scopes are as they were, but the innermost one may have the name of one more procedure. -/
def Gains (name : String) (before scopes : List Frame) (table : Table) : Prop :=
  scopes = before ∨ ∃ frame outer id entry, before = frame :: outer ∧ frame.lookup name = none ∧
    scopes = (frame ++ [(name, id)]) :: outer ∧ table.entry? id = some entry ∧ entry.name = name ∧
    entry.role = .procedure

theorem State.Adds.gains {state : State} {name : String} {before scopes : List Frame}
    (adds : state.Adds name before scopes) : Gains name before scopes state.table := by
  obtain ⟨frame, outer, id, same, new, extended, entry, atId, sameName, sameRole, _⟩ := adds
  exact Or.inr ⟨frame, outer, id, entry, same, new, extended, atId, sameName, sameRole⟩

theorem Gains.ne_nil {name : String} {before scopes : List Frame} {table : Table}
    (gains : Gains name before scopes table) (inside : before ≠ []) : scopes ≠ [] := by
  rcases gains with rfl | ⟨_, _, _, _, _, _, rfl, _⟩
  · exact inside
  · exact List.cons_ne_nil _ _

theorem Gains.length {name : String} {before scopes : List Frame} {table : Table}
    (gains : Gains name before scopes table) : scopes.length = before.length := by
  rcases gains with rfl | ⟨_, _, _, _, rfl, _, rfl, _⟩
  · rfl
  · rfl

section Subprogram

variable {point opened after : State} {left : List Task}

/-- A procedure name that can be declared is the last one of the innermost scope. -/
theorem State.declare_adds {id : EntryId} {table : Table} (sound : point.Sound)
    (declared : point.table.declare point.token.lexeme .procedure = .ok (id, table)) :
    (point.declare .procedure).Adds point.token.lexeme point.table.scopes
      (point.declare .procedure).table.scopes := by
  have same : point.declare .procedure = { point.advance with table := table } := by
    unfold declare
    dsimp only
    split
    next _ _ granted =>
      obtain ⟨_, rfl⟩ := Prod.mk.inj (Except.ok.inj (declared.symm.trans granted))
      rfl
    next _ refused => cases declared.symm.trans refused
  have performs := performs_of_declare declared
  rw [same]
  cases performs with
  | declare scopes new =>
    refine ⟨_, _, _, scopes, new, rfl, _, (Table.entry?_withEntry _ _).trans (if_pos rfl), rfl, rfl, ?_⟩
    exact fun listed => Nat.lt_irrefl _ (sound.group listed)
  | ask _ asks => cases asks

theorem State.declare_scopes (sound : point.Sound) :
    (point.declare .procedure).table.scopes = point.table.scopes ∨
      (point.declare .procedure).Adds point.token.lexeme point.table.scopes
        (point.declare .procedure).table.scopes := by
  cases declared : point.table.declare point.token.lexeme .procedure with
  | ok result => exact Or.inr (declare_adds sound declared)
  | error error =>
    left
    unfold declare
    dsimp only
    split
    next _ _ granted => cases declared.symm.trans granted
    next => rfl

/-- A procedure behind its name, with the scope that it opens. -/
def block : List Task :=
  [.openScope, .formalPart, .accept .kwIs, .declarations, .accept .kwBegin, .statement, .moreStatements,
   .accept .kwEnd, .closeScope]

/-- The end of a procedure, where its name may stand again. -/
def ending : List Task := [.closingName, .accept .semicolon]

theorem State.table_find (state : State) : state.find.2.table = state.table := by
  unfold find
  dsimp only
  split <;> rfl

theorem State.table_check (state : State) (name : Option EntryId) (use : NameUse) :
    (state.check name use).table = state.table := by
  unfold check
  split
  · split <;> rfl
  · rfl

/-- The end of a procedure leaves the table alone. -/
theorem Reaches.table_ending (reach : Reaches ending opened left after) :
    after.table = opened.table ∧ ∀ task ∈ left, task ∈ ending := by
  induction reach with
  | start => exact ⟨rfl, fun _ member => member⟩
  | @step task tasks later before after _ step ih =>
    obtain ⟨same, inside⟩ := ih
    obtain ⟨atTask, others⟩ := List.forall_mem_cons.mp inside
    suffices tasks = [] ∧ after.table = before.table by
      obtain ⟨rfl, kept⟩ := this
      exact ⟨kept.trans same, others⟩
    rcases List.mem_cons.mp atTask with rfl | atTask
    · rw [Task.step] at step
      split at step
      · obtain ⟨rfl, rfl⟩ := Step.go.inj step
        exact ⟨rfl, (State.table_check _ _ _).trans before.table_find⟩
      · obtain ⟨rfl, rfl⟩ := Step.go.inj step
        exact ⟨rfl, rfl⟩
    · obtain rfl := List.mem_singleton.mp atTask
      obtain ⟨rfl, rfl⟩ := Step.go.inj (require_go step).2
      exact ⟨rfl, rfl⟩

/-- Behind its name a procedure leaves the scopes around it alone, and its own is closed when its end is
to be read. -/
theorem Reaches.block_scopes (sound : opened.Sound) (reach : Reaches (block ++ ending) opened left after) :
    ∃ inner, after.table.scopes = inner ++ opened.table.scopes ∧
      (inner = [] ∨ ∃ inside, left = inside ++ ending ∧ inside ≠ []) := by
  have nests : Nests ([] : List Frame).length block := by simp [Nests, block, Task.opens]
  rcases reach.split with ⟨inside, same, first⟩ | ⟨between, first, second⟩
  · obtain ⟨inner, nests, scopes⟩ := first.scopes nests sound rfl
    refine ⟨inner, scopes, ?_⟩
    cases inside with
    | nil => exact Or.inl (List.eq_nil_of_length_eq_zero nests)
    | cons task inside => exact Or.inr ⟨task :: inside, same, List.cons_ne_nil _ _⟩
  · obtain ⟨inner, nests, scopes⟩ := first.scopes nests sound rfl
    refine ⟨inner, ?_, Or.inl (List.eq_nil_of_length_eq_zero nests)⟩
    rw [second.table_ending.1, scopes]

theorem Reaches.of_subprogram (reach : Reaches subprogram point left after) :
    (left = subprogram ∧ after = point) ∨
      point.kind = .identifier ∧ Reaches (block ++ ending) (point.declare .procedure) left after := by
  rcases reach.first with atStart | ⟨tasks, between, step, reach⟩
  · exact Or.inl atStart
  · obtain ⟨atName, same⟩ := require_go step
    obtain ⟨rfl, rfl⟩ := Step.go.inj same
    exact Or.inr ⟨atName, reach⟩

theorem State.Sound.declare (sound : point.Sound) (role : Role) : (point.declare role).Sound :=
  invariant_sound.acts (point.acts_declare role) sound

/-- Wherever an analysis is within a procedure, the scopes around it are there, and the innermost of them
may have got the name of the procedure. -/
theorem Reaches.subprogram_gains (sound : point.Sound) (reach : Reaches subprogram point left after) :
    ∃ inner outer, after.table.scopes = inner ++ outer ∧
      Gains point.token.lexeme point.table.scopes outer after.table ∧ (left = [] → inner = []) := by
  rcases reach.of_subprogram with ⟨rfl, rfl⟩ | ⟨_, reach⟩
  · exact ⟨[], _, rfl, Or.inl rfl, nofun⟩
  · obtain ⟨inner, scopes, closed⟩ := reach.block_scopes (sound.declare _)
    refine ⟨inner, _, scopes, ?_, fun finished => closed.resolve_right ?_⟩
    · rcases State.declare_scopes sound with same | ⟨frame, outer, id, before, new, extended, keeps⟩
      · exact Or.inl same
      · have kept := (invariant_keeps _ _ _).reaches reach ⟨sound.declare _, keeps⟩
        exact State.Adds.gains ⟨frame, outer, id, before, new, extended, kept.2⟩
    · rintro ⟨inside, same, _⟩
      exact absurd (finished.symm.trans same).symm (by simp [ending])

/-- A closing name that is the name of the procedure is passed over, if the procedure has been
declared. -/
theorem Reaches.closingName_step {id : EntryId} {table : Table} (sound : point.Sound)
    (declared : point.table.declare point.token.lexeme .procedure = .ok (id, table))
    (reach : Reaches subprogram point ending after) (atName : after.kind = .identifier)
    (sameName : after.token.lexeme = point.token.lexeme) :
    Task.closingName.step after = .go [] after.advance := by
  rcases reach.of_subprogram with ⟨same, _⟩ | ⟨_, reach⟩
  · cases same
  · obtain ⟨inner, scopes, closed⟩ := reach.block_scopes (sound.declare _)
    have nothing : inner = [] := by
      refine closed.resolve_right ?_
      rintro ⟨inside, same, unfinished⟩
      exact unfinished (List.append_left_eq_self.mp same.symm)
    obtain ⟨frame, outer, id, _, new, extended, keeps⟩ := State.declare_adds sound declared
    have kept := ((invariant_keeps _ _ _).reaches reach ⟨sound.declare _, keeps⟩).2
    obtain ⟨entry, atId, _, isProcedure, _⟩ := kept
    rw [nothing, List.nil_append, extended] at scopes
    have lookup : after.advance.table.lookup after.token.lexeme = .ok id := by
      have inFrame : (frame ++ [(point.token.lexeme, id)]).lookup point.token.lexeme = some id := by
        rw [List.lookup_append, new, Option.none_or, List.lookup_cons_self]
      change after.table.lookup _ = _
      rw [sameName, Table.lookup, scopes, List.findSome?_cons, inFrame]
    have found : after.find = (some id, after.advance) := by
      unfold State.find
      dsimp only
      rw [lookup]
    have fits : after.advance.check (some id) .call = after.advance := by
      have atId : after.advance.table.entry? id = some entry := atId
      rw [State.check, Option.bind_some, atId]
      exact if_pos (Or.inr (by rw [isProcedure]; decide))
    rw [Goes.step (.closingName atName), found]
    exact congrArg (Step.go []) fits

end Subprogram

/-- A procedure from its keyword on. -/
def body : List Task := .accept .kwProcedure :: subprogram

theorem Reaches.body_gains {point after : State} {left : List Task} (sound : point.Sound)
    (reach : Reaches body point left after) :
    ∃ inner outer, after.table.scopes = inner ++ outer ∧
      Gains point.advance.token.lexeme point.table.scopes outer after.table ∧
      (left = [] → inner = []) := by
  rcases reach.first with ⟨rfl, rfl⟩ | ⟨tasks, between, step, reach⟩
  · exact ⟨[], _, rfl, Or.inl rfl, nofun⟩
  · obtain ⟨rfl, rfl⟩ := Step.go.inj (require_go step).2
    exact reach.subprogram_gains (invariant_sound.acts point.acts_advance sound)

section Compile

variable {start between after : State} {left : List Task}

theorem Reaches.closing_cases (reach : Reaches closing between left after) :
    (left = closing ∧ after = between) ∨ between.kind = .endOfInput ∧
      ((left = [.closeScope] ∧ after = between.advance) ∨
        (left = [] ∧ after = between.advance.closeScope)) := by
  induction reach with
  | start => exact Or.inl ⟨rfl, rfl⟩
  | @step task tasks later before after _ step ih =>
    right
    rcases ih with ⟨same, rfl⟩ | ⟨atEnd, ⟨same, rfl⟩ | ⟨same, _⟩⟩
    · obtain ⟨rfl, rfl⟩ := List.cons.inj same
      obtain ⟨atEnd, advanced⟩ := require_go step
      obtain ⟨rfl, rfl⟩ := Step.go.inj advanced
      exact ⟨atEnd, Or.inl ⟨rfl, rfl⟩⟩
    · obtain ⟨rfl, rfl⟩ := List.cons.inj same
      obtain ⟨rfl, rfl⟩ := Step.go.inj step
      exact ⟨atEnd, Or.inr ⟨rfl, rfl⟩⟩
    · cases same

/-- An analysis that goes through comes to the end of the input, and closes the innermost scope there was
before its program. -/
theorem State.Sound.compile_finished (sound : start.Sound)
    (finished : (compile start).rejection = none) :
    start.kind = .kwProcedure ∧ (compile start).state.kind = .endOfInput ∧ ∃ scopes table,
      Gains start.advance.token.lexeme start.table.scopes scopes table ∧
      (compile start).state.table.scopes = scopes.tail := by
  have reach := run_finished finished
  rcases reach.first with ⟨same, _⟩ | ⟨_, _, step, _⟩
  · cases same
  obtain ⟨atStart, _⟩ := accept_go step
  have whole : Reaches (body ++ closing) start [] (compile start).state := reach
  rcases whole.split with ⟨inside, same, _⟩ | ⟨between, first, second⟩
  · exact absurd same.symm (by simp [closing])
  · obtain ⟨inner, outer, scopes, gains, ended⟩ := first.body_gains sound
    rw [ended rfl, List.nil_append] at scopes
    rcases second.closing_cases with ⟨same, _⟩ | ⟨atEnd, ⟨same, _⟩ | ⟨_, same⟩⟩
    · cases same
    · cases same
    · have ends := (invariant_sound.reaches first sound).ends
      obtain ⟨spot, journal, last⟩ := ends.eq_last atEnd
      refine ⟨atStart, ?_, outer, _, gains, ?_⟩
      · rw [same, State.kind, State.token, State.feed_closeScope, State.advance, last]
        rfl
      · rw [same, State.table_closeScope, ← scopes]
        rfl

/-- An analysis that stops keeps the scopes there were. -/
theorem State.Sound.compile_stopped (sound : start.Sound) {rejection : Rejection}
    (stopped : (compile start).rejection = some rejection) :
    (start.kind = .endOfInput → (compile start).state.kind = .endOfInput) ∧
      ∃ inner outer, (compile start).state.table.scopes = inner ++ outer ∧
        Gains start.advance.token.lexeme start.table.scopes outer (compile start).state.table := by
  obtain ⟨task, later, before, reach, _, last⟩ := run_stopped stopped
  have last : (compile start).state = before.report (.rejected rejection) := last
  rw [last]
  constructor
  · intro atEnd
    rcases reach.first with ⟨_, rfl⟩ | ⟨_, _, first, _⟩
    · exact atEnd
    · cases atEnd.symm.trans (accept_go first).1
  · have whole : Reaches (body ++ closing) start (task :: later) before := reach
    rcases whole.split with ⟨inside, _, first⟩ | ⟨between, first, second⟩
    · obtain ⟨inner, outer, scopes, gains, _⟩ := first.body_gains sound
      exact ⟨inner, outer, scopes, gains⟩
    · obtain ⟨inner, outer, scopes, gains, _⟩ := first.body_gains sound
      have table : before.table = between.table := by
        rcases second.closing_cases with ⟨_, rfl⟩ | ⟨_, ⟨_, rfl⟩ | ⟨same, _⟩⟩
        · rfl
        · rfl
        · cases same
      exact ⟨inner, outer, (congrArg Table.scopes table).trans scopes,
        (congrArg (Gains _ _ outer) table).mpr gains⟩

end Compile

/-- A state from which a program can be analysed: it is sound, and where no scope is open the input has
ended. -/
structure State.Resumable (state : State) : Prop extends Sound state where
  inside : state.table.scopes ≠ [] ∨ state.kind = .endOfInput

theorem State.Resumable.compile {start : State} (resumable : start.Resumable) :
    (compile start).state.Resumable := by
  refine ⟨invariant_sound.run resumable.toSound, ?_⟩
  cases stopped : (Analysis.compile start).rejection with
  | none => exact Or.inr (resumable.toSound.compile_finished stopped).2.1
  | some rejection =>
    obtain ⟨atEnd, inner, outer, scopes, gains⟩ := resumable.toSound.compile_stopped stopped
    refine resumable.inside.imp (fun inside => ?_) atEnd
    rw [scopes]
    exact List.append_ne_nil_of_right_ne_nil _ (gains.ne_nil inside)

/-- The state behind a number of analyses, each of which goes on where the one before has ended. -/
def again : Nat → State → State
  | 0, state => state
  | calls + 1, state => (compile (again calls state)).state

/-- What no step can break holds behind each of them. -/
theorem Invariant.again {Holds : State → Prop} {state : State} (invariant : Invariant Holds) (calls : Nat)
    (holds : Holds state) : Holds (again calls state) := by
  induction calls with
  | zero => exact holds
  | succ calls ih => exact invariant.run ih

theorem resumable_again (scanner : Scanner) (calls : Nat) : (again calls (.ofScanner scanner)).Resumable := by
  induction calls with
  | zero => exact ⟨sound_ofScanner scanner, Or.inl (List.cons_ne_nil _ _)⟩
  | succ calls ih => exact ih.compile

/-- A procedure that is read leaves the scopes as it has found them, but for its own name, which may have
come to the innermost one. An analysis that goes through closes one scope, one that stops closes none
of those it has found. The name of a procedure that could be declared is no error at its end. -/
theorem compile_scopes (scanner : Scanner) (calls : Nat) :
    let start := again calls (.ofScanner scanner)
    let last := (compile start).state
    (∀ left point, Reaches compilation start left point → (run body point).rejection = none →
      Gains point.advance.token.lexeme point.table.scopes (run body point).state.table.scopes
        (run body point).state.table) ∧
    ((compile start).rejection = none →
      last.table.level = start.table.level - 1 ∧ (calls = 0 → last.table.level = -1)) ∧
    ((compile start).rejection ≠ none → start.table.level ≤ last.table.level ∧
      ∃ inner outer, last.table.scopes = inner ++ outer ∧
        Gains start.advance.token.lexeme start.table.scopes outer last.table) ∧
    ∀ later point close id table, Reaches compilation start (subprogram ++ later) point →
      point.table.declare point.token.lexeme .procedure = .ok (id, table) →
      Reaches subprogram point [.closingName, .accept .semicolon] close →
      close.kind = .identifier → close.token.lexeme = point.token.lexeme →
      Task.closingName.step close = .go [] close.advance := by
  intro start last
  have resumable := resumable_again scanner calls
  have sound := resumable.toSound
  refine ⟨fun left point reach finished => ?_, fun finished => ?_, fun stopped => ?_,
    fun later point close id table reach declared inside => ?_⟩
  · rcases run_reaches body point with ⟨_, within⟩ | ⟨_, _, _, _, _, _, stopped⟩
    · obtain ⟨inner, outer, scopes, gains, ended⟩ :=
        within.body_gains (invariant_sound.reaches reach sound)
      rw [ended rfl, List.nil_append] at scopes
      exact scopes ▸ gains
    · cases finished.symm.trans stopped
  · obtain ⟨atStart, _, scopes, table, gains, closed⟩ := sound.compile_finished finished
    have inside : start.table.scopes ≠ [] := by
      refine resumable.inside.resolve_right fun atEnd => ?_
      cases atEnd.symm.trans atStart
    have level : last.table.level = start.table.level - 1 := by
      have positive := List.length_pos_iff.mpr inside
      have count : last.table.scopes.length = start.table.scopes.length - 1 := by
        rw [closed, List.length_tail, gains.length]
      rw [Table.level, Table.level, count]
      omega
    refine ⟨level, ?_⟩
    rintro rfl
    exact level
  · obtain ⟨rejection, same⟩ := Option.ne_none_iff_exists'.mp stopped
    obtain ⟨_, inner, outer, scopes, gains⟩ := sound.compile_stopped same
    refine ⟨?_, inner, outer, scopes, gains⟩
    have count : last.table.scopes.length = inner.length + start.table.scopes.length := by
      rw [scopes, List.length_append, gains.length]
    rw [Table.level, Table.level, count]
    omega
  · exact inside.closingName_step (invariant_sound.reaches reach sound) declared

end AdaFront.Analysis
