import AdaFront.Proofs.ExpressionWalk

namespace AdaFront.Analysis

open AdaFront.Tree (Lexeme identifier word)

/-- An analysis of the whole text and a walk over its tree have come to the same point. There are
scopes around the innermost one, as many as the level says. -/
structure Mirrors (whole : List Lexeme) (level : Nat) (state : State) (walk : Walk) : Prop where
  linked : state.table.Linked
  env : walk.env = state.table.env
  level : state.table.scopes.length = level + 1
  trace : walk.trace = state.effects
  searched : state.feed.Searched
  prints : ∃ read, whole = read ++ state.lexemes ∧ (read.map Prod.fst).count .kwPrint = walk.prints

namespace Mirrors

variable {whole rest : List Lexeme} {level : Nat} {state after : State} {walk : Walk}
  {remarks : List Diagnostic}

theorem ready (mirrors : Mirrors whole level state walk) : Ready walk.scope state :=
  ⟨mirrors.searched, mirrors.linked,
    mirrors.linked.scope_env.symm.trans (congrArg Environment.scope mirrors.env.symm)⟩

/-- The innermost scope. -/
theorem inside (mirrors : Mirrors whole level state walk) :
    ∃ frame outer, state.table.scopes = frame :: outer ∧ outer.length = level := by
  have length := mirrors.level
  cases scopes : state.table.scopes with
  | nil =>
    rw [scopes] at length
    cases length
  | cons frame outer =>
    rw [scopes] at length
    exact ⟨frame, outer, rfl, Nat.succ.inj length⟩

theorem say (mirrors : Mirrors whole level state walk) (leads : Leads state after rest remarks) :
    Mirrors whole level after (walk.say remarks) := by
  obtain ⟨read, whole, count⟩ := mirrors.prints
  obtain ⟨more, next, quiet⟩ := leads.read
  refine ⟨leads.table ▸ mirrors.linked, mirrors.env.trans (congrArg Table.env leads.table.symm),
    (congrArg (·.scopes.length) leads.table).trans mirrors.level, ?_, leads.searched,
    read ++ more, ?_, ?_⟩
  · rw [Walk.say, leads.effects, mirrors.trace]
  · rw [whole, next, leads.lexemes, List.append_assoc]
  · have none : (more.map Prod.fst).count .kwPrint = 0 := by
      rw [List.count_eq_zero]
      intro member
      obtain ⟨lexeme, inside, same⟩ := List.mem_map.mp member
      exact quiet lexeme inside same
    rw [List.map_append, List.count_append, count, none]
    rfl

/-- What is said in two portions is said at once. -/
theorem say_again {more : List Diagnostic} (mirrors : Mirrors whole level state (walk.say remarks))
    (leads : Leads state after rest more) : Mirrors whole level after (walk.say (remarks ++ more)) := by
  have same : (walk.say remarks).say more = walk.say (remarks ++ more) := by
    simp only [Walk.say, List.map_append, List.append_assoc]
  exact same ▸ mirrors.say leads

/-- A way with nothing to say. -/
theorem quietly (mirrors : Mirrors whole level state walk) (leads : Leads state after rest []) :
    Mirrors whole level after walk := by
  have same : walk.say [] = walk := by rw [Walk.say, List.map_nil, List.append_nil]
  exact same ▸ mirrors.say leads

/-- The word that begins a print statement is counted. -/
theorem advance_print (mirrors : Mirrors whole level state walk)
    (same : state.lexemes = word .kwPrint :: rest) :
    Mirrors whole level state.advance { walk with prints := walk.prints + 1 } := by
  obtain ⟨read, whole, count⟩ := mirrors.prints
  have searched := mirrors.searched.advance
  refine ⟨mirrors.linked, mirrors.env, mirrors.level,
    mirrors.trace.trans (Journal.effects_search searched.journal state.journal).symm, searched,
    read ++ [word .kwPrint], ?_, ?_⟩
  · rw [whole, same, State.lexemes_advance same, List.append_assoc]
    rfl
  · rw [List.map_append, List.count_append, count]
    rfl

theorem print (mirrors : Mirrors whole level state walk) (value : Int) :
    Mirrors whole level (state.log (.printed value))
      { walk with trace := walk.trace ++ [.printed value] } := by
  have shown : (state.log (.printed value)).effects = state.effects ++ [.printed value] :=
    Journal.effects_cons _ _
  exact ⟨mirrors.linked, mirrors.env, mirrors.level, mirrors.trace ▸ shown.symm, mirrors.searched,
    mirrors.prints⟩

/-- A change of the table alone. -/
theorem ofTable {table : Table} {env : Environment} (mirrors : Mirrors whole level state walk)
    (linked : table.Linked) (same : env = table.env) (length : table.scopes.length = level + 1) :
    Mirrors whole level { state with table := table } { walk with env := env } :=
  ⟨linked, same, length, mirrors.trace, mirrors.searched, mirrors.prints⟩

/-- Which names were listed last is no matter of the program. -/
theorem regroup (mirrors : Mirrors whole level state walk) (group : Option GroupId) :
    Mirrors whole level { state with group := group } walk :=
  ⟨mirrors.linked, mirrors.env, mirrors.level, mirrors.trace, mirrors.searched, mirrors.prints⟩

theorem setRole (mirrors : Mirrors whole level state walk) (role : Role) :
    Mirrors whole level (state.setRole role) (walk.setRole state.group role) := by
  obtain ⟨feed, table, value, group, journal⟩ := state
  cases group with
  | none => exact mirrors
  | some group =>
    obtain ⟨linked, env⟩ := mirrors.linked.setRole group role
    rw [← mirrors.env] at env
    exact mirrors.ofTable linked env.symm mirrors.level

theorem setConstant (mirrors : Mirrors whole level state walk) :
    Mirrors whole level state.setConstant (walk.setConstant state.group state.value) := by
  obtain ⟨feed, table, value, group, journal⟩ := state
  cases value with
  | none => cases group <;> exact mirrors
  | some value =>
    cases group with
    | none => exact mirrors
    | some group =>
      obtain ⟨linked, env⟩ := mirrors.linked.setValue group (some (.integer value))
      rw [← mirrors.env] at env
      exact mirrors.ofTable linked env.symm mirrors.level

/-- An assignment changes the cell that the name stands for. -/
theorem assign (mirrors : Mirrors whole level state walk) (name : String) :
    Mirrors whole level (state.assign (state.table.resolved name)) (walk.assign name state.value) := by
  have found := state.table.scope_eq name
  have scope : walk.scope = state.table.scope := mirrors.ready.scope.symm
  unfold State.assign Walk.assign
  rw [scope, found]
  cases atName : (state.table.resolved name).bind state.table.entry? with
  | none => exact mirrors
  | some entry =>
    have role : entry.cell.role = entry.role := rfl
    simp only [Option.map_some, role]
    split
    next =>
      obtain ⟨linked, env⟩ := mirrors.linked.setValue entry.group (state.value.map .integer)
      rw [← mirrors.env] at env
      have cell : walk.env.resolve name = some entry.group :=
        mirrors.env ▸ state.table.resolve_env_of_entry atName
      have value : (state.value.map Value.integer).bind Value.integer? = state.value := by
        cases state.value <;> rfl
      rw [value] at env
      rw [cell]
      exact mirrors.ofTable linked env.symm mirrors.level
    next => exact mirrors

/-- A name is declared with an entry of its own. -/
theorem declare {name : String} (mirrors : Mirrors whole level state walk)
    (same : state.lexemes = identifier name :: rest) (role : Role) :
    Mirrors whole level (state.declare role) (walk.declare name role) ∧
      (state.declare role).lexemes = rest := by
  have read := Leads.advance mirrors.searched same (by simp)
  have lexeme : state.token.lexeme = name := State.lexeme_of_lexemes same
  have advanced := mirrors.quietly read
  obtain ⟨frame, outer, scopes, length⟩ := advanced.inside
  have held : walk.env.holds name = (frame.lookup name).isSome :=
    (congrArg (·.holds name) advanced.env).trans (Table.holds_env scopes)
  unfold State.declare Walk.declare
  rw [lexeme, held]
  dsimp only
  cases atName : frame.lookup name with
  | none =>
    rw [Table.declare_of_lookup_none role scopes atName]
    have env := @Table.Linked.env_declare _ frame name outer role advanced.linked scopes
    rw [← advanced.env] at env
    exact ⟨advanced.ofTable (advanced.linked.declare role scopes) env.symm
      (congrArg Nat.succ length), read.lexemes⟩
  | some id =>
    rw [Table.declare_of_lookup_some role scopes atName]
    have reported := @Leads.report state.advance (.name (.duplicate name)) read.searched (by simp)
    exact ⟨advanced.say reported, read.lexemes⟩

theorem openScope (mirrors : Mirrors whole level state walk) :
    Mirrors whole (level + 1) state.openScope walk.push := by
  have entered : Mirrors whole (level + 1) { state with table := state.table.enter } walk.push :=
    ⟨mirrors.linked.enter, (congrArg Environment.push mirrors.env).trans state.table.env_enter.symm,
      congrArg Nat.succ mirrors.level, mirrors.trace, mirrors.searched, mirrors.prints⟩
  exact entered.quietly (Leads.log entered.searched rfl)

theorem closeScope (mirrors : Mirrors whole (level + 1) state walk) :
    Mirrors whole level state.closeScope walk.pop := by
  obtain ⟨frame, outer, scopes, length⟩ := mirrors.inside
  have exits : state.table.exit? = some (frame, { state.table with scopes := outer }) := by
    rw [Table.exit?, scopes]
  have exited : Mirrors whole level { state with table := { state.table with scopes := outer } }
      walk.pop :=
    ⟨mirrors.linked.exit exits, (congrArg Environment.pop mirrors.env).trans (Table.env_exit exits).symm,
      length, mirrors.trace, mirrors.searched, mirrors.prints⟩
  rw [State.closeScope, exits]
  exact exited.quietly (Leads.log exited.searched rfl)

end Mirrors

/-- A list of identifiers is being read, whose names share a cell. -/
structure Lists (whole : List Lexeme) (level : Nat) (state : State) (cell : Option Nat)
    (walk : Walk) : Prop where
  mirrors : Mirrors whole level state walk
  group : state.group = cell
  known {group : GroupId} : cell = some group → ∃ ids, state.table.members? group = some ids

theorem Lists.declare {whole rest : List Lexeme} {level : Nat} {state : State} {cell : Option Nat}
    {walk : Walk} {name : String} (lists : Lists whole level state cell walk)
    (same : state.lexemes = identifier name :: rest) :
    Lists whole level state.declareListed (walk.declareListed cell name).1
        (walk.declareListed cell name).2 ∧
      state.declareListed.lexemes = rest := by
  have read := Leads.advance lists.mirrors.searched same (by simp)
  have lexeme : state.token.lexeme = name := State.lexeme_of_lexemes same
  have advanced := lists.mirrors.quietly read
  obtain ⟨frame, outer, scopes, length⟩ := advanced.inside
  have held : walk.env.holds name = (frame.lookup name).isSome :=
    (congrArg (·.holds name) advanced.env).trans (Table.holds_env scopes)
  have group : state.advance.group = cell := lists.group
  have reported := @Leads.report state.advance (.name (.duplicate name)) read.searched (by simp)
  unfold State.declareListed Walk.declareListed
  rw [lexeme, held]
  dsimp only
  rw [group]
  cases cell with
  | none =>
    dsimp only
    cases atName : frame.lookup name with
    | some id =>
      rw [Table.declare_of_lookup_some .unset scopes atName]
      exact ⟨⟨advanced.say reported, group, (by simp)⟩, read.lexemes⟩
    | none =>
      rw [Table.declare_of_lookup_none .unset scopes atName]
      have env := @Table.Linked.env_declare _ frame name outer .unset advanced.linked scopes
      have size : walk.env.cells.length = state.advance.table.groups.size := by
        rw [advanced.env, Table.env, List.length_map, Array.length_toList]
      have joins : (state.advance.table.withEntry name .unset frame outer).groupOf?
          state.advance.table.entries.size = some walk.env.cells.length := by
        rw [Table.groupOf?_withEntry, if_pos rfl, size]
      rw [← advanced.env] at env
      have declared := advanced.ofTable (advanced.linked.declare .unset scopes) env.symm
        (congrArg Nat.succ length)
      refine ⟨⟨declared.regroup _, joins, ?_⟩, read.lexemes⟩
      intro group same
      rw [← Option.some.inj same, size]
      exact ⟨_, (Table.members?_withEntry .unset _).trans (if_pos rfl)⟩
  | some shared =>
    obtain ⟨ids, members⟩ := lists.known rfl
    obtain ⟨id, leader, _, leads, atId, sameGroup⟩ := advanced.linked.exists_leader members
    dsimp only
    cases atName : frame.lookup name with
    | some id =>
      rw [Table.declareIn_of_lookup_some scopes leads atName]
      exact ⟨⟨advanced.say reported, group, lists.known⟩, read.lexemes⟩
    | none =>
      rw [Table.declareIn_of_lookup_none scopes leads sameGroup atName]
      have env := @Table.Linked.env_declareIn _ frame name outer leader advanced.linked scopes
      rw [← advanced.env, sameGroup] at env
      have declared := advanced.ofTable (advanced.linked.declareIn scopes atId) env.symm
        (congrArg Nat.succ length)
      refine ⟨⟨declared.regroup _, rfl, ?_⟩, read.lexemes⟩
      intro group same
      cases Option.some.inj same
      have joined := @Table.members?_withMember state.advance.table name leader frame outer shared
      have before : state.advance.table.members? shared = some ids := members
      rw [if_pos sameGroup, before] at joined
      exact ⟨_, joined⟩

/-- An analysis does the same over tokens as a walk over their tree. Where the walk ends at a print
statement, the analysis comes to it too and does not know the value. -/
def Simulates (whole : List Lexeme) (level : Nat) (tasks left : List Task) (state : State)
    (rest : List Lexeme) : Except Walk Walk → Prop
  | .ok walk => ∃ after, Reaches tasks state left after ∧ Mirrors whole level after walk ∧
      after.lexemes = rest
  | .error walk => ∃ later before level, Reaches tasks state (.print :: later) before ∧
      before.value = none ∧ Mirrors whole level before walk

namespace Simulates

variable {whole rest rest' : List Lexeme} {level level' : Nat} {tasks middle left later : List Task}
  {task : Task} {state between : State} {walk walk' : Walk} {result : Except Walk Walk}
  {remarks : List Diagnostic} {value : Option Int}

theorem done (mirrors : Mirrors whole level state walk) (same : state.lexemes = rest) :
    Simulates whole level tasks tasks state rest (.ok walk) :=
  ⟨state, .start, mirrors, same⟩

theorem reach (reach : Reaches tasks state middle between)
    (simulates : Simulates whole level middle left between rest result) :
    Simulates whole level tasks left state rest result := by
  cases result with
  | ok walk =>
    obtain ⟨after, further, mirrors, same⟩ := simulates
    exact ⟨after, reach.trans further, mirrors, same⟩
  | error walk =>
    obtain ⟨later, before, level, further, unknown, mirrors⟩ := simulates
    exact ⟨later, before, level, reach.trans further, unknown, mirrors⟩

theorem trans {next : Walk → Except Walk Walk}
    (first : Simulates whole level tasks middle state rest result)
    (second : ∀ between walk, Mirrors whole level between walk → between.lexemes = rest →
      Simulates whole level' middle left between rest' (next walk)) :
    Simulates whole level' tasks left state rest' (result >>= next) := by
  cases result with
  | ok walk =>
    obtain ⟨between, reach, mirrors, same⟩ := first
    exact Simulates.reach reach (second between walk mirrors same)
  | error walk => exact first

theorem andThen (first : Simulates whole level tasks middle state rest (.ok walk))
    (second : ∀ between, Mirrors whole level between walk → between.lexemes = rest →
      Simulates whole level' middle left between rest' result) :
    Simulates whole level' tasks left state rest' result := by
  obtain ⟨between, reach, mirrors, same⟩ := first
  exact Simulates.reach reach (second between mirrors same)

/-- The second part does not change the walk. -/
theorem quietly (first : Simulates whole level tasks middle state rest result)
    (second : ∀ between walk, Mirrors whole level between walk → between.lexemes = rest →
      Simulates whole level middle left between rest' (.ok walk)) :
    Simulates whole level tasks left state rest' result :=
  bind_pure result ▸ first.trans second

theorem append (simulates : Simulates whole level tasks left state rest result) (later : List Task) :
    Simulates whole level (tasks ++ later) (left ++ later) state rest result := by
  cases result with
  | ok walk =>
    obtain ⟨after, reach, mirrors, same⟩ := simulates
    exact ⟨after, reach.append later, mirrors, same⟩
  | error walk =>
    obtain ⟨waiting, before, level, reach, unknown, mirrors⟩ := simulates
    exact ⟨waiting ++ later, before, level, reach.append later, unknown, mirrors⟩

/-- An expression is read with its value and its remarks. -/
theorem comes (mirrors : Mirrors whole level state walk)
    (comes : Comes tasks middle state rest value remarks)
    (second : ∀ between, Leads state between rest remarks → between.value = value →
      Mirrors whole level between (walk.say remarks) →
      Simulates whole level' middle left between rest' result) :
    Simulates whole level' tasks left state rest' result := by
  obtain ⟨between, reach, leads, known⟩ := comes
  exact Simulates.reach reach (second between leads known (mirrors.say leads))

/-- The first task is done in one step. -/
theorem step (step : task.step state = .go tasks between)
    (simulates : Simulates whole level (tasks ++ later) left between rest result) :
    Simulates whole level (task :: later) left state rest result :=
  Simulates.reach (Reaches.start.step step) simulates

/-- The first task takes one token. -/
theorem take {first : Lexeme} (mirrors : Mirrors whole level state walk)
    (same : state.lexemes = first :: rest) (takes : Takes state.value task first.1 tasks)
    (quiet : first.1 ≠ .kwPrint)
    (simulates : ∀ after, Leads state after rest [] → after.value = state.value →
      Mirrors whole level after walk →
      Simulates whole level' (tasks ++ later) left after rest' result) :
    Simulates whole level' (task :: later) left state rest' result := by
  have leads := Leads.advance mirrors.searched same quiet
  exact Simulates.step (takes.step (State.kind_of_lexemes same))
    (simulates state.advance leads rfl (mirrors.quietly leads))

/-- A word that is asked for is there. -/
theorem accept {kind : Kind} (mirrors : Mirrors whole level state walk)
    (same : state.lexemes = word kind :: rest) (quiet : kind ≠ .kwPrint)
    (simulates : ∀ after, Leads state after rest [] → after.value = state.value →
      Mirrors whole level after walk → Simulates whole level' later left after rest' result) :
    Simulates whole level' (.accept kind :: later) left state rest' result :=
  take mirrors same .accept quiet simulates

/-- A word that may be left out is there or not. -/
theorem skip {kind : Kind} {present : Bool} (mirrors : Mirrors whole level state walk)
    (same : state.lexemes = (if present then [word kind] else []) ++ rest)
    (quiet : kind ≠ .kwPrint) (apart : nextKind rest ≠ kind)
    (simulates : ∀ after, Mirrors whole level after walk → after.lexemes = rest →
      Simulates whole level' later left after rest' result) :
    Simulates whole level' (.skip kind :: later) left state rest' result := by
  cases present with
  | false =>
    have none : nextKind rest ∉ [kind] := mt List.mem_singleton.mp apart
    exact .step (Task.idle rfl (List.Subset.refl _) same none) (simulates state mirrors same)
  | true =>
    exact take mirrors same .skip quiet fun after leads _ advanced =>
      simulates after advanced leads.lexemes

/-- All words of a list are there. -/
theorem acceptAll (kinds : List Kind) (quiet : .kwPrint ∉ kinds)
    (mirrors : Mirrors whole level state walk) (same : state.lexemes = kinds.map word ++ rest) :
    Simulates whole level (kinds.map Task.accept) [] state rest (.ok walk) := by
  induction kinds generalizing state with
  | nil => exact done mirrors same
  | cons kind kinds ih =>
    have other : kind ≠ .kwPrint := fun same => quiet (same ▸ List.mem_cons_self)
    have others : .kwPrint ∉ kinds := fun member => quiet (List.mem_cons_of_mem kind member)
    exact accept mirrors same other fun after leads _ advanced => ih others advanced leads.lexemes

/-- What is read ends with the words of a list. -/
theorem closed (kinds : List Kind) (quiet : .kwPrint ∉ kinds)
    (read : Simulates whole level tasks [] state (kinds.map word ++ rest) result) :
    Simulates whole level (tasks ++ kinds.map Task.accept) [] state rest result := by
  refine (read.append (kinds.map Task.accept)).quietly ?_
  intro atEnd walk mirrors same
  exact acceptAll kinds quiet mirrors same

end Simulates

end AdaFront.Analysis
