import AdaFront.Proofs.Mirroring

namespace AdaFront.Analysis

open AdaFront.Tree (Lexeme identifier word)

/-- One more statement of a sequence is read like the first one. -/
theorem Simulates.again {whole rest : List Lexeme} {level : Nat} {state : State}
    {result : Except Walk Walk}
    (simulates : Simulates whole level [.statement, .moreStatements] [] state rest result) :
    Simulates whole level [.moreStatements] [] state rest result := by
  have begins {tasks : List Task} {between : State} (step : Task.statement.step state = .go tasks between) :
      Task.moreStatements.step state = .go (tasks ++ [.moreStatements]) between :=
    (Task.step_go_iff.mp step).further.step
  have goesOn {tasks : List Task} {between : State} (step : Task.statement.step state = .go tasks between) :
      Reaches [.moreStatements] state (tasks ++ [.moreStatements]) between :=
    List.append_nil (tasks ++ [Task.moreStatements]) ▸ Reaches.start.step (begins step)
  cases result with
  | ok walk =>
    obtain ⟨after, reach, mirrors, same⟩ := simulates
    rcases reach.first with ⟨stuck, _⟩ | ⟨tasks, between, step, further⟩
    · cases stuck
    · exact ⟨after, (goesOn step).trans further, mirrors, same⟩
  | error walk =>
    obtain ⟨later, before, level, reach, unknown, mirrors⟩ := simulates
    rcases reach.first with ⟨stuck, _⟩ | ⟨tasks, between, step, further⟩
    · cases stuck
    · exact ⟨later, before, level, (goesOn step).trans further, unknown, mirrors⟩

end AdaFront.Analysis

namespace AdaFront.Tree

open Analysis

/-- A name is read up to the task behind it, where a check says what there is to say about it. -/
theorem Name.checked {whole rest : List Lexeme} {level : Nat} {state : State} {walk : Walk}
    {task : Analysis.Task} {last : Option EntryId → Bool → Analysis.Task}
    (mirrors : Mirrors whole level state walk) (name : Name)
    (heads : Heads task last []) (same : state.lexemes = name.yield ++ rest)
    (apart : nextKind rest ≠ .leftParen) (use : NameUse) :
    ∃ between, Reaches [task] state [last (state.table.resolved name.text) name.isIndexed] between ∧
      between.lexemes = rest ∧
      (between.check (state.table.resolved name.text) use).lexemes = rest ∧
      (between.check (state.table.resolved name.text) use).table = state.table ∧
      Mirrors whole level (between.check (state.table.resolved name.text) use)
        (walk.say (name.remarks walk.scope use)) := by
  obtain ⟨_, between, reach, leads, _⟩ := name.comes heads mirrors.ready same apart
  obtain ⟨checks, _⟩ := @State.check_leads between name.text leads.searched use
  have said := mirrors.say leads
  have scope : between.scope = walk.scope := said.ready.scope
  rw [scope, leads.table] at checks
  rw [name.remarks_eq]
  exact ⟨between, reach, leads.lexemes, checks.lexemes.trans leads.lexemes,
    checks.table.trans leads.table, said.say_again checks⟩

theorem Alternatives.nextKind_apart (alternatives : Alternatives) {rest : List Lexeme}
    (apart : nextKind rest ∉ [.kwElse, .kwElsif] ++ Part.statementStarts) :
    nextKind (alternatives.yield ++ rest) ∉ Part.statementStarts := by
  cases alternatives with
  | none => exact fun member => apart (List.mem_append_right _ member)
  | otherwise body => exact (by decide : Kind.kwElse ∉ Part.statementStarts)
  | elsif condition body others => exact (by decide : Kind.kwElsif ∉ Part.statementStarts)

section Statements

variable {whole rest : List Lexeme} {level : Nat} {state : State} {walk : Walk}

/-- The target is looked at before the source is read, and changed behind it. -/
theorem assignment_simulates (mirrors : Mirrors whole level state walk) (target : Name)
    (source : Expression) (same : state.lexemes = (Statement.assignment target source).yield ++ rest) :
    Simulates whole level [.statement] [] state rest
      ((Statement.assignment target source).elaborate walk) := by
  simp only [Statement.yield, List.cons_append, List.append_assoc, List.nil_append] at same
  obtain ⟨between, reach, atAssign, next, table, checked⟩ :=
    target.checked mirrors .statement same (by simp) .target
  have advanced := Leads.advance checked.searched next (by simp)
  have readSource := source.comes (checked.quietly advanced).ready advanced.lexemes
    (by decide : Kind.semicolon ∉ Part.expressionContinuations)
  have atKind : between.kind = .assign := State.kind_of_lexemes atAssign
  refine .reach reach ?_
  cases target with
  | plain name =>
    refine .step (Goes.step (.target atKind)) ?_
    refine .comes (checked.quietly advanced)
      (readSource.append [.assign (state.table.resolved name), .accept .semicolon]) ?_
    intro atEnd leads known _
    have said := (checked.quietly advanced).say_again leads
    have sameTable : atEnd.table = state.table := leads.table.trans table
    have assigned := said.assign name
    rw [sameTable, known] at assigned
    have stands : (atEnd.assign (state.table.resolved name)).lexemes = word .semicolon :: rest :=
      (State.lexemes_of_feed (State.feed_assign _ _)).trans leads.lexemes
    exact .step rfl (.acceptAll [.semicolon] (by decide) assigned stands)
  | indexed name arguments =>
    refine .step (Goes.step (.component atKind)) ?_
    refine .comes (checked.quietly advanced) (readSource.append [.accept .semicolon]) ?_
    intro atEnd leads _ _
    have said := (checked.quietly advanced).say_again leads
    exact .acceptAll [.semicolon] (by decide) said leads.lexemes

theorem call_simulates (mirrors : Mirrors whole level state walk) (name : Name)
    (same : state.lexemes = (Statement.call name).yield ++ rest) :
    Simulates whole level [.statement] [] state rest ((Statement.call name).elaborate walk) := by
  simp only [Statement.yield, List.append_assoc] at same
  obtain ⟨between, reach, here, next, _, checked⟩ :=
    name.checked mirrors .statement same (by simp) .call
  have other : between.kind ≠ .assign := by
    rw [State.kind_of_lexemes here]
    simp
  exact .reach reach (.step (Goes.step (.call other)) (.acceptAll [.semicolon] (by decide) checked next))

theorem exit_simulates (mirrors : Mirrors whole level state walk) (condition : Option Expression)
    (same : state.lexemes = (Statement.exit condition).yield ++ rest) :
    Simulates whole level [.statement] [] state rest ((Statement.exit condition).elaborate walk) := by
  cases condition with
  | none =>
    simp only [Statement.yield, guard, List.cons_append, List.nil_append] at same
    refine .take mirrors same .exit (by simp) ?_
    intro atEnd leads _ mirrors
    have noCondition : Kind.semicolon ∉ Task.exitCondition.openings := by decide
    exact .step (Task.idle rfl (List.Subset.refl _) leads.lexemes noCondition)
      (.acceptAll [.semicolon] (by decide) mirrors leads.lexemes)
  | some condition =>
    simp only [Statement.yield, guard, List.cons_append, List.append_assoc, List.nil_append] at same
    refine .take mirrors same .exit (by simp) ?_
    intro atWhen leads _ mirrors
    refine .take mirrors leads.lexemes .exitCondition (by simp) ?_
    intro atCondition leads _ mirrors
    have readCondition := condition.comes mirrors.ready leads.lexemes
      (by decide : Kind.semicolon ∉ Part.expressionContinuations)
    refine .comes mirrors (readCondition.append [.accept .semicolon]) ?_
    intro atEnd leads _ mirrors
    exact .acceptAll [.semicolon] (by decide) mirrors leads.lexemes

theorem null_simulates (mirrors : Mirrors whole level state walk)
    (same : state.lexemes = Statement.null.yield ++ rest) :
    Simulates whole level [.statement] [] state rest (Statement.null.elaborate walk) := by
  refine .take mirrors same .null (by simp) ?_
  intro atEnd leads _ mirrors
  exact .acceptAll [.semicolon] (by decide) mirrors leads.lexemes

/-- A print statement ends the walk where its value is not known. -/
theorem print_simulates (mirrors : Mirrors whole level state walk) (operand : Expression)
    (same : state.lexemes = (Statement.print operand).yield ++ rest) :
    Simulates whole level [.statement] [] state rest ((Statement.print operand).elaborate walk) := by
  have begins : Task.statement.step state =
      .go [.accept .leftParen, .expression, .print, .accept .rightParen, .accept .semicolon]
        state.advance :=
    Takes.step .print (State.kind_of_lexemes same)
  simp only [Statement.yield, List.cons_append, List.append_assoc, List.nil_append] at same
  refine .step begins ?_
  refine .accept (mirrors.advance_print same) (State.lexemes_advance same) (by simp) ?_
  intro atOperand leads _ mirrors
  have readOperand := operand.comes mirrors.ready leads.lexemes
    (by decide : Kind.rightParen ∉ Part.expressionContinuations)
  refine .comes mirrors (readOperand.append _) ?_
  intro atPrint leads known mirrors
  rw [Statement.elaborate]
  cases shown : operand.value walk.scope with
  | none => exact ⟨_, atPrint, level, .start, known.trans shown, mirrors⟩
  | some value =>
    refine .step (Goes.step (.print (known.trans shown))) ?_
    exact .acceptAll [.rightParen, .semicolon] (by decide) (mirrors.print value) leads.lexemes

end Statements

mutual

/-- An analysis does the same over a statement as a walk. -/
theorem Statement.simulates {whole rest : List Lexeme} {level : Nat} {state : State} {walk : Walk}
    (mirrors : Mirrors whole level state walk) : (statement : Statement) →
    state.lexemes = statement.yield ++ rest →
    Simulates whole level [.statement] [] state rest (statement.elaborate walk)
  | .assignment target source, same => assignment_simulates mirrors target source same
  | .call name, same => call_simulates mirrors name same
  | .conditional condition body others, same => by
    simp only [Statement.yield, List.cons_append, List.append_assoc, List.nil_append] at same
    refine .take mirrors same .branch (by simp) ?_
    intro atCondition leads _ mirrors
    have thenApart : Kind.kwThen ∉ Part.expressionContinuations := by decide
    have readCondition := condition.comes mirrors.ready leads.lexemes thenApart
    refine .comes mirrors (readCondition.append _) ?_
    intro atThen leads _ mirrors
    refine .accept mirrors leads.lexemes (by simp) ?_
    intro atBody leads _ mirrors
    have endApart : Kind.kwEnd ∉ [.kwElse, .kwElsif] ++ Part.statementStarts := by decide
    have readBody := body.simulates mirrors leads.lexemes (others.nextKind_apart endApart)
    refine (readBody.append [.alternatives, .accept .kwEnd, .accept .kwIf, .accept .semicolon]).trans ?_
    intro atOthers walk mirrors same
    have readOthers := others.simulates mirrors same endApart
    exact readOthers.closed [.kwEnd, .kwIf, .semicolon] (by decide)
  | .loop none body, same => by
    simp only [Statement.yield, guard, List.cons_append, List.append_assoc, List.nil_append] at same
    refine .take mirrors same .loop (by simp) ?_
    intro atBody leads _ mirrors
    have readBody := body.simulates mirrors leads.lexemes
      (by decide : Kind.kwEnd ∉ Part.statementStarts)
    exact readBody.closed [.kwEnd, .kwLoop, .semicolon] (by decide)
  | .loop (some condition) body, same => by
    simp only [Statement.yield, guard, List.cons_append, List.append_assoc, List.nil_append] at same
    refine .take mirrors same .whileLoop (by simp) ?_
    intro atCondition leads _ mirrors
    have readCondition := condition.comes mirrors.ready leads.lexemes
      (by decide : Kind.kwLoop ∉ Part.expressionContinuations)
    refine .comes mirrors (readCondition.append _) ?_
    intro atLoop leads _ mirrors
    refine .accept mirrors leads.lexemes (by simp) ?_
    intro atBody leads _ mirrors
    have readBody := body.simulates mirrors leads.lexemes
      (by decide : Kind.kwEnd ∉ Part.statementStarts)
    exact readBody.closed [.kwEnd, .kwLoop, .semicolon] (by decide)
  | .exit condition, same => exit_simulates mirrors condition same
  | .null, same => null_simulates mirrors same
  | .print operand, same => print_simulates mirrors operand same

theorem Sequence.simulates {whole rest : List Lexeme} {level : Nat} {state : State} {walk : Walk}
    (mirrors : Mirrors whole level state walk) : (sequence : Sequence) →
    state.lexemes = sequence.yield ++ rest → nextKind rest ∉ Part.statementStarts →
    Simulates whole level [.statement, .moreStatements] [] state rest (sequence.elaborate walk)
  | .one last, same, apart => by
    refine ((last.simulates mirrors same).append [.moreStatements]).quietly ?_
    intro atEnd walk mirrors same
    exact .step (Task.idle rfl (by decide) same apart) (.done mirrors same)
  | .more first others, same, apart => by
    rw [Sequence.yield, List.append_assoc] at same
    refine ((first.simulates mirrors same).append [.moreStatements]).trans ?_
    intro between walk mirrors same
    exact .again (others.simulates mirrors same apart)

theorem Alternatives.simulates {whole rest : List Lexeme} {level : Nat} {state : State} {walk : Walk}
    (mirrors : Mirrors whole level state walk) : (alternatives : Alternatives) →
    state.lexemes = alternatives.yield ++ rest →
    nextKind rest ∉ [.kwElse, .kwElsif] ++ Part.statementStarts →
    Simulates whole level [.alternatives] [] state rest (alternatives.elaborate walk)
  | .none, same, apart => .step (Task.idle rfl (by decide) same apart) (.done mirrors same)
  | .otherwise body, same, apart => by
    refine .take mirrors same .otherwise (by simp) ?_
    intro atBody leads _ mirrors
    exact body.simulates mirrors leads.lexemes fun member => apart (List.mem_append_right _ member)
  | .elsif condition body others, same, apart => by
    simp only [Alternatives.yield, List.cons_append, List.append_assoc] at same
    refine .take mirrors same .elsif (by simp) ?_
    intro atCondition leads _ mirrors
    have readCondition := condition.comes mirrors.ready leads.lexemes
      (by decide : Kind.kwThen ∉ Part.expressionContinuations)
    refine .comes mirrors (readCondition.append _) ?_
    intro atThen leads _ mirrors
    refine .accept mirrors leads.lexemes (by simp) ?_
    intro atBody leads _ mirrors
    have readBody := body.simulates mirrors leads.lexemes (others.nextKind_apart apart)
    refine (readBody.append [.alternatives]).trans ?_
    intro atOthers walk mirrors same
    exact others.simulates mirrors same apart

end

end AdaFront.Tree
