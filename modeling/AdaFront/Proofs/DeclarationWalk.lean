import AdaFront.Proofs.StatementWalk

namespace AdaFront.Analysis

open AdaFront.Tree (Lexeme identifier word)

theorem State.group_setRole (state : State) (role : Role) :
    (state.setRole role).group = state.group := by
  unfold setRole
  split <;> rfl

section Names

variable {whole rest : List Lexeme} {level : Nat} {state : State} {cell : Option Nat} {walk : Walk}
  {scope : Scope} {name : String} {use : NameUse}

/-- A name is looked up and its role checked. -/
theorem Ready.looksUp {task : Task} (ready : Ready scope state)
    (goes : Goes state task [] (state.find.2.check state.find.1 use)) (same : state.lexemes = identifier name :: rest) :
    ∃ value, Comes [task] [] state rest value (scope.remarks name use) := by
  obtain ⟨leads, found, _⟩ := State.find_leads ready.searched ready.linked same
  obtain ⟨checks, _⟩ := @State.check_leads state.find.2 name leads.searched use
  rw [leads.table, ← found] at checks
  rw [leads.lexemes, (leads.ready ready).scope] at checks
  rw [ready.scope] at leads
  exact ⟨_, _, Reaches.start.step goes.step, leads.trans checks, rfl⟩

theorem Ready.typeName (ready : Ready scope state) (same : state.lexemes = identifier name :: rest) :
    ∃ value, Comes [.typeName] [] state rest value (scope.remarks name .typeName) :=
  ready.looksUp (.typeName (State.kind_of_lexemes same) (by simp)) same

/-- The names behind the first one of a list. -/
theorem Lists.more {names : List String} (lists : Lists whole level state cell walk)
    (same : state.lexemes = (names.flatMap fun name => [word .comma, identifier name]) ++ rest)
    (apart : nextKind rest ≠ .comma) :
    ∃ after, Reaches [.moreNames] state [] after ∧
      Lists whole level after (walk.declareAll cell names).1 (walk.declareAll cell names).2 ∧
      after.lexemes = rest := by
  induction names generalizing state cell walk with
  | nil =>
    have none : nextKind rest ∉ Task.moreNames.openings := mt List.mem_singleton.mp apart
    exact ⟨state, Reaches.start.step (Task.idle rfl (List.Subset.refl _) same none), lists, same⟩
  | cons name names ih =>
    have divides : Task.moreNames.step state = .go [.nextName] state.advance :=
      Takes.step .moreNames (State.kind_of_lexemes same)
    have leads := Leads.advance lists.mirrors.searched same (by simp)
    have next : Task.nextName.step state.advance = .go [.moreNames] state.advance.declareListed :=
      State.require_of_lexemes leads.lexemes
    have advanced : Lists whole level state.advance cell walk :=
      ⟨lists.mirrors.quietly leads, lists.group, lists.known⟩
    obtain ⟨declared, here⟩ := advanced.declare leads.lexemes
    obtain ⟨after, reach, final, last⟩ := ih declared here
    exact ⟨after, ((Reaches.start.step divides).step next).trans reach, final, last⟩

/-- A whole list, whose first name is declared in the step that finds it. -/
theorem Mirrors.list (mirrors : Mirrors whole level state walk) (names : Tree.Names)
    (same : state.lexemes = names.yield ++ rest) (apart : nextKind rest ≠ .comma) :
    ∃ after, Reaches [.moreNames] { state with group := none }.declareListed [] after ∧
      Lists whole level after (walk.declareAll none (names.first :: names.others)).1
        (walk.declareAll none (names.first :: names.others)).2 ∧
      after.lexemes = rest := by
  have fresh : Lists whole level { state with group := none } none walk :=
    ⟨mirrors.regroup none, rfl, (by simp)⟩
  obtain ⟨declared, here⟩ := fresh.declare same
  exact declared.more here apart

/-- A list whose names get their role at once. -/
theorem Mirrors.roles (mirrors : Mirrors whole level state walk) (names : Tree.Names)
    (same : state.lexemes = names.yield ++ rest) (apart : nextKind rest ≠ .comma) (role : Role) :
    ∃ after, Reaches [.names, .setRole role] state [] after ∧
      Mirrors whole level after (walk.declareList names role).2 ∧ after.lexemes = rest := by
  have begins : Task.names.step state = .go [.moreNames] { state with group := none }.declareListed :=
    State.require_of_lexemes same
  obtain ⟨between, reach, lists, here⟩ := mirrors.list names same apart
  have given := lists.mirrors.setRole role
  rw [lists.group] at given
  refine ⟨between.setRole role, ?_, given, ?_⟩
  · exact ((Reaches.start.step begins).trans (reach.append [.setRole role])).step rfl
  · exact (State.lexemes_of_feed (State.feed_setRole between role)).trans here

end Names

end AdaFront.Analysis

namespace AdaFront.Tree

open Analysis

section Types

variable {whole rest : List Lexeme} {level : Nat} {state : State} {walk : Walk} {scope : Scope}

/-- A range is read behind its keyword. -/
theorem range_comes (ready : Ready scope state) (low high : Simple)
    (same : state.lexemes = low.yield ++ word .dots :: (high.yield ++ rest))
    (apart : nextKind rest ∉ Part.simpleContinuations) :
    Comes Analysis.range [] state rest (high.value scope) (low.remarks scope ++ high.remarks scope) := by
  have dots : Kind.dots ∉ Part.simpleContinuations := by decide
  have readLow := (low.comes ready same (simpleApart dots)).endTerms dots
  refine (readLow.append [.accept .dots, .simple]).trans ?_
  intro atDots leads _
  have readyDots := leads.ready ready
  refine .accept readyDots leads.lexemes (by simp) ?_
  intro atHigh leads _
  exact (high.comes (leads.ready readyDots) leads.lexemes (simpleApart apart)).endTerms apart

theorem Index.comes (ready : Ready scope state) (index : Index)
    (same : state.lexemes = index.yield ++ rest) (apart : nextKind rest ∉ Part.simpleContinuations) :
    ∃ value, Comes [.index] [] state rest value (index.remarks scope) := by
  cases index with
  | range low high =>
    simp only [Index.yield, List.cons_append, List.append_assoc] at same
    refine ⟨high.value scope, .take ready same .rangeIndex (by simp) ?_⟩
    intro atLow leads _
    exact range_comes (leads.ready ready) low high leads.lexemes apart
  | type name => exact ready.looksUp (.typeName (State.kind_of_lexemes same) (by simp)) same

theorem indices_apart (indices : List Index) (apart : nextKind rest ∉ Part.simpleContinuations) :
    nextKind ((indices.flatMap fun index => word .comma :: index.yield) ++ rest) ∉
      Part.simpleContinuations := by
  cases indices with
  | nil => exact apart
  | cons => exact (by decide : Kind.comma ∉ Part.simpleContinuations)

theorem indices_come {indices : List Index} (ready : Ready scope state)
    (same : state.lexemes = (indices.flatMap fun index => word .comma :: index.yield) ++ rest)
    (apart : nextKind rest ∉ .comma :: Part.simpleContinuations) :
    ∃ value, Comes [.moreIndices] [] state rest value (indices.flatMap (Index.remarks scope)) := by
  induction indices generalizing state with
  | nil =>
    exact ⟨_, .stay (Task.idle rfl (by decide) same apart) (.done ready same)⟩
  | cons index indices ih =>
    have begins : Task.moreIndices.step state = .go [.index, .moreIndices] state.advance :=
      Takes.step .moreIndices (State.kind_of_lexemes same)
    simp only [List.flatMap_cons, List.cons_append, List.append_assoc] at same
    have leads := Leads.advance ready.searched same (by simp)
    have readyIndex := leads.ready ready
    obtain ⟨_, between, reach, leadsIndex, _⟩ := index.comes readyIndex leads.lexemes
      (indices_apart indices fun member => apart (List.mem_cons_of_mem _ member))
    obtain ⟨value, after, reach', leadsOthers, known⟩ :=
      ih (leadsIndex.ready readyIndex) leadsIndex.lexemes
    refine ⟨value, after, ?_, leads.trans (leadsIndex.trans leadsOthers), known⟩
    exact ((Reaches.start.step begins).trans (reach.append [.moreIndices])).trans reach'

/-- An analysis does the same over a type definition as a walk. -/
theorem TypeDefinition.simulates (mirrors : Mirrors whole level state walk)
    (definition : TypeDefinition) (same : state.lexemes = definition.yield ++ rest)
    (apart : nextKind rest ∉ Part.simpleContinuations) :
    Simulates whole level [.typeDefinition] [] state rest (.ok (definition.elaborate walk)) := by
  cases definition with
  | enumeration names =>
    simp only [TypeDefinition.yield, List.cons_append, List.append_assoc, List.nil_append] at same
    refine .take mirrors same .enumeration (by simp) ?_
    intro atNames leads _ mirrors
    obtain ⟨between, reach, given, here⟩ := mirrors.roles names leads.lexemes (by simp) .constant
    exact .reach (reach.append [.accept .rightParen])
      (.acceptAll [.rightParen] (by decide) given here)
  | array first others element =>
    simp only [TypeDefinition.yield, List.cons_append, List.append_assoc, List.nil_append] at same
    refine .take mirrors same .array (by simp) ?_
    intro atList leads _ mirrors
    refine .accept mirrors leads.lexemes (by simp) ?_
    intro atIndex leads _ mirrors
    have closes : Kind.rightParen ∉ .comma :: Part.simpleContinuations := by decide
    obtain ⟨_, readIndex⟩ := first.comes mirrors.ready leads.lexemes
      (indices_apart others fun member => closes (List.mem_cons_of_mem _ member))
    refine .comes mirrors (readIndex.append _) ?_
    intro atOthers leads _ said
    obtain ⟨_, readOthers⟩ := indices_come said.ready leads.lexemes closes
    refine .comes said (readOthers.append _) ?_
    intro atEnd leads _ _
    have said := said.say_again leads
    refine .accept said leads.lexemes (by simp) ?_
    intro atOf leads _ said
    refine .accept said leads.lexemes (by simp) ?_
    intro atElement leads _ said
    obtain ⟨_, readElement⟩ := said.ready.typeName leads.lexemes
    exact .comes said readElement fun after leads _ _ => .done (said.say_again leads) leads.lexemes
  | range low high =>
    simp only [TypeDefinition.yield, List.cons_append, List.append_assoc] at same
    refine .take mirrors same .rangeType (by simp) ?_
    intro atLow leads _ mirrors
    have readRange := range_comes mirrors.ready low high leads.lexemes apart
    exact .comes mirrors readRange fun atEnd leads _ said => .done said leads.lexemes
  | type name =>
    have goes := Goes.typeName (State.kind_of_lexemes same) (by simp : Task.typeDefinition ∈ _)
    obtain ⟨_, readName⟩ := mirrors.ready.looksUp goes same
    exact .comes mirrors readName fun atEnd leads _ said => .done said leads.lexemes

theorem Parameter.simulates (mirrors : Mirrors whole level state walk) (parameter : Parameter)
    (same : state.lexemes = parameter.yield ++ rest) :
    Simulates whole level Analysis.parameter [] state rest (.ok (parameter.elaborate walk)) := by
  simp only [Parameter.yield, List.cons_append, List.append_assoc, List.nil_append] at same
  obtain ⟨between, reach, given, here⟩ := mirrors.roles parameter.names same (by simp) .parameter
  refine .reach (reach.append [.accept .colon, .skip .kwIn, .skip .kwOut, .typeName]) ?_
  refine .accept given here (by simp) ?_
  intro atIn leads _ mirrors
  have outApart : nextKind ((if parameter.output then [word .kwOut] else []) ++
      identifier parameter.type :: rest) ≠ .kwIn := by
    cases parameter.output <;> simp
  refine .skip mirrors leads.lexemes (by simp) outApart ?_
  intro atOut mirrors same
  refine .skip mirrors same (by simp) (by simp) ?_
  intro atType mirrors same
  obtain ⟨_, readType⟩ := mirrors.ready.typeName same
  exact .comes mirrors readType fun after leads _ said => .done said leads.lexemes

theorem moreParameters_simulate {parameters : List Parameter}
    (mirrors : Mirrors whole level state walk)
    (same : state.lexemes =
      (parameters.flatMap fun parameter => word .semicolon :: parameter.yield) ++ rest)
    (apart : nextKind rest ≠ .semicolon) :
    Simulates whole level [.moreParameters] [] state rest
      (.ok (parameters.foldl Parameter.elaborate walk)) := by
  induction parameters generalizing state walk with
  | nil =>
    have none : nextKind rest ∉ Task.moreParameters.openings := mt List.mem_singleton.mp apart
    exact .step (Task.idle rfl (List.Subset.refl _) same none) (.done mirrors same)
  | cons parameter parameters ih =>
    simp only [List.flatMap_cons, List.cons_append, List.append_assoc] at same
    refine .take mirrors same .moreParameters (by simp) ?_
    intro atParameter leads _ mirrors
    have readFirst := parameter.simulates mirrors leads.lexemes
    exact (readFirst.append [.moreParameters]).andThen fun between mirrors same => ih mirrors same

theorem formalPart_simulates (parameters : List Parameter) (mirrors : Mirrors whole level state walk)
    (same : state.lexemes = formalPart parameters ++ rest) (apart : nextKind rest ≠ .leftParen) :
    Simulates whole level [.formalPart] [] state rest
      (.ok (parameters.foldl Parameter.elaborate walk)) := by
  cases parameters with
  | nil =>
    have none : nextKind rest ∉ Task.formalPart.openings := mt List.mem_singleton.mp apart
    exact .step (Task.idle rfl (List.Subset.refl _) same none) (.done mirrors same)
  | cons first others =>
    simp only [formalPart, List.cons_append, List.append_assoc, List.nil_append] at same
    refine .take mirrors same .formalPart (by simp) ?_
    intro atParameter leads _ mirrors
    have readFirst := first.simulates mirrors leads.lexemes
    refine (readFirst.append [.moreParameters, .accept .rightParen]).andThen ?_
    intro between mirrors same
    have readOthers := moreParameters_simulate mirrors same (by simp)
    exact readOthers.closed [.rightParen] (by decide)

/-- A list of identifiers begins the declaration of objects. -/
theorem Names.declarations_step (names : Names) (same : state.lexemes = names.yield ++ rest) :
    Task.declarations.step state =
      .go [.moreNames, .accept .colon, .object, .accept .semicolon, .declarations]
        { state with group := none }.declareListed :=
  Goes.step (.objects (State.kind_of_lexemes same))

theorem type_simulates (mirrors : Mirrors whole level state walk) (name : String)
    (definition : TypeDefinition) (same : state.lexemes =
      word .kwType :: identifier name :: word .kwIs :: (definition.yield ++ word .semicolon :: rest)) :
    Simulates whole level [.declarations] [.declarations] state rest
      (.ok (definition.elaborate (walk.declare name .type))) := by
  refine .take mirrors same .type (by simp) ?_
  intro atName leads _ mirrors
  obtain ⟨declared, here⟩ := mirrors.declare leads.lexemes .type
  refine .step (Goes.step (.declare (State.kind_of_lexemes leads.lexemes))) ?_
  refine .accept declared here (by simp) ?_
  intro atDefinition leads _ mirrors
  have readDefinition := definition.simulates mirrors leads.lexemes
    (by decide : Kind.semicolon ∉ Part.simpleContinuations)
  refine (readDefinition.append _).andThen ?_
  intro atEnd mirrors same
  refine .accept mirrors same (by simp) ?_
  intro after leads _ mirrors
  exact .done mirrors leads.lexemes

/-- The names of a constant are declared before its expression is read. -/
theorem constant_simulates (mirrors : Mirrors whole level state walk) (names : Names)
    (source : Expression) (same : state.lexemes = names.yield ++
      word .colon :: word .kwConstant :: word .assign :: (source.yield ++ word .semicolon :: rest)) :
    let (cell, after) := walk.declareList names .constant
    Simulates whole level [.declarations] [.declarations] state rest
      (.ok ((after.say (source.remarks after.scope)).setConstant cell (source.value after.scope))) := by
  obtain ⟨atColon, reach, lists, here⟩ := mirrors.list names same (by simp)
  refine .step (names.declarations_step same) (.reach (reach.append _) ?_)
  refine .accept lists.mirrors here (by simp) ?_
  intro atObject leads _ mirrors
  have begins := Goes.step (.constantObject (State.kind_of_lexemes leads.lexemes))
  have advanced := Leads.advance mirrors.searched leads.lexemes (by simp)
  have group : atObject.advance.group = _ := leads.group.trans lists.group
  have given := (mirrors.quietly advanced).setRole .constant
  rw [group] at given
  have atAssign := (State.lexemes_of_feed (State.feed_setRole _ .constant)).trans advanced.lexemes
  refine .step begins (.accept given atAssign (by simp) ?_)
  intro atSource leads _ mirrors
  have readSource := source.comes mirrors.ready leads.lexemes
    (by decide : Kind.semicolon ∉ Part.expressionContinuations)
  refine .comes mirrors (readSource.append _) ?_
  intro atEnd leadsSource known said
  have kept : atEnd.group = _ :=
    (leadsSource.group.trans leads.group).trans ((State.group_setRole _ .constant).trans group)
  have stored := said.setConstant
  rw [kept, known] at stored
  have atSemicolon := (State.lexemes_of_feed (State.feed_setConstant atEnd)).trans leadsSource.lexemes
  refine .step rfl (.accept stored atSemicolon (by simp) ?_)
  intro after leads _ mirrors
  exact .done mirrors leads.lexemes

theorem variable_simulates (mirrors : Mirrors whole level state walk) (names : Names)
    (definition : TypeDefinition) (same : state.lexemes =
      names.yield ++ word .colon :: (definition.yield ++ word .semicolon :: rest)) :
    Simulates whole level [.declarations] [.declarations] state rest
      (.ok (definition.elaborate (walk.declareList names .variable).2)) := by
  obtain ⟨atColon, reach, lists, here⟩ := mirrors.list names same (by simp)
  refine .step (names.declarations_step same) (.reach (reach.append _) ?_)
  refine .accept lists.mirrors here (by simp) ?_
  intro atObject leads _ mirrors
  have other : atObject.kind ≠ .kwConstant := by
    rw [State.kind_of_lexemes leads.lexemes]
    cases definition <;> simp [TypeDefinition.yield]
  have group : atObject.group = _ := leads.group.trans lists.group
  have given := mirrors.setRole .variable
  rw [group] at given
  have atDefinition := (State.lexemes_of_feed (State.feed_setRole _ .variable)).trans leads.lexemes
  refine .step (Goes.step (.typedObject other)) ?_
  have readDefinition := definition.simulates given atDefinition
    (by decide : Kind.semicolon ∉ Part.simpleContinuations)
  refine (readDefinition.append _).andThen ?_
  intro atEnd mirrors same
  refine .accept mirrors same (by simp) ?_
  intro after leads _ mirrors
  exact .done mirrors leads.lexemes

end Types

mutual

/-- An analysis does the same over a procedure behind its keyword as a walk. -/
theorem Subprogram.simulates {whole rest : List Lexeme} {level : Nat} {state : State} {walk : Walk}
    (mirrors : Mirrors whole level state walk) : (program : Subprogram) →
    word .kwProcedure :: state.lexemes = program.yield ++ rest →
    Simulates whole level Analysis.subprogram [] state rest (program.elaborate walk)
  | .mk name parameters declarations body closing, same => by
    simp only [Subprogram.yield, List.cons_append, List.append_assoc, List.nil_append] at same
    replace same := List.tail_eq_of_cons_eq same
    obtain ⟨declared, here⟩ := mirrors.declare same .procedure
    refine .step (Goes.step (.declare (State.kind_of_lexemes same))) (.step rfl ?_)
    have readFormal := formalPart_simulates parameters declared.openScope here (by simp)
    refine (readFormal.append _).andThen ?_
    intro atIs mirrors same
    refine .accept mirrors same (by simp) ?_
    intro atDeclarations leads _ mirrors
    have begin : Kind.kwBegin ∉ [.kwType, .identifier, .kwProcedure] := by decide
    have readDeclarations := declarations.simulates mirrors leads.lexemes begin
    refine (readDeclarations.append _).trans ?_
    intro atBegin walk mirrors same
    refine .accept mirrors same (by simp) ?_
    intro atBody leads _ mirrors
    have readBody := body.simulates mirrors leads.lexemes
      (by decide : Kind.kwEnd ∉ Part.statementStarts)
    refine (readBody.append _).trans ?_
    intro atEnd walk mirrors same
    refine .accept mirrors same (by simp) ?_
    intro atClose leads _ mirrors
    have closed := mirrors.closeScope
    have here : atClose.closeScope.lexemes = closing.toList.map identifier ++ word .semicolon :: rest :=
      (State.lexemes_of_feed (State.feed_closeScope atClose)).trans leads.lexemes
    refine .step rfl ?_
    cases closing with
    | none =>
      have unnamed : Kind.semicolon ∉ Task.closingName.openings := by decide
      exact .step (Task.idle rfl (List.Subset.refl _) here unnamed)
        (.acceptAll [.semicolon] (by decide) closed here)
    | some name =>
      obtain ⟨_, readName⟩ := closed.ready.looksUp (.closingName (State.kind_of_lexemes here)) here
      refine .comes closed (readName.append [.accept .semicolon]) ?_
      intro after leads _ said
      exact .acceptAll [.semicolon] (by decide) said leads.lexemes

theorem Declarations.simulates {whole rest : List Lexeme} {level : Nat} {state : State} {walk : Walk}
    (mirrors : Mirrors whole level state walk) : (declarations : Declarations) →
    state.lexemes = declarations.yield ++ rest →
    nextKind rest ∉ [.kwType, .identifier, .kwProcedure] →
    Simulates whole level [.declarations] [] state rest (declarations.elaborate walk)
  | .none, same, apart => .step (Task.idle rfl (by decide) same apart) (.done mirrors same)
  | .type name definition others, same, apart => by
    simp only [Declarations.yield, List.cons_append, List.append_assoc] at same
    refine (type_simulates mirrors name definition same).andThen ?_
    intro after mirrors same
    exact others.simulates mirrors same apart
  | .constant names source others, same, apart => by
    simp only [Declarations.yield, List.cons_append, List.append_assoc] at same
    refine (constant_simulates mirrors names source same).andThen ?_
    intro after mirrors same
    exact others.simulates mirrors same apart
  | .variable names definition others, same, apart => by
    simp only [Declarations.yield, List.cons_append, List.append_assoc] at same
    refine (variable_simulates mirrors names definition same).andThen ?_
    intro after mirrors same
    exact others.simulates mirrors same apart
  | .subprogram inner others, same, apart => by
    obtain ⟨behind, yield⟩ : ∃ behind, inner.yield = word .kwProcedure :: behind := by
      cases inner
      exact ⟨_, rfl⟩
    rw [Declarations.yield, yield, List.append_assoc] at same
    refine .take mirrors same .procedure (by simp) ?_
    intro atInner leads _ mirrors
    have whole : word .kwProcedure :: atInner.lexemes = inner.yield ++ (others.yield ++ rest) := by
      rw [leads.lexemes, yield]
      rfl
    refine ((inner.simulates mirrors whole).append [.declarations]).trans ?_
    intro after walk mirrors same
    exact others.simulates mirrors same apart

end

end AdaFront.Tree
