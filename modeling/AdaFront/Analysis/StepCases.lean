import AdaFront.Analysis.Task

namespace AdaFront.Analysis

/-- The kinds of the tokens that a task looks for. -/
def Task.openings : Task → List Kind
  | .accept kind | .skip kind => [kind]
  | .declare _ | .closingName | .names | .nextName | .typeName => [.identifier]
  | .formalPart => [.leftParen]
  | .moreParameters => [.semicolon]
  | .moreNames | .moreIndices | .moreArguments => [.comma]
  | .declarations => [.kwType, .kwProcedure, .identifier]
  | .typeDefinition => [.leftParen, .kwArray, .kwRange, .identifier]
  | .index => [.kwRange, .identifier]
  | .statement | .moreStatements =>
    [.identifier, .kwExit, .kwIf, .kwNull, .kwWhile, .kwLoop, .kwPrint]
  | .alternatives => [.kwElsif, .kwElse]
  | .exitCondition => [.kwWhen]
  | .logic => [.kwAnd, .kwOr]
  | .comparison => [.equal, .unequal, .less, .lessEqual, .greater, .greaterEqual]
  | .moreTerms => [.plus, .minus]
  | .moreFactors => [.star, .slash, .kwMod]
  | .exponent => [.power]
  | .primary => [.integer, .leftParen, .identifier]
  | _ => []

/-- What is missing where a task does not find what it looks for, if the text must have it. -/
def Task.expectation? : Task → Option Expectation
  | .accept kind => some (.token kind)
  | .declare _ | .names | .nextName | .typeName => some (.token .identifier)
  | .typeDefinition => some .typeDefinition
  | .index => some .index
  | .statement => some .statement
  | .primary => some .expression
  | _ => none

/-- There may be nothing for the task in the text. -/
def Task.isOptional (task : Task) : Bool :=
  !task.openings.isEmpty && task.expectation?.isNone

/-- A task passes over a token of the kind, and the tasks take its place. The value is that of the expression
which was read last. -/
inductive Takes (value : Option Int) : Task → Kind → List Task → Prop
  | accept {kind} : Takes value (.accept kind) kind []
  | skip {kind} : Takes value (.skip kind) kind []
  | formalPart :
      Takes value .formalPart .leftParen (parameter ++ [.moreParameters, .accept .rightParen])
  | moreParameters : Takes value .moreParameters .semicolon (parameter ++ [.moreParameters])
  | moreNames : Takes value .moreNames .comma [.nextName]
  | type :
      Takes value .declarations .kwType
        [.declare .type, .accept .kwIs, .typeDefinition, .accept .semicolon, .declarations]
  | procedure : Takes value .declarations .kwProcedure (subprogram ++ [.declarations])
  | enumeration :
      Takes value .typeDefinition .leftParen [.names, .setRole .constant, .accept .rightParen]
  | array :
      Takes value .typeDefinition .kwArray
        [.accept .leftParen, .index, .moreIndices, .accept .rightParen, .accept .kwOf, .typeName]
  | rangeType : Takes value .typeDefinition .kwRange range
  | rangeIndex : Takes value .index .kwRange range
  | moreIndices : Takes value .moreIndices .comma [.index, .moreIndices]
  | exit : Takes value .statement .kwExit [.exitCondition, .accept .semicolon]
  | branch :
      Takes value .statement .kwIf
        [.expression, .accept .kwThen, .statement, .moreStatements, .alternatives, .accept .kwEnd,
         .accept .kwIf, .accept .semicolon]
  | null : Takes value .statement .kwNull [.accept .semicolon]
  | whileLoop :
      Takes value .statement .kwWhile
        [.expression, .accept .kwLoop, .statement, .moreStatements, .accept .kwEnd, .accept .kwLoop,
         .accept .semicolon]
  | loop :
      Takes value .statement .kwLoop
        [.statement, .moreStatements, .accept .kwEnd, .accept .kwLoop, .accept .semicolon]
  | print :
      Takes value .statement .kwPrint
        [.accept .leftParen, .expression, .print, .accept .rightParen, .accept .semicolon]
  | further {kind tasks} : Takes value .statement kind tasks →
      Takes value .moreStatements kind (tasks ++ [.moreStatements])
  | elsif :
      Takes value .alternatives .kwElsif
        [.expression, .accept .kwThen, .statement, .moreStatements, .alternatives]
  | otherwise : Takes value .alternatives .kwElse [.statement, .moreStatements]
  | exitCondition : Takes value .exitCondition .kwWhen [.expression]
  | logic (connective : Connective) :
      Takes value .logic connective.kind [.relation, .moreLogic connective]
  | moreLogic {connective} :
      Takes value (.moreLogic connective) connective.kind [.relation, .moreLogic connective]
  | comparison {kind} : kind ∈ Task.comparison.openings → Takes value .comparison kind [.simple, .forget]
  | plus : Takes value .simple .plus [.term, .moreTerms]
  | minus : Takes value .simple .minus [.term, .combine .subtract (some 0), .moreTerms]
  | moreTerms {kind operator} : Operator.adding? kind = some operator →
      Takes value .moreTerms kind [.term, .combine operator value, .moreTerms]
  | moreFactors {kind operator} : Operator.multiplying? kind = some operator →
      Takes value .moreFactors kind [.factor, .combine operator value, .moreFactors]
  | not : Takes value .factor .kwNot [.primary, .forget]
  | exponent : Takes value .exponent .power [.primary, .combine .power value]
  | parenthesized : Takes value .primary .leftParen [.expression, .accept .rightParen]
  | moreArguments : Takes value .moreArguments .comma [.expression, .moreArguments]

/-- Only where a word is asked for can it be the end of the input, and then nothing else is left to do. -/
theorem Takes.inner_or_word {value : Option Int} {task : Task} {kind : Kind} {tasks : List Task}
    (takes : Takes value task kind tasks) :
    kind ≠ .endOfInput ∨ (task = .accept kind ∨ task = .skip kind) ∧ tasks = [] := by
  cases takes with
  | accept => exact Or.inr ⟨Or.inl rfl, rfl⟩
  | skip => exact Or.inr ⟨Or.inr rfl, rfl⟩
  | further first => cases first <;> exact Or.inl (by decide)
  | logic connective | @moreLogic connective => cases connective <;> exact Or.inl (by decide)
  | comparison opens => exact Or.inl fun same => by simp [same, Task.openings] at opens
  | moreTerms adds => exact Or.inl fun same => by simp [same, Operator.adding?] at adds
  | moreFactors multiplies => exact Or.inl fun same => by simp [same, Operator.multiplying?] at multiplies
  | _ => exact Or.inl (by decide)

/-- A task leaves a token of the kind to the tasks that take its place. -/
inductive Expands (kind : Kind) : Task → List Task → Prop
  | expression : Expands kind .expression [.relation, .logic]
  | relation : Expands kind .relation [.simple, .comparison]
  | simple : kind ≠ .plus → kind ≠ .minus → Expands kind .simple [.term, .moreTerms]
  | term : Expands kind .term [.factor, .moreFactors]
  | factor : kind ≠ .kwNot → Expands kind .factor [.primary, .exponent]

/-- A task may begin with a name and the list behind it, about which another task learns. -/
inductive Heads : Task → (Option EntryId → Bool → Task) → List Task → Prop
  | statement : Heads .statement .assignOrCall []
  | further : Heads .moreStatements .assignOrCall [.moreStatements]
  | primary : Heads .primary .operand []

/-- All that a task can do where it goes on: the tasks that take its place, and the state behind it. -/
inductive Goes (state : State) : Task → List Task → State → Prop
  | takes {task tasks} : Takes state.value task state.kind tasks → Goes state task tasks state.advance
  | omits {task} : task.isOptional = true → state.kind ∉ task.openings → Goes state task [] state
  | expands {task tasks} : Expands state.kind task tasks → Goes state task tasks state
  | declare {role} : state.kind = .identifier → Goes state (.declare role) [] (state.declare role)
  | names : state.kind = .identifier →
      Goes state .names [.moreNames] ({ state with group := none } : State).declareListed
  | objects : state.kind = .identifier →
      Goes state .declarations [.moreNames, .accept .colon, .object, .accept .semicolon, .declarations]
        ({ state with group := none } : State).declareListed
  | nextName : state.kind = .identifier → Goes state .nextName [.moreNames] state.declareListed
  | closingName : state.kind = .identifier →
      Goes state .closingName [] (state.find.2.check state.find.1 .call)
  | typeName {task} : state.kind = .identifier → task ∈ [.typeName, .typeDefinition, .index] →
      Goes state task [] (state.find.2.check state.find.1 .typeName)
  | bare {task last later} : state.kind = .identifier → Heads task last later →
      state.find.2.kind ≠ .leftParen → Goes state task (last state.find.1 false :: later) state.find.2
  | listed {task last later} : state.kind = .identifier → Heads task last later →
      state.find.2.kind = .leftParen →
      Goes state task (arguments ++ last state.find.1 true :: later) state.find.2.advance
  | setRole {role} : Goes state (.setRole role) [] (state.setRole role)
  | constantObject : state.kind = .kwConstant →
      Goes state .object [.accept .assign, .expression, .setConstant] (state.advance.setRole .constant)
  | typedObject : state.kind ≠ .kwConstant → Goes state .object [.typeDefinition] (state.setRole .variable)
  | setConstant : Goes state .setConstant [] state.setConstant
  | target {name} : state.kind = .assign →
      Goes state (.assignOrCall name false) [.expression, .assign name, .accept .semicolon]
        (state.check name .target).advance
  | component {name} : state.kind = .assign →
      Goes state (.assignOrCall name true) [.expression, .accept .semicolon] (state.check name .target).advance
  | call {name indexed} : state.kind ≠ .assign →
      Goes state (.assignOrCall name indexed) [.accept .semicolon] (state.check name .call)
  | assign {name} : Goes state (.assign name) [] (state.assign name)
  | print {value} : state.value = some value → Goes state .print [] (state.log (.printed value))
  | endLogic {connective} : state.kind ≠ connective.kind → Goes state (.moreLogic connective) [] state.forget
  | forget : Goes state .forget [] state.forget
  | literal : state.kind = .integer → Goes state .primary [] state.literal
  | operand {name indexed} :
      Goes state (.operand name indexed) []
        { state.check name .operand with
          value := if indexed then none else (state.check name .operand).valueOf name }
  | combine {operator left} : Goes state (.combine operator left) [] (state.combine operator left)
  | openScope : Goes state .openScope [] state.openScope
  | closeScope : Goes state .closeScope [] state.closeScope

/-- One more statement of a sequence goes on like the first one. -/
theorem Goes.further {state after : State} {tasks : List Task} (goes : Goes state .statement tasks after) :
    Goes state .moreStatements (tasks ++ [.moreStatements]) after := by
  cases goes with
  | takes takes => exact .takes (.further takes)
  | omits optional => cases optional
  | typeName _ among => simp at among
  | bare atName heads apart =>
    cases heads
    exact .bare atName .further apart
  | listed atName heads list =>
    cases heads
    exact .listed atName .further list
  | expands expands => cases expands

/-- Why a task can refuse the current token. -/
inductive Refuses (state : State) : Task → Obstacle → Prop
  | unexpected {task expectation} : task.expectation? = some expectation → state.kind ∉ task.openings →
      Refuses state task (.expected expectation)
  | unknown : state.value = none → Refuses state .print .illegalPrintOperand

theorem Step.before_nil (step : Step) : step.before [] = step := by
  cases step with
  | go tasks after => exact congrArg (Step.go · after) (List.append_nil tasks)
  | stop => rfl

/-- A step from a state: the task goes on, or refuses the current token. -/
def Step.From (state : State) (task : Task) (step : Step) : Prop :=
  (∃ tasks after, step = .go tasks after ∧ Goes state task tasks after) ∨
    ∃ obstacle, step = state.refuse obstacle ∧ Refuses state task obstacle

namespace Step.From

variable {state after : State} {task : Task} {tasks : List Task}

theorem goes (goes : Goes state task tasks after) : (Step.go tasks after).From state task :=
  Or.inl ⟨tasks, after, rfl, goes⟩

theorem refuses {obstacle : Obstacle} (refuses : Refuses state task obstacle) :
    (state.refuse obstacle).From state task :=
  Or.inr ⟨obstacle, rfl, refuses⟩

/-- The current token is taken, by the kind that it has turned out to have. -/
theorem takes {kind : Kind} (atKind : state.kind = kind) (takes : Takes state.value task kind tasks) :
    (Step.go tasks state.advance).From state task := by
  subst atKind
  exact goes (.takes takes)

theorem require {step : Step} {kind : Kind} (asks : task.expectation? = some (.token kind))
    (opens : task.openings = [kind]) (goes : state.kind = kind → step.From state task) :
    (state.require kind step).From state task := by
  unfold State.require
  split
  next same => exact goes same
  next other => exact refuses (.unexpected asks (opens ▸ mt List.mem_singleton.mp other))

theorem perhaps {kind : Kind} (optional : task.isOptional = true) (opens : task.openings = [kind])
    (takes : Takes state.value task kind tasks) : (state.perhaps kind tasks).From state task := by
  unfold State.perhaps
  split
  next same => exact .takes same takes
  next other => exact goes (.omits optional (opens ▸ mt List.mem_singleton.mp other))

theorem component {last : Option EntryId → Bool → Task} (atName : state.kind = .identifier)
    (heads : Heads task last []) : (state.component last).From state task := by
  unfold State.component
  dsimp only
  split
  next list => exact goes (.listed atName heads list)
  next bare => exact goes (.bare atName heads bare)

theorem ofStatement (state : State) : state.statementStep.From state .statement := by
  unfold State.statementStep
  split
  next atName => exact component atName .statement
  next same => exact takes same .exit
  next same => exact takes same .branch
  next same => exact takes same .null
  next same => exact takes same .whileLoop
  next same => exact takes same .loop
  next same => exact takes same .print
  next noName noExit noIf noNull noWhile noLoop noPrint =>
    refine refuses (.unexpected rfl ?_)
    simpa [Task.openings] using ⟨noName, noExit, noIf, noNull, noWhile, noLoop, noPrint⟩

/-- One more statement is read as the first one is. -/
theorem further {step : Step} (opens : state.kind ∈ Task.statement.openings) (first : step.From state .statement) :
    (step.before [.moreStatements]).From state .moreStatements := by
  rcases first with ⟨tasks, after, rfl, first⟩ | ⟨_, _, ⟨_, apart⟩⟩
  · cases first with
    | takes takes => exact goes (.takes (.further takes))
    | omits optional => cases optional
    | expands expands => cases expands
    | typeName _ among => simp at among
    | bare atName heads bare =>
      cases heads
      exact goes (.bare atName .further bare)
    | listed atName heads list =>
      cases heads
      exact goes (.listed atName .further list)
  · exact absurd opens apart

end Step.From

/-- All that a task can do. -/
theorem Task.step_from (state : State) (task : Task) : (task.step state).From state task := by
  open Step.From in
  cases task with
  | accept kind => exact require rfl rfl fun same => takes same .accept
  | skip kind =>
    rw [step, State.skip]
    split
    next same => exact takes same .skip
    next other => exact goes (.omits rfl (mt List.mem_singleton.mp other))
  | declare role => exact require rfl rfl fun atName => goes (.declare atName)
  | openScope => exact goes .openScope
  | closeScope => exact goes .closeScope
  | closingName =>
    rw [step]
    split
    next atName => exact goes (.closingName atName)
    next other => exact goes (.omits rfl (mt List.mem_singleton.mp other))
  | formalPart => exact perhaps rfl rfl .formalPart
  | moreParameters => exact perhaps rfl rfl .moreParameters
  | names => exact require rfl rfl fun atName => goes (.names atName)
  | nextName => exact require rfl rfl fun atName => goes (.nextName atName)
  | moreNames => exact perhaps rfl rfl .moreNames
  | setRole role => exact goes .setRole
  | typeName => exact require rfl rfl fun atName => goes (.typeName atName (by simp))
  | declarations =>
    rw [step, State.declarationStep]
    split
    next same => exact takes same .type
    next same => exact takes same .procedure
    next atName => exact goes (.objects atName)
    next noType noProcedure noName =>
      exact goes (.omits rfl (by simpa [openings] using ⟨noType, noProcedure, noName⟩))
  | typeDefinition =>
    rw [step, State.typeDefinitionStep]
    split
    next same => exact takes same .enumeration
    next same => exact takes same .array
    next same => exact takes same .rangeType
    next atName => exact goes (.typeName atName (by simp))
    next noList noArray noRange noName =>
      exact refuses (.unexpected rfl (by simpa [openings] using ⟨noList, noArray, noRange, noName⟩))
  | object =>
    rw [step, State.objectStep]
    split
    next same => exact goes (.constantObject same)
    next other => exact goes (.typedObject other)
  | setConstant => exact goes .setConstant
  | index =>
    rw [step, State.indexStep]
    split
    next same => exact takes same .rangeIndex
    next atName => exact goes (.typeName atName (by simp))
    next noRange noName => exact refuses (.unexpected rfl (by simpa [openings] using ⟨noRange, noName⟩))
  | moreIndices => exact perhaps rfl rfl .moreIndices
  | statement => exact ofStatement state
  | moreStatements =>
    rw [step, State.moreStatementsStep]
    split
    case h_8 noName noExit noIf noNull noWhile noLoop noPrint =>
      refine goes (.omits rfl ?_)
      simpa [openings] using ⟨noName, noExit, noIf, noNull, noWhile, noLoop, noPrint⟩
    all_goals
      next same => exact further (by rw [same]; decide) (ofStatement state)
  | alternatives =>
    rw [step, State.alternativesStep]
    split
    next same => exact takes same .elsif
    next same => exact takes same .otherwise
    next noElsif noElse => exact goes (.omits rfl (by simpa [openings] using ⟨noElsif, noElse⟩))
  | exitCondition => exact perhaps rfl rfl .exitCondition
  | assignOrCall name indexed =>
    rw [step, State.assignOrCallStep]
    split
    next same =>
      cases indexed with
      | true => exact goes (.component same)
      | false => exact goes (.target same)
    next other => exact goes (.call other)
  | assign name => exact goes .assign
  | print =>
    rw [step, State.printStep]
    split
    next known => exact goes (.print known)
    next unknown => exact refuses (.unknown unknown)
  | expression => exact goes (.expands .expression)
  | logic =>
    rw [step, State.logicStep]
    split
    next same => exact takes same (.logic .conjunction)
    next same => exact takes same (.logic .disjunction)
    next noAnd noOr => exact goes (.omits rfl (by simpa [openings] using ⟨noAnd, noOr⟩))
  | moreLogic connective =>
    rw [step, State.moreLogicStep]
    split
    next same => exact takes same .moreLogic
    next other => exact goes (.endLogic other)
  | relation => exact goes (.expands .relation)
  | comparison =>
    rw [step, State.comparisonStep]
    split
    case h_7 notEqual notUnequal notLess notLessEqual notGreater notGreaterEqual =>
      refine goes (.omits rfl ?_)
      simpa [openings] using ⟨notEqual, notUnequal, notLess, notLessEqual, notGreater, notGreaterEqual⟩
    all_goals
      next same => exact takes same (.comparison (by decide))
  | simple =>
    rw [step, State.simpleStep]
    split
    next same => exact takes same .plus
    next same => exact takes same .minus
    next noPlus noMinus => exact goes (.expands (.simple noPlus noMinus))
  | moreTerms =>
    rw [step, State.moreTermsStep]
    split
    next adds => exact takes rfl (.moreTerms adds)
    next none =>
      have adding : ∀ kind ∈ moreTerms.openings, Operator.adding? kind ≠ .none := by decide
      exact goes (.omits rfl fun member => adding _ member none)
  | term => exact goes (.expands .term)
  | moreFactors =>
    rw [step, State.moreFactorsStep]
    split
    next multiplies => exact takes rfl (.moreFactors multiplies)
    next none =>
      have multiplying : ∀ kind ∈ moreFactors.openings, Operator.multiplying? kind ≠ .none := by decide
      exact goes (.omits rfl fun member => multiplying _ member none)
  | factor =>
    rw [step, State.factorStep]
    split
    next same => exact takes same .not
    next other => exact goes (.expands (.factor other))
  | exponent => exact perhaps rfl rfl .exponent
  | primary =>
    rw [step, State.primaryStep]
    split
    next atLiteral => exact goes (.literal atLiteral)
    next same => exact takes same .parenthesized
    next atName => exact component atName .primary
    next noLiteral noList noName =>
      exact refuses (.unexpected rfl (by simpa [openings] using ⟨noLiteral, noList, noName⟩))
  | operand name indexed => exact goes .operand
  | moreArguments => exact perhaps rfl rfl .moreArguments
  | forget => exact goes .forget
  | combine operator left => exact goes .combine

/-- A property of steps holds where the task goes on and where it refuses the current token. -/
@[elab_as_elim]
theorem Task.step_cases {motive : Step → Prop} (state : State) (task : Task)
    (goes : ∀ {tasks after}, Goes state task tasks after → motive (.go tasks after))
    (refuses : ∀ {obstacle}, Refuses state task obstacle → motive (state.refuse obstacle)) :
    motive (task.step state) := by
  rcases task.step_from state with ⟨_, _, step, going⟩ | ⟨_, step, refusing⟩
  · exact step ▸ goes going
  · exact step ▸ refuses refusing

section Converse

variable {state after : State} {task : Task} {tasks : List Task}

theorem Takes.step {kind : Kind} (takes : Takes state.value task kind tasks) (atKind : state.kind = kind) :
    task.step state = .go tasks state.advance := by
  generalize value : state.value = known at takes
  cases takes with
  | accept | formalPart | moreParameters | moreNames | moreIndices | exitCondition | moreArguments | not
  | moreLogic => exact if_pos atKind
  | skip => exact congrArg (Step.go []) (if_pos atKind)
  | exponent => exact value ▸ if_pos atKind
  | type | procedure => rw [Task.step, State.declarationStep, atKind]
  | enumeration | array | rangeType => rw [Task.step, State.typeDefinitionStep, atKind]
  | rangeIndex => rw [Task.step, State.indexStep, atKind]
  | exit | branch | null | whileLoop | loop | print => rw [Task.step, State.statementStep, atKind]
  | further first => cases first <;> rw [Task.step, State.moreStatementsStep, State.statementStep, atKind] <;> rfl
  | elsif | otherwise => rw [Task.step, State.alternativesStep, atKind]
  | logic connective => cases connective <;> rw [Task.step, State.logicStep, atKind] <;> rfl
  | comparison opens =>
    rw [Task.step, State.comparisonStep, atKind]
    revert opens
    cases kind <;> first | exact fun _ => rfl | exact fun opens => absurd opens (by decide)
  | plus | minus => rw [Task.step, State.simpleStep, atKind]
  | moreTerms adds => rw [Task.step, State.moreTermsStep, atKind, adds, value]
  | moreFactors multiplies => rw [Task.step, State.moreFactorsStep, atKind, multiplies, value]
  | parenthesized => rw [Task.step, State.primaryStep, atKind]

/-- A task has nothing to do at a token that it does not look for, if it need not find one. -/
theorem Task.step_omits (optional : task.isOptional = true) (apart : state.kind ∉ task.openings) :
    task.step state = .go [] state := by
  cases task with
  | closingName | formalPart | moreParameters | moreNames | moreIndices | exitCondition | moreArguments
  | exponent => exact if_neg (mt List.mem_singleton.mpr apart)
  | skip kind => exact congrArg (Step.go []) (if_neg (mt List.mem_singleton.mpr apart))
  | declarations | moreStatements | alternatives | logic | comparison | moreTerms | moreFactors =>
    simp only [step, State.declarationStep, State.moreStatementsStep, State.alternativesStep, State.logicStep,
      State.comparisonStep, State.moreTermsStep, State.moreFactorsStep]
    revert apart
    cases state.kind <;> first | exact fun _ => rfl | exact fun apart => absurd (by decide) apart
  | _ => cases optional

/-- A name with the list that may follow it comes before what stands behind both. -/
theorem Heads.step {last : Option EntryId → Bool → Task} {later : List Task} (heads : Heads task last later)
    (atName : state.kind = .identifier) : task.step state = (state.component last).before later := by
  cases heads with
  | statement => rw [Task.step, State.statementStep, atName, Step.before_nil]
  | further => rw [Task.step, State.moreStatementsStep, State.statementStep, atName]
  | primary => rw [Task.step, State.primaryStep, atName, Step.before_nil]

theorem Goes.step (goes : Goes state task tasks after) : task.step state = .go tasks after := by
  cases goes with
  | takes takes => exact takes.step rfl
  | omits optional apart => exact Task.step_omits optional apart
  | expands expands =>
    cases expands with
    | expression | relation | term => rfl
    | simple noPlus noMinus =>
      rw [Task.step, State.simpleStep]
      split
      next same => exact absurd same noPlus
      next same => exact absurd same noMinus
      next => rfl
    | factor other => exact if_neg other
  | declare atName | names atName | nextName atName | closingName atName => exact if_pos atName
  | objects atName => rw [Task.step, State.declarationStep, atName]
  | typeName atName among =>
    simp only [List.mem_cons, List.not_mem_nil, or_false] at among
    rcases among with rfl | rfl | rfl
    · exact if_pos atName
    · rw [Task.step, State.typeDefinitionStep, atName]
      rfl
    · rw [Task.step, State.indexStep, atName]
      rfl
  | @bare _ last _ atName heads bare =>
    have name : state.component last = .go [last state.find.1 false] state.find.2 := if_neg bare
    rw [heads.step atName, name]
    rfl
  | @listed _ last _ atName heads list =>
    have name : state.component last = .go (arguments ++ [last state.find.1 true]) state.find.2.advance :=
      if_pos list
    rw [heads.step atName, name, Step.before, List.append_assoc]
    rfl
  | constantObject same => exact if_pos same
  | typedObject other => exact if_neg other
  | target same | component same => exact if_pos same
  | call other => exact if_neg other
  | print known => rw [Task.step, State.printStep, known]
  | endLogic other => exact if_neg other
  | literal atLiteral => rw [Task.step, State.primaryStep, atLiteral]
  | setRole | setConstant | assign | forget | operand | combine | openScope | closeScope => rfl

theorem Refuses.step {obstacle : Obstacle} (refuses : Refuses state task obstacle) :
    task.step state = state.refuse obstacle := by
  cases refuses with
  | unknown unknown => rw [Task.step, State.printStep, unknown]
  | unexpected asks apart =>
    cases task with
    | accept | declare | names | nextName | typeName =>
      cases asks
      exact if_neg (mt List.mem_singleton.mpr apart)
    | typeDefinition | index | statement | primary =>
      cases asks
      simp only [Task.step, State.typeDefinitionStep, State.indexStep, State.statementStep, State.primaryStep]
      revert apart
      cases state.kind <;> first | exact fun _ => rfl | exact fun apart => absurd (by decide) apart
    | _ => cases asks

/-- A task goes on in the ways that it can, and in no other. -/
theorem Task.step_go_iff : task.step state = .go tasks after ↔ Goes state task tasks after := by
  refine ⟨?_, Goes.step⟩
  refine task.step_cases state (fun goes same => ?_) (fun _ same => ?_)
  · obtain ⟨rfl, rfl⟩ := Step.go.inj same
    exact goes
  · cases same

/-- An analysis ends with the report of what a task refuses at the current token. -/
theorem Task.step_stop_iff {rejection : Rejection} :
    task.step state = .stop rejection after ↔
      rejection.token = state.token ∧ after = state.report (.rejected rejection) ∧
        Refuses state task rejection.obstacle := by
  constructor
  · refine task.step_cases state (fun _ same => ?_) (fun refuses same => ?_)
    · cases same
    · obtain ⟨rfl, rfl⟩ := Step.stop.inj same
      exact ⟨rfl, rfl, refuses⟩
  · obtain ⟨token, obstacle⟩ := rejection
    rintro ⟨rfl, rfl, refuses⟩
    exact refuses.step

end Converse

end AdaFront.Analysis
