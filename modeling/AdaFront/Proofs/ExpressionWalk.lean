import AdaFront.Proofs.Leading

namespace AdaFront.Analysis

open AdaFront.Tree (Lexeme identifier word)

/-- A state whose table and feed are in order, with what its names stand for. -/
structure Ready (scope : Scope) (state : State) : Prop where
  searched : state.feed.Searched
  linked : state.table.Linked
  scope : state.scope = scope

theorem Leads.ready {scope : Scope} {state after : State} {rest : List Lexeme}
    {remarks : List Diagnostic} (leads : Leads state after rest remarks) (ready : Ready scope state) :
    Ready scope after :=
  ⟨leads.searched, leads.table ▸ ready.linked, (congrArg Table.scope leads.table).trans ready.scope⟩

/-- The tasks lead over tokens to a state with some of them left to do, where the value of the
expression is known to be this. -/
def Comes (tasks left : List Task) (state : State) (rest : List Lexeme) (value : Option Int)
    (remarks : List Diagnostic) : Prop :=
  ∃ after, Reaches tasks state left after ∧ Leads state after rest remarks ∧ after.value = value

namespace Comes

variable {scope : Scope} {tasks middle left later : List Task} {task : Task} {state after : State}
  {rest rest' : List Lexeme} {value value' : Option Int} {remarks more : List Diagnostic}

theorem trans (first : Comes tasks middle state rest value remarks)
    (second : ∀ between, Leads state between rest remarks → between.value = value →
      Comes middle left between rest' value' more) :
    Comes tasks left state rest' value' (remarks ++ more) := by
  obtain ⟨between, reach, leads, same⟩ := first
  obtain ⟨after, reach', leads', same'⟩ := second between leads same
  exact ⟨after, reach.trans reach', leads.trans leads', same'⟩

/-- The second part has nothing to say. -/
theorem quietly (first : Comes tasks middle state rest value remarks)
    (second : ∀ between, Leads state between rest remarks → between.value = value →
      Comes middle left between rest' value' []) :
    Comes tasks left state rest' value' remarks :=
  List.append_nil remarks ▸ first.trans second

theorem append (comes : Comes tasks middle state rest value remarks) (later : List Task) :
    Comes (tasks ++ later) (middle ++ later) state rest value remarks := by
  obtain ⟨after, reach, leads, same⟩ := comes
  exact ⟨after, reach.append later, leads, same⟩

/-- The first task is done in one step. -/
theorem step (step : task.step state = .go tasks after) (leads : Leads state after rest remarks)
    (comes : Comes (tasks ++ later) left after rest' value more) :
    Comes (task :: later) left state rest' value (remarks ++ more) := by
  obtain ⟨final, reach, leads', same⟩ := comes
  exact ⟨final, (Reaches.start.step step).trans reach, leads.trans leads', same⟩

/-- The last task is done in one step. -/
theorem last (step : task.step state = .go [] after) (leads : Leads state after rest remarks) :
    Comes [task] [] state rest after.value remarks :=
  ⟨after, Reaches.start.step step, leads, rfl⟩

/-- The first task changes nothing but what is left to do. -/
theorem stay (step : task.step state = .go tasks state)
    (comes : Comes (tasks ++ later) left state rest value remarks) :
    Comes (task :: later) left state rest value remarks := by
  obtain ⟨final, reach, leads, same⟩ := comes
  exact ⟨final, (Reaches.start.step step).trans reach, leads, same⟩

/-- The first task takes one token. -/
theorem take {first : Lexeme} (ready : Ready scope state) (same : state.lexemes = first :: rest)
    (takes : Takes state.value task first.1 tasks) (quiet : first.1 ≠ .kwPrint)
    (comes : ∀ after, Leads state after rest [] → after.value = state.value →
      Comes (tasks ++ later) left after rest' value remarks) :
    Comes (task :: later) left state rest' value remarks := by
  have read := Leads.advance ready.searched same quiet
  exact Comes.step (takes.step (State.kind_of_lexemes same)) read (comes state.advance read rfl)

/-- A word that is asked for is there. -/
theorem accept {kind : Kind} (ready : Ready scope state) (same : state.lexemes = word kind :: rest)
    (quiet : kind ≠ .kwPrint)
    (comes : ∀ after, Leads state after rest [] → after.value = state.value →
      Comes later left after rest' value remarks) :
    Comes (.accept kind :: later) left state rest' value remarks :=
  take ready same .accept quiet comes

/-- An operation is computed on its operands. -/
theorem combine (ready : Ready scope state) (same : state.lexemes = rest) (operator : Operator)
    (first : Option Int) :
    Comes [.combine operator first] [] state rest (operator.value first state.value)
      (operator.remarks first state.value) := by
  obtain ⟨leads, value⟩ := State.combine_leads ready.searched operator first
  rw [same] at leads
  rw [← value]
  exact last rfl leads

theorem forget (ready : Ready scope state) (same : state.lexemes = rest) :
    Comes [.forget] [] state rest none [] :=
  @last _ _ state.forget _ _ rfl (same ▸ Leads.ofValue ready.searched none)

/-- All tasks are left. -/
theorem done (ready : Ready scope state) (same : state.lexemes = rest) :
    Comes tasks tasks state rest state.value [] :=
  ⟨state, .start, same ▸ Leads.refl ready.searched, rfl⟩

/-- The task that is left has nothing to do at the next token. -/
theorem finish {task : Task} {kinds : List Kind} (comes : Comes tasks [task] state rest value remarks)
    (optional : task.isOptional = true) (within : task.openings ⊆ kinds) (apart : nextKind rest ∉ kinds) :
    Comes tasks [] state rest value remarks := by
  obtain ⟨between, reach, leads, same⟩ := comes
  exact ⟨between, reach.step (Task.idle optional within leads.lexemes apart), leads, same⟩

theorem endTerms (comes : Comes tasks [.moreTerms] state rest value remarks)
    (apart : nextKind rest ∉ Part.simpleContinuations) : Comes tasks [] state rest value remarks :=
  comes.finish rfl (by decide) apart

theorem endFactors (comes : Comes tasks [.moreFactors] state rest value remarks)
    (apart : nextKind rest ∉ Part.termContinuations) : Comes tasks [] state rest value remarks :=
  comes.finish rfl (by decide) apart

theorem endComparison (comes : Comes tasks [.comparison] state rest value remarks)
    (apart : nextKind rest ∉ Part.relationContinuations) : Comes tasks [] state rest value remarks :=
  comes.finish rfl (by decide) apart

theorem endLogic (comes : Comes tasks [.logic] state rest value remarks)
    (apart : nextKind rest ∉ Part.expressionContinuations) : Comes tasks [] state rest value remarks :=
  comes.finish rfl (by decide) apart

theorem endExponent (comes : Comes tasks [.exponent] state rest value remarks)
    (apart : nextKind rest ∉ Part.factorContinuations) : Comes tasks [] state rest value remarks :=
  comes.finish rfl (by decide) apart

theorem endArguments (comes : Comes tasks [.moreArguments] state rest value remarks)
    (apart : nextKind rest ≠ .comma) : Comes tasks [] state rest value remarks :=
  comes.finish rfl (List.Subset.refl _) (mt List.mem_singleton.mp apart)

end Comes

end AdaFront.Analysis

namespace AdaFront.Tree

open Analysis

theorem Primary.yield_begins (primary : Primary) :
    ∃ first others, primary.yield = first :: others ∧ first.1 ∈ Part.primary.starts := by
  have number : Kind.integer ∈ Part.primary.starts := by decide
  have list : Kind.leftParen ∈ Part.primary.starts := by decide
  have name : Kind.identifier ∈ Part.primary.starts := by decide
  cases primary with
  | literal digits => exact ⟨_, _, rfl, number⟩
  | inParentheses inner => exact ⟨_, _, by rw [Primary.yield]; rfl, list⟩
  | name spelled =>
    cases spelled with
    | plain text => exact ⟨_, _, rfl, name⟩
    | indexed text arguments => exact ⟨_, _, rfl, name⟩

theorem Factor.yield_begins (factor : Factor) :
    ∃ first others, factor.yield = first :: others ∧ first.1 ∈ Part.factor.starts := by
  cases factor with
  | negated operand =>
    have denial : Kind.kwNot ∈ Part.factor.starts := by decide
    exact ⟨_, _, rfl, denial⟩
  | primary only =>
    obtain ⟨first, others, same, start⟩ := only.yield_begins
    exact ⟨first, others, same, List.mem_cons_of_mem _ start⟩
  | power base exponent =>
    obtain ⟨first, others, same, start⟩ := base.yield_begins
    exact ⟨first, _, by rw [Factor.yield, same]; rfl, List.mem_cons_of_mem _ start⟩

theorem Term.yield_begins : (term : Term) →
    ∃ first others, term.yield = first :: others ∧ first.1 ∈ Part.term.starts
  | .factor only => only.yield_begins
  | .product left operator right => by
    obtain ⟨first, others, same, start⟩ := left.yield_begins
    exact ⟨first, _, by rw [Term.yield, same]; rfl, start⟩

/-- A factor that is not negated begins with its primary. -/
theorem Primary.factor_step {state : State} {rest : List Lexeme} (primary : Primary)
    (same : state.lexemes = primary.yield ++ rest) :
    Task.factor.step state = .go [.primary, .exponent] state := by
  obtain ⟨first, others, yield, start⟩ := primary.yield_begins
  rw [yield] at same
  have atKind : state.kind = first.1 := State.kind_of_lexemes same
  have plain : state.kind ≠ .kwNot := by
    rintro denial
    rw [← atKind, denial] at start
    exact absurd start (by decide)
  exact Goes.step (.expands (.factor plain))

def Name.text : Name → String
  | .plain name | .indexed name _ => name

def Name.isIndexed : Name → Bool
  | .plain _ => false
  | .indexed _ _ => true

/-- What there is to say about a name before its role is looked at. -/
def Name.readingRemarks (scope : Scope) : Name → List Diagnostic
  | .plain name => scope.undeclared name
  | .indexed name arguments => scope.undeclared name ++ arguments.remarks scope

theorem Name.remarks_eq (name : Name) (scope : Scope) (use : NameUse) :
    name.remarks scope use = name.readingRemarks scope ++ scope.misfit name.text use := by
  cases name <;> rfl

theorem Connective.kind_apart (connective : Connective) :
    connective.kind ∉ Part.relationContinuations ∧ connective.kind ≠ .kwPrint := by
  cases connective <;> decide

theorem Comparison.kind_apart (comparison : Comparison) :
    comparison.kind ∉ Part.simpleContinuations ∧ comparison.kind ≠ .kwPrint := by
  cases comparison <;> decide

theorem Adding.kind_apart (operator : Adding) :
    operator.kind ∉ Part.termContinuations ∧ operator.kind ≠ .kwPrint := by
  cases operator <;> decide

theorem Multiplying.kind_apart (operator : Multiplying) :
    operator.kind ∉ Part.factorContinuations ∧ operator.kind ≠ .kwPrint := by
  cases operator <;> decide

/-- What cannot go on with a term cannot go on with its last factor. -/
theorem termApart {kind : Kind} (apart : kind ∉ Part.termContinuations) :
    kind ∉ Part.factorContinuations :=
  fun member => apart (List.mem_append_right _ member)

theorem simpleApart {kind : Kind} (apart : kind ∉ Part.simpleContinuations) :
    kind ∉ Part.termContinuations :=
  fun member => apart (List.mem_append_right _ member)

theorem relationApart {kind : Kind} (apart : kind ∉ Part.relationContinuations) :
    kind ∉ Part.simpleContinuations :=
  fun member => apart (List.mem_append_right _ member)

theorem expressionApart {kind : Kind} (apart : kind ∉ Part.expressionContinuations) :
    kind ∉ Part.relationContinuations :=
  fun member => apart (List.mem_append_right _ member)

theorem Relations.nextKind_apart (relations : Relations) (connective : Connective)
    {rest : List Lexeme} (apart : nextKind rest ∉ Part.expressionContinuations) :
    nextKind (relations.yield connective ++ rest) ∉ Part.relationContinuations := by
  cases relations with
  | none => exact fun member => apart (List.mem_append_right _ member)
  | more first others => exact (Connective.kind_apart connective).1

mutual

/-- An analysis reads an expression with its value and its remarks. -/
theorem Expression.comes {scope : Scope} {state : State} {rest : List Lexeme}
    (ready : Ready scope state) : (expression : Expression) →
    state.lexemes = expression.yield ++ rest → nextKind rest ∉ Part.expressionContinuations →
    Comes [.expression] [] state rest (expression.value scope) (expression.remarks scope)
  | .relation only, same, apart => by
    have inner := only.comes ready same (expressionApart apart)
    exact .stay rfl ((inner.append [.logic]).endLogic apart)
  | .joined connective first second others, same, apart => by
    have kindApart := Connective.kind_apart connective
    rw [Expression.yield, List.append_assoc, List.append_assoc] at same
    have inner := first.comes ready same kindApart.1
    rw [Expression.remarks, List.append_assoc]
    refine .stay rfl ((inner.append [.logic]).trans ?_)
    intro between leads _
    refine .take (leads.ready ready) leads.lexemes (.logic connective) kindApart.2 ?_
    intro after leads' _
    have readyAfter := leads'.ready (leads.ready ready)
    have next := second.comes readyAfter leads'.lexemes (others.nextKind_apart connective apart)
    refine (next.append [.moreLogic connective]).trans ?_
    intro last leads'' _
    exact others.comes connective (leads''.ready readyAfter) leads''.lexemes apart

theorem Relations.comes {scope : Scope} {state : State} {rest : List Lexeme}
    (connective : Connective) (ready : Ready scope state) : (relations : Relations) →
    state.lexemes = relations.yield connective ++ rest →
    nextKind rest ∉ Part.expressionContinuations →
    Comes [.moreLogic connective] [] state rest none (relations.remarks scope)
  | .none, same, apart => by
    have other : state.kind ≠ connective.kind := by
      intro atKind
      have next : nextKind rest = connective.kind := (State.kind_of_lexemes same).symm.trans atKind
      rw [next] at apart
      cases connective <;> exact apart (by decide)
    have forgotten := Leads.ofValue ready.searched none
    rw [same] at forgotten
    exact .last (Goes.step (.endLogic other)) forgotten
  | .more first others, same, apart => by
    simp only [Relations.yield, List.cons_append, List.append_assoc] at same
    have quiet := (Connective.kind_apart connective).2
    refine .take ready same .moreLogic quiet ?_
    intro after leads _
    have readyAfter := leads.ready ready
    have next := first.comes readyAfter leads.lexemes (others.nextKind_apart connective apart)
    refine (next.append [.moreLogic connective]).trans ?_
    intro between leads' _
    exact others.comes connective (leads'.ready readyAfter) leads'.lexemes apart

theorem Relation.comes {scope : Scope} {state : State} {rest : List Lexeme}
    (ready : Ready scope state) : (relation : Relation) →
    state.lexemes = relation.yield ++ rest → nextKind rest ∉ Part.relationContinuations →
    Comes [.relation] [] state rest (relation.value scope) (relation.remarks scope)
  | .simple only, same, apart => by
    have inner := (only.comes ready same (simpleApart (relationApart apart))).endTerms (relationApart apart)
    exact .stay rfl ((inner.append [.comparison]).endComparison apart)
  | .compared comparison left right, same, apart => by
    have kindApart := comparison.kind_apart
    rw [Relation.yield, List.append_assoc] at same
    have inner := (left.comes ready same (simpleApart kindApart.1)).endTerms kindApart.1
    refine .stay rfl ((inner.append [.comparison]).trans ?_)
    intro between leads _
    have opens : comparison.kind ∈ Task.comparison.openings := by cases comparison <;> decide
    refine .take (leads.ready ready) leads.lexemes (.comparison opens) kindApart.2 ?_
    intro after leads' _
    have readyAfter := leads'.ready (leads.ready ready)
    have next := (right.comes readyAfter leads'.lexemes (simpleApart (relationApart apart))).endTerms
      (relationApart apart)
    refine (next.append [.forget]).quietly ?_
    intro last leads'' _
    exact .forget (leads''.ready readyAfter) leads''.lexemes

/-- A sum is read from the left: what has been read of it can be the first operand of the next one. -/
theorem Simple.comes {scope : Scope} {state : State} {rest : List Lexeme}
    (ready : Ready scope state) : (simple : Simple) →
    state.lexemes = simple.yield ++ rest → nextKind rest ∉ Part.termContinuations →
    Comes [.simple] [.moreTerms] state rest (simple.value scope) (simple.remarks scope)
  | .term none only, same, apart => by
    obtain ⟨first, others, yield, start⟩ := only.yield_begins
    have whole : state.lexemes = first :: (others ++ rest) := same.trans (by rw [Simple.yield, yield]; rfl)
    have atKind : state.kind = first.1 := State.kind_of_lexemes whole
    have unsigned {sign : Kind} (apart : sign ∉ Part.term.starts) : state.kind ≠ sign :=
      fun same => apart (same ▸ atKind ▸ start)
    have begins := Goes.step (.expands (.simple (unsigned (by decide)) (unsigned (by decide))))
    exact .stay begins (((only.comes ready same (termApart apart)).endFactors apart).append [.moreTerms])
  | .term (some .plus) only, same, apart => by
    refine .take ready same .plus Adding.plus.kind_apart.2 ?_
    intro after leads _
    exact ((only.comes (leads.ready ready) leads.lexemes (termApart apart)).endFactors apart).append
      [.moreTerms]
  | .term (some .minus) only, same, apart => by
    refine .take ready same .minus Adding.minus.kind_apart.2 ?_
    intro after leads _
    have readyAfter := leads.ready ready
    have inner := (only.comes readyAfter leads.lexemes (termApart apart)).endFactors apart
    refine (inner.append [.combine .subtract (some 0), .moreTerms]).trans ?_
    intro last leads' known
    rw [Simple.value, ← known]
    exact (Comes.combine (leads'.ready readyAfter) leads'.lexemes .subtract (some 0)).append
      [.moreTerms]
  | .sum left operator right, same, apart => by
    have kindApart := operator.kind_apart
    rw [Simple.yield, List.append_assoc] at same
    rw [Simple.remarks, List.append_assoc]
    refine (left.comes ready same kindApart.1).trans ?_
    intro between leads knownLeft
    have adds : Operator.adding? operator.kind = some operator.operator := by cases operator <;> rfl
    refine .take (leads.ready ready) leads.lexemes (.moreTerms adds) kindApart.2 ?_
    intro after leads' _
    have readyAfter := leads'.ready (leads.ready ready)
    have inner := (right.comes readyAfter leads'.lexemes (termApart apart)).endFactors apart
    refine (inner.append [.combine operator.operator between.value, .moreTerms]).trans ?_
    intro last leads'' knownRight
    rw [Simple.value, ← knownLeft, ← knownRight]
    exact (Comes.combine (leads''.ready readyAfter) leads''.lexemes operator.operator
      between.value).append [.moreTerms]

theorem Term.comes {scope : Scope} {state : State} {rest : List Lexeme}
    (ready : Ready scope state) : (term : Term) →
    state.lexemes = term.yield ++ rest → nextKind rest ∉ Part.factorContinuations →
    Comes [.term] [.moreFactors] state rest (term.value scope) (term.remarks scope)
  | .factor only, same, apart =>
    .stay rfl ((only.comes ready same apart).append [.moreFactors])
  | .product left operator right, same, apart => by
    have kindApart := operator.kind_apart
    rw [Term.yield, List.append_assoc] at same
    rw [Term.remarks, List.append_assoc]
    refine (left.comes ready same kindApart.1).trans ?_
    intro between leads knownLeft
    have multiplies : Operator.multiplying? operator.kind = some operator.operator := by
      cases operator <;> rfl
    refine .take (leads.ready ready) leads.lexemes (.moreFactors multiplies) kindApart.2 ?_
    intro after leads' _
    have readyAfter := leads'.ready (leads.ready ready)
    have inner := right.comes readyAfter leads'.lexemes apart
    refine (inner.append [.combine operator.operator between.value, .moreFactors]).trans ?_
    intro last leads'' knownRight
    rw [Term.value, ← knownLeft, ← knownRight]
    exact (Comes.combine (leads''.ready readyAfter) leads''.lexemes operator.operator
      between.value).append [.moreFactors]

theorem Factor.comes {scope : Scope} {state : State} {rest : List Lexeme}
    (ready : Ready scope state) : (factor : Factor) →
    state.lexemes = factor.yield ++ rest → nextKind rest ∉ Part.factorContinuations →
    Comes [.factor] [] state rest (factor.value scope) (factor.remarks scope)
  | .primary only, same, apart => by
    have inner := only.comes ready same fun list => apart (list ▸ by decide)
    exact .stay (only.factor_step same) ((inner.append [.exponent]).endExponent apart)
  | .negated operand, same, apart => by
    refine .take ready same .not (by simp) ?_
    intro after leads _
    have readyAfter := leads.ready ready
    have inner := operand.comes readyAfter leads.lexemes fun list => apart (list ▸ by decide)
    refine (inner.append [.forget]).quietly ?_
    intro last leads' _
    exact .forget (leads'.ready readyAfter) leads'.lexemes
  | .power base exponent, same, apart => by
    rw [Factor.yield, List.append_assoc] at same
    rw [Factor.remarks, List.append_assoc]
    have first := base.comes ready same (by simp)
    refine .stay (base.factor_step same) ((first.append [.exponent]).trans ?_)
    intro between leads knownBase
    refine .take (leads.ready ready) leads.lexemes .exponent (by simp) ?_
    intro after leads' _
    have readyAfter := leads'.ready (leads.ready ready)
    have inner := exponent.comes readyAfter leads'.lexemes fun list => apart (list ▸ by decide)
    refine (inner.append [.combine .power between.value]).trans ?_
    intro last leads'' knownExponent
    rw [Factor.value, ← knownBase, ← knownExponent]
    exact .combine (leads''.ready readyAfter) leads''.lexemes .power between.value

theorem Primary.comes {scope : Scope} {state : State} {rest : List Lexeme}
    (ready : Ready scope state) : (primary : Primary) →
    state.lexemes = primary.yield ++ rest → nextKind rest ≠ .leftParen →
    Comes [.primary] [] state rest (primary.value scope) (primary.remarks scope)
  | .literal digits, same, _ => by
    obtain ⟨leads, value⟩ := State.literal_leads ready.searched same
    rw [Primary.value, ← value]
    exact .last (Goes.step (.literal (State.kind_of_lexemes same))) leads
  | .name name, same, apart => by
    obtain ⟨before, inner⟩ := name.comes .primary ready same apart
    rw [Primary.remarks, name.remarks_eq]
    refine inner.trans ?_
    intro between leads _
    have readyBetween := leads.ready ready
    obtain ⟨checks, _⟩ := @State.check_leads between name.text readyBetween.searched .operand
    have readyChecked := checks.ready readyBetween
    rw [leads.lexemes, readyBetween.scope] at checks
    rw [← leads.table]
    generalize found : between.check (between.table.resolved name.text) .operand = checked at *
    have value : (if name.isIndexed then none
        else checked.valueOf (between.table.resolved name.text)) = Primary.value scope (.name name) := by
      cases name with
      | plain name =>
        have known := checked.valueOf_resolved name
        rw [checks.table, readyChecked.scope] at known
        exact known
      | indexed name arguments => rfl
    have valued := Leads.ofValue readyChecked.searched (Primary.value scope (.name name))
    rw [checks.lexemes] at valued
    refine @Comes.last _ _ { checked with value := Primary.value scope (.name name) } _ _ ?_ ?_
    · rw [Task.step, State.operandStep, found, ← value]
    · rw [← List.append_nil (scope.misfit name.text .operand)]
      exact checks.trans valued
  | .inParentheses inner, same, _ => by
    simp only [Primary.yield, List.cons_append, List.append_assoc, List.nil_append] at same
    refine .take ready same .parenthesized (by simp) ?_
    intro after leads _
    have readyAfter := leads.ready ready
    have closes : Kind.rightParen ∉ Part.expressionContinuations := by decide
    have middle := inner.comes readyAfter leads.lexemes closes
    refine (middle.append [.accept .rightParen]).quietly ?_
    intro last leads' known
    have readyLast := leads'.ready readyAfter
    refine .accept readyLast leads'.lexemes (by simp) ?_
    intro final leads'' unchanged
    rw [Primary.value, ← known, ← unchanged]
    exact .done (leads''.ready readyLast) leads''.lexemes

/-- A name is read up to the check of its role. -/
theorem Name.comes {scope : Scope} {state : State} {rest : List Lexeme} {task : Task}
    {last : Option EntryId → Bool → Task} (heads : Heads task last [])
    (ready : Ready scope state) : (name : Name) →
    state.lexemes = name.yield ++ rest → nextKind rest ≠ .leftParen → ∃ value,
    Comes [task] [last (state.table.resolved name.text) name.isIndexed] state rest value
      (name.readingRemarks scope)
  | .plain name, same, apart => by
    obtain ⟨leads, found, _⟩ := State.find_leads ready.searched ready.linked same
    have other : state.find.2.kind ≠ .leftParen := State.kind_of_lexemes leads.lexemes ▸ apart
    have goes := Goes.step (.bare (State.kind_of_lexemes same) heads other)
    rw [← ready.scope, Name.text, ← found]
    exact ⟨_, state.find.2, Reaches.start.step goes, leads, rfl⟩
  | .indexed name arguments, same, apart => by
    simp only [Name.yield, List.cons_append, List.append_assoc, List.nil_append] at same
    obtain ⟨leads, found, _⟩ := State.find_leads ready.searched ready.linked same
    have goes := Goes.step
      (.listed (State.kind_of_lexemes same) heads (State.kind_of_lexemes leads.lexemes))
    have readyFound := leads.ready ready
    have opened := Leads.advance readyFound.searched leads.lexemes (by simp)
    have readyOpened := opened.ready readyFound
    have closes : Kind.rightParen ∉ .comma :: Part.expressionContinuations := by decide
    obtain ⟨value, inner⟩ := arguments.comes readyOpened opened.lexemes closes
    have begun := leads.trans opened
    rw [List.append_nil, ready.scope] at begun
    rw [found] at goes
    refine ⟨value, Comes.step goes begun ?_⟩
    have closing := inner.append [.accept .rightParen, last (state.table.resolved name) true]
    refine closing.quietly ?_
    intro between leads' known
    have readyBetween := leads'.ready readyOpened
    refine .accept readyBetween leads'.lexemes (by simp) ?_
    intro final leads'' unchanged
    rw [← known, ← unchanged]
    exact .done (leads''.ready readyBetween) leads''.lexemes

theorem Arguments.comes {scope : Scope} {state : State} {rest : List Lexeme}
    (ready : Ready scope state) : (arguments : Arguments) →
    state.lexemes = arguments.yield ++ rest → nextKind rest ∉ .comma :: Part.expressionContinuations →
    ∃ value, Comes [.expression, .moreArguments] [] state rest value (arguments.remarks scope)
  | .one last, same, apart => by
    have inner := last.comes ready same fun member => apart (List.mem_cons_of_mem _ member)
    have other : nextKind rest ≠ .comma := fun comma => apart (comma ▸ List.mem_cons_self)
    exact ⟨_, (inner.append [.moreArguments]).endArguments other⟩
  | .more first others, same, apart => by
    rw [Arguments.yield, List.append_assoc] at same
    have divides : Kind.comma ∉ Part.expressionContinuations := by decide
    have inner := first.comes ready same divides
    have final (between : State) (readyBetween : Ready scope between)
        (here : between.lexemes = word .comma :: (others.yield ++ rest)) :
        ∃ value, Comes [.moreArguments] [] between rest value (others.remarks scope) := by
      have leads := Leads.advance readyBetween.searched here (by simp)
      obtain ⟨value, inner⟩ := others.comes (leads.ready readyBetween) leads.lexemes apart
      exact ⟨value, Comes.step (Takes.moreArguments.step (State.kind_of_lexemes here)) leads inner⟩
    obtain ⟨between, reach, leads, _⟩ := inner.append [.moreArguments]
    obtain ⟨value, after, reach', leads', known⟩ := final between (leads.ready ready) leads.lexemes
    exact ⟨value, after, reach.trans reach', leads.trans leads', known⟩

end

end AdaFront.Tree
