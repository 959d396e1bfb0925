import AdaFront.Proofs.ExactArithmetic
import AdaFront.Proofs.ExpressionWalk
import AdaFront.Proofs.TableRuns
import AdaFront.Proofs.Feeding
import AdaFront.Proofs.Showing

namespace AdaFront

namespace Tree

mutual

/-- The value of an expression over the integers, with the range checked at every literal and every
operation, where some names have values. -/
def Expression.eval (names : String → Option Int) : Expression → Option Int
  | .relation only => only.eval names
  | .joined _ _ _ _ => none

def Relation.eval (names : String → Option Int) : Relation → Option Int
  | .simple only => only.eval names
  | .compared _ _ _ => none

/-- A leading minus negates the first term with all its factors. -/
def Simple.eval (names : String → Option Int) : Simple → Option Int
  | .term (some .minus) only => (only.eval names).bind fun value => bounded (-value)
  | .term _ only => only.eval names
  | .sum left operator right => operator.operator.apply (left.eval names) (right.eval names)

def Term.eval (names : String → Option Int) : Term → Option Int
  | .factor only => only.eval names
  | .product left operator right => operator.operator.apply (left.eval names) (right.eval names)

def Factor.eval (names : String → Option Int) : Factor → Option Int
  | .primary only => only.eval names
  | .negated _ => none
  | .power base exponent => Operator.power.apply (base.eval names) (exponent.eval names)

def Primary.eval (names : String → Option Int) : Primary → Option Int
  | .literal digits => bounded (decimal digits)
  | .name (.plain name) => names name
  | .name (.indexed _ _) => none
  | .inParentheses inner => inner.eval names

end

mutual

/-- What all literals and operations of an expression count for, those in its relations and in the
arguments of its names included. A leading minus subtracts from zero. -/
def Expression.tally (names : String → Option Int) (weights : Weights) : Expression → Nat
  | .relation only => only.tally names weights
  | .joined _ first second others =>
    first.tally names weights + second.tally names weights + others.tally names weights

def Relations.tally (names : String → Option Int) (weights : Weights) : Relations → Nat
  | .none => 0
  | .more first others => first.tally names weights + others.tally names weights

def Relation.tally (names : String → Option Int) (weights : Weights) : Relation → Nat
  | .simple only => only.tally names weights
  | .compared _ left right => left.tally names weights + right.tally names weights

def Simple.tally (names : String → Option Int) (weights : Weights) : Simple → Nat
  | .term (some .minus) only =>
    only.tally names weights + weights.known .subtract (some 0) (only.eval names)
  | .term _ only => only.tally names weights
  | .sum left operator right =>
    left.tally names weights + right.tally names weights +
      weights.known operator.operator (left.eval names) (right.eval names)

def Term.tally (names : String → Option Int) (weights : Weights) : Term → Nat
  | .factor only => only.tally names weights
  | .product left operator right =>
    left.tally names weights + right.tally names weights +
      weights.known operator.operator (left.eval names) (right.eval names)

def Factor.tally (names : String → Option Int) (weights : Weights) : Factor → Nat
  | .primary only | .negated only => only.tally names weights
  | .power base exponent =>
    base.tally names weights + exponent.tally names weights +
      weights.known .power (base.eval names) (exponent.eval names)

def Primary.tally (names : String → Option Int) (weights : Weights) : Primary → Nat
  | .literal digits => weights.literal digits
  | .name name => name.tally names weights
  | .inParentheses inner => inner.tally names weights

def Name.tally (names : String → Option Int) (weights : Weights) : Name → Nat
  | .plain _ => 0
  | .indexed _ arguments => arguments.tally names weights

def Arguments.tally (names : String → Option Int) (weights : Weights) : Arguments → Nat
  | .one last => last.tally names weights
  | .more first others => first.tally names weights + others.tally names weights

end

end Tree

namespace Scope

/-- What the names of a scope hold, if it is known. -/
def values (scope : Scope) (name : String) : Option Int :=
  (scope name).bind Cell.value

/-- Names are spoken of in diagnostics of their own. -/
theorem undeclared_apart (scope : Scope) (name : String) {diagnostic : Diagnostic}
    (apart : ∀ error, diagnostic ≠ .name error) : diagnostic ∉ scope.undeclared name := by
  unfold undeclared
  split
  next => exact List.mem_singleton.not.mpr (apart _)
  next => exact List.not_mem_nil

theorem misfit_apart (scope : Scope) (name : String) (use : NameUse) {diagnostic : Diagnostic}
    (apart : ∀ use, diagnostic ≠ .roleMismatch use) : diagnostic ∉ scope.misfit name use := by
  unfold misfit
  split
  next => exact List.not_mem_nil
  next =>
    split
    next => exact List.not_mem_nil
    next => exact List.mem_singleton.not.mpr (apart use)

end Scope

/-- The weights say how often literals, operations and names report something. -/
structure Weights.Of (weights : Weights) (diagnostic : Diagnostic) : Prop where
  literal (digits : String) :
    (if inRange (literalValue digits) then [] else [Diagnostic.overflow]).count diagnostic =
      weights.literal digits
  operation (operator : Operator) (left right : Option Int) :
    (operator.remarks left right).count diagnostic = weights.known operator left right
  noName (error : TableError) : diagnostic ≠ .name error
  noRole (use : NameUse) : diagnostic ≠ .roleMismatch use

namespace Weights

/-- No literal is negative. -/
theorem overflows_of : overflows.Of .overflow where
  literal digits := by
    have within : inRange (literalValue digits) ↔ ¬2 ^ 63 ≤ decimal digits := by
      rw [literalValue_eq, inRange_iff]
      omega
    split
    next fits => exact (if_neg (within.mp fits)).symm
    next leaves => exact (if_pos (Decidable.not_not.mp (within.not.mp leaves))).symm
  operation operator left right := (operator.count_remarks left right).1
  noName _ := Diagnostic.noConfusion
  noRole _ := Diagnostic.noConfusion

theorem zeroDivisions_of : zeroDivisions.Of .divisionByZero where
  literal digits := by split <;> rfl
  operation operator left right := (operator.count_remarks left right).2
  noName _ := Diagnostic.noConfusion
  noRole _ := Diagnostic.noConfusion

end Weights

namespace Tree

mutual

theorem Expression.value_eq_eval (scope : Scope) : (expression : Expression) →
    expression.value scope = expression.eval scope.values
  | .relation only => only.value_eq_eval scope
  | .joined _ _ _ _ => rfl

theorem Relation.value_eq_eval (scope : Scope) : (relation : Relation) →
    relation.value scope = relation.eval scope.values
  | .simple only => only.value_eq_eval scope
  | .compared _ _ _ => rfl

theorem Simple.value_eq_eval (scope : Scope) : (simple : Simple) →
    simple.value scope = simple.eval scope.values
  | .term (some .minus) only => by
    rw [Simple.value, Simple.eval, Operator.value_eq_apply, negated_eq_apply, only.value_eq_eval scope]
  | .term none only => only.value_eq_eval scope
  | .term (some .plus) only => only.value_eq_eval scope
  | .sum left operator right => by
    rw [Simple.value, Simple.eval, Operator.value_eq_apply, left.value_eq_eval scope,
      right.value_eq_eval scope]

theorem Term.value_eq_eval (scope : Scope) : (term : Term) →
    term.value scope = term.eval scope.values
  | .factor only => only.value_eq_eval scope
  | .product left operator right => by
    rw [Term.value, Term.eval, Operator.value_eq_apply, left.value_eq_eval scope,
      right.value_eq_eval scope]

theorem Factor.value_eq_eval (scope : Scope) : (factor : Factor) →
    factor.value scope = factor.eval scope.values
  | .primary only => only.value_eq_eval scope
  | .negated _ => rfl
  | .power base exponent => by
    rw [Factor.value, Factor.eval, Operator.value_eq_apply, base.value_eq_eval scope,
      exponent.value_eq_eval scope]

theorem Primary.value_eq_eval (scope : Scope) : (primary : Primary) →
    primary.value scope = primary.eval scope.values
  | .literal digits => by rw [Primary.value, Primary.eval, bounded_eq, literalValue_eq]
  | .name (.plain _) => rfl
  | .name (.indexed _ _) => rfl
  | .inParentheses inner => inner.value_eq_eval scope

end

section

variable {weights : Weights} {diagnostic : Diagnostic} (scope : Scope)

mutual

theorem Expression.count_remarks (of : weights.Of diagnostic) : (expression : Expression) →
    (expression.remarks scope).count diagnostic = expression.tally scope.values weights
  | .relation only => only.count_remarks of
  | .joined _ first second others => by
    rw [Expression.remarks, Expression.tally, List.count_append, List.count_append,
      first.count_remarks of, second.count_remarks of, others.count_remarks of]

theorem Relations.count_remarks (of : weights.Of diagnostic) : (relations : Relations) →
    (relations.remarks scope).count diagnostic = relations.tally scope.values weights
  | .none => rfl
  | .more first others => by
    rw [Relations.remarks, Relations.tally, List.count_append, first.count_remarks of,
      others.count_remarks of]

theorem Relation.count_remarks (of : weights.Of diagnostic) : (relation : Relation) →
    (relation.remarks scope).count diagnostic = relation.tally scope.values weights
  | .simple only => only.count_remarks of
  | .compared _ left right => by
    rw [Relation.remarks, Relation.tally, List.count_append, left.count_remarks of,
      right.count_remarks of]

theorem Simple.count_remarks (of : weights.Of diagnostic) : (simple : Simple) →
    (simple.remarks scope).count diagnostic = simple.tally scope.values weights
  | .term (some .minus) only => by
    rw [Simple.remarks, Simple.tally, List.count_append, only.count_remarks of, of.operation,
      only.value_eq_eval]
  | .term none only => only.count_remarks of
  | .term (some .plus) only => only.count_remarks of
  | .sum left operator right => by
    rw [Simple.remarks, Simple.tally, List.count_append, List.count_append, left.count_remarks of,
      right.count_remarks of, of.operation, left.value_eq_eval, right.value_eq_eval]

theorem Term.count_remarks (of : weights.Of diagnostic) : (term : Term) →
    (term.remarks scope).count diagnostic = term.tally scope.values weights
  | .factor only => only.count_remarks of
  | .product left operator right => by
    rw [Term.remarks, Term.tally, List.count_append, List.count_append, left.count_remarks of,
      right.count_remarks of, of.operation, left.value_eq_eval, right.value_eq_eval]

theorem Factor.count_remarks (of : weights.Of diagnostic) : (factor : Factor) →
    (factor.remarks scope).count diagnostic = factor.tally scope.values weights
  | .primary only => only.count_remarks of
  | .negated operand => operand.count_remarks of
  | .power base exponent => by
    rw [Factor.remarks, Factor.tally, List.count_append, List.count_append, base.count_remarks of,
      exponent.count_remarks of, of.operation, base.value_eq_eval, exponent.value_eq_eval]

theorem Primary.count_remarks (of : weights.Of diagnostic) : (primary : Primary) →
    (primary.remarks scope).count diagnostic = primary.tally scope.values weights
  | .literal digits => of.literal digits
  | .name name => name.count_remarks of
  | .inParentheses inner => inner.count_remarks of

theorem Name.count_remarks (of : weights.Of diagnostic) : (name : Name) →
    (name.remarks scope .operand).count diagnostic = name.tally scope.values weights
  | .plain name => by
    rw [Name.remarks, Name.tally, Scope.remarks, List.count_append,
      List.count_eq_zero.mpr (scope.undeclared_apart name of.noName),
      List.count_eq_zero.mpr (scope.misfit_apart name .operand of.noRole)]
  | .indexed name arguments => by
    rw [Name.remarks, Name.tally, List.count_append, List.count_append, arguments.count_remarks of,
      List.count_eq_zero.mpr (scope.undeclared_apart name of.noName),
      List.count_eq_zero.mpr (scope.misfit_apart name .operand of.noRole), Nat.zero_add, Nat.add_zero]

theorem Arguments.count_remarks (of : weights.Of diagnostic) : (arguments : Arguments) →
    (arguments.remarks scope).count diagnostic = arguments.tally scope.values weights
  | .one last => last.count_remarks of
  | .more first others => by
    rw [Arguments.remarks, Arguments.tally, List.count_append, first.count_remarks of,
      others.count_remarks of]

end

end

end Tree

/-- The integer that the entry of a name holds. -/
def Table.integerOf (table : Table) (name : String) : Option Int :=
  ((table.resolved name).bind table.entry?).bind fun entry => entry.value.bind Value.integer?

theorem Table.values_scope (table : Table) : table.scope.values = table.integerOf := by
  funext name
  rw [Scope.values, Table.scope_eq, Table.integerOf]
  cases (table.resolved name).bind table.entry? <;> rfl

/-- Behind the words of a feed stands its end. -/
theorem Feed.words_split {feed : Feed} {read later : List Tree.Lexeme} {next : Tree.Lexeme}
    (words : feed.words = read ++ next :: later) :
    ∃ rest, feed.tokens.map Token.word = read ++ rest ∧ next :: later = rest ++ [(.endOfInput, "")] ∧
      nextKind rest = next.1 := by
  have split := List.dropLast_concat_getLast (List.cons_ne_nil next later)
  rw [Feed.words, ← split, ← List.append_assoc] at words
  obtain ⟨front, last⟩ := List.append_inj' words rfl
  have last := List.singleton_inj.mp last
  refine ⟨(next :: later).dropLast, front, last ▸ split.symm, ?_⟩
  cases later with
  | nil => exact congrArg Prod.fst last
  | cons => rfl

namespace Analysis

/-- A diagnostic of the program is reported as often as it is among the remarks. -/
theorem count_diagnostics {journal after : Journal} {remarks : List Diagnostic} {diagnostic : Diagnostic}
    (ofProgram : diagnostic.ofProgram) (effects : after.effects = journal.effects ++ remarks.map .remark) :
    after.diagnostics.count diagnostic =
      journal.diagnostics.count diagnostic + remarks.count diagnostic := by
  have said : (remarks.map Effect.remark).filterMap Effect.diagnostic? = remarks :=
    (List.filterMap_map).trans List.filterMap_some
  rw [← List.count_filter ofProgram, ← List.count_filter ofProgram (l := journal.diagnostics),
    Journal.diagnostics_effects, Journal.diagnostics_effects, effects, List.filterMap_append,
    List.count_append, said]

/-- An expression is read to its end wherever it stands before a word that it cannot go on with, under every
table. -/
theorem expression_evaluates (scanner : Scanner) (predefines : Bool) (commands : List Table.Command)
    (value : Option Int) (group : Option GroupId) (journal : Journal) (expression : Tree.Expression)
    (next : Tree.Lexeme) (later : List Tree.Lexeme)
    (upcoming : scanner.words = expression.yield ++ next :: later)
    (apart : next.1 ∉ Part.expressionContinuations) :
    let table := (Table.initial predefines).performAll commands
    let outcome := run [.expression] ⟨scanner.feed, table, value, group, journal⟩
    outcome.rejection = none ∧ outcome.state.words = next :: later ∧
      outcome.state.table = table ∧ outcome.state.group = group ∧
      outcome.state.value = expression.eval table.integerOf ∧
      outcome.state.journal.diagnostics.count .overflow =
        journal.diagnostics.count .overflow + expression.tally table.integerOf .overflows ∧
      outcome.state.journal.diagnostics.count .divisionByZero =
        journal.diagnostics.count .divisionByZero +
          expression.tally table.integerOf .zeroDivisions := by
  intro table outcome
  have linked : table.Linked := ((Table.initial_sound predefines).performAll commands).toLinked
  obtain ⟨rest, tokens, behind, kind⟩ := Feed.words_split (scanner.words_feed.trans upcoming)
  have ready : Ready table.scope ⟨scanner.feed, table, value, group, journal⟩ :=
    ⟨scanner.feed_searched, linked, rfl⟩
  obtain ⟨after, reach, leads, known⟩ := expression.comes ready tokens (kind ▸ apart)
  have ends : outcome = ⟨none, after⟩ := reach.run_eq.trans (run_nil after)
  have words : after.words = next :: later :=
    (congrArg (· ++ [(Kind.endOfInput, "")]) leads.lexemes).trans behind.symm
  rw [expression.value_eq_eval, table.values_scope] at known
  have overflows := @count_diagnostics _ _ _ .overflow rfl leads.effects
  have zeroDivisions := @count_diagnostics _ _ _ .divisionByZero rfl leads.effects
  rw [expression.count_remarks _ Weights.overflows_of, table.values_scope] at overflows
  rw [expression.count_remarks _ Weights.zeroDivisions_of, table.values_scope] at zeroDivisions
  rw [ends]
  exact ⟨rfl, words, leads.table, leads.group, known, overflows, zeroDivisions⟩

/-- `-7 / 2 + x ** 2 mod 5`, where `x` holds 6. -/
theorem expression_evaluates_negated_quotient :
    let scanner := Scanner.ofReader (.ofLines ["-7 / 2 + x ** 2 mod 5;"])
    let table := (Table.initial true).performAll
      [.declare "x" .variable, .setValue 5 (some (.integer 6))]
    let outcome := run [.expression] ⟨scanner.feed, table, none, none, []⟩
    outcome.rejection = none ∧ outcome.state.words = [Tree.word .semicolon, (.endOfInput, "")] ∧
      outcome.state.value = some (-2) ∧ outcome.state.journal.diagnostics.count .overflow = 0 := by
  intro scanner table outcome
  let quotient : Tree.Term :=
    .product (.factor (.primary (.literal "7"))) .over (.primary (.literal "2"))
  let remainder : Tree.Term :=
    .product (.factor (.power (.name (.plain "x")) (.literal "2"))) .modulo (.primary (.literal "5"))
  let expression : Tree.Expression :=
    .relation (.simple (.sum (.term (some .minus) quotient) .plus remainder))
  obtain ⟨finished, words, _, _, value, overflows, _⟩ :=
    expression_evaluates scanner true [.declare "x" .variable, .setValue 5 (some (.integer 6))]
      none none [] expression (Tree.word .semicolon) [(.endOfInput, "")] (by decide +kernel)
      (by decide)
  exact ⟨finished, words, value.trans (by decide +kernel), overflows.trans (by decide +kernel)⟩

end Analysis

end AdaFront
