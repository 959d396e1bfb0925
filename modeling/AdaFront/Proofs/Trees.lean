import AdaFront.Proofs.Prediction
import AdaFront.Proofs.Syntax

namespace AdaFront.Tree

/-- The kinds of the text are a sentence of the form. -/
def Spells (form : Form) (text : List Lexeme) : Prop :=
  Derives form (text.map Prod.fst)

/-- The kinds of the text are a sentence of the forms one behind the other. -/
def SpellsAll (forms : List Form) (text : List Lexeme) : Prop :=
  DerivesAll forms (text.map Prod.fst)

section Spelling

variable {form one other body : Form} {forms : List Form} {named : Part}
  {text left right : List Lexeme}

theorem Spells.part (spells : SpellsAll named.rule.split text) : Spells (.part named) text := by
  have derives := (derivesAll_split named.rule [] (text.map Prod.fst)).mp
  rw [List.append_nil] at derives
  exact Derives.part (derivesAll_singleton.mp (derives spells))

namespace SpellsAll

theorem nil : SpellsAll [] [] := DerivesAll.nil

theorem cons (spells : Spells form left) (later : SpellsAll forms right) :
    SpellsAll (form :: forms) (left ++ right) := by
  rw [SpellsAll, List.map_append]
  exact DerivesAll.cons spells later

theorem append {later : List Form} (spells : SpellsAll forms left) (behind : SpellsAll later right) :
    SpellsAll (forms ++ later) (left ++ right) := by
  rw [SpellsAll, List.map_append]
  exact derivesAll_append.mpr ⟨_, _, rfl, spells, behind⟩

/-- What stands behind the form can be left out. -/
theorem alone (spells : Spells form text) (later : SpellsAll forms []) :
    SpellsAll (form :: forms) text :=
  List.append_nil text ▸ cons spells later

theorem last (spells : Spells form text) : SpellsAll [form] text :=
  alone spells nil

theorem word (kind : Kind) (later : SpellsAll forms text) :
    SpellsAll (.word kind :: forms) (Tree.word kind :: text) :=
  DerivesAll.cons (.word kind) later

theorem identifier (name : String) (later : SpellsAll forms text) :
    SpellsAll (.word .identifier :: forms) (Tree.identifier name :: text) :=
  DerivesAll.cons (.word .identifier) later

theorem both (spells : SpellsAll (one :: other :: forms) text) :
    SpellsAll ((one ++ other) :: forms) text :=
  derivesAll_both.mpr spells

theorem first (spells : SpellsAll (one :: forms) text) :
    SpellsAll ((one ||| other) :: forms) text := by
  obtain ⟨_, _, same, derives, later⟩ := derivesAll_cons.mp spells
  exact derivesAll_cons.mpr ⟨_, _, same, .first derives, later⟩

theorem second (spells : SpellsAll (other :: forms) text) :
    SpellsAll ((one ||| other) :: forms) text := by
  obtain ⟨_, _, same, derives, later⟩ := derivesAll_cons.mp spells
  exact derivesAll_cons.mpr ⟨_, _, same, .second derives, later⟩

/-- A form that may be left out is left out. -/
theorem absent (later : SpellsAll forms text) : SpellsAll (.optional body :: forms) text :=
  second (derivesAll_empty.mpr later)

theorem optional_word (kind : Kind) (present : Bool) (later : SpellsAll forms text) :
    SpellsAll (.optional (.word kind) :: forms)
      ((if present then [Tree.word kind] else []) ++ text) := by
  cases present with
  | false => exact absent later
  | true => exact first (word kind later)

theorem done (later : SpellsAll forms text) : SpellsAll (.many body :: forms) text :=
  DerivesAll.cons .done later

theorem again (spells : SpellsAll (body :: .many body :: forms) text) :
    SpellsAll (.many body :: forms) text := by
  obtain ⟨left, _, same, derives, rest⟩ := derivesAll_cons.mp spells
  obtain ⟨middle, right, rfl, others, later⟩ := derivesAll_cons.mp rest
  rw [← List.append_assoc] at same
  exact derivesAll_cons.mpr ⟨left ++ middle, right, same, .again derives others, later⟩

theorem choice {kind : Kind} (choice : form.Choice) (start : kind ∈ form.starts)
    (later : SpellsAll forms text) : SpellsAll (form :: forms) (Tree.word kind :: text) :=
  DerivesAll.cons (choice.derives_iff.mpr ⟨kind, start, rfl⟩) later

end SpellsAll

theorem Spells.all (spells : SpellsAll [form] text) : Spells form text :=
  derivesAll_singleton.mp spells

theorem Spells.more (spells : Spells body left) (others : Spells (.many body) right) :
    Spells (.many body) (left ++ right) :=
  .all (.again (.cons spells (.last others)))

theorem Spells.many {α : Type} {yield : α → List Lexeme}
    (each : ∀ item, SpellsAll [body] (yield item)) (items : List α) :
    Spells (.many body) (items.flatMap yield) := by
  induction items with
  | nil => exact Derives.done
  | cons item items ih => exact more (.all (each item)) ih

/-- A repetition goes on at its end. -/
theorem derives_snoc {sentence last : List Kind} (many : Derives (.many body) sentence)
    (more : Derives body last) : Derives (.many body) (sentence ++ last) := by
  generalize same : Form.many body = form at many
  induction many with
  | done =>
    cases same
    have single := Derives.again more .done
    rw [List.append_nil] at single
    exact single
  | again first _ _ ih =>
    cases same
    rw [List.append_assoc]
    exact .again first (ih rfl)
  | _ => cases same

/-- A row that ends in a repetition goes on at its end. -/
theorem SpellsAll.snoc (forms : List Form) (spells : SpellsAll (forms ++ [.many body]) left)
    (more : SpellsAll [body] right) : SpellsAll (forms ++ [.many body]) (left ++ right) := by
  obtain ⟨begins, others, same, derives, many⟩ := derivesAll_append.mp spells
  have longer := derives_snoc (derivesAll_singleton.mp many) (derivesAll_singleton.mp more)
  rw [SpellsAll, List.map_append, same, List.append_assoc]
  exact derivesAll_append.mpr ⟨begins, _, rfl, derives, derivesAll_singleton.mpr longer⟩

end Spelling

mutual

/-- The yield of a tree is a sentence of its part of the grammar. -/
theorem Expression.spells : (expression : Expression) → Spells (.part .expression) expression.yield
  | .relation only =>
    .part (.first (.both (.alone only.spells (.done .nil))))
  | .joined .conjunction first second others => by
    rw [Expression.yield, List.append_assoc]
    refine .part (.first (.both (.cons first.spells (.again (.both (.word .kwAnd ?_))))))
    exact .cons second.spells (.last (others.spells .conjunction))
  | .joined .disjunction first second others => by
    rw [Expression.yield, List.append_assoc]
    refine .part (.second (.both (.cons first.spells (.again (.both (.word .kwOr ?_))))))
    exact .cons second.spells (.last (others.spells .disjunction))

theorem Relations.spells (connective : Analysis.Connective) : (relations : Relations) →
    Spells (.many (.word connective.kind ++ .part .relation)) (relations.yield connective)
  | .none => Derives.done
  | .more first others =>
    .all (.again (.both (.word connective.kind (.cons first.spells (.last (others.spells connective))))))

theorem Relation.spells : (relation : Relation) → Spells (.part .relation) relation.yield
  | .simple only => .part (.alone (.part only.spellsAll) (.absent .nil))
  | .compared comparison left right => by
    have start : comparison.kind ∈ Form.relationalOperator.starts := by
      cases comparison <;> decide
    refine .part (.cons (.part left.spellsAll) (.first (.both ?_)))
    exact .choice Form.relationalOperator_choice start (.last (.part right.spellsAll))

theorem Simple.spellsAll : (simple : Simple) → SpellsAll Part.simpleExpression.rule.split simple.yield
  | .term none only => .absent (.alone (.part only.spellsAll) (.done .nil))
  | .term (some sign) only => by
    have start : sign.kind ∈ Form.addingOperator.starts := by cases sign <;> decide
    exact .first (.choice Form.addingOperator_choice start (.alone (.part only.spellsAll) (.done .nil)))
  | .sum left operator right => by
    have start : operator.kind ∈ Form.addingOperator.starts := by cases operator <;> decide
    refine .snoc [_, _] left.spellsAll (.both ?_)
    exact .choice Form.addingOperator_choice start (.last (.part right.spellsAll))

theorem Term.spellsAll : (term : Term) → SpellsAll Part.term.rule.split term.yield
  | .factor only => .alone only.spells (.done .nil)
  | .product left operator right => by
    have start : operator.kind ∈ Form.multiplyingOperator.starts := by cases operator <;> decide
    refine .snoc [_] left.spellsAll (.both ?_)
    exact .choice Form.multiplyingOperator_choice start (.last right.spells)

theorem Factor.spells : (factor : Factor) → Spells (.part .factor) factor.yield
  | .primary only => .part (.second (.both (.alone only.spells (.absent .nil))))
  | .negated operand => .part (.first (.both (.word .kwNot (.last operand.spells))))
  | .power base exponent =>
    .part (.second (.both (.cons base.spells (.first (.both (.word .power (.last exponent.spells)))))))

theorem Primary.spells : (primary : Primary) → Spells (.part .primary) primary.yield
  | .literal _ => .part (.first (.first (DerivesAll.cons (.word .integer) .nil)))
  | .name name => .part (.second (.last name.spells))
  | .inParentheses inner =>
    .part (.first (.second (.both (.both (.word .leftParen
      (.cons inner.spells (.word .rightParen .nil)))))))

theorem Name.spells : (name : Name) → Spells (.part .name) name.yield
  | .plain name => .part (.identifier name (.absent .nil))
  | .indexed name arguments => by
    refine .part (.identifier name (.first (.both (.both (.word .leftParen ?_)))))
    exact .cons (.all (.both arguments.spellsAll)) (.word .rightParen .nil)

theorem Arguments.spellsAll : (arguments : Arguments) →
    SpellsAll [.part .expression, .many (.word .comma ++ .part .expression)] arguments.yield
  | .one last => .alone last.spells (.done .nil)
  | .more first others => .cons first.spells (.again (.both (.word .comma others.spellsAll)))

end

theorem guard_spells (kind : Kind) (condition : Option Expression) {forms : List Form}
    {text : List Lexeme} (later : SpellsAll forms text) :
    SpellsAll (.optional (.word kind ++ .part .condition) :: forms) (guard kind condition ++ text) := by
  cases condition with
  | none => exact .absent later
  | some condition => exact .first (.both (.word kind (.cons (.part (.last condition.spells)) later)))

mutual

theorem Statement.spells : (statement : Statement) → Spells (.part .statement) statement.yield
  | .assignment target source => by
    simp only [Statement.yield, List.cons_append, List.append_assoc]
    refine .part (.first (.first (.first (.first (.first (.last (.part (.cons target.spells ?_))))))))
    exact .first (.both (.word .assign (.cons source.spells (.word .semicolon .nil))))
  | .call name =>
    .part (.first (.first (.first (.first (.first (.last (.part (.cons name.spells
      (.absent (.word .semicolon .nil))))))))))
  | .conditional condition body others => by
    simp only [Statement.yield, List.cons_append, List.append_assoc]
    have ends : SpellsAll [.word .kwEnd, .word .kwIf, .word .semicolon]
        [word .kwEnd, word .kwIf, word .semicolon] := .word .kwEnd (.word .kwIf (.word .semicolon .nil))
    have branches := body.spellsAll.append (others.spellsAll.append ends)
    refine .part (.first (.first (.first (.first (.second (.last (.part (.word .kwIf ?_))))))))
    exact .cons (.part (.last condition.spells)) (.word .kwThen branches)
  | .loop condition body => by
    simp only [Statement.yield, List.cons_append, List.append_assoc]
    have ends : SpellsAll [.word .kwEnd, .word .kwLoop, .word .semicolon]
        [word .kwEnd, word .kwLoop, word .semicolon] :=
      .word .kwEnd (.word .kwLoop (.word .semicolon .nil))
    refine .part (.first (.first (.first (.second (.last (.part (guard_spells .kwWhile condition ?_)))))))
    exact .word .kwLoop (body.spellsAll.append ends)
  | .exit condition => by
    refine .part (.first (.first (.second (.last (.part (.word .kwExit ?_))))))
    exact guard_spells .kwWhen condition (.word .semicolon .nil)
  | .null => .part (.first (.second (.last (.part (.word .kwNull (.word .semicolon .nil))))))
  | .print operand =>
    .part (.second (.last (.part (.word .kwPrint (.word .leftParen
      (.cons operand.spells (.word .rightParen (.word .semicolon .nil))))))))

theorem Sequence.spellsAll : (sequence : Sequence) →
    SpellsAll [.part .statement, .many (.part .statement)] sequence.yield
  | .one last => .alone last.spells (.done .nil)
  | .more first others => .cons first.spells (.again others.spellsAll)

theorem Alternatives.spellsAll : (alternatives : Alternatives) →
    SpellsAll [.many (.word .kwElsif ++ .part .condition ++ .word .kwThen ++ .part .sequence),
      .optional (.word .kwElse ++ .part .sequence)] alternatives.yield
  | .none => .done (.absent .nil)
  | .otherwise body => .done (.first (.both (.word .kwElse (.last (.part body.spellsAll)))))
  | .elsif condition body others => by
    simp only [Alternatives.yield, List.cons_append, List.append_assoc]
    refine .again (.both (.both (.both (.word .kwElsif (.cons (.part (.last condition.spells)) ?_)))))
    exact .word .kwThen (.cons (.part body.spellsAll) others.spellsAll)

end

theorem typeName_spells (name : String) : Spells (.part .typeName) [identifier name] :=
  .part (.identifier name .nil)

theorem Names.spells (names : Names) : Spells (.part .identifierList) names.yield := by
  have each (name : String) : SpellsAll [.word .comma ++ .word .identifier]
      [word .comma, identifier name] := .both (.word .comma (.identifier name .nil))
  exact .part (.identifier names.first (.last (.many each names.others)))

theorem range_spells (low high : Simple) :
    Spells (.part .range) (word .kwRange :: low.yield ++ word .dots :: high.yield) :=
  .part (.word .kwRange (.cons (.part low.spellsAll) (.word .dots (.last (.part high.spellsAll)))))

theorem Index.spells (index : Index) : Spells (.part .index) index.yield := by
  cases index with
  | range low high => exact .part (.first (.last (range_spells low high)))
  | type name => exact .part (.second (.last (typeName_spells name)))

theorem TypeDefinition.spells (definition : TypeDefinition) :
    Spells (.part .typeDefinition) definition.yield := by
  cases definition with
  | enumeration names =>
    refine .part (.first (.first (.first (.last (.part (.word .leftParen ?_))))))
    exact .cons names.spells (.word .rightParen .nil)
  | array first others element =>
    have each (index : Index) : SpellsAll [.word .comma ++ .part .index]
        (word .comma :: index.yield) := .both (.word .comma (.last index.spells))
    simp only [TypeDefinition.yield, List.cons_append, List.append_assoc]
    refine .part (.first (.first (.second (.last (.part (.word .kwArray (.word .leftParen ?_)))))))
    refine .cons first.spells (.cons (.many each others) ?_)
    exact .word .rightParen (.word .kwOf (.last (typeName_spells element)))
  | range low high => exact .part (.first (.second (.last (range_spells low high))))
  | type name => exact .part (.second (.last (typeName_spells name)))

theorem Parameter.spells (parameter : Parameter) :
    Spells (.part .parameterSpec) parameter.yield := by
  simp only [Parameter.yield, List.cons_append, List.append_assoc]
  refine .part (.cons parameter.names.spells (.word .colon ?_))
  refine .optional_word .kwIn parameter.input (.optional_word .kwOut parameter.output ?_)
  exact .last (typeName_spells parameter.type)

theorem formalPart_spells (parameters : List Parameter) :
    Spells (.optional (.part .formalPart)) (formalPart parameters) := by
  cases parameters with
  | nil => exact .all (.absent .nil)
  | cons first others =>
    have each (parameter : Parameter) : SpellsAll [.word .semicolon ++ .part .parameterSpec]
        (word .semicolon :: parameter.yield) := .both (.word .semicolon (.last parameter.spells))
    simp only [formalPart, List.cons_append, List.append_assoc]
    refine .all (.first (.last (.part (.word .leftParen (.cons first.spells ?_)))))
    exact .cons (.many each others) (.word .rightParen .nil)

mutual

theorem Subprogram.spells : (program : Subprogram) → Spells (.part .subprogramBody) program.yield
  | .mk name parameters declarations body closing => by
    have heading : Spells (.part .subprogramSpec)
        (word .kwProcedure :: identifier name :: formalPart parameters) :=
      .part (.word .kwProcedure (.identifier name (.last (formalPart_spells parameters))))
    have ends : SpellsAll [.word .kwEnd, .optional (.word .identifier), .word .semicolon]
        (word .kwEnd :: (closing.toList.map identifier ++ [word .semicolon])) := by
      cases closing with
      | none => exact .word .kwEnd (.absent (.word .semicolon .nil))
      | some name => exact .word .kwEnd (.first (.identifier name (.word .semicolon .nil)))
    simp only [Subprogram.yield, List.cons_append, List.append_assoc]
    refine .part (.cons heading (.word .kwIs (.cons declarations.spells (.word .kwBegin ?_))))
    exact body.spellsAll.append ends

theorem Declarations.spells : (declarations : Declarations) →
    Spells (.many (.part .basicDeclaration)) declarations.yield
  | .none => Derives.done
  | .type name definition others => by
    have one : Spells (.part .typeDeclaration) (word .kwType :: identifier name :: word .kwIs ::
        (definition.yield ++ [word .semicolon])) :=
      .part (.word .kwType (.identifier name (.word .kwIs
        (.cons definition.spells (.word .semicolon .nil)))))
    have whole := @Spells.more (.part .basicDeclaration) _ _ (.part (.first (.first (.last one)))) others.spells
    simpa [Declarations.yield] using whole
  | .constant names source others => by
    have one : Spells (.part .objectDeclaration) (names.yield ++ word .colon :: word .kwConstant ::
        word .assign :: (source.yield ++ [word .semicolon])) :=
      .part (.cons names.spells (.word .colon (.first (.both (.both (.word .kwConstant
        (.word .assign (.cons source.spells (.word .semicolon .nil)))))))))
    have whole := @Spells.more (.part .basicDeclaration) _ _ (.part (.first (.second (.last one)))) others.spells
    simpa [Declarations.yield] using whole
  | .variable names definition others => by
    have one : Spells (.part .objectDeclaration)
        (names.yield ++ word .colon :: (definition.yield ++ [word .semicolon])) :=
      .part (.cons names.spells (.word .colon (.second
        (.cons definition.spells (.word .semicolon .nil)))))
    have whole := @Spells.more (.part .basicDeclaration) _ _ (.part (.first (.second (.last one)))) others.spells
    simpa [Declarations.yield] using whole
  | .subprogram inner others =>
    .more (.part (.second (.last inner.spells))) others.spells

end

end AdaFront.Tree
