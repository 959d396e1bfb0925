import AdaFront.Proofs.Trees

namespace AdaFront.Tree

/-- Names and numbers can be anything, all other tokens are spelled in one way. -/
def Spelled (lexeme : Lexeme) : Prop :=
  lexeme.1 = .identifier ∨ lexeme.1 = .integer ∨ lexeme = word lexeme.1

/-- The text is the yield of trees for the part. -/
def HasTree : Part → List Lexeme → Prop
  | .compilation, _ => True
  | .subprogramBody, text => ∃ program : Subprogram, program.yield = text
  | .subprogramSpec, text => ∃ name parameters,
    word .kwProcedure :: identifier name :: formalPart parameters = text
  | .formalPart, text => ∃ parameters, formalPart parameters = text
  | .parameterSpec, text => ∃ parameter : Parameter, parameter.yield = text
  | .mode, text => ∃ input output : Bool, (if input then [word .kwIn] else []) ++
    (if output then [word .kwOut] else []) = text
  | .typeName, text => ∃ name, [identifier name] = text
  | .identifierList, text => ∃ names : Names, names.yield = text
  | .declarativePart, text => ∃ declarations : Declarations, declarations.yield = text
  | .basicDeclaration, text | .typeDeclaration, text | .objectDeclaration, text =>
    ∀ others : Declarations, ∃ declarations : Declarations,
      declarations.yield = text ++ others.yield
  | .typeDefinition, text | .enumeration, text | .array, text =>
    ∃ definition : TypeDefinition, definition.yield = text
  | .index, text => ∃ index : Index, index.yield = text
  | .range, text => ∃ low high : Simple,
    word .kwRange :: low.yield ++ word .dots :: high.yield = text
  | .sequence, text => ∃ sequence : Sequence, sequence.yield = text
  | .statement, text | .assignmentOrCall, text | .conditional, text | .loop, text | .exit, text
  | .null, text | .print, text => ∃ statement : Statement, statement.yield = text
  | .condition, text | .expression, text => ∃ expression : Expression, expression.yield = text
  | .relation, text => ∃ relation : Relation, relation.yield = text
  | .simpleExpression, text => ∃ simple : Simple, simple.yield = text
  | .term, text => ∃ term : Term, term.yield = text
  | .factor, text => ∃ factor : Factor, factor.yield = text
  | .primary, text => ∃ primary : Primary, primary.yield = text
  | .name, text => ∃ name : Name, name.yield = text

def CoversWord (text : List Lexeme) : Kind → Prop
  | .identifier => ∃ name, text = [identifier name]
  | .integer => ∃ digits, text = [(.integer, digits)]
  | kind => text = [word kind]

/-- The text can be divided as the form asks for, with trees for the parts that it names. -/
def Covers : Form → List Lexeme → Prop
  | .word kind, text => CoversWord text kind
  | .part part, text => HasTree part text
  | .empty, text => text = []
  | .both first second, text =>
    ∃ left right, text = left ++ right ∧ Covers first left ∧ Covers second right
  | .either first second, text => Covers first text ∨ Covers second text
  | .many body, text => ∃ texts : List (List Lexeme), text = texts.flatten ∧
    ∀ one ∈ texts, Covers body one

section Lists

theorem exists_items {α : Type} {yield : α → List Lexeme} {texts : List (List Lexeme)}
    (each : ∀ text ∈ texts, ∃ item, text = yield item) :
    ∃ items : List α, texts.flatten = items.flatMap yield := by
  induction texts with
  | nil => exact ⟨[], rfl⟩
  | cons text texts ih =>
    obtain ⟨⟨item, same⟩, others⟩ := List.forall_mem_cons.mp each
    obtain ⟨items, rest⟩ := ih others
    exact ⟨item :: items, by rw [List.flatten_cons, List.flatMap_cons, same, rest]⟩

end Lists

section Expressions

variable {text : List Lexeme} {texts : List (List Lexeme)}

theorem exists_adding (covers : Covers Form.addingOperator text) :
    ∃ operator : Adding, text = [word operator.kind] := by
  rcases covers with rfl | rfl
  · exact ⟨.plus, rfl⟩
  · exact ⟨.minus, rfl⟩

theorem exists_multiplying (covers : Covers Form.multiplyingOperator text) :
    ∃ operator : Multiplying, text = [word operator.kind] := by
  rcases covers with (rfl | rfl) | rfl
  · exact ⟨.times, rfl⟩
  · exact ⟨.over, rfl⟩
  · exact ⟨.modulo, rfl⟩

theorem exists_comparison (covers : Covers Form.relationalOperator text) :
    ∃ comparison : Comparison, text = [word comparison.kind] := by
  rcases covers with ((((rfl | rfl) | rfl) | rfl) | rfl) | rfl
  · exact ⟨.equal, rfl⟩
  · exact ⟨.unequal, rfl⟩
  · exact ⟨.less, rfl⟩
  · exact ⟨.lessEqual, rfl⟩
  · exact ⟨.greater, rfl⟩
  · exact ⟨.greaterEqual, rfl⟩

theorem exists_relations (connective : Analysis.Connective)
    (each : ∀ text ∈ texts, Covers (.word connective.kind ++ .part .relation) text) :
    ∃ relations : Relations, relations.yield connective = texts.flatten := by
  induction texts with
  | nil => exact ⟨.none, rfl⟩
  | cons text texts ih =>
    obtain ⟨first, others⟩ := List.forall_mem_cons.mp each
    obtain ⟨relations, rest⟩ := ih others
    obtain ⟨joint, _, rfl, joins, relation, rfl⟩ := first
    have same : joint = [word connective.kind] := by cases connective <;> exact joins
    exact ⟨.more relation relations, by simp [Relations.yield, rest, same]⟩

/-- The first connective decides for all. -/
theorem exists_expression (connective : Analysis.Connective) (first : Relation)
    (each : ∀ text ∈ texts, Covers (.word connective.kind ++ .part .relation) text) :
    HasTree .expression (first.yield ++ texts.flatten) := by
  obtain ⟨relations, same⟩ := exists_relations connective each
  rw [← same]
  cases relations with
  | none => exact ⟨.relation first, (List.append_nil _).symm⟩
  | more second others =>
    exact ⟨.joined connective first second others, by simp [Expression.yield, Relations.yield]⟩

theorem expression_hasTree (covers : Covers Part.expression.rule text) : HasTree .expression text := by
  rcases covers with ⟨_, _, rfl, ⟨first, rfl⟩, texts, rfl, each⟩ |
    ⟨_, _, rfl, ⟨first, rfl⟩, texts, rfl, each⟩
  · exact exists_expression .conjunction first each
  · exact exists_expression .disjunction first each

theorem relation_hasTree (covers : Covers Part.relation.rule text) : HasTree .relation text := by
  obtain ⟨_, _, rfl, ⟨left, rfl⟩, ⟨_, _, rfl, compares, right, rfl⟩ | rfl⟩ := covers
  · obtain ⟨comparison, rfl⟩ := exists_comparison compares
    exact ⟨.compared comparison left right, by simp [Relation.yield]⟩
  · exact ⟨.simple left, (List.append_nil _).symm⟩

theorem exists_sum (first : Simple)
    (each : ∀ text ∈ texts, Covers (Form.addingOperator ++ .part .term) text) :
    HasTree .simpleExpression (first.yield ++ texts.flatten) := by
  induction texts generalizing first with
  | nil => exact ⟨first, (List.append_nil _).symm⟩
  | cons text texts ih =>
    obtain ⟨⟨_, _, rfl, adds, term, rfl⟩, others⟩ := List.forall_mem_cons.mp each
    obtain ⟨operator, rfl⟩ := exists_adding adds
    have longer := ih (.sum first operator term) others
    simpa [Simple.yield] using longer

theorem simpleExpression_hasTree (covers : Covers Part.simpleExpression.rule text) :
    HasTree .simpleExpression text := by
  obtain ⟨_, _, rfl, ⟨_, _, rfl, signed, term, rfl⟩, texts, rfl, each⟩ := covers
  rcases signed with signed | rfl
  · obtain ⟨sign, rfl⟩ := exists_adding signed
    exact exists_sum (.term (some sign) term) each
  · exact exists_sum (.term none term) each

theorem exists_product (first : Term)
    (each : ∀ text ∈ texts, Covers (Form.multiplyingOperator ++ .part .factor) text) :
    HasTree .term (first.yield ++ texts.flatten) := by
  induction texts generalizing first with
  | nil => exact ⟨first, (List.append_nil _).symm⟩
  | cons text texts ih =>
    obtain ⟨⟨_, _, rfl, multiplies, factor, rfl⟩, others⟩ := List.forall_mem_cons.mp each
    obtain ⟨operator, rfl⟩ := exists_multiplying multiplies
    have longer := ih (.product first operator factor) others
    simpa [Term.yield] using longer

theorem term_hasTree (covers : Covers Part.term.rule text) : HasTree .term text := by
  obtain ⟨_, _, rfl, ⟨factor, rfl⟩, texts, rfl, each⟩ := covers
  exact exists_product (.factor factor) each

theorem factor_hasTree (covers : Covers Part.factor.rule text) : HasTree .factor text := by
  rcases covers with ⟨_, _, rfl, rfl, operand, rfl⟩ |
    ⟨_, _, rfl, ⟨base, rfl⟩, ⟨_, _, rfl, rfl, exponent, rfl⟩ | rfl⟩
  · exact ⟨.negated operand, rfl⟩
  · exact ⟨.power base exponent, rfl⟩
  · exact ⟨.primary base, (List.append_nil _).symm⟩

theorem primary_hasTree (covers : Covers Part.primary.rule text) : HasTree .primary text := by
  rcases covers with (⟨digits, rfl⟩ | ⟨_, _, rfl, ⟨_, _, rfl, rfl, inner, rfl⟩, rfl⟩) | ⟨name, rfl⟩
  · exact ⟨.literal digits, rfl⟩
  · exact ⟨.inParentheses inner, rfl⟩
  · exact ⟨.name name, rfl⟩

theorem exists_arguments (first : Expression)
    (each : ∀ text ∈ texts, Covers (.word .comma ++ .part .expression) text) :
    ∃ arguments : Arguments, arguments.yield = first.yield ++ texts.flatten := by
  induction texts generalizing first with
  | nil => exact ⟨.one first, (List.append_nil _).symm⟩
  | cons text texts ih =>
    obtain ⟨⟨_, _, rfl, rfl, second, rfl⟩, others⟩ := List.forall_mem_cons.mp each
    obtain ⟨arguments, rest⟩ := ih second others
    exact ⟨.more first arguments, by simp [Arguments.yield, rest]⟩

theorem name_hasTree (covers : Covers Part.name.rule text) : HasTree .name text := by
  obtain ⟨_, _, rfl, ⟨name, rfl⟩, indexed⟩ := covers
  rcases indexed with
    ⟨_, _, rfl, ⟨_, _, rfl, rfl, _, _, rfl, ⟨first, rfl⟩, texts, rfl, each⟩, rfl⟩ | rfl
  · obtain ⟨arguments, same⟩ := exists_arguments first each
    exact ⟨.indexed name arguments, by simp [Name.yield, same]⟩
  · exact ⟨.plain name, rfl⟩

end Expressions

section Statements

variable {text : List Lexeme} {texts : List (List Lexeme)}

theorem assignmentOrCall_hasTree (covers : Covers Part.assignmentOrCall.rule text) :
    HasTree .assignmentOrCall text := by
  obtain ⟨_, _, rfl, ⟨_, _, rfl, ⟨name, rfl⟩, ⟨_, _, rfl, rfl, source, rfl⟩ | rfl⟩, rfl⟩ := covers
  · exact ⟨.assignment name source, by simp [Statement.yield]⟩
  · exact ⟨.call name, by simp [Statement.yield]⟩

theorem exists_alternatives (last : Alternatives) (each : ∀ text ∈ texts,
      Covers (.word .kwElsif ++ .part .condition ++ .word .kwThen ++ .part .sequence) text) :
    ∃ alternatives : Alternatives, alternatives.yield = texts.flatten ++ last.yield := by
  induction texts with
  | nil => exact ⟨last, rfl⟩
  | cons text texts ih =>
    obtain ⟨⟨_, _, rfl, ⟨_, _, rfl, ⟨_, _, rfl, rfl, condition, rfl⟩, rfl⟩, body, rfl⟩, others⟩ :=
      List.forall_mem_cons.mp each
    obtain ⟨alternatives, rest⟩ := ih others
    exact ⟨.elsif condition body alternatives, by simp [Alternatives.yield, rest]⟩

theorem conditional_hasTree (covers : Covers Part.conditional.rule text) :
    HasTree .conditional text := by
  obtain ⟨_, _, rfl, ⟨_, _, rfl, ⟨_, _, rfl, ⟨_, _, rfl, ⟨_, _, rfl, ⟨_, _, rfl, ⟨_, _, rfl,
    ⟨_, _, rfl, rfl, condition, rfl⟩, rfl⟩, body, rfl⟩, texts, rfl, each⟩, otherwise⟩, rfl⟩, rfl⟩,
    rfl⟩ := covers
  rcases otherwise with ⟨_, _, rfl, rfl, last, rfl⟩ | rfl
  · obtain ⟨alternatives, same⟩ := exists_alternatives (.otherwise last) each
    exact ⟨.conditional condition body alternatives, by simp [Statement.yield, same, Alternatives.yield]⟩
  · obtain ⟨alternatives, same⟩ := exists_alternatives .none each
    exact ⟨.conditional condition body alternatives, by simp [Statement.yield, same, Alternatives.yield]⟩

theorem exists_sequence (first : Statement)
    (each : ∀ text ∈ texts, Covers (.part .statement) text) :
    HasTree .sequence (first.yield ++ texts.flatten) := by
  induction texts generalizing first with
  | nil => exact ⟨.one first, (List.append_nil _).symm⟩
  | cons text texts ih =>
    obtain ⟨⟨second, rfl⟩, others⟩ := List.forall_mem_cons.mp each
    obtain ⟨sequence, rest⟩ := ih second others
    exact ⟨.more first sequence, by simp [Sequence.yield, rest]⟩

theorem sequence_hasTree (covers : Covers Part.sequence.rule text) : HasTree .sequence text := by
  obtain ⟨_, _, rfl, ⟨first, rfl⟩, texts, rfl, each⟩ := covers
  exact exists_sequence first each

theorem loop_hasTree (covers : Covers Part.loop.rule text) : HasTree .loop text := by
  obtain ⟨_, _, rfl, ⟨_, _, rfl, ⟨_, _, rfl, ⟨_, _, rfl, ⟨_, _, rfl, guarded, rfl⟩, body, rfl⟩, rfl⟩,
    rfl⟩, rfl⟩ := covers
  rcases guarded with ⟨_, _, rfl, rfl, condition, rfl⟩ | rfl
  · exact ⟨.loop (some condition) body, by simp [Statement.yield, guard]⟩
  · exact ⟨.loop none body, by simp [Statement.yield, guard]⟩

theorem exit_hasTree (covers : Covers Part.exit.rule text) : HasTree .exit text := by
  obtain ⟨_, _, rfl, ⟨_, _, rfl, rfl, ⟨_, _, rfl, rfl, condition, rfl⟩ | rfl⟩, rfl⟩ := covers
  · exact ⟨.exit (some condition), by simp [Statement.yield, guard]⟩
  · exact ⟨.exit none, by simp [Statement.yield, guard]⟩

theorem null_hasTree (covers : Covers Part.null.rule text) : HasTree .null text := by
  obtain ⟨_, _, rfl, rfl, rfl⟩ := covers
  exact ⟨.null, rfl⟩

theorem print_hasTree (covers : Covers Part.print.rule text) : HasTree .print text := by
  obtain ⟨_, _, rfl, ⟨_, _, rfl, ⟨_, _, rfl, ⟨_, _, rfl, rfl, rfl⟩, operand, rfl⟩, rfl⟩, rfl⟩ := covers
  exact ⟨.print operand, by simp [Statement.yield]⟩

theorem statement_hasTree (covers : Covers Part.statement.rule text) : HasTree .statement text := by
  rcases covers with ((((one | one) | one) | one) | one) | one <;> exact one

end Statements

section Declarations

variable {text : List Lexeme} {texts : List (List Lexeme)}

theorem identifierList_hasTree (covers : Covers Part.identifierList.rule text) :
    HasTree .identifierList text := by
  obtain ⟨_, _, rfl, ⟨first, rfl⟩, texts, rfl, each⟩ := covers
  have items : ∀ text ∈ texts, ∃ name, text = [word .comma, identifier name] := by
    intro text member
    obtain ⟨_, _, rfl, rfl, name, rfl⟩ := each text member
    exact ⟨name, rfl⟩
  obtain ⟨others, same⟩ := exists_items items
  exact ⟨⟨first, others⟩, by rw [same]; rfl⟩

theorem mode_hasTree (covers : Covers Part.mode.rule text) : HasTree .mode text := by
  obtain ⟨_, _, rfl, rfl | rfl, rfl | rfl⟩ := covers
  · exact ⟨true, true, rfl⟩
  · exact ⟨true, false, rfl⟩
  · exact ⟨false, true, rfl⟩
  · exact ⟨false, false, rfl⟩

theorem parameterSpec_hasTree (covers : Covers Part.parameterSpec.rule text) :
    HasTree .parameterSpec text := by
  obtain ⟨_, _, rfl, ⟨_, _, rfl, ⟨_, _, rfl, ⟨names, rfl⟩, rfl⟩, input, output, rfl⟩, type, rfl⟩ :=
    covers
  exact ⟨⟨names, input, output, type⟩, by simp [Parameter.yield]⟩

theorem formalPart_hasTree (covers : Covers Part.formalPart.rule text) : HasTree .formalPart text := by
  obtain ⟨_, _, rfl, ⟨_, _, rfl, ⟨_, _, rfl, rfl, first, rfl⟩, texts, rfl, each⟩, rfl⟩ := covers
  have items : ∀ text ∈ texts, ∃ parameter : Parameter,
      text = word .semicolon :: parameter.yield := by
    intro text member
    obtain ⟨_, _, rfl, rfl, parameter, rfl⟩ := each text member
    exact ⟨parameter, rfl⟩
  obtain ⟨others, same⟩ := exists_items items
  exact ⟨first :: others, by rw [same]; simp [formalPart]⟩

theorem subprogramSpec_hasTree (covers : Covers Part.subprogramSpec.rule text) :
    HasTree .subprogramSpec text := by
  obtain ⟨_, _, rfl, ⟨_, _, rfl, rfl, name, rfl⟩, ⟨parameters, rfl⟩ | rfl⟩ := covers
  · exact ⟨name, parameters, rfl⟩
  · exact ⟨name, [], rfl⟩

theorem range_hasTree (covers : Covers Part.range.rule text) : HasTree .range text := by
  obtain ⟨_, _, rfl, ⟨_, _, rfl, ⟨_, _, rfl, rfl, low, rfl⟩, rfl⟩, high, rfl⟩ := covers
  exact ⟨low, high, by simp⟩

theorem index_hasTree (covers : Covers Part.index.rule text) : HasTree .index text := by
  rcases covers with ⟨low, high, rfl⟩ | ⟨name, rfl⟩
  · exact ⟨.range low high, rfl⟩
  · exact ⟨.type name, rfl⟩

theorem enumeration_hasTree (covers : Covers Part.enumeration.rule text) :
    HasTree .enumeration text := by
  obtain ⟨_, _, rfl, ⟨_, _, rfl, rfl, names, rfl⟩, rfl⟩ := covers
  exact ⟨.enumeration names, rfl⟩

theorem array_hasTree (covers : Covers Part.array.rule text) : HasTree .array text := by
  obtain ⟨_, _, rfl, ⟨_, _, rfl, ⟨_, _, rfl, ⟨_, _, rfl, ⟨_, _, rfl, rfl, rfl⟩, _, _, rfl, ⟨first, rfl⟩,
    texts, rfl, each⟩, rfl⟩, rfl⟩, element, rfl⟩ := covers
  have items : ∀ text ∈ texts, ∃ index : Index, text = word .comma :: index.yield := by
    intro text member
    obtain ⟨_, _, rfl, rfl, index, rfl⟩ := each text member
    exact ⟨index, rfl⟩
  obtain ⟨others, same⟩ := exists_items items
  exact ⟨.array first others element, by rw [same]; simp [TypeDefinition.yield]⟩

theorem typeDefinition_hasTree (covers : Covers Part.typeDefinition.rule text) :
    HasTree .typeDefinition text := by
  rcases covers with ((definition | definition) | ⟨low, high, rfl⟩) | ⟨name, rfl⟩
  · exact definition
  · exact definition
  · exact ⟨.range low high, rfl⟩
  · exact ⟨.type name, rfl⟩

theorem typeDeclaration_hasTree (covers : Covers Part.typeDeclaration.rule text) :
    HasTree .typeDeclaration text := by
  obtain ⟨_, _, rfl, ⟨_, _, rfl, ⟨_, _, rfl, ⟨_, _, rfl, rfl, name, rfl⟩, rfl⟩, definition, rfl⟩, rfl⟩ :=
    covers
  exact fun others => ⟨.type name definition others, by simp [Declarations.yield]⟩

theorem objectDeclaration_hasTree (covers : Covers Part.objectDeclaration.rule text) :
    HasTree .objectDeclaration text := by
  obtain ⟨_, _, rfl, ⟨_, _, rfl, ⟨_, _, rfl, ⟨names, rfl⟩, rfl⟩, object⟩, rfl⟩ := covers
  rcases object with ⟨_, _, rfl, ⟨_, _, rfl, rfl, rfl⟩, source, rfl⟩ | ⟨definition, rfl⟩
  · exact fun others => ⟨.constant names source others, by simp [Declarations.yield]⟩
  · exact fun others => ⟨.variable names definition others, by simp [Declarations.yield]⟩

theorem basicDeclaration_hasTree (covers : Covers Part.basicDeclaration.rule text) :
    HasTree .basicDeclaration text := by
  rcases covers with (declaration | declaration) | ⟨inner, rfl⟩
  · exact declaration
  · exact declaration
  · exact fun others => ⟨.subprogram inner others, rfl⟩

theorem declarativePart_hasTree (covers : Covers Part.declarativePart.rule text) :
    HasTree .declarativePart text := by
  obtain ⟨texts, rfl, each⟩ := covers
  induction texts with
  | nil => exact ⟨.none, rfl⟩
  | cons text texts ih =>
    obtain ⟨first, rest⟩ := List.forall_mem_cons.mp each
    obtain ⟨others, same⟩ := ih rest
    obtain ⟨declarations, whole⟩ := first others
    exact ⟨declarations, by rw [whole, same]; rfl⟩

theorem subprogramBody_hasTree (covers : Covers Part.subprogramBody.rule text) :
    HasTree .subprogramBody text := by
  obtain ⟨_, _, rfl, ⟨_, _, rfl, ⟨_, _, rfl, ⟨_, _, rfl, ⟨_, _, rfl, ⟨_, _, rfl, ⟨_, _, rfl,
    ⟨name, parameters, rfl⟩, rfl⟩, declarations, rfl⟩, rfl⟩, body, rfl⟩, rfl⟩, closing⟩, rfl⟩ := covers
  rcases closing with ⟨closing, rfl⟩ | rfl
  · exact ⟨.mk name parameters declarations body (some closing), by simp [Subprogram.yield]⟩
  · exact ⟨.mk name parameters declarations body none, by simp [Subprogram.yield]⟩

end Declarations

theorem hasTree (part : Part) {text : List Lexeme} (covers : Covers part.rule text) :
    HasTree part text := by
  cases part with
  | compilation => trivial
  | subprogramBody => exact subprogramBody_hasTree covers
  | subprogramSpec => exact subprogramSpec_hasTree covers
  | formalPart => exact formalPart_hasTree covers
  | parameterSpec => exact parameterSpec_hasTree covers
  | mode => exact mode_hasTree covers
  | typeName =>
    obtain ⟨name, rfl⟩ := covers
    exact ⟨name, rfl⟩
  | identifierList => exact identifierList_hasTree covers
  | declarativePart => exact declarativePart_hasTree covers
  | basicDeclaration => exact basicDeclaration_hasTree covers
  | typeDeclaration => exact typeDeclaration_hasTree covers
  | objectDeclaration => exact objectDeclaration_hasTree covers
  | typeDefinition => exact typeDefinition_hasTree covers
  | enumeration => exact enumeration_hasTree covers
  | array => exact array_hasTree covers
  | index => exact index_hasTree covers
  | range => exact range_hasTree covers
  | sequence => exact sequence_hasTree covers
  | statement => exact statement_hasTree covers
  | assignmentOrCall => exact assignmentOrCall_hasTree covers
  | conditional => exact conditional_hasTree covers
  | loop => exact loop_hasTree covers
  | exit => exact exit_hasTree covers
  | null => exact null_hasTree covers
  | print => exact print_hasTree covers
  | condition => exact covers
  | expression => exact expression_hasTree covers
  | relation => exact relation_hasTree covers
  | simpleExpression => exact simpleExpression_hasTree covers
  | term => exact term_hasTree covers
  | factor => exact factor_hasTree covers
  | primary => exact primary_hasTree covers
  | name => exact name_hasTree covers

theorem Spelled.coversWord {lexeme : Lexeme} (spelled : Spelled lexeme) :
    CoversWord [lexeme] lexeme.1 := by
  obtain ⟨kind, text⟩ := lexeme
  rcases spelled with rfl | rfl | same
  · exact ⟨text, rfl⟩
  · exact ⟨text, rfl⟩
  · rw [same]
    cases kind with
    | identifier => exact ⟨_, rfl⟩
    | integer => exact ⟨_, rfl⟩
    | _ => rfl

/-- A text whose kinds are a sentence can be divided as the form asks for. -/
theorem covers_of_derives {form : Form} {sentence : List Kind} (derives : Derives form sentence)
    {text : List Lexeme} (same : text.map Prod.fst = sentence) (spelled : ∀ lexeme ∈ text, Spelled lexeme) :
    Covers form text := by
  induction derives generalizing text with
  | word kind =>
    obtain ⟨lexeme, rfl, rfl⟩ := List.map_eq_singleton_iff.mp same
    exact (List.forall_mem_singleton.mp spelled).coversWord
  | part _ ih => exact hasTree _ (ih same spelled)
  | empty => exact List.map_eq_nil_iff.mp same
  | both _ _ ihFirst ihSecond =>
    obtain ⟨left, right, rfl, atLeft, atRight⟩ := List.map_eq_append_iff.mp same
    obtain ⟨first, second⟩ := List.forall_mem_append.mp spelled
    exact ⟨left, right, rfl, ihFirst atLeft first, ihSecond atRight second⟩
  | first _ ih => exact Or.inl (ih same spelled)
  | second _ ih => exact Or.inr (ih same spelled)
  | done => exact ⟨[], List.map_eq_nil_iff.mp same, List.forall_mem_nil _⟩
  | again _ _ ihFirst ihOthers =>
    obtain ⟨left, right, rfl, atLeft, atRight⟩ := List.map_eq_append_iff.mp same
    obtain ⟨first, others⟩ := List.forall_mem_append.mp spelled
    obtain ⟨texts, rfl, each⟩ := ihOthers atRight others
    exact ⟨left :: texts, rfl, List.forall_mem_cons.mpr ⟨ihFirst atLeft first, each⟩⟩

/-- The trees of procedures yield just the programs of the grammar. -/
theorem exists_yield_iff {text : List Lexeme} (spelled : ∀ lexeme ∈ text, Spelled lexeme) :
    (∃ program : Subprogram, program.yield = text) ↔
      Derives (.part .compilation) (text.map Prod.fst ++ [.endOfInput]) := by
  constructor
  · rintro ⟨program, rfl⟩
    exact .part (.both program.spells (.word .endOfInput))
  · intro derives
    cases derives with
    | part derives =>
      obtain ⟨sentence, _, same, inner, ends⟩ :=
        derivesAll_cons.mp (derivesAll_both.mp (derivesAll_singleton.mpr derives))
      cases derivesAll_singleton.mp ends
      exact covers_of_derives inner (List.append_cancel_right same) spelled

end AdaFront.Tree
