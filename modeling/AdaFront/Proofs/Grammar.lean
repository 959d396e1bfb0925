import AdaFront.Token.Kind

namespace AdaFront

/-- The parts of a program that the grammar names. -/
inductive Part where
  | compilation | subprogramBody | subprogramSpec | formalPart | parameterSpec | mode | typeName
  | identifierList | declarativePart | basicDeclaration | typeDeclaration | objectDeclaration
  | typeDefinition | enumeration | array | index | range | sequence | statement | assignmentOrCall
  | conditional | loop | exit | null | print | condition | expression | relation | simpleExpression
  | term | factor | primary | name
deriving DecidableEq, Repr, Inhabited

/-- The right-hand sides of grammar rules over words and parts. -/
inductive Form where
  | word (kind : Kind)
  | part (part : Part)
  | empty
  | both (first second : Form)
  | either (first second : Form)
  | many (body : Form)
deriving DecidableEq, Repr, Inhabited

namespace Form

instance : Append Form := ⟨Form.both⟩

instance : OrOp Form := ⟨Form.either⟩

/-- A form that may be left out. -/
def optional (body : Form) : Form := body ||| .empty

/-- One form or more, divided by a word. -/
def listOf (body : Form) (separator : Kind) : Form := body ++ many (word separator ++ body)

def relationalOperator : Form :=
  word .equal ||| word .unequal ||| word .less ||| word .lessEqual ||| word .greater
    ||| word .greaterEqual

def addingOperator : Form := word .plus ||| word .minus

def multiplyingOperator : Form := word .star ||| word .slash ||| word .kwMod

end Form

open Form in
/-- The grammar. -/
def Part.rule : Part → Form
  | .compilation => part .subprogramBody ++ word .endOfInput
  | .subprogramBody =>
    part .subprogramSpec ++ word .kwIs ++ part .declarativePart ++ word .kwBegin ++ part .sequence
      ++ word .kwEnd ++ optional (word .identifier) ++ word .semicolon
  | .subprogramSpec => word .kwProcedure ++ word .identifier ++ optional (part .formalPart)
  | .formalPart =>
    word .leftParen ++ part .parameterSpec ++ many (word .semicolon ++ part .parameterSpec)
      ++ word .rightParen
  | .parameterSpec => part .identifierList ++ word .colon ++ part .mode ++ part .typeName
  | .mode => optional (word .kwIn) ++ optional (word .kwOut)
  | .typeName => word .identifier
  | .identifierList => listOf (word .identifier) .comma
  | .declarativePart => many (part .basicDeclaration)
  | .basicDeclaration =>
    part .typeDeclaration ||| part .objectDeclaration ||| part .subprogramBody
  | .typeDeclaration =>
    word .kwType ++ word .identifier ++ word .kwIs ++ part .typeDefinition ++ word .semicolon
  | .objectDeclaration =>
    part .identifierList ++ word .colon
      ++ (word .kwConstant ++ word .assign ++ part .expression ||| part .typeDefinition)
      ++ word .semicolon
  | .typeDefinition => part .enumeration ||| part .array ||| part .range ||| part .typeName
  | .enumeration => word .leftParen ++ part .identifierList ++ word .rightParen
  | .array =>
    word .kwArray ++ word .leftParen ++ listOf (part .index) .comma ++ word .rightParen
      ++ word .kwOf ++ part .typeName
  | .index => part .range ||| part .typeName
  | .range =>
    word .kwRange ++ part .simpleExpression ++ word .dots ++ part .simpleExpression
  | .sequence => part .statement ++ many (part .statement)
  | .statement =>
    part .assignmentOrCall ||| part .conditional ||| part .loop ||| part .exit ||| part .null
      ||| part .print
  | .assignmentOrCall =>
    part .name ++ optional (word .assign ++ part .expression) ++ word .semicolon
  | .conditional =>
    word .kwIf ++ part .condition ++ word .kwThen ++ part .sequence
      ++ many (word .kwElsif ++ part .condition ++ word .kwThen ++ part .sequence)
      ++ optional (word .kwElse ++ part .sequence) ++ word .kwEnd ++ word .kwIf ++ word .semicolon
  | .loop =>
    optional (word .kwWhile ++ part .condition) ++ word .kwLoop ++ part .sequence ++ word .kwEnd
      ++ word .kwLoop ++ word .semicolon
  | .exit => word .kwExit ++ optional (word .kwWhen ++ part .condition) ++ word .semicolon
  | .null => word .kwNull ++ word .semicolon
  | .print =>
    word .kwPrint ++ word .leftParen ++ part .expression ++ word .rightParen ++ word .semicolon
  | .condition => part .expression
  | .expression =>
    part .relation ++ many (word .kwAnd ++ part .relation)
      ||| part .relation ++ many (word .kwOr ++ part .relation)
  | .relation =>
    part .simpleExpression ++ optional (relationalOperator ++ part .simpleExpression)
  | .simpleExpression =>
    optional addingOperator ++ part .term ++ many (addingOperator ++ part .term)
  | .term => part .factor ++ many (multiplyingOperator ++ part .factor)
  | .factor =>
    word .kwNot ++ part .primary ||| part .primary ++ optional (word .power ++ part .primary)
  | .primary =>
    word .integer ||| word .leftParen ++ part .expression ++ word .rightParen ||| part .name
  | .name =>
    word .identifier
      ++ optional (word .leftParen ++ listOf (part .expression) .comma ++ word .rightParen)

/-- The sentences of a form. -/
inductive Derives : Form → List Kind → Prop
  | word (kind : Kind) : Derives (.word kind) [kind]
  | part {part sentence} : Derives part.rule sentence → Derives (.part part) sentence
  | empty : Derives .empty []
  | both {first second left right} :
      Derives first left → Derives second right → Derives (first ++ second) (left ++ right)
  | first {first second sentence} : Derives first sentence → Derives (first ||| second) sentence
  | second {first second sentence} : Derives second sentence → Derives (first ||| second) sentence
  | done {body} : Derives (.many body) []
  | again {body left right} :
      Derives body left → Derives (.many body) right → Derives (.many body) (left ++ right)

/-- The sentences of forms that stand one behind the other. -/
inductive DerivesAll : List Form → List Kind → Prop
  | nil : DerivesAll [] []
  | cons {form forms left right} :
      Derives form left → DerivesAll forms right → DerivesAll (form :: forms) (left ++ right)

/-- What a text can begin with so that it can still be completed to a program. -/
def Viable (kinds : List Kind) : Prop :=
  ∃ rest, Derives (.part .compilation) (kinds ++ rest)

/-- A short sentence of a form, from short sentences of the parts in it. -/
def Form.sample (parts : Part → Option (List Kind)) : Form → Option (List Kind)
  | .word kind => some [kind]
  | .part named => parts named
  | .empty | .many _ => some []
  | .both first second =>
    (first.sample parts).bind fun left => (second.sample parts).map (left ++ ·)
  | .either first second => (first.sample parts).or (second.sample parts)

/-- A sentence of a part whose derivation is not higher than the bound. -/
def Part.sample : Nat → Part → Option (List Kind)
  | 0, _ => none
  | bound + 1, part => part.rule.sample (Part.sample bound)

theorem Form.sample_derives {parts : Part → Option (List Kind)}
    (sound : ∀ part sentence, parts part = some sentence → Derives (.part part) sentence)
    {form : Form} {sentence : List Kind} (same : form.sample parts = some sentence) :
    Derives form sentence := by
  induction form generalizing sentence with
  | word kind =>
    cases same
    exact .word kind
  | part named => exact sound named sentence same
  | empty =>
    cases same
    exact .empty
  | many =>
    cases same
    exact .done
  | both first second ihFirst ihSecond =>
    obtain ⟨left, atFirst, rest⟩ := Option.bind_eq_some_iff.mp same
    obtain ⟨right, atSecond, rfl⟩ := Option.map_eq_some_iff.mp rest
    exact .both (ihFirst atFirst) (ihSecond atSecond)
  | either first second ihFirst ihSecond =>
    rcases Option.or_eq_some_iff.mp same with atFirst | ⟨_, atSecond⟩
    · exact .first (ihFirst atFirst)
    · exact .second (ihSecond atSecond)

theorem Part.sample_derives (bound : Nat) (part : Part) (sentence : List Kind)
    (same : part.sample bound = some sentence) : Derives (.part part) sentence := by
  induction bound generalizing part sentence with
  | zero => cases same
  | succ bound ih => exact .part (Form.sample_derives ih same)

/-- Every part has a sentence. -/
theorem Part.productive (part : Part) : ∃ sentence, Derives (.part part) sentence := by
  have found : (part.sample 12).isSome = true := by cases part <;> decide
  obtain ⟨sentence, same⟩ := Option.isSome_iff_exists.mp found
  exact ⟨sentence, sample_derives 12 part sentence same⟩

theorem Form.productive (form : Form) : ∃ sentence, Derives form sentence := by
  induction form with
  | word kind => exact ⟨[kind], .word kind⟩
  | part named => exact named.productive
  | empty => exact ⟨[], .empty⟩
  | both _ _ ihFirst ihSecond =>
    obtain ⟨left, atFirst⟩ := ihFirst
    obtain ⟨right, atSecond⟩ := ihSecond
    exact ⟨left ++ right, .both atFirst atSecond⟩
  | either _ _ ihFirst _ =>
    obtain ⟨left, atFirst⟩ := ihFirst
    exact ⟨left, .first atFirst⟩
  | many => exact ⟨[], .done⟩

end AdaFront
