import AdaFront.Proofs.Grammar

namespace AdaFront

namespace Part

/-- Whether a part can be left out. -/
def nullable : Part → Bool
  | .mode | .declarativePart => true
  | _ => false

def statementStarts : List Kind :=
  [.identifier, .kwIf, .kwWhile, .kwLoop, .kwExit, .kwNull, .kwPrint]

def expressionStarts : List Kind :=
  [.plus, .minus, .kwNot, .integer, .leftParen, .identifier]

/-- The words that a part can begin with. -/
def starts : Part → List Kind
  | .compilation | .subprogramBody | .subprogramSpec => [.kwProcedure]
  | .formalPart | .enumeration => [.leftParen]
  | .parameterSpec | .typeName | .identifierList | .objectDeclaration | .assignmentOrCall | .name =>
    [.identifier]
  | .mode => [.kwIn, .kwOut]
  | .declarativePart | .basicDeclaration => [.kwType, .identifier, .kwProcedure]
  | .typeDeclaration => [.kwType]
  | .typeDefinition => [.leftParen, .kwArray, .kwRange, .identifier]
  | .array => [.kwArray]
  | .index => [.kwRange, .identifier]
  | .range => [.kwRange]
  | .sequence | .statement => statementStarts
  | .conditional => [.kwIf]
  | .loop => [.kwWhile, .kwLoop]
  | .exit => [.kwExit]
  | .null => [.kwNull]
  | .print => [.kwPrint]
  | .condition | .expression | .relation | .simpleExpression => expressionStarts
  | .term | .factor => [.kwNot, .integer, .leftParen, .identifier]
  | .primary => [.integer, .leftParen, .identifier]

def factorContinuations : List Kind := [.power, .leftParen]

def termContinuations : List Kind := [.star, .slash, .kwMod] ++ factorContinuations

def simpleContinuations : List Kind := [.plus, .minus] ++ termContinuations

def relationContinuations : List Kind :=
  [.equal, .unequal, .less, .lessEqual, .greater, .greaterEqual] ++ simpleContinuations

def expressionContinuations : List Kind := [.kwAnd, .kwOr] ++ relationContinuations

/-- The words with which a part that is complete can go on all the same. -/
def continuations : Part → List Kind
  | .subprogramSpec | .primary | .name => [.leftParen]
  | .mode => [.kwIn, .kwOut]
  | .identifierList => [.comma]
  | .declarativePart => [.kwType, .identifier, .kwProcedure]
  | .sequence => statementStarts
  | .factor => factorContinuations
  | .term => termContinuations
  | .range | .index | .typeDefinition | .simpleExpression => simpleContinuations
  | .relation => relationContinuations
  | .condition | .expression => expressionContinuations
  | _ => []

end Part

namespace Form

def nullable : Form → Bool
  | .word _ => false
  | .part named => named.nullable
  | .empty | .many _ => true
  | .both first second => first.nullable && second.nullable
  | .either first second => first.nullable || second.nullable

def starts : Form → List Kind
  | .word kind => [kind]
  | .part named => named.starts
  | .empty => []
  | .both first second => first.starts ++ if first.nullable then second.starts else []
  | .either first second => first.starts ++ second.starts
  | .many body => body.starts

def continuations : Form → List Kind
  | .word _ | .empty => []
  | .part named => named.continuations
  | .both first second => second.continuations ++ if second.nullable then first.continuations else []
  | .either first second =>
    first.continuations ++ second.continuations ++ if second.nullable then first.starts else []
  | .many body => body.starts ++ body.continuations

@[simp] theorem nullable_both (first second : Form) :
    (first ++ second).nullable = (first.nullable && second.nullable) := rfl

@[simp] theorem nullable_either (first second : Form) :
    (first ||| second).nullable = (first.nullable || second.nullable) := rfl

@[simp] theorem starts_both (first second : Form) :
    (first ++ second).starts = first.starts ++ if first.nullable then second.starts else [] := rfl

@[simp] theorem starts_either (first second : Form) :
    (first ||| second).starts = first.starts ++ second.starts := rfl

/-- One token decides how to read the form. Only its last alternative can be empty. -/
def Predictable : Form → Prop
  | .word _ | .part _ | .empty => True
  | .both first second =>
    first.Predictable ∧ second.Predictable ∧ ∀ kind ∈ first.continuations, kind ∉ second.starts
  | .either first second =>
    first.Predictable ∧ second.Predictable ∧ first.nullable = false ∧
      ∀ kind ∈ first.starts, kind ∉ second.starts
  | .many body =>
    body.Predictable ∧ body.nullable = false ∧ ∀ kind ∈ body.continuations, kind ∉ body.starts

instance Predictable.decide : (form : Form) → Decidable form.Predictable
  | .word _ | .part _ | .empty => inferInstanceAs (Decidable True)
  | .both first second =>
    have := Predictable.decide first
    have := Predictable.decide second
    inferInstanceAs (Decidable (first.Predictable ∧ second.Predictable ∧ _))
  | .either first second =>
    have := Predictable.decide first
    have := Predictable.decide second
    inferInstanceAs (Decidable (first.Predictable ∧ second.Predictable ∧ _))
  | .many body =>
    have := Predictable.decide body
    inferInstanceAs (Decidable (body.Predictable ∧ _))

/-- The end of the input is no part of the form. -/
def Inner : Form → Prop
  | .word kind => kind ≠ .endOfInput
  | .part named => named ≠ .compilation
  | .empty => True
  | .both first second | .either first second => first.Inner ∧ second.Inner
  | .many body => body.Inner

instance Inner.decide : (form : Form) → Decidable form.Inner
  | .word kind => inferInstanceAs (Decidable (kind ≠ .endOfInput))
  | .part named => inferInstanceAs (Decidable (named ≠ .compilation))
  | .empty => inferInstanceAs (Decidable True)
  | .both first second | .either first second =>
    have := Inner.decide first
    have := Inner.decide second
    inferInstanceAs (Decidable (first.Inner ∧ second.Inner))
  | .many body => Inner.decide body

end Form

open Form in
/-- What may follow the first relation of an expression. -/
def logicTail : Form :=
  word .kwAnd ++ part .relation ++ many (word .kwAnd ++ part .relation)
    ||| optional (word .kwOr ++ part .relation ++ many (word .kwOr ++ part .relation))

/-- The grammar with the common beginning of the two alternatives of an expression drawn out, so
that one token decides between them. -/
def Part.factored : Part → Form
  | .expression => .part .relation ++ logicTail
  | part => part.rule

namespace Part

theorem rule_nullable (part : Part) : part.rule.nullable = part.nullable := by
  cases part <;> rfl

theorem rule_starts (part : Part) : ∀ kind ∈ part.rule.starts, kind ∈ part.starts := by
  cases part <;> decide

theorem factored_predictable (part : Part) : part.factored.Predictable := by
  cases part <;> decide

theorem factored_inner (part : Part) (inner : part ≠ .compilation) : part.factored.Inner := by
  cases part with
  | compilation => exact absurd rfl inner
  | _ => decide

theorem factored_nullable (part : Part) : part.factored.nullable = part.nullable := by
  cases part <;> rfl

theorem factored_starts (part : Part) : ∀ kind ∈ part.factored.starts, kind ∈ part.starts := by
  cases part <;> decide

theorem factored_continuations (part : Part) :
    ∀ kind ∈ part.factored.continuations, kind ∈ part.continuations := by
  cases part <;> decide

end Part

/-- A form with an empty sentence is known to be nullable. -/
theorem Derives.nullable {form : Form} {sentence : List Kind} (derives : Derives form sentence)
    (nothing : sentence = []) : form.nullable = true := by
  induction derives with
  | word => cases nothing
  | @part part _ _ ih => rw [Form.nullable, ← part.rule_nullable, ih nothing]
  | empty | done | again => rfl
  | both _ _ left right =>
    obtain ⟨noLeft, noRight⟩ := List.append_eq_nil_iff.mp nothing
    exact Bool.and_eq_true_iff.mpr ⟨left noLeft, right noRight⟩
  | first _ ih => exact Bool.or_eq_true_iff.mpr (Or.inl (ih nothing))
  | second _ ih => exact Bool.or_eq_true_iff.mpr (Or.inr (ih nothing))

/-- The first word of a sentence is one of the words that its form is known to begin with. -/
theorem Derives.mem_starts {form : Form} {sentence rest : List Kind} {kind : Kind}
    (derives : Derives form sentence) (begins : sentence = kind :: rest) : kind ∈ form.starts := by
  induction derives generalizing rest with
  | word =>
    obtain ⟨rfl, _⟩ := List.cons.inj begins
    exact List.mem_cons_self
  | @part part _ _ ih => exact part.rule_starts kind (ih begins)
  | empty | done => cases begins
  | both first _ left right =>
    rcases List.append_eq_cons_iff.mp begins with ⟨nothing, begins⟩ | ⟨_, begins, _⟩
    · refine List.mem_append_right _ ?_
      rw [if_pos (first.nullable nothing)]
      exact right begins
    · exact List.mem_append_left _ (left begins)
  | first _ ih => exact List.mem_append_left _ (ih begins)
  | second _ ih => exact List.mem_append_right _ (ih begins)
  | again _ _ left right =>
    rcases List.append_eq_cons_iff.mp begins with ⟨_, begins⟩ | ⟨_, begins, _⟩
    · exact right begins
    · exact left begins

theorem derivesAll_cons {form : Form} {forms : List Form} {sentence : List Kind} :
    DerivesAll (form :: forms) sentence ↔
      ∃ left right, sentence = left ++ right ∧ Derives form left ∧ DerivesAll forms right := by
  constructor
  · intro derives
    cases derives with
    | cons first rest => exact ⟨_, _, rfl, first, rest⟩
  · rintro ⟨left, right, rfl, first, rest⟩
    exact .cons first rest

theorem derivesAll_singleton {form : Form} {sentence : List Kind} :
    DerivesAll [form] sentence ↔ Derives form sentence := by
  constructor
  · intro derives
    obtain ⟨left, right, rfl, atForm, nothing⟩ := derivesAll_cons.mp derives
    cases nothing
    rw [List.append_nil]
    exact atForm
  · intro derives
    exact List.append_nil sentence ▸ .cons derives .nil

theorem derivesAll_productive (forms : List Form) : ∃ sentence, DerivesAll forms sentence := by
  induction forms with
  | nil => exact ⟨[], .nil⟩
  | cons form forms ih =>
    obtain ⟨left, atForm⟩ := form.productive
    obtain ⟨right, later⟩ := ih
    exact ⟨left ++ right, .cons atForm later⟩

theorem derivesAll_append {first second : List Form} {sentence : List Kind} :
    DerivesAll (first ++ second) sentence ↔
      ∃ left right, sentence = left ++ right ∧ DerivesAll first left ∧ DerivesAll second right := by
  constructor
  · induction first generalizing sentence with
    | nil => exact fun derives => ⟨[], sentence, rfl, .nil, derives⟩
    | cons form forms ih =>
      intro derives
      obtain ⟨left, right, rfl, atForm, later⟩ := derivesAll_cons.mp derives
      obtain ⟨middle, last, rfl, atForms, atSecond⟩ := ih later
      exact ⟨left ++ middle, last, (List.append_assoc ..).symm, .cons atForm atForms, atSecond⟩
  · rintro ⟨left, right, rfl, atFirst, atSecond⟩
    induction atFirst with
    | nil => exact atSecond
    | cons atForm _ ih => rw [List.append_assoc]; exact .cons atForm ih

theorem derivesAll_both {first second : Form} {forms : List Form} {sentence : List Kind} :
    DerivesAll ((first ++ second) :: forms) sentence ↔
      DerivesAll (first :: second :: forms) sentence := by
  constructor
  · intro derives
    obtain ⟨_, right, rfl, both, later⟩ := derivesAll_cons.mp derives
    cases both with
    | both atFirst atSecond => rw [List.append_assoc]; exact .cons atFirst (.cons atSecond later)
  · intro derives
    obtain ⟨left, _, rfl, atFirst, rest⟩ := derivesAll_cons.mp derives
    obtain ⟨middle, right, rfl, atSecond, later⟩ := derivesAll_cons.mp rest
    rw [← List.append_assoc]
    exact .cons (.both atFirst atSecond) later

/-- Drawing out the first relation of an expression keeps its sentences. -/
theorem derives_factored {part : Part} {sentence : List Kind} :
    Derives part.factored sentence ↔ Derives (.part part) sentence := by
  have whole : Derives (.part part) sentence ↔ Derives part.rule sentence :=
    ⟨fun derives => by cases derives; assumption, .part⟩
  rw [whole]
  cases part with
  | expression =>
    constructor
    · intro derives
      cases derives with
      | both atRelation tail =>
        cases tail with
        | first chain =>
          cases chain with
          | both head rest => exact .first (.both atRelation (.again head rest))
        | second chain =>
          cases chain with
          | first chain =>
            cases chain with
            | both head rest => exact .second (.both atRelation (.again head rest))
          | second nothing =>
            cases nothing
            exact .first (.both atRelation .done)
    · intro derives
      cases derives with
      | first chain =>
        cases chain with
        | both atRelation chain =>
          cases chain with
          | done => exact .both atRelation (.second (.second .empty))
          | again head rest => exact .both atRelation (.first (.both head rest))
      | second chain =>
        cases chain with
        | both atRelation chain =>
          cases chain with
          | done => exact .both atRelation (.second (.second .empty))
          | again head rest => exact .both atRelation (.second (.first (.both head rest)))
  | _ => exact Iff.rfl

end AdaFront
