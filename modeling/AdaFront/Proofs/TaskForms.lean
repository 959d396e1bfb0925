import AdaFront.Proofs.Prediction
import AdaFront.Proofs.Tokens

namespace AdaFront.Analysis

open Form in
/-- What a task reads of the text. -/
def Task.forms : Task → List Form
  | .accept kind => [word kind]
  | .skip kind => [optional (word kind)]
  | .declare _ => [word .identifier]
  | .closingName => [optional (word .identifier)]
  | .formalPart => [optional (part .formalPart)]
  | .moreParameters => [many (word .semicolon ++ part .parameterSpec)]
  | .names => [part .identifierList]
  | .nextName => [word .identifier, many (word .comma ++ word .identifier)]
  | .moreNames => [many (word .comma ++ word .identifier)]
  | .typeName => [part .typeName]
  | .declarations => [many (part .basicDeclaration)]
  | .typeDefinition => [part .typeDefinition]
  | .object => [word .kwConstant ++ word .assign ++ part .expression ||| part .typeDefinition]
  | .index => [part .index]
  | .moreIndices => [many (word .comma ++ part .index)]
  | .statement => [part .statement]
  | .moreStatements => [many (part .statement)]
  | .alternatives =>
    [many (word .kwElsif ++ part .condition ++ word .kwThen ++ part .sequence),
     optional (word .kwElse ++ part .sequence)]
  | .exitCondition => [optional (word .kwWhen ++ part .condition)]
  | .assignOrCall _ _ => [optional (word .assign ++ part .expression), word .semicolon]
  | .expression => [part .expression]
  | .logic => [logicTail]
  | .moreLogic connective => [many (word connective.kind ++ part .relation)]
  | .relation => [part .relation]
  | .comparison => [optional (relationalOperator ++ part .simpleExpression)]
  | .simple => [part .simpleExpression]
  | .moreTerms => [many (addingOperator ++ part .term)]
  | .term => [part .term]
  | .moreFactors => [many (multiplyingOperator ++ part .factor)]
  | .factor => [part .factor]
  | .exponent => [optional (word .power ++ part .primary)]
  | .primary => [part .primary]
  | .moreArguments => [many (word .comma ++ part .expression)]
  | .openScope | .closeScope | .setRole _ | .setConstant | .assign _ | .print | .operand _ _
  | .forget | .combine _ _ => []

/-- What tasks read one after another. -/
def forms (tasks : List Task) : List Form :=
  tasks.flatMap Task.forms

@[simp] theorem forms_nil : forms [] = [] := rfl

@[simp] theorem forms_cons (task : Task) (tasks : List Task) :
    forms (task :: tasks) = task.forms ++ forms tasks := rfl

@[simp] theorem forms_append (first second : List Task) :
    forms (first ++ second) = forms first ++ forms second := by
  simp [forms]

theorem mem_addingOperator (kind : Kind) :
    kind ∈ Form.addingOperator.starts ↔ (Operator.adding? kind).isSome = true := by
  cases kind <;> decide

theorem mem_multiplyingOperator (kind : Kind) :
    kind ∈ Form.multiplyingOperator.starts ↔ (Operator.multiplying? kind).isSome = true := by
  cases kind <;> decide

namespace State

/-- The kinds of the tokens from the current one on. -/
def kinds (state : State) : List Kind :=
  state.feed.kinds

theorem kinds_of_feed {one other : State} (same : one.feed = other.feed) :
    one.kinds = other.kinds ∧ one.kind = other.kind :=
  ⟨congrArg Feed.kinds same, congrArg (Feed.token · |>.kind) same⟩

theorem kinds_advance {state : State} {kind : Kind} (atKind : state.kind = kind)
    (inner : kind ≠ .endOfInput) : state.kinds = kind :: state.advance.kinds := by
  subst atKind
  exact state.feed.kinds_advance inner

theorem kinds_begin (state : State) : ∃ rest, state.kinds = state.kind :: rest :=
  state.feed.kinds_begin

end State

/-- A step reads along the forms of its task, and stops only where they cannot go on. -/
def Step.Along (state : State) (row : List Form) : Step → Prop
  | .go tasks after =>
    ∃ read, state.kinds = read ++ after.kinds ∧
      ∀ rest, Reads (row ++ rest) read after.kind (forms tasks ++ rest)
  | .stop rejection after =>
    after.feed = state.feed ∧ rejection.token = state.token ∧
      (rejection.obstacle = .illegalPrintOperand ∨ ∀ rest, state.kind ∉ startsAll (row ++ rest))

/-- What a word leads to is read behind it. -/
theorem Takes.reads {value : Option Int} {task : Task} {kind : Kind} {tasks : List Task}
    (takes : Takes value task kind tasks) (next : Kind) (rest : List Form) :
    Reads (task.forms ++ rest) [kind] next (forms tasks ++ rest) := by
  induction takes generalizing rest with
  | accept => exact .word .stay
  | skip => exact .first .word List.mem_cons_self (.word .stay)
  | formalPart => exact .first .word (by decide) (.part (.word (.part .stay)))
  | moreParameters => exact .again .word (by decide) (.word (.part .stay))
  | moreNames | moreIndices | moreArguments => exact .again .word (by decide) (.word .stay)
  | type =>
    exact .again .word (by decide)
      (.part (.first .word (by decide) (.first .word (by decide) (.part (.word .stay)))))
  | procedure =>
    exact .again .word (by decide) (.part (.second .word (by decide) (.part (.part (.word .stay)))))
  | enumeration =>
    exact .part (.first .word (by decide) (.first .word (by decide) (.first .word (by decide)
      (.part (.word .stay)))))
  | array =>
    exact .part (.first .word (by decide) (.first .word (by decide) (.second .word (by decide)
      (.part (.word .stay)))))
  | rangeType => exact .part (.first .word (by decide) (.second .word (by decide) (.part (.word .stay))))
  | rangeIndex => exact .part (.first .word (by decide) (.part (.word .stay)))
  | exit =>
    exact .part (.first .word (by decide) (.first .word (by decide) (.second .word (by decide)
      (.part (.word .stay)))))
  | branch =>
    exact .part (.first .word (by decide) (.first .word (by decide) (.first .word (by decide)
      (.first .word (by decide) (.second .word (by decide) (.part (.word (.part .stay))))))))
  | null => exact .part (.first .word (by decide) (.second .word (by decide) (.part (.word .stay))))
  | whileLoop =>
    exact .part (.first .word (by decide) (.first .word (by decide) (.first .word (by decide)
      (.second .word (by decide) (.part (.first .word (by decide) (.word (.part .stay))))))))
  | loop =>
    exact .part (.first .word (by decide) (.first .word (by decide) (.first .word (by decide)
      (.second .word (by decide) (.part (.second .word (by decide) (.word .stay)))))))
  | print => exact .part (.second .word (by decide) (.part (.word .stay)))
  | @further kind _ first ih =>
    have start : kind ∈ (Form.part .statement).starts := by cases first <;> decide
    refine .again .word start ?_
    rw [forms_append, List.append_assoc]
    exact ih _
  | elsif => exact .again .word (by decide) (.word (.part .stay))
  | otherwise => exact .done .word (by decide) (.first .word (by decide) (.word .stay))
  | exitCondition => exact .first .word (by decide) (.word (.part .stay))
  | logic connective =>
    cases connective with
    | conjunction => exact .first .word (by decide) (.word .stay)
    | disjunction => exact .second .word (by decide) (.first .word (by decide) (.word .stay))
  | moreLogic => exact .again .word List.mem_cons_self (.word .stay)
  | comparison opens =>
    exact .first .word (List.mem_append_left _ opens) (Form.relationalOperator_choice.reads opens .stay)
  | plus | minus =>
    exact .part (.first .word (by decide) (Form.addingOperator_choice.reads (by decide) .stay))
  | @moreTerms kind _ adds =>
    have start := (mem_addingOperator kind).mpr (Option.isSome_of_mem adds)
    exact .again .word (List.mem_append_left _ start) (Form.addingOperator_choice.reads start .stay)
  | @moreFactors kind _ multiplies =>
    have start := (mem_multiplyingOperator kind).mpr (Option.isSome_of_mem multiplies)
    exact .again .word (List.mem_append_left _ start) (Form.multiplyingOperator_choice.reads start .stay)
  | not => exact .part (.first .word (by decide) (.word .stay))
  | exponent => exact .first .word (by decide) (.word .stay)
  | parenthesized => exact .part (.first .word (by decide) (.second .word (by decide) (.word .stay)))

/-- What need not be there is passed over where nothing begins it. -/
theorem Task.reads_omits {task : Task} {kind : Kind} (optional : task.isOptional = true)
    (apart : kind ∉ task.openings) (rest : List Form) : Reads (task.forms ++ rest) [] kind rest := by
  have outside {inner : List Kind} (within : inner ⊆ task.openings) : kind ∉ inner :=
    fun member => apart (within member)
  cases task with
  | skip => exact .second .next (outside (List.Subset.refl _)) .stay
  | closingName | formalPart | exitCondition | comparison | exponent =>
    exact .second .next (outside (by decide)) .stay
  | moreParameters | moreNames | declarations | moreIndices | moreStatements | moreTerms | moreFactors
  | moreArguments => exact .done .next (outside (by decide)) .stay
  | alternatives =>
    exact .done .next (outside (by decide)) (.second .next (outside (by decide)) .stay)
  | logic => exact .second .next (outside (by decide)) (.second .next (outside (by decide)) .stay)
  | _ => cases optional

theorem Expands.reads {kind : Kind} {task : Task} {tasks : List Task} (expands : Expands kind task tasks)
    (rest : List Form) : Reads (task.forms ++ rest) [] kind (forms tasks ++ rest) := by
  cases expands with
  | expression | relation | term => exact .part .stay
  | simple noPlus noMinus =>
    refine .part (.second .next ?_ .stay)
    simpa [Form.starts, Form.addingOperator] using ⟨noPlus, noMinus⟩
  | factor other => exact .part (.second .next (mt List.mem_singleton.mp other) .stay)

/-- A name is an identifier with the list that may follow it, wherever it stands. -/
theorem Heads.reads {task : Task} {last : Option EntryId → Bool → Task} {later : List Task}
    (heads : Heads task last later) (name : Option EntryId) (indexed : Bool) {read : List Kind} {next : Kind}
    {rest final : List Form}
    (reads : Reads (Part.name.rule.split ++ (forms (last name indexed :: later) ++ rest))
      (.identifier :: read) next final) :
    Reads (task.forms ++ rest) (.identifier :: read) next final := by
  have statement {others : List Form}
      (reads : Reads (Part.name.rule.split ++ (Task.forms (.assignOrCall name indexed) ++ others))
        (.identifier :: read) next final) :
      Reads (.part .statement :: others) (.identifier :: read) next final :=
    .part (.first .word (by decide) (.first .word (by decide) (.first .word (by decide)
      (.first .word (by decide) (.first .word (by decide) (.part (.part reads)))))))
  cases heads with
  | statement => exact statement reads
  | further => exact .again .word (by decide) (statement reads)
  | primary => exact .part (.second .word (by decide) (.part reads))

namespace Step.Along

variable {state after : State} {row : List Form} {tasks : List Task} {kind : Kind}

theorem staying (same : after.feed = state.feed)
    (reads : ∀ rest, Reads (row ++ rest) [] state.kind (forms tasks ++ rest)) :
    (Step.go tasks after).Along state row := by
  obtain ⟨kinds, atKind⟩ := State.kinds_of_feed same
  exact ⟨[], kinds.symm, fun rest => atKind ▸ reads rest⟩

theorem taking (atKind : state.kind = kind) (inner : kind ≠ .endOfInput)
    (same : after.feed = state.advance.feed)
    (reads : ∀ next rest, Reads (row ++ rest) [kind] next (forms tasks ++ rest)) :
    (Step.go tasks after).Along state row := by
  obtain ⟨kinds, _⟩ := State.kinds_of_feed same
  refine ⟨[kind], ?_, reads after.kind⟩
  rw [kinds]
  exact State.kinds_advance atKind inner

theorem looks {read : List Kind} (kinds : state.kinds = read ++ after.kinds) :
    Looks read after.kind state.kind := by
  obtain ⟨later, begins⟩ := state.kinds_begin
  obtain ⟨afterLater, afterBegins⟩ := after.kinds_begin
  rw [begins, afterBegins] at kinds
  cases read with
  | nil =>
    obtain ⟨same, _⟩ := List.cons.inj kinds
    exact same ▸ .next
  | cons first read =>
    obtain ⟨rfl, _⟩ := List.cons.inj kinds
    exact .word

end Step.Along

/-- Every task reads along its forms. -/
theorem Goes.along {state after : State} {task : Task} {tasks : List Task} (goes : Goes state task tasks after)
    (inner : ∀ form ∈ task.forms, form.Inner) : (Step.go tasks after).Along state task.forms := by
  open Step.Along in
  cases goes with
  | takes takes =>
    refine taking rfl ?_ rfl takes.reads
    rcases takes.inner_or_word with inner | ⟨rfl | rfl, rfl⟩
    · exact inner
    · exact inner _ List.mem_cons_self
    · exact (inner _ List.mem_cons_self).1
  | omits optional apart => exact staying rfl (Task.reads_omits optional apart)
  | expands expands => exact staying rfl expands.reads
  | declare atName => exact taking atName (by decide) (state.feed_declare _) fun _ _ => .word .stay
  | names atName => exact taking atName (by decide) (State.feed_declareListed _) fun _ _ => .part (.word .stay)
  | objects atName =>
    refine taking atName (by decide) (State.feed_declareListed _) fun _ _ => .again .word (by decide) ?_
    exact .part (.first .word (by decide) (.second .word (by decide) (.part (.part (.word .stay)))))
  | nextName atName => exact taking atName (by decide) (State.feed_declareListed _) fun _ _ => .word .stay
  | closingName atName =>
    refine taking atName (by decide) ?_ fun _ _ => .first .word (by decide) (.word .stay)
    exact (State.feed_check _ _ _).trans state.feed_find
  | typeName atName among =>
    refine taking atName (by decide) ((State.feed_check _ _ _).trans state.feed_find) fun _ _ => ?_
    simp only [List.mem_cons, List.not_mem_nil, or_false] at among
    rcases among with rfl | rfl | rfl
    · exact .part (.word .stay)
    · exact .part (.second .word (by decide) (.part (.word .stay)))
    · exact .part (.second .word (by decide) (.part (.word .stay)))
  | bare atName heads bare =>
    obtain ⟨kinds, _⟩ := State.kinds_of_feed state.feed_find
    refine ⟨[.identifier], ?_, fun rest => heads.reads state.find.1 false ?_⟩
    · rw [kinds]
      exact State.kinds_advance atName (by decide)
    · exact .word (.second .next (mt List.mem_singleton.mp bare) .stay)
  | listed atName heads list =>
    obtain ⟨kinds, _⟩ := State.kinds_of_feed state.feed_find
    refine ⟨[.identifier, .leftParen], ?_, fun rest => heads.reads state.find.1 true ?_⟩
    · rw [State.kinds_advance atName (by decide), ← kinds, State.kinds_advance list (by decide)]
      rfl
    · rw [forms_append, List.append_assoc]
      exact .word (.first .word (by decide) (.word .stay))
  | constantObject same =>
    exact taking same (by decide) (State.feed_setRole _ _) fun _ _ => .first .word (by decide) (.word .stay)
  | typedObject other =>
    refine staying (State.feed_setRole _ _) fun _ => .second .next ?_ .stay
    exact mt List.mem_singleton.mp other
  | target same | component same =>
    exact taking same (by decide) (congrArg Feed.advance (State.feed_check _ _ _)) fun _ _ =>
      .first .word (by decide) (.word .stay)
  | call other =>
    exact staying (State.feed_check _ _ _) fun _ => .second .next (mt List.mem_singleton.mp other) .stay
  | endLogic other => exact staying rfl fun _ => .done .next (mt List.mem_singleton.mp other) .stay
  | literal atLiteral =>
    refine taking atLiteral (by decide) state.feed_literal fun _ _ => ?_
    exact .part (.first .word (by decide) (.first .word (by decide) (.word .stay)))
  | setRole => exact staying (state.feed_setRole _) fun _ => .stay
  | setConstant => exact staying state.feed_setConstant fun _ => .stay
  | assign => exact staying (state.feed_assign _) fun _ => .stay
  | operand => exact staying (state.feed_check _ _) fun _ => .stay
  | combine => exact staying (state.feed_combine _ _) fun _ => .stay
  | closeScope => exact staying state.feed_closeScope fun _ => .stay
  | print | forget | openScope => exact staying rfl fun _ => .stay

/-- A token that a task refuses cannot begin what the task reads. -/
theorem Refuses.along {state : State} {task : Task} {obstacle : Obstacle} (refuses : Refuses state task obstacle) :
    (state.refuse obstacle).Along state task.forms := by
  refine ⟨rfl, rfl, ?_⟩
  cases refuses with
  | unknown => exact Or.inl rfl
  | unexpected asks apart =>
    refine Or.inr fun rest member => apart ?_
    have begins {form : Form} {others : List Form} (member : state.kind ∈ startsAll (form :: others))
        (present : form.nullable = false) (within : form.starts ⊆ task.openings) :
        state.kind ∈ task.openings := by
      rw [startsAll, present] at member
      exact within (by simpa using member)
    cases task with
    | accept | declare => exact begins member rfl (List.Subset.refl _)
    | names | nextName | typeName | typeDefinition | index | statement | primary =>
      exact begins member rfl (by decide)
    | _ => cases asks

theorem Task.stop_along {state after : State} {task : Task} {rejection : Rejection}
    (step : task.step state = .stop rejection after) : (Step.stop rejection after).Along state task.forms := by
  obtain ⟨_, _, refuses⟩ := Task.step_stop_iff.mp step
  rw [← step, refuses.step]
  exact refuses.along

end AdaFront.Analysis
