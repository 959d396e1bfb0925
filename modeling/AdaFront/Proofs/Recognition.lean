import AdaFront.Proofs.Running
import AdaFront.Proofs.TaskForms

namespace AdaFront.Analysis

/-- A step that leaves no value to be printed, and that stops at nothing but a missing word. -/
def Step.Quiet : Step → Prop
  | .go tasks _ => .print ∉ tasks
  | .stop rejection _ => ∃ expectation, rejection.obstacle = .expected expectation

/-- A step that takes the first word of a print statement. -/
structure Step.Prints (state : State) (step : Step) : Prop where
  atPrint : state.kind = .kwPrint
  tasks : ∃ later, step = .go (.accept .leftParen :: .expression :: .print :: later) state.advance ∧
    .print ∉ later

theorem Takes.prints {value : Option Int} {task : Task} {kind : Kind} {tasks : List Task}
    (takes : Takes value task kind tasks) : .print ∉ tasks ∨ kind = .kwPrint ∧
      ∃ later, tasks = .accept .leftParen :: .expression :: .print :: later ∧ .print ∉ later := by
  induction takes with
  | print => exact Or.inr ⟨rfl, _, rfl, by decide⟩
  | further _ ih =>
    refine ih.imp (fun outside => ?_) ?_
    · simpa using outside
    · rintro ⟨atPrint, later, rfl, outside⟩
      exact ⟨atPrint, later ++ [.moreStatements], rfl, by simpa using outside⟩
  | _ => exact Or.inl (by simp [parameter, subprogram, range])

/-- Values are printed in print statements only. -/
theorem Goes.prints {state after : State} {task : Task} {tasks : List Task} (goes : Goes state task tasks after) :
    (Step.go tasks after).Quiet ∨ (Step.go tasks after).Prints state := by
  cases goes with
  | takes takes =>
    refine takes.prints.imp_right ?_
    rintro ⟨atPrint, later, rfl, outside⟩
    exact ⟨atPrint, later, rfl, outside⟩
  | expands expands => cases expands <;> exact Or.inl (by simp [Step.Quiet])
  | bare _ heads _ => cases heads <;> exact Or.inl (by simp [Step.Quiet])
  | listed _ heads _ => cases heads <;> exact Or.inl (by simp [Step.Quiet, arguments])
  | _ => exact Or.inl (by simp [Step.Quiet])

theorem Task.step_go_prints {task : Task} {tasks : List Task} {state after : State}
    (step : task.step state = .go tasks after) (member : .print ∈ tasks) :
    (Step.go tasks after).Prints state :=
  (Task.step_go_iff.mp step).prints.resolve_left (not_not_intro member)

/-- Only a value that is not known cannot be printed. -/
theorem Task.step_illegal {task : Task} {state after : State} {rejection : Rejection}
    (step : task.step state = .stop rejection after)
    (illegal : rejection.obstacle = .illegalPrintOperand) : task = .print ∧ state.value = none := by
  obtain ⟨_, _, refuses⟩ := Task.step_stop_iff.mp step
  rw [illegal] at refuses
  cases refuses with
  | unknown unknown => exact ⟨rfl, unknown⟩

/-- What has been read ends within a print statement, whose operand is complete behind the row. -/
def Operand (read : List Kind) (row : List Form) : Prop :=
  ∃ before inside, read = before ++ .kwPrint :: inside ∧
    ∀ rest, DerivesAll row rest → DerivesAll [.word .leftParen, .part .expression] (inside ++ rest)

/-- Each value that is left to be printed is the operand of a print statement. The row is what is
still to be read before the tasks. -/
def Awaits (read : List Kind) : List Form → List Task → Prop
  | _, [] => True
  | row, task :: tasks => (task = .print → Operand read row) ∧ Awaits read (row ++ task.forms) tasks

theorem Awaits.of_notMem {read : List Kind} {row : List Form} {tasks : List Task}
    (quiet : .print ∉ tasks) : Awaits read row tasks := by
  induction tasks generalizing row with
  | nil => trivial
  | cons task tasks ih =>
    rw [List.mem_cons, not_or] at quiet
    obtain ⟨other, quiet⟩ := quiet
    exact ⟨fun same => absurd same.symm other, ih quiet⟩

theorem awaits_append {read : List Kind} {row : List Form} {first second : List Task} :
    Awaits read row (first ++ second) ↔
      Awaits read row first ∧ Awaits read (row ++ forms first) second := by
  induction first generalizing row with
  | nil => simp [Awaits]
  | cons task first ih => simp only [List.cons_append, Awaits, ih, forms_cons, List.append_assoc, and_assoc]

/-- Reading on along a row leaves the values to be printed what they are. -/
theorem Awaits.reading {read more : List Kind} {before after others : List Form} {tasks : List Task}
    (sound : ∀ others rest, DerivesAll (after ++ others) rest →
      DerivesAll (before ++ others) (more ++ rest))
    (awaits : Awaits read (before ++ others) tasks) :
    Awaits (read ++ more) (after ++ others) tasks := by
  induction tasks generalizing others with
  | nil => trivial
  | cons task tasks ih =>
    obtain ⟨operand, later⟩ := awaits
    constructor
    · intro same
      obtain ⟨start, inside, rfl, closed⟩ := operand same
      refine ⟨start, inside ++ more, by rw [List.append_assoc, List.cons_append], ?_⟩
      intro rest derives
      rw [List.append_assoc]
      exact closed _ (sound others rest derives)
    · rw [List.append_assoc] at later ⊢
      exact ih later

/-- Where an analysis stands in the text: what it has read, and that its tasks can go on with what a
program can go on with there and with nothing else. -/
structure Stands (whole read : List Kind) (tasks : List Task) (state : State) : Prop where
  kinds : whole = read ++ state.kinds
  predictable : PredictableAll (forms tasks)
  sound : ∀ rest, DerivesAll (forms tasks) rest → Derives (.part .compilation) (read ++ rest)
  complete : ∀ rest, Derives (.part .compilation) (read ++ state.kind :: rest) →
    DerivesAll (forms tasks) (state.kind :: rest)
  awaits : Awaits read [] tasks

namespace Stands

variable {whole read : List Kind} {task : Task} {tasks later : List Task} {state after : State}

/-- An analysis begins with nothing read. -/
theorem start (state : State) : Stands state.kinds [] compilation state := by
  have reads (next : Kind) : Reads [.part .compilation] [] next (forms compilation) :=
    .part (.part (.part .stay))
  have whole : PredictableAll [.part .compilation] := ⟨trivial, by decide, trivial⟩
  refine ⟨rfl, (reads .endOfInput).predictable whole, fun rest derives => ?_, fun rest derives => ?_,
    Awaits.of_notMem (by decide)⟩
  · exact derivesAll_singleton.mp ((reads .endOfInput).sound derives)
  · exact (reads state.kind).complete whole (derivesAll_singleton.mpr derives)

/-- A step reads on, and a program can go on there just as the tasks can. -/
theorem step (stands : Stands whole read (task :: later) state)
    (inner : ∀ form ∈ task.forms, form.Inner) (step : task.step state = .go tasks after) :
    ∃ more, Stands whole (read ++ more) (tasks ++ later) after ∧
      ∀ form ∈ forms tasks, form.Inner := by
  obtain ⟨more, kinds, reads⟩ := (Task.step_go_iff.mp step).along inner
  have readsAll : Reads (forms (task :: later)) more after.kind (forms (tasks ++ later)) := by
    rw [forms_cons, forms_append]
    exact reads (forms later)
  have innerAfter : ∀ form ∈ forms tasks, form.Inner := by
    have last := (reads []).inner (by rwa [List.append_nil])
    rwa [List.append_nil] at last
  refine ⟨more, ⟨?_, readsAll.predictable stands.predictable, fun rest derives => ?_,
    fun rest derives => ?_, awaits_append.mpr ⟨?_, ?_⟩⟩, innerAfter⟩
  · rw [stands.kinds, kinds, List.append_assoc]
  · rw [List.append_assoc]
    exact stands.sound _ (readsAll.sound derives)
  · rw [List.append_assoc] at derives
    obtain ⟨others, same⟩ := (Step.Along.looks kinds).begins rest
    rw [same] at derives
    have atTasks := stands.complete others derives
    rw [← same] at atTasks
    exact readsAll.complete stands.predictable atTasks
  · by_cases member : .print ∈ tasks
    · obtain ⟨atPrint, others, same, quiet⟩ := Task.step_go_prints step member
      obtain ⟨rfl, rfl⟩ := Step.go.inj same
      have taken := State.kinds_advance atPrint (by decide)
      have only : more = [.kwPrint] := List.append_cancel_right (kinds.symm.trans taken)
      refine ⟨nofun, nofun, fun _ => ⟨read, [], by rw [only], fun rest derives => derives⟩, ?_⟩
      exact Awaits.of_notMem quiet
    · exact Awaits.of_notMem member
  · have sound (others : List Form) (rest : List Kind) (derives : DerivesAll (forms tasks ++ others) rest) :
        DerivesAll (task.forms ++ others) (more ++ rest) := (reads others).sound derives
    have awaits := stands.awaits.2
    rw [List.nil_append] at awaits ⊢
    rw [← List.append_nil (forms tasks)]
    rw [← List.append_nil task.forms] at awaits
    exact awaits.reading sound

/-- A stop is at a token that no program has there, or at a value that cannot be printed. -/
theorem stop {rejection : Rejection} (stands : Stands whole read (task :: later) state)
    (along : (Step.stop rejection after).Along state task.forms) :
    rejection.obstacle = .illegalPrintOperand ∨ ¬Viable (read ++ [state.kind]) := by
  obtain ⟨_, _, apart⟩ := along
  refine apart.imp_right ?_
  intro apart
  rintro ⟨rest, derives⟩
  rw [List.append_assoc] at derives
  exact apart (forms later) (stands.complete rest derives).mem_startsAll

theorem viable (stands : Stands whole read tasks state) : Viable read := by
  obtain ⟨rest, derives⟩ := derivesAll_productive (forms tasks)
  exact ⟨rest, stands.sound rest derives⟩

end Stands

/-- The tasks behind the last word of a program. -/
def closing : List Task := [.accept .endOfInput, .closeScope]

/-- The end of the input stands at the end and nowhere else. -/
def EndsOnce (whole : List Kind) : Prop :=
  ∃ inner, whole = inner ++ [.endOfInput] ∧ .endOfInput ∉ inner

theorem EndsOnce.last {read rest : List Kind} (ends : EndsOnce (read ++ .endOfInput :: rest)) :
    rest = [] := by
  obtain ⟨inner, same, apart⟩ := ends
  rcases List.append_eq_append_iff.mp same with ⟨middle, longer, tail⟩ | ⟨middle, shorter, tail⟩
  · cases middle with
    | nil => exact (List.cons.inj tail).2
    | cons first middle =>
      obtain ⟨rfl, _⟩ := List.cons.inj tail
      rw [longer] at apart
      exact absurd (List.mem_append_right _ List.mem_cons_self) apart
  · cases middle with
    | nil => exact (List.cons.inj tail).2.symm
    | cons first middle => simp at tail

theorem accept_go {kind : Kind} {state after : State} {tasks : List Task}
    (step : (Task.accept kind).step state = .go tasks after) : state.kind = kind ∧ tasks = [] := by
  rw [Task.step, State.require] at step
  split at step
  next same =>
    obtain ⟨rfl, _⟩ := Step.go.inj step
    exact ⟨same, rfl⟩
  next => cases step

/-- Before the end of the input an analysis stands in the text; behind it the text is a program and
nothing is left to do but to close the outermost scope. -/
theorem Reaches.stands {state after : State} {left : List Task} (ends : EndsOnce state.kinds)
    (reach : Reaches compilation state left after) :
    (∃ body read, left = body ++ closing ∧ (∀ form ∈ forms body, form.Inner) ∧
        Stands state.kinds read left after) ∨
      (Derives (.part .compilation) state.kinds ∧ ∀ task ∈ left, task = .closeScope) := by
  induction reach with
  | start => exact Or.inl ⟨.accept .kwProcedure :: subprogram, [], rfl, by decide, Stands.start state⟩
  | @step task tasks later before after _ step ih =>
    rcases ih with ⟨body, read, same, inner, stands⟩ | ⟨derives, closes⟩
    · cases body with
      | nil =>
        obtain ⟨rfl, rfl⟩ := List.cons.inj same
        obtain ⟨atEnd, rfl⟩ := accept_go step
        obtain ⟨rest, begins⟩ := before.kinds_begin
        have whole := stands.kinds
        rw [begins, atEnd] at whole
        rw [whole] at ends
        have derives := stands.sound _ (derivesAll_singleton.mpr (.word .endOfInput))
        rw [whole, ends.last]
        exact Or.inr ⟨derives, by simp⟩
      | cons first body =>
        obtain ⟨rfl, rfl⟩ := List.cons.inj same
        rw [forms_cons] at inner
        obtain ⟨atTask, atBody⟩ := List.forall_mem_append.mp inner
        obtain ⟨more, stands, atTasks⟩ := stands.step atTask step
        refine Or.inl ⟨tasks ++ body, read ++ more, (List.append_assoc ..).symm, ?_, stands⟩
        rw [forms_append]
        exact List.forall_mem_append.mpr ⟨atTasks, atBody⟩
    · obtain ⟨rfl, others⟩ := List.forall_mem_cons.mp closes
      obtain ⟨rfl, _⟩ := Step.go.inj step
      exact Or.inr ⟨derives, others⟩

/-- Where an analysis of a program ends: behind a program, or at a token that no program has there,
or at a value that cannot be printed. -/
theorem compile_stands (state : State) (ends : EndsOnce state.kinds) :
    ((compile state).rejection = none ∧ Derives (.part .compilation) state.kinds) ∨
      ∃ rejection task left before read, (compile state).rejection = some rejection ∧
        Reaches compilation state (task :: left) before ∧
        task.step before = .stop rejection (compile state).state ∧
        Stands state.kinds read (task :: left) before ∧
        (Step.stop rejection (compile state).state).Along before task.forms := by
  rcases run_reaches compilation state with
    ⟨finished, reach⟩ | ⟨task, left, before, rejection, reach, step, stopped⟩
  · rcases reach.stands ends with ⟨body, read, same, _⟩ | ⟨derives, _⟩
    · exact absurd same (by simp [closing])
    · exact Or.inl ⟨finished, derives⟩
  · refine Or.inr ⟨rejection, task, left, before, ?_⟩
    rcases reach.stands ends with ⟨_, read, _, _, stands⟩ | ⟨_, closes⟩
    · exact ⟨read, stopped, reach, step, stands, Task.stop_along step⟩
    · obtain ⟨rfl, _⟩ := List.forall_mem_cons.mp closes
      cases step

theorem endsOnce_ofScanner (scanner : Scanner) : EndsOnce (State.ofScanner scanner).kinds := by
  refine ⟨_, scanner.kinds_feed, ?_⟩
  intro member
  obtain ⟨token, member, same⟩ := List.mem_map.mp member
  exact Scanner.kind_of_mem_tokens member same

/-- Whenever a value is to be printed, it is known. -/
def PrintsKnown (state : State) : Prop :=
  ∀ left point, Reaches compilation state (.print :: left) point → point.value.isSome = true

/-- An analysis goes through exactly for the programs of the grammar, unless a value cannot be
printed; it never misses a word in a program. -/
theorem compile_exact (reader : Reader) :
    let scanner := Scanner.ofReader reader
    let start := State.ofScanner scanner
    let rejection := (compile start).rejection
    let sentence := Derives (.part .compilation) scanner.kinds
    (rejection = none → sentence) ∧
      (sentence → rejection = none ∨ ∃ token, rejection = some ⟨token, .illegalPrintOperand⟩) ∧
      (¬sentence → rejection ≠ none) ∧
      (PrintsKnown start → (rejection = none ↔ sentence)) := by
  intro scanner start rejection sentence
  have whole : start.kinds = scanner.kinds := scanner.kinds_feed
  rcases compile_stands start (endsOnce_ofScanner scanner) with
    ⟨finished, derives⟩ | ⟨stop, task, left, before, read, stopped, reach, step, stands, along⟩
  · rw [whole] at derives
    exact ⟨fun _ => derives, fun _ => Or.inl finished, fun other => absurd derives other,
      fun _ => ⟨fun _ => derives, fun _ => finished⟩⟩
  · have unfinished : rejection ≠ none := by
      intro finished
      cases stopped.symm.trans finished
    have illegal (derives : sentence) : stop.obstacle = .illegalPrintOperand := by
      refine (stands.stop along).resolve_right fun dead => dead ?_
      obtain ⟨rest, begins⟩ := before.kinds_begin
      refine ⟨rest, ?_⟩
      rw [List.append_assoc, List.singleton_append, ← begins, ← stands.kinds, whole]
      exact derives
    refine ⟨fun finished => absurd finished unfinished, fun derives => Or.inr ⟨stop.token, ?_⟩,
      fun _ => unfinished, fun known => ⟨fun finished => absurd finished unfinished, fun derives => ?_⟩⟩
    · rw [← illegal derives]
      exact stopped
    · obtain ⟨rfl, unknown⟩ := Task.step_illegal step (illegal derives)
      have value := known left before reach
      rw [unknown] at value
      cases value

/-- An analysis stops at the first token that no program has there: what it has read can still be
completed to a program, and with the offending token it cannot. Where a value cannot be printed, its
expression has just been read. -/
theorem compile_earliest (reader : Reader) (rejection : Rejection)
    (stopped : (compile (.ofScanner (.ofReader reader))).rejection = some rejection) :
    let last := (compile (.ofScanner (.ofReader reader))).state
    ∃ read later, (Scanner.ofReader reader).kinds = read ++ last.kinds ∧
      last.token = rejection.token ∧ last.kinds = rejection.token.kind :: later ∧ Viable read ∧
      match rejection.obstacle with
      | .expected _ => ¬Viable (read ++ [rejection.token.kind])
      | .illegalPrintOperand => ∃ before operand,
        read = before ++ .kwPrint :: .leftParen :: operand ∧ Derives (.part .expression) operand := by
  intro last
  have whole : (State.ofScanner (.ofReader reader)).kinds = (Scanner.ofReader reader).kinds :=
    Scanner.kinds_feed _
  rcases compile_stands _ (endsOnce_ofScanner (.ofReader reader)) with
    ⟨finished, _⟩ | ⟨_, task, left, before, read, same, reach, step, stands, along⟩
  · cases stopped.symm.trans finished
  · obtain rfl := Option.some.inj (stopped.symm.trans same)
    have ⟨feed, token, _⟩ := along
    obtain ⟨rest, begins⟩ := before.kinds_begin
    have kinds : last.kinds = before.kinds := (State.kinds_of_feed feed).1
    have atToken : before.kind = rejection.token.kind := congrArg Token.kind token.symm
    refine ⟨read, rest, ?_, ?_, ?_, stands.viable, ?_⟩
    · rw [kinds, ← whole]
      exact stands.kinds
    · exact (congrArg Feed.token feed).trans token.symm
    · rw [kinds, begins, atToken]
    · cases illegal : rejection.obstacle with
      | expected expectation =>
        have dead := (stands.stop along).resolve_left (by rw [illegal]; nofun)
        rwa [atToken] at dead
      | illegalPrintOperand =>
        obtain ⟨rfl, _⟩ := Task.step_illegal step illegal
        obtain ⟨start, inside, atPrint, closed⟩ := stands.awaits.1 rfl
        obtain ⟨paren, operand, same, atParen, atOperand⟩ := derivesAll_cons.mp (closed [] .nil)
        cases atParen
        rw [List.append_nil] at same
        rw [same] at atPrint
        exact ⟨start, operand, atPrint, derivesAll_singleton.mp atOperand⟩

/-- A program that breaks off behind `print`, and one whose operand is not known. -/
theorem compile_earliest_at_print :
    (∃ read, (Scanner.ofReader (.ofLines ["procedure p is begin print"])).kinds =
        read ++ [.endOfInput] ∧ Viable read ∧ ¬Viable (read ++ [.endOfInput])) ∧
      ∃ before operand, (Scanner.ofReader (.ofLines ["procedure p is begin print (q);"])).kinds =
        before ++ .kwPrint :: .leftParen :: operand ++ [.rightParen, .semicolon, .endOfInput] ∧
        Derives (.part .expression) operand := by
  constructor
  · obtain ⟨read, later, kinds, _, _, viable, dead⟩ := compile_earliest
      (.ofLines ["procedure p is begin print"]) ⟨⟨.endOfInput, "", 1, 0⟩, .expected (.token .leftParen)⟩
      (by decide +kernel)
    refine ⟨read, ?_, viable, dead⟩
    rw [kinds]
    exact congrArg (read ++ ·) (by decide +kernel)
  · obtain ⟨read, later, kinds, _, _, _, before, operand, rfl, derives⟩ := compile_earliest
      (.ofLines ["procedure p is begin print (q);"]) ⟨⟨.rightParen, ")", 1, 31⟩, .illegalPrintOperand⟩
      (by decide +kernel)
    refine ⟨before, operand, ?_, derives⟩
    rw [kinds]
    exact congrArg (before ++ .kwPrint :: .leftParen :: operand ++ ·) (by decide +kernel)

end AdaFront.Analysis
