import AdaFront.Proofs.Deliveries
import AdaFront.Proofs.Finality

namespace AdaFront

/-- An error about an identifier: nothing is declared under it, it is declared already, or its role does not
fit. -/
def Diagnostic.isOfName : Diagnostic → Bool
  | .name (.undeclared _) | .name (.duplicate _) | .roleMismatch _ => true
  | _ => false

/-- The digits before the first colon of an echo are the number of its line. -/
theorem echo_digits (number : Nat) (text : String) :
    ((echo number text).toList.takeWhile (· ≠ ':')).filter Char.isDigit = Nat.toDigits 10 number := by
  have digits : ∀ c ∈ Nat.toDigits 10 number, c.isDigit = true := fun _ =>
    Nat.isDigit_of_mem_toDigits (by decide) (by decide)
  have before : ∀ c ∈ '#' :: (List.replicate (2 - (toString number).length) ' ' ++ Nat.toDigits 10 number),
      decide (c ≠ ':') = true := by
    intro c member
    refine decide_eq_true fun colon => ?_
    subst colon
    rcases List.mem_cons.mp member with hash | inside
    · cases hash
    rcases List.mem_append.mp inside with space | digit
    · cases List.eq_of_mem_replicate space
    · cases digits _ digit
  have shape : (echo number text).toList =
      '#' :: (List.replicate (2 - (toString number).length) ' ' ++ Nat.toDigits 10 number) ++
        ':' :: ' ' :: (Text.trimmedEnd text).toList := by
    simp [echo, Text.padLeft, Text.spaces]
  have spaces : (List.replicate (2 - (toString number).length) ' ').filter Char.isDigit = [] :=
    List.filter_eq_nil_iff.mpr fun c member => by
      rw [List.eq_of_mem_replicate member]
      decide
  rw [shape, List.takeWhile_append_of_pos before, List.takeWhile_cons_of_neg (by simp), List.append_nil,
    List.filter_cons_of_neg (by decide), List.filter_append, spaces, List.nil_append,
    List.filter_eq_self.mpr digits]

theorem echo_number {number other : Nat} {text line : String} (same : echo number text = echo other line) :
    number = other := by
  rw [← Text.toString_nat_inj, Text.toString_nat, Text.toString_nat, ← echo_digits number text, same,
    echo_digits]

/-- Above an error a quiet run shows the line of the token that was found last, unless all lines have been
read. -/
theorem Token.Placed.shown {lines : List String} {token : Token} {spot : Spot}
    (placed : token.Placed lines spot) (diagnostic : Diagnostic) :
    (∃ line, lines[token.line - 1]? = some line ∧ token.column ≠ 0 ∧
      (Event.reported spot diagnostic).diagnosticLines false =
        [echo token.line line, marked token.column diagnostic.message]) ∨
    token = ⟨.endOfInput, "", lines.length, 0⟩ ∧
      (Event.reported spot diagnostic).diagnosticLines false = [marked token.column diagnostic.message] := by
  obtain ⟨above, report, _, quiet⟩ := placed.reported diagnostic false
  rcases quiet rfl with ⟨line, found, _, inner, rfl⟩ | ⟨behind, rfl⟩
  · exact Or.inl ⟨line, found, inner, report⟩
  · exact Or.inr ⟨behind, report⟩

namespace Analysis

/-- An error about the identifier at a point stands at the token behind it. A quiet run shows the line of that
token above the error, which is the identifier's own line only if both stand in the same one. -/
structure State.ShowsBehind (lines : List String) (point : State) (spot : Spot) (diagnostic : Diagnostic) :
    Prop where
  atName : point.kind = .identifier
  behind : spot = point.advance.feed.spot
  name : ∀ error, diagnostic = .name error → ∀ name ∈ error.name?, name = point.token.lexeme
  role : ∀ use, diagnostic = .roleMismatch use → point.find.2.Misuses point.find.1 use
  shown : (∃ line, lines[point.advance.token.line - 1]? = some line ∧
      (Event.reported spot diagnostic).diagnosticLines false =
        [echo point.advance.token.line line, marked point.advance.token.column diagnostic.message]) ∨
    point.advance.token = ⟨.endOfInput, "", lines.length, 0⟩ ∧
      (Event.reported spot diagnostic).diagnosticLines false = [marked 0 diagnostic.message]
  own : ∃ line before behind, point.token.InLine lines line before behind point.feed.spot ∧
    ((Event.reported spot diagnostic).diagnosticLines false =
        [echo point.token.line line, marked point.advance.token.column diagnostic.message] ↔
      point.advance.token.line = point.token.line ∧ point.advance.token.column ≠ 0)

theorem State.ShowsBehind.ofPlaced {lines : List String} {point : State} {diagnostic : Diagnostic}
    (placed : point.feed.Placed lines) (atName : point.kind = .identifier)
    (name : ∀ error, diagnostic = .name error → ∀ name ∈ error.name?, name = point.token.lexeme)
    (role : ∀ use, diagnostic = .roleMismatch use → point.find.2.Misuses point.find.1 use) :
    point.ShowsBehind lines point.advance.feed.spot diagnostic := by
  have inner : point.token.kind ≠ .endOfInput := fun last => Kind.noConfusion (atName.symm.trans last)
  obtain ⟨line, before, behind, inLine⟩ := placed.token.inLine inner
  have next : point.advance.token.Placed lines point.advance.feed.spot := placed.advance.token
  refine ⟨atName, rfl, name, role, ?_, line, before, behind, inLine, ?_⟩
  · rcases next.shown diagnostic with ⟨line, found, _, shown⟩ | ⟨last, shown⟩
    · exact Or.inl ⟨line, found, shown⟩
    · rw [last] at shown ⊢
      exact Or.inr ⟨rfl, shown⟩
  · rcases next.shown diagnostic with ⟨line', found, column, shown⟩ | ⟨last, shown⟩
    · rw [shown]
      constructor
      · intro same
        exact ⟨echo_number (List.cons.inj same).1, column⟩
      · rintro ⟨same, _⟩
        rw [same] at found ⊢
        rw [Option.some.inj (found.symm.trans inLine.found)]
    · rw [shown]
      constructor
      · intro same
        exact absurd (congrArg List.length same) (by simp)
      · rintro ⟨_, column⟩
        rw [last] at column
        exact absurd rfl column

/-- The task learns about a bare name that has been looked up right before it. -/
def Task.Follows (task : Task) (point state : State) : Prop :=
  point.kind = .identifier ∧ state = point.find.2 ∧
    task ∈ [.assignOrCall point.find.1 false, .operand point.find.1 false]

theorem Deed.apart_or_bare {state after : State} {task : Task} {tasks : List Task}
    (deed : Deed state task tasks after) :
    Apart tasks ∨ ∃ last later, tasks = last :: later ∧ Apart later ∧ last.Follows state after := by
  cases deed with
  | bare atName among apart => exact Or.inr ⟨_, _, rfl, apart, atName, rfl, among⟩
  | stay apart | advance apart | listed _ apart | begins _ apart | indexed _ apart | target apart | call apart
  | setRole _ apart | constant apart => exact Or.inl apart
  | declare | name | operand | setConstant | assign | forget | literal | combine | print | openScope
  | closeScope => exact Or.inl apart_nil

/-- Only the next task goes on behind a bare name, and it does so where the name has been looked up. -/
theorem Reaches.apart_or_bare {tasks left : List Task} {start state : State} (apart : Apart tasks)
    (reach : Reaches tasks start left state) :
    Apart left ∨ ∃ task later before point, left = task :: later ∧ Apart later ∧
      Reaches tasks start before point ∧ task.Follows point state := by
  induction reach with
  | start => exact Or.inl apart
  | @step task done later before after reach step ih =>
    have rest : Apart later := by
      rcases ih with all | ⟨_, _, _, _, same, rest, _⟩
      · exact fun task member => all task (List.mem_cons_of_mem _ member)
      · exact (List.cons.inj same).2 ▸ rest
    rcases (Task.step_go_deed step).apart_or_bare with first | ⟨last, inside, rfl, first, follows⟩
    · exact Or.inl (first.append rest)
    · exact Or.inr ⟨last, inside ++ later, _, before, rfl, first.append rest, reach, follows⟩

theorem Reaches.point_of_bare {tasks later : List Task} {task : Task} {start state : State}
    (apart : Apart tasks) (reach : Reaches tasks start (task :: later) state) (bare : task.atBareName = true) :
    ∃ before point, Reaches tasks start before point ∧ task.Follows point state := by
  rcases reach.apart_or_bare apart with all | ⟨_, _, before, point, same, _, reached, follows⟩
  · rw [all task List.mem_cons_self] at bare
    cases bare
  · obtain ⟨rfl, _⟩ := List.cons.inj same
    exact ⟨before, point, reached, follows⟩

/-- A task that goes on behind a name and a list in parentheses. -/
def Task.atIndexedName : Task → Bool
  | .assignOrCall _ true | .operand _ true => true
  | _ => false

theorem Task.atName_cases {task : Task} {name : Option EntryId} {indexed : Bool}
    (among : task ∈ [.assignOrCall name indexed, .operand name indexed]) :
    task.atIndexedName = true ∨ task.atBareName = true := by
  simp only [List.mem_cons, List.not_mem_nil, or_false] at among
  obtain rfl | rfl := among <;> cases indexed <;> simp [Task.atIndexedName, Task.atBareName]

theorem Task.name_of_mem {task : Task} {name other : Option EntryId} {indexed : Bool}
    (known : task ∈ [.assignOrCall name indexed, .operand name indexed])
    (bare : task ∈ [.assignOrCall other false, .operand other false]) : name = other := by
  simp only [List.mem_cons, List.not_mem_nil, or_false] at known bare
  obtain rfl | rfl := known <;> obtain same | same := bare <;> cases same <;> rfl

/-- All that an analysis adds, the error that ends it apart, is added by a task that it goes on with. -/
theorem compile_adds {start : State} (searched : start.feed.Searched) :
    start.Extends (fun event => event.isFatal = true ∨ Origin compilation start event)
      (compile start).state := by
  have added {left : List Task} {state : State} (reach : Reaches compilation start left state) :=
    (reach.adds searched).mono fun event origin =>
      (Or.inr origin : event.isFatal = true ∨ Origin compilation start event)
  cases ending : (compile start).rejection with
  | none =>
    exact added (run_finished ending)
  | some rejection =>
    obtain ⟨_, _, before, reach, _, refused⟩ := run_stopped ending
    exact (added reach).trans (.report (Or.inl rfl) (congrArg State.journal refused))

/-- An error about an identifier, one about a name with a list behind it apart, is shown with the line of the
token behind the identifier, which need not be the identifier's own. The identifier was the current token where
the task that reports stands, or at the point right before that. -/
theorem compile_shows_behind (lines : List String) (earlier : Journal) (skipped calls : Nat) :
    let text := (Scanner.ofReader { Reader.ofLines lines with journal := earlier }).nextMany skipped
    let start := again calls (.ofScanner text)
    ∃ newer, (compile start).state.journal = newer ++ start.journal ∧
      ∀ spot diagnostic, .reported spot diagnostic ∈ newer → diagnostic.isOfName = true →
        ∃ task later state, Reaches compilation start (task :: later) state ∧
          (∃ added, (task.step state).state.journal = added ++ state.journal ∧
            .reported spot diagnostic ∈ added) ∧
          (task.atIndexedName = true ∧ (∃ use, diagnostic = .roleMismatch use) ∨
            ∃ before point, Reaches compilation start before point ∧
              (point = state ∨ task.Follows point state) ∧ point.ShowsBehind lines spot diagnostic) := by
  intro text start
  have searched : start.feed.Searched := again_searched text calls
  have placed {left : List Task} {point : State} (reach : Reaches compilation start left point) :
      point.feed.Placed lines :=
    (invariant_placed lines).reaches reach (again_placed lines earlier skipped calls)
  obtain ⟨newer, journal, each⟩ := compile_adds searched
  refine ⟨newer, journal, fun spot diagnostic member ofName => ?_⟩
  rcases each _ member with fatal | ⟨task, later, state, added, reach, same, among, adds⟩
  · cases diagnostic with
    | rejected => cases ofName
    | _ => cases fatal
  refine ⟨task, later, state, reach, ⟨added, same, among⟩, ?_⟩
  cases adds with
  | search scanning => cases scanning; cases ofName
  | name atName about =>
    refine Or.inr ⟨_, state, reach, Or.inl rfl, .ofPlaced (placed reach) atName ?_ nofun⟩
    rintro _ ⟨⟩
    exact about
  | mismatch atName misused =>
    refine Or.inr ⟨_, state, reach, Or.inl rfl, .ofPlaced (placed reach) atName nofun ?_⟩
    rintro _ ⟨⟩
    exact misused
  | @behind name indexed use known misused =>
    rcases Task.atName_cases known with list | bare
    · exact Or.inl ⟨list, use, rfl⟩
    · obtain ⟨before, point, reached, follows⟩ := reach.point_of_bare (by decide) bare
      have same : name = point.find.1 := Task.name_of_mem known follows.2.2
      refine Or.inr ⟨before, point, reached, Or.inr follows, ?_⟩
      rw [follows.2.1, same] at misused
      rw [follows.2.1, point.feed_find]
      refine .ofPlaced (placed reached) follows.1 nofun ?_
      rintro _ ⟨⟩
      exact misused
  | arithmetic known =>
    simp only [List.mem_cons, List.not_mem_nil, or_false] at known
    obtain rfl | rfl := known <;> cases ofName
  | silent quiet => cases quiet

/-- In the run over a source the start is the one behind the count of its lines. -/
example (source : String) :
    let lines := Text.lines source
    Compilation.begin source = again 0 (.ofScanner
      ((Scanner.ofReader { Reader.ofLines lines with journal := [.started lines.length] }).nextMany 0)) :=
  rfl

/-- The identifier stands on the line before the one that is shown. -/
theorem compile_shows_other_line :
    let compilation := Compilation.ofSource "procedure p is\nbegin\n  y\n  ;\nend p;"
    compilation.journal.linesOn false .diagnostics =
        ["# 4:   ;", "        E: undeclared identifier `y`", "1 error reported"] ∧
      (Compilation.begin "procedure p is\nbegin\n  y\n  ;\nend p;").feed.tokens.filter (·.lexeme = "y") =
        [⟨.identifier, "y", 3, 4⟩] := by
  decide +kernel

end Analysis

end AdaFront
