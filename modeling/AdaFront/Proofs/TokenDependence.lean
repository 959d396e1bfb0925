import AdaFront.Proofs.Parallel
import AdaFront.Proofs.ScopeDiscipline

namespace AdaFront

open AdaFront.Tree (Lexeme)

theorem TableError.rename_id (error : TableError) : error.rename id = error := by
  cases error <;> rfl

/-- Messages name no places. -/
theorem Rejection.message_recast (rejection : Rejection) :
    (rejection.recast id).message = rejection.message := by
  obtain ⟨⟨kind, lexeme, line, column⟩, obstacle⟩ := rejection
  rw [recast, renameWord_id]
  rfl

theorem Diagnostic.message_recast (diagnostic : Diagnostic) :
    (diagnostic.recast id).message = diagnostic.message := by
  cases diagnostic with
  | name error => exact congrArg TableError.message error.rename_id
  | rejected rejection => exact rejection.message_recast
  | _ => rfl

theorem Effect.messages_recast (effects : List Effect) :
    ((effects.map (Effect.recast id)).filterMap Effect.diagnostic?).map Diagnostic.message =
      (effects.filterMap Effect.diagnostic?).map Diagnostic.message := by
  induction effects with
  | nil => rfl
  | cons effect effects ih =>
    cases effect with
    | printed => exact ih
    | remark diagnostic =>
      exact congrArg₂ List.cons diagnostic.message_recast ih

theorem Effect.lines_recast (image : String → String) (effects : List Effect) :
    (effects.map (Effect.recast image)).filterMap Effect.line? = effects.filterMap Effect.line? := by
  induction effects with
  | nil => rfl
  | cons effect effects ih =>
    cases effect with
    | printed value => exact congrArg (toString value :: ·) ih
    | remark => exact ih

/-- The scanner at the beginning of a text. -/
def Scanner.ofLines (lines : List String) : Scanner :=
  .ofReader (.ofLines lines)

namespace Analysis

/-- The first analysis of a text. -/
def analyse (lines : List String) : Outcome :=
  compile (.ofScanner (.ofLines lines))

/-- The messages of an analysis about the program, in their order. -/
def Outcome.messages (outcome : Outcome) : List String :=
  (outcome.state.journal.diagnostics.filter Diagnostic.ofProgram).map Diagnostic.message

def Outcome.errors (outcome : Outcome) : Nat :=
  outcome.state.journal.errors

/-- Two analyses that show the same: they end in the same way at tokens of the same kind and lexeme, with
the same table, the same output and the same messages. -/
structure Outcome.Alike (one other : Outcome) : Prop where
  finished : one.rejection = none → other.rejection = none
  stopped {rejection : Rejection} : one.rejection = some rejection →
    ∃ rejection', other.rejection = some rejection' ∧ rejection'.obstacle = rejection.obstacle ∧
      rejection'.token.word = rejection.token.word ∧ rejection'.message = rejection.message
  table : other.state.table = one.state.table
  output (sink diagnostics diagnostics' : Sink) (verbose verbose' : Bool) :
    (other.state.journal.deliver ⟨diagnostics', sink⟩ verbose').output =
      (one.state.journal.deliver ⟨diagnostics, sink⟩ verbose).output
  messages : other.messages = one.messages

theorem run_rejection {tasks : List Task} {start : State} {rejection : Rejection}
    (stopped : (run tasks start).rejection = some rejection) :
    rejection.token = (run tasks start).state.token := by
  obtain ⟨_, _, before, _, step, refused⟩ := run_stopped stopped
  rw [refused]
  exact (Task.step_stop_eq step).1

theorem Parallel.alike {later later' : List Lexeme} {one other : Outcome}
    (rejections : other.rejection.map (Rejection.recast id) = one.rejection.map (Rejection.recast id))
    (parallel : Parallel id later later' one.state other.state) : one.Alike other where
  finished none := by
    rw [none, Option.map_none] at rejections
    exact Option.map_eq_none_iff.mp rejections
  stopped {rejection} some := by
    rw [some, Option.map_some] at rejections
    obtain ⟨rejection', same, recast⟩ := Option.map_eq_some_iff.mp rejections
    have words := congrArg (·.token.word) recast
    have obstacles := congrArg Rejection.obstacle recast
    have messages := congrArg Rejection.message recast
    rw [Rejection.message_recast, Rejection.message_recast] at messages
    simp only [Rejection.recast, renameWord_id] at words
    exact ⟨rejection', same, obstacles, words, messages⟩
  table := parallel.table.trans (Table.rename_id _)
  output sink diagnostics diagnostics' verbose verbose' := by
    have lines (state : State) : state.journal.reverse.flatMap Event.outputLines =
        (state.effects.map (Effect.recast id)).filterMap Effect.line? :=
      state.journal.outputLines_effects.trans (Effect.lines_recast id _).symm
    rw [Journal.output_deliver, Journal.output_deliver, lines, lines, parallel.effects]
  messages := by
    rw [Outcome.messages, Outcome.messages, Journal.diagnostics_effects, Journal.diagnostics_effects]
    refine (Effect.messages_recast _).symm.trans (Eq.trans ?_ (Effect.messages_recast _))
    exact congrArg (List.map Diagnostic.message <| List.filterMap Effect.diagnostic? ·) parallel.effects

theorem errors_of_follows {outcome : Outcome} {text : Scanner} {read later : List Lexeme} {stop : Lexeme}
    (follows : outcome.state.Follows text) (whole : text.words = read ++ stop :: later)
    (words : outcome.state.words = stop :: later) :
    outcome.errors = outcome.messages.length + text.unknowns (read.length + 1) := by
  rw [Outcome.errors, Journal.errors_eq, Outcome.messages, List.length_map,
    follows.unknowns whole words]

theorem word_of_end {text : Scanner} {word : Lexeme} (inside : word ∈ text.words)
    (atEnd : word.1 = .endOfInput) : word = (.endOfInput, "") := by
  rcases List.mem_append.mp inside with atTokens | last
  · obtain ⟨token, member, rfl⟩ := List.mem_map.mp atTokens
    exact absurd atEnd (Scanner.kind_of_mem_tokens member)
  · exact List.mem_singleton.mp last

/-- Analyses of texts whose tokens agree up to a point, but for names, begin side by side if the predefined
names are the same. -/
theorem parallel_begin {image : String → String} {one other : List String} {first : Lexeme}
    {read later later' : List Lexeme} (predefined : Table.predefined.rename image = Table.predefined)
    (whole : (Scanner.ofLines one).words = first :: read ++ later)
    (whole' : (Scanner.ofLines other).words = (first :: read).map (renameWord image) ++ later') :
    Parallel image later later' (.ofScanner (.ofLines one)) (.ofScanner (.ofLines other)) where
  words := ⟨first, read, (Scanner.words_feed _).trans whole, (Scanner.words_feed _).trans whole'⟩
  scanned := ⟨endsOnce_ofScanner _, Scanner.feed_searched _⟩
  scanned' := ⟨endsOnce_ofScanner _, Scanner.feed_searched _⟩
  table := predefined.symm
  value := rfl
  group := rfl
  effects := by
    rw [Scanner.ofLines, Scanner.ofLines, State.effects_ofLines, State.effects_ofLines]
    rfl

theorem parallel_start {one other : List String} {read later later' : List Lexeme} {stop : Lexeme}
    (whole : (Scanner.ofLines one).words = read ++ stop :: later)
    (whole' : (Scanner.ofLines other).words = read ++ stop :: later') :
    Parallel id later later' (.ofScanner (.ofLines one)) (.ofScanner (.ofLines other)) := by
  have begins : ∃ first others, read ++ [stop] = first :: others := by
    cases read with
    | nil => exact ⟨stop, [], rfl⟩
    | cons first read => exact ⟨first, read ++ [stop], rfl⟩
  obtain ⟨first, others, same⟩ := begins
  rw [← List.singleton_append, ← List.append_assoc, same] at whole whole'
  refine parallel_begin (Table.rename_id _) whole ?_
  rw [funext renameWord_id, List.map_id']
  exact whole'

/-- What an analysis comes to hangs on the tokens up to the one that it ends at, and on nothing else of the
text: texts with the same tokens that far, wherever they stand and whatever follows, come to the same
end. Only unknown symbols among these tokens are counted as errors of their own. -/
theorem compile_depends (one : List String) :
    let text := Scanner.ofLines one
    let outcome := analyse one
    ∃ read stop later, text.words = read ++ stop :: later ∧ outcome.state.words = stop :: later ∧
      (outcome.rejection = none → stop = (.endOfInput, "")) ∧
      (∀ rejection, outcome.rejection = some rejection → rejection.token.word = stop) ∧
      outcome.errors = outcome.messages.length + text.unknowns (read.length + 1) ∧
      ∀ other later', (Scanner.ofLines other).words = read ++ stop :: later' →
        (analyse other).state.words = stop :: later' ∧ outcome.Alike (analyse other) ∧
        (analyse other).errors =
          (analyse other).messages.length + (Scanner.ofLines other).unknowns (read.length + 1) := by
  intro text outcome
  have follows (lines : List String) : (analyse lines).state.Follows (.ofLines lines) :=
    (State.Follows.invariant _).run (State.Follows.start _)
  obtain ⟨read, whole⟩ := (follows one).words
  obtain ⟨later, words⟩ := outcome.state.feed.words_begin
  have whole : text.words = read ++ outcome.state.token.word :: later :=
    whole.trans (congrArg (read ++ ·) words)
  refine ⟨read, outcome.state.token.word, later, whole, words, fun finished => ?_,
    fun rejection stopped => congrArg Token.word (run_rejection stopped),
    errors_of_follows (follows one) whole words, fun other later' whole' => ?_⟩
  · obtain ⟨_, atEnd, _⟩ := (sound_ofScanner text).compile_finished finished
    exact word_of_end (whole ▸ List.mem_append_right _ List.mem_cons_self) atEnd
  · have bound : later.length ≤ outcome.state.left := by
      have length := outcome.state.feed.length_words
      rw [words, List.length_cons] at length
      exact Nat.le_of_eq (Nat.succ.inj length)
    obtain ⟨rejections, parallel⟩ :=
      (parallel_start whole whole').run Function.injective_id compilation bound
    have words' : (analyse other).state.words = outcome.state.token.word :: later' := by
      obtain ⟨first, others, same, same'⟩ := parallel.words
      obtain ⟨atFirst, nothing⟩ := List.cons.inj (words.symm.trans same)
      rw [List.append_left_eq_self.mp nothing.symm, ← atFirst] at same'
      exact same'.trans (congrArg (· :: later') (renameWord_id _))
    exact ⟨words', Parallel.alike rejections parallel, errors_of_follows (follows other) whole' words'⟩

end Analysis

end AdaFront
