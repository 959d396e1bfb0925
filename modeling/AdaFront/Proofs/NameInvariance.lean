import Mathlib.Data.List.TakeWhile
import Mathlib.Logic.Equiv.Basic
import AdaFront.Proofs.Additions
import AdaFront.Proofs.Identifiers
import AdaFront.Proofs.TextLines
import AdaFront.Proofs.TokenDependence

namespace AdaFront

open AdaFront.Tree (Lexeme)

/-- A message with an image in place of what it quotes. -/
def requote (image : String → String) (message : String) : String :=
  let before := message.toList.takeWhile (· ≠ quotationMark)
  match message.toList.drop before.length with
  | [] => message
  | mark :: behind =>
    let quoted := behind.takeWhile (· ≠ quotationMark)
    String.ofList before ++ String.singleton mark ++ image (String.ofList quoted) ++
      String.ofList (behind.drop quoted.length)

section

variable {image : String → String}

theorem takeWhile_to_mark {chars others : List Char} (plain : quotationMark ∉ chars) :
    (chars ++ quotationMark :: others).takeWhile (· ≠ quotationMark) = chars := by
  have all : ∀ c ∈ chars, decide (c ≠ quotationMark) = true := fun c member =>
    decide_eq_true fun same => plain (same ▸ member)
  rw [List.takeWhile_append_of_pos all, List.takeWhile_cons_of_neg (by simp), List.append_nil]

theorem requote_plain {message : String} (plain : quotationMark ∉ message.toList) :
    requote image message = message := by
  have all : message.toList.takeWhile (· ≠ quotationMark) = message.toList :=
    List.takeWhile_eq_self_iff.mpr fun c member => decide_eq_true fun same => plain (same ▸ member)
  rw [requote, all, List.drop_length]

theorem requote_quoted {opening closing : String} (before name after : String)
    (opens : opening = before ++ "`") (closes : closing = "`" ++ after)
    (plain : quotationMark ∉ before.toList) (quotable : quotationMark ∉ name.toList) :
    requote image (opening ++ name ++ closing) = opening ++ image name ++ closing := by
  have whole : (opening ++ name ++ closing).toList =
      before.toList ++ quotationMark :: (name.toList ++ quotationMark :: after.toList) := by
    simp [opens, closes, quotationMark]
  rw [requote, whole, takeWhile_to_mark plain, List.drop_left]
  dsimp only
  rw [takeWhile_to_mark quotable, List.drop_left]
  apply String.toList_injective
  simp [opens, closes, quotationMark]

end

/-- Whatever a diagnostic quotes is one of the words. -/
def Diagnostic.Quotes (words : List Lexeme) : Diagnostic → Prop
  | .name error => ∀ name ∈ error.name?, (.identifier, name) ∈ words
  | .rejected rejection => rejection.token.word ∈ words
  | .roleMismatch _ | .divisionByZero | .overflow => True
  | .unknownSymbol _ | .remark _ => False

def Effect.Quotes (words : List Lexeme) : Effect → Prop
  | .remark diagnostic => diagnostic.Quotes words
  | .printed _ => True

theorem plain_append {one other : String} (first : quotationMark ∉ one.toList)
    (second : quotationMark ∉ other.toList) : quotationMark ∉ (one ++ other).toList := by
  rw [String.toList_append]
  exact List.not_mem_append first second

/-- Spellings stand between other marks than names. -/
theorem Kind.plain_description (kind : Kind) : quotationMark ∉ kind.description.toList := by
  have spelling : quotationMark ∉ (kind.spelling?.getD "?").toList := by
    cases spelled : kind.spelling? with
    | none => decide
    | some text => exact (kind.quotable_spelling text spelled).plain
  unfold description
  split
  case h_4 => exact plain_append (plain_append (by decide) spelling) (by decide)
  all_goals decide

theorem Expectation.plain_description (expectation : Expectation) :
    quotationMark ∉ expectation.description.toList := by
  cases expectation with
  | token kind => exact kind.plain_description
  | _ => decide

theorem plain_nat (number : Nat) : quotationMark ∉ (toString number).toList := by
  rw [Text.toString_nat, String.toList_ofList]
  intro member
  have digit := Nat.isDigit_of_mem_toDigits (by decide) (by decide) member
  cases digit

theorem Token.description_of {token : Token} (inner : token.kind ≠ .endOfInput) :
    token.description = "`" ++ token.lexeme ++ "`" := by
  unfold description
  split
  next ended => exact absurd ended inner
  next => rfl

/-- Only identifiers are other words than their images. -/
theorem Quotable.renamed {image : String → String} {word : Lexeme} (quotable : Quotable word)
    (others : ∀ text, ¬IsIdentifier text → image text = text) :
    renameWord image word = (word.1, image word.2) := by
  by_cases name : word.1 = .identifier
  · exact renameWord_of_name image name
  · rw [renameWord_of_other image name, others _ (quotable.identifier.not.mp name)]

section

variable {image : String → String} {words : List Lexeme} (quotable : ∀ word ∈ words, Quotable word)

include quotable

theorem TableError.message_rename (error : TableError)
    (quotes : ∀ name ∈ error.name?, (.identifier, name) ∈ words) :
    (error.rename image).message = requote image error.message := by
  have plain {name : String} (known : error.name? = some name) : quotationMark ∉ name.toList :=
    (quotable _ (quotes name known)).plain
  cases error with
  | duplicate name =>
    change "identifier `" ++ image name ++ "` already declared in this block" = requote image (_ ++ _ ++ _)
    exact (requote_quoted "identifier " name " already declared in this block" (by decide) (by decide)
      (by decide) (plain rfl)).symm
  | undeclared name =>
    change "undeclared identifier `" ++ image name ++ "`" = requote image (_ ++ _ ++ _)
    exact (requote_quoted "undeclared identifier " name "" (by decide) (by decide) (by decide)
      (plain rfl)).symm
  | noOpenScope name =>
    change "no open scope to declare `" ++ image name ++ "` in" = requote image (_ ++ _ ++ _)
    exact (requote_quoted "no open scope to declare " name " in" (by decide) (by decide) (by decide)
      (plain rfl)).symm
  | noSuchEntry number =>
    have plain : quotationMark ∉ ("no entry " ++ toString number).toList :=
      plain_append (by decide) (plain_nat number)
    exact (requote_plain plain).symm
  | noSuchGroup number =>
    have plain : quotationMark ∉ ("no group " ++ toString number).toList :=
      plain_append (by decide) (plain_nat number)
    exact (requote_plain plain).symm

/-- Words that are no identifiers are quoted as they are. -/
theorem Rejection.message_rename (others : ∀ text, ¬IsIdentifier text → image text = text)
    (rejection : Rejection) (quotes : rejection.token.word ∈ words) :
    (rejection.recast image).message = requote image rejection.message := by
  obtain ⟨⟨kind, lexeme, line, column⟩, obstacle⟩ := rejection
  have word : Quotable (kind, lexeme) := quotable _ quotes
  cases obstacle with
  | illegalPrintOperand =>
    have plain : quotationMark ∉ "illegal print operand".toList := by decide
    exact (requote_plain plain).symm
  | expected expectation =>
    have before : quotationMark ∉ (expectation.description ++ " expected, got ").toList :=
      plain_append expectation.plain_description (by decide)
    rw [Rejection.recast]
    dsimp only [Token.word]
    rw [word.renamed others]
    change expectation.description ++ " expected, got " ++ Token.description _ =
      requote image (expectation.description ++ " expected, got " ++ Token.description _)
    by_cases ended : kind = .endOfInput
    · subst ended
      have plain := plain_append before (by decide : quotationMark ∉ "end of input".toList)
      exact (requote_plain plain).symm
    · rw [Token.description_of ended, Token.description_of ended, ← String.append_assoc,
        ← String.append_assoc, ← String.append_assoc, ← String.append_assoc]
      exact (requote_quoted _ lexeme "" rfl (by decide) before word.plain).symm

theorem Diagnostic.message_rename (others : ∀ text, ¬IsIdentifier text → image text = text)
    (diagnostic : Diagnostic) (quotes : diagnostic.Quotes words) :
    (diagnostic.recast image).message = requote image diagnostic.message := by
  cases diagnostic with
  | name error => exact error.message_rename quotable quotes
  | rejected rejection => exact rejection.message_rename quotable others quotes
  | roleMismatch use =>
    have plain : quotationMark ∉ (use.description ++ " expected").toList := by cases use <;> decide
    exact (requote_plain plain).symm
  | divisionByZero =>
    have plain : quotationMark ∉ "division by zero in constant expression".toList := by decide
    exact (requote_plain plain).symm
  | overflow =>
    have plain : quotationMark ∉ "integer overflow in constant expression".toList := by decide
    exact (requote_plain plain).symm
  | unknownSymbol | remark => exact quotes.elim

theorem Effect.messages_rename (others : ∀ text, ¬IsIdentifier text → image text = text)
    (effects : List Effect) (quotes : ∀ effect ∈ effects, effect.Quotes words) :
    ((effects.map (Effect.recast image)).filterMap Effect.diagnostic?).map Diagnostic.message =
      ((effects.filterMap Effect.diagnostic?).map Diagnostic.message).map (requote image) := by
  induction effects with
  | nil => rfl
  | cons effect effects ih =>
    obtain ⟨first, later⟩ := List.forall_mem_cons.mp quotes
    cases effect with
    | printed => exact ih later
    | remark diagnostic =>
      exact congrArg₂ List.cons (diagnostic.message_rename quotable others first) (ih later)

end

theorem Journal.mem_effects {journal : Journal} {effect : Effect} :
    effect ∈ journal.effects ↔ ∃ event ∈ journal, event.effect? = some effect := by
  rw [effects, List.mem_filterMap]
  exact exists_congr fun event => and_congr_left fun _ => List.mem_reverse

namespace Analysis

theorem Task.Adds.quotes {state : State} {task : Task} {event : Event} {effect : Effect}
    {words : List Lexeme} (adds : task.Adds state event) (shows : event.effect? = some effect)
    (current : state.token.word ∈ words) : effect.Quotes words := by
  cases adds with
  | search scanning => cases scanning <;> cases shows
  | @name error atName about =>
    cases Option.some.inj shows
    intro name known
    have word : state.token.word = (.identifier, name) := Prod.ext atName (about name known).symm
    exact word ▸ current
  | mismatch | behind =>
    cases Option.some.inj shows
    exact trivial
  | arithmetic member =>
    simp only [List.mem_cons, List.not_mem_nil, or_false] at member
    obtain rfl | rfl := member <;> cases Option.some.inj shows <;> exact trivial
  | silent quiet =>
    cases event with
    | reported => cases quiet
    | printed =>
      cases Option.some.inj shows
      exact trivial
    | _ => cases shows

section Quotes

variable {lines : List String} {tasks : List Task} {state : State}

/-- An analysis stands at one of the words of its text. -/
theorem Reaches.word_mem (reach : Reaches compilation (.ofScanner (.ofLines lines)) tasks state) :
    state.token.word ∈ (Scanner.ofLines lines).words := by
  obtain ⟨read, whole⟩ := ((State.Follows.invariant _).reaches reach (State.Follows.start _)).words
  obtain ⟨rest, begins⟩ := state.feed.words_begin
  rw [whole, State.words, begins]
  exact List.mem_append_right _ List.mem_cons_self

theorem Reaches.quotes (reach : Reaches compilation (.ofScanner (.ofLines lines)) tasks state) :
    ∀ effect ∈ state.effects, effect.Quotes (Scanner.ofLines lines).words := by
  intro effect shown
  obtain ⟨added, grown, each⟩ := reach.adds (Scanner.feed_searched _)
  obtain ⟨event, member, shows⟩ := Journal.mem_effects.mp shown
  rw [grown] at member
  rcases List.mem_append.mp member with new | old
  · obtain ⟨task, later, before, _, earlier, _, _, adds⟩ := each event new
    exact adds.quotes shows earlier.word_mem
  · have shown := Journal.mem_effects.mpr ⟨event, old, shows⟩
    exact absurd (State.effects_ofLines lines) (List.ne_nil_of_mem shown)

/-- Whatever an analysis says of a program quotes words of its text. -/
theorem analyse_quotes (lines : List String) :
    ∀ effect ∈ (analyse lines).state.effects, effect.Quotes (Scanner.ofLines lines).words := by
  rcases run_reaches compilation (.ofScanner (.ofLines lines)) with
    ⟨_, reach⟩ | ⟨task, later, before, rejection, reach, step, _⟩
  · exact reach.quotes
  · obtain ⟨token, same⟩ := Task.step_stop_eq step
    have effects := before.effects_report (.rejected rejection) (by simp)
    intro effect shown
    rw [analyse, compile, same, effects] at shown
    rcases List.mem_append.mp shown with old | new
    · exact reach.quotes effect old
    · have quotes : rejection.token.word ∈ (Scanner.ofLines lines).words := token ▸ reach.word_mem
      rw [List.mem_singleton.mp new]
      exact quotes

end Quotes

/-- The other analysis ends as the one does, at the same token, and shows the same, all under the image of
the names. -/
structure Outcome.Renamed (image : String → String) (one other : Outcome) : Prop where
  finished : other.rejection = none ↔ one.rejection = none
  stopped {rejection : Rejection} : one.rejection = some rejection →
    ∃ rejection', other.rejection = some rejection' ∧ rejection'.obstacle = rejection.obstacle ∧
      rejection'.token.word = renameWord image rejection.token.word
  words : other.state.words = one.state.words.map (renameWord image)
  table : other.state.table = one.state.table.rename image
  output (sink diagnostics diagnostics' : Sink) (verbose verbose' : Bool) :
    (other.state.journal.deliver ⟨diagnostics', sink⟩ verbose').output =
      (one.state.journal.deliver ⟨diagnostics, sink⟩ verbose).output
  messages : other.messages = one.messages.map (requote image)

/-- Parallel analyses of whole texts. -/
theorem Parallel.renamed {image : String → String} {one other : Outcome} {words : List Lexeme}
    (rejections :
      other.rejection.map (Rejection.recast id) = one.rejection.map (Rejection.recast image))
    (parallel : Parallel image [] [] one.state other.state) (quotable : ∀ word ∈ words, Quotable word)
    (others : ∀ text, ¬IsIdentifier text → image text = text)
    (quotes : ∀ effect ∈ one.state.effects, effect.Quotes words) : one.Renamed image other where
  finished := by
    rw [← Option.map_eq_none_iff (f := Rejection.recast id), rejections, Option.map_eq_none_iff]
  stopped {rejection} some := by
    rw [some, Option.map_some] at rejections
    obtain ⟨rejection', same, recast⟩ := Option.map_eq_some_iff.mp rejections
    have words := congrArg (·.token.word) recast
    have obstacles := congrArg Rejection.obstacle recast
    simp only [Rejection.recast, renameWord_id] at words
    exact ⟨rejection', same, obstacles, words⟩
  words := by
    obtain ⟨first, read, words, words'⟩ := parallel.words
    rw [List.append_nil] at words words'
    rw [words, words']
  table := parallel.table
  output sink diagnostics diagnostics' verbose verbose' := by
    have lines (state : State) (image : String → String) : state.journal.reverse.flatMap Event.outputLines =
        (state.effects.map (Effect.recast image)).filterMap Effect.line? :=
      state.journal.outputLines_effects.trans (Effect.lines_recast image _).symm
    rw [Journal.output_deliver, Journal.output_deliver, lines _ id, lines _ image, parallel.effects]
  messages := by
    rw [Outcome.messages, Outcome.messages, Journal.diagnostics_effects, Journal.diagnostics_effects]
    refine (Effect.messages_recast _).symm.trans ?_
    refine Eq.trans ?_ (Effect.messages_rename quotable others _ quotes)
    exact congrArg (List.map Diagnostic.message <| List.filterMap Effect.diagnostic? ·) parallel.effects

/-- The predefined names are all that a table starts with. -/
theorem predefined_rename {image : String → String}
    (fixed : ∀ name ∈ ["boolean", "char", "integer", "true", "false"], image name = name) :
    Table.predefined.rename image = Table.predefined := by
  have inEntries : ∀ entry ∈ Table.predefined.entries,
      entry.name ∈ ["boolean", "char", "integer", "true", "false"] := by decide
  have inFrames : ∀ frame ∈ Table.predefined.scopes, ∀ named ∈ frame,
      named.1 ∈ ["boolean", "char", "integer", "true", "false"] := by decide
  have entries : Table.predefined.entries.map (Entry.rename image) = Table.predefined.entries := by
    refine (Array.map_congr_left fun entry member => ?_).trans (Array.map_id _)
    rw [Entry.rename, fixed _ (inEntries entry member)]
    rfl
  have frame (frame : Frame) (member : frame ∈ Table.predefined.scopes) :
      Table.renameFrame image frame = frame := by
    refine (List.map_congr_left fun named inside => ?_).trans (List.map_id _)
    exact Prod.ext (fixed _ (inFrames frame member named inside)) rfl
  have scopes : Table.predefined.scopes.map (Table.renameFrame image) = Table.predefined.scopes :=
    (List.map_congr_left frame).trans (List.map_id _)
  rw [Table.rename, entries, scopes]

/-- Names are compared with each other and shown in messages, and that is all. Programs that differ in them
alone come to the same end. -/
theorem compile_renames (one other : List String) (image : Identifier → Identifier)
    (injective : Function.Injective image)
    (fixed : ∀ name : Identifier,
      name.1 ∈ ["boolean", "char", "integer", "true", "false"] → image name = name)
    (same : (Scanner.ofLines other).words =
      (Scanner.ofLines one).words.map (renameWord (Identifier.spelling image))) :
    (∀ word ∈ (Scanner.ofLines one).words, word.1 = .identifier ↔ IsIdentifier word.2) ∧
      (∃ read, (Scanner.ofLines one).words = read ++ (analyse one).state.words ∧
        (Scanner.ofLines other).words =
          read.map (renameWord (Identifier.spelling image)) ++ (analyse other).state.words) ∧
      (analyse one).Renamed (Identifier.spelling image) (analyse other) := by
  have quotable := (Scanner.ofLines one).quotable
  have others (text : String) (invalid : ¬IsIdentifier text) : Identifier.spelling image text = text :=
    Identifier.spelling_of_not invalid
  have predefined : Table.predefined.rename (Identifier.spelling image) = Table.predefined := by
    refine predefined_rename fun name member => ?_
    by_cases valid : IsIdentifier name
    · rw [Identifier.spelling_of valid, fixed ⟨name, valid⟩ member]
    · exact others name valid
  obtain ⟨rest, begins⟩ := (Scanner.ofLines one).feed.words_begin
  have whole := (Scanner.words_feed _).symm.trans begins
  have whole' := same.trans (congrArg (List.map _) whole)
  rw [← List.append_nil (_ :: rest)] at whole
  rw [← List.append_nil (List.map _ _)] at whole'
  obtain ⟨rejections, parallel⟩ := (parallel_begin predefined whole whole').run
    (Identifier.spelling_injective injective) compilation (Nat.zero_le _)
  have renamed : (analyse one).Renamed (Identifier.spelling image) (analyse other) :=
    parallel.renamed rejections quotable others (analyse_quotes one)
  obtain ⟨read, ahead⟩ := ((State.Follows.invariant _).run (State.Follows.start (.ofLines one))).words
  have ahead : (Scanner.ofLines one).words = read ++ (analyse one).state.words := ahead
  refine ⟨fun word member => (quotable word member).identifier, ⟨read, ahead, ?_⟩, renamed⟩
  rw [same, ahead, List.map_append, renamed.words]

/-- The names `x` and `y` change places. -/
theorem compile_renames_swapped :
    (analyse ["procedure y is begin x := 1; end y;"]).messages = ["undeclared identifier `x`"] := by
  let x : Identifier := ⟨"x", by decide⟩
  let y : Identifier := ⟨"y", by decide⟩
  obtain ⟨_, _, renamed⟩ := compile_renames ["procedure x is begin y := 1; end x;"]
    ["procedure y is begin x := 1; end y;"] (Equiv.swap x y) (Equiv.injective _)
    (fun name member => Equiv.swap_apply_of_ne_of_ne
      (fun same => absurd (same ▸ member) (by decide)) (fun same => absurd (same ▸ member) (by decide)))
    (by decide +kernel)
  exact renamed.messages.trans (by decide +kernel)

end Analysis

end AdaFront
