import AdaFront.Proofs.LinesRead
import AdaFront.Proofs.TextLines

namespace AdaFront

open AdaFront.Text (Unbroken IsLine unbroken_append unbroken_nat)

/-- A spot whose line is one line. -/
def Spot.Worded (spot : Spot) : Prop :=
  ∀ text ∈ spot.text, '\n' ∉ text.toList

/-- What an event of an analysis says stands on lines of its own: its names, its message and the line of the
source have no line feed. Nothing is noted in the words of a caller, and nothing is summed up before the end. -/
def Event.Worded : Event → Prop
  | .lineRead _ text => '\n' ∉ text.toList
  | .reported spot diagnostic => spot.Worded ∧ Unbroken diagnostic.message
  | .scopeClosed _ entries => ∀ entry ∈ entries, Unbroken entry.name
  | .noted _ | .summarized _ => False
  | _ => True

theorem isLine_echo (number : Nat) {text : String} (worded : '\n' ∉ text.toList) :
    IsLine (echo number text) := by
  have margin : Unbroken ("#" ++ Text.padLeft 2 (toString number) ++ ": ") := by
    have padded := Text.unbroken_padLeft (unbroken_nat number) 2
    exact unbroken_append.mpr ⟨unbroken_append.mpr ⟨by decide, padded⟩, by decide⟩
  exact (Text.isLine_trimmedEnd worded).append margin

theorem unbroken_marked (column : Nat) {message : String} (unbroken : Unbroken message) :
    Unbroken (marked column message) :=
  unbroken_append.mpr ⟨unbroken_append.mpr ⟨Text.unbroken_spaces _, by decide⟩, unbroken⟩

theorem unbroken_summary (errors : Nat) : Unbroken (summary errors) := by
  match errors with
  | 0 | 1 => decide
  | errors + 2 => exact unbroken_append.mpr ⟨unbroken_nat _, by decide⟩

theorem Entry.unbroken_description {entry : Entry} (name : Unbroken entry.name) :
    Unbroken entry.description := by
  have role : Unbroken entry.role.description := by cases entry.role <;> decide
  have value (value : Value) : Unbroken value.description := by
    cases value with
    | integer value => exact Text.unbroken_int value
    | boolean value => cases value <;> decide
  have left : Unbroken ("Name:" ++ Text.padRight 16 entry.name ++ " | Role:") :=
    unbroken_append.mpr ⟨unbroken_append.mpr ⟨by decide, Text.unbroken_padRight name 16⟩, by decide⟩
  have middle := unbroken_append.mpr ⟨left, Text.unbroken_padRight role 9⟩
  refine unbroken_append.mpr ⟨unbroken_append.mpr ⟨middle, by decide⟩, ?_⟩
  split
  · exact value _
  · decide

/-- What an event writes are lines. -/
theorem Event.Worded.isLine {event : Event} (worded : event.Worded) (verbose : Bool) (channel : Channel) :
    ∀ line ∈ event.linesOn verbose channel, IsLine line := by
  intro line member
  cases channel with
  | output =>
    cases event with
    | printed value =>
      cases List.mem_singleton.mp member
      exact (Text.unbroken_int value).isLine
    | _ => cases member
  | diagnostics =>
    cases event with
    | lineRead number text =>
      cases verbose with
      | false => cases member
      | true =>
        cases List.mem_singleton.mp member
        exact isLine_echo number worded
    | reported spot diagnostic =>
      obtain ⟨atSpot, message⟩ := worded
      rcases List.mem_append.mp member with above | last
      · cases same : spot.text with
        | none =>
          rw [same] at above
          cases above
        | some text =>
          rw [same] at above
          cases verbose with
          | true => cases above
          | false =>
            cases List.mem_singleton.mp above
            exact isLine_echo spot.number (atSpot text same)
      · cases List.mem_singleton.mp last
        exact (unbroken_marked spot.column message).isLine
    | noted text => exact worded.elim
    | scopeOpened level =>
      cases verbose with
      | false => cases member
      | true =>
        cases List.mem_singleton.mp member
        exact (unbroken_append.mpr ⟨by decide, Text.unbroken_int level⟩).isLine
    | scopeClosed level entries =>
      cases verbose with
      | false => cases member
      | true =>
        rcases List.mem_cons.mp member with rfl | later
        · exact (unbroken_append.mpr ⟨by decide, Text.unbroken_int level⟩).isLine
        · rcases List.mem_append.mp later with inside | last
          · obtain ⟨entry, atEntry, rfl⟩ := List.mem_map.mp inside
            exact (Entry.unbroken_description (worded entry atEntry)).isLine
          · cases List.mem_singleton.mp last
            exact (unbroken_append.mpr ⟨by decide, Text.unbroken_int level⟩).isLine
    | summarized errors => exact worded.elim
    | _ => cases member

/-- A reader of a text whose lines are lines. -/
structure Reader.Worded (reader : Reader) : Prop where
  below : ∀ line ∈ reader.below, '\n' ∉ line.toList
  spot : reader.spot.Worded
  journal : ∀ event ∈ reader.journal, event.Worded

theorem Reader.worded_ofLines {lines : List String} (each : ∀ line ∈ lines, '\n' ∉ line.toList) :
    (Reader.ofLines lines).Worded :=
  ⟨each, nofun, List.forall_mem_nil _⟩

theorem Reader.Worded.log {reader : Reader} {event : Event} (reads : reader.Worded) (worded : event.Worded) :
    (reader.log event).Worded :=
  ⟨reads.below, reads.spot, List.forall_mem_cons.mpr ⟨worded, reads.journal⟩⟩

theorem Reader.keeps_worded : Scanner.Keeps Reader.Worded where
  scanned worded := worded.log trivial
  unknown worded :=
    worded.log ⟨worded.spot, unbroken_append.mpr ⟨by decide, Text.unbroken_quotedCharacter _⟩⟩
  next {reader} worded := by
    refine Reader.next_keeps worded (fun {reader} worded => ?_) fun line below next => ?_
    · unfold Reader.take
      split
      · exact ⟨worded.below, nofun, worded.journal⟩
      · exact ⟨worded.below, worded.spot, worded.journal⟩
    · obtain ⟨first, later⟩ := List.forall_mem_cons.mp (next ▸ worded.below)
      refine ⟨later, fun text same => ?_, List.forall_mem_cons.mpr ⟨first, worded.journal⟩⟩
      cases same
      exact first

theorem Kind.unbroken_spelling (kind : Kind) : ∀ text ∈ kind.spelling?, Unbroken text := by
  cases kind <;> decide

theorem Kind.unbroken_description (kind : Kind) : Unbroken kind.description := by
  have spelled : Unbroken (kind.spelling?.getD "?") := by
    cases same : kind.spelling? with
    | none => decide
    | some text => exact kind.unbroken_spelling text same
  unfold description
  split
  case h_4 => exact unbroken_append.mpr ⟨unbroken_append.mpr ⟨by decide, spelled⟩, by decide⟩
  all_goals decide

/-- No lexeme has a line end. -/
theorem Scans.unbroken {text : List Char} {pieces : List Piece} (scans : Scans text pieces) :
    ∀ word ∈ pieces.filterMap Piece.token?, Unbroken word.2 := by
  induction scans with
  | done => exact List.forall_mem_nil _
  | blank _ _ ih => exact ih
  | unknown _ _ _ _ ih => exact ih
  | number _ digits _ _ ih =>
    exact List.forall_mem_cons.mpr ⟨Text.unbroken_ofList Char.isDigit rfl rfl digits, ih⟩
  | word _ letters _ _ _ ih =>
    have inWord := Text.unbroken_ofList isWordCharacter (by decide) (by decide) letters
    exact List.forall_mem_cons.mpr ⟨inWord, ih⟩
  | pair _ spelled _ ih => exact List.forall_mem_cons.mpr ⟨Kind.unbroken_spelling _ _ spelled, ih⟩
  | single _ _ spelled _ ih => exact List.forall_mem_cons.mpr ⟨Kind.unbroken_spelling _ _ spelled, ih⟩

theorem Scanner.unbroken_tokens (scanner : Scanner) :
    ∀ token ∈ scanner.tokens.1, Unbroken token.lexeme := by
  obtain ⟨pieces, scans, words, _⟩ := scanner.tokens_scans
  intro token member
  have word : (token.kind, token.lexeme) ∈ pieces.filterMap Piece.token? := by
    rw [words]
    exact List.mem_map.mpr ⟨token, member, rfl⟩
  exact scans.unbroken _ word

namespace Feed

/-- What happens while tokens are found, where they are found and what they spell is worded. -/
def Worded : Feed → Prop
  | last spot journal => spot.Worded ∧ ∀ event ∈ journal, event.Worded
  | more head rest =>
    Unbroken head.token.lexeme ∧ head.spot.Worded ∧ (∀ event ∈ head.journal, event.Worded) ∧
      rest.Worded

variable {feed : Feed}

theorem Worded.token (worded : feed.Worded) : Unbroken feed.token.lexeme := by
  cases feed with
  | last => exact (by decide : Unbroken "")
  | more => exact worded.1

theorem Worded.spot (worded : feed.Worded) : feed.spot.Worded := by
  cases feed with
  | last => exact worded.1
  | more => exact worded.2.1

theorem Worded.journal (worded : feed.Worded) : ∀ event ∈ feed.journal, event.Worded := by
  cases feed with
  | last => exact worded.2
  | more => exact worded.2.2.1

theorem Worded.advance (worded : feed.Worded) : feed.advance.Worded := by
  cases feed with
  | last => exact ⟨worded.1, List.forall_mem_singleton.mpr trivial⟩
  | more => exact worded.2.2.2

end Feed

theorem Scanner.feed_worded (scanner : Scanner) (worded : scanner.reader.Worded) : scanner.feed.Worded := by
  have lexemes : ∀ token ∈ scanner.feed.tokens, Unbroken token.lexeme := by
    rw [tokens_feed]
    exact scanner.unbroken_tokens
  have each : (∀ token ∈ scanner.feed.tokens, Unbroken token.lexeme) → scanner.feed.Worded := by
    refine Reader.keeps_worded.feed (motive := fun feed =>
      (∀ token ∈ feed.tokens, Unbroken token.lexeme) → feed.Worded)
      (fun worded => ⟨worded.below, worded.spot, List.forall_mem_nil _⟩)
      (fun _ worded _ => ⟨worded.spot, worded.journal⟩) ?_ worded
    intro token reader rest worded later lexemes
    obtain ⟨first, others⟩ := List.forall_mem_cons.mp lexemes
    exact ⟨first, worded.spot, worded.journal, later others⟩
  exact each lexemes

namespace Table

/-- No name in a table has a line end. -/
def Worded (table : Table) : Prop :=
  ∀ id entry, table.entry? id = some entry → Unbroken entry.name

/-- A table answers with a worded table or with a message that has no line end. -/
def Answers : Except TableError (EntryId × Table) → Prop
  | .ok (_, after) => after.Worded
  | .error error => Unbroken error.message

theorem unbroken_undeclared {name : String} (unbroken : Unbroken name) :
    Unbroken (TableError.undeclared name).message :=
  unbroken_append.mpr ⟨unbroken_append.mpr ⟨by decide, unbroken⟩, by decide⟩

variable {table : Table}

theorem Worded.insert {entry : Entry} (worded : table.Worded) (name : Unbroken entry.name) :
    Answers (table.insert entry) := by
  unfold Table.insert
  split
  next => exact unbroken_append.mpr ⟨unbroken_append.mpr ⟨by decide, name⟩, by decide⟩
  next frame outer scopes =>
    split
    next => exact unbroken_append.mpr ⟨unbroken_append.mpr ⟨by decide, name⟩, by decide⟩
    next =>
      intro id found atId
      have pushed : (table.entries.push entry)[id]? = some found := atId
      rw [Array.getElem?_push] at pushed
      by_cases new : id = table.entries.size
      · rw [if_pos new] at pushed
        cases pushed
        exact name
      · rw [if_neg new] at pushed
        exact worded id found pushed

theorem Worded.declare {name : String} (worded : table.Worded) (unbroken : Unbroken name) (role : Role) :
    Answers (table.declare name role) := by
  have inserted : Answers (table.insert ⟨name, role, none, table.groups.size⟩) := worded.insert unbroken
  unfold Table.declare
  split
  next same => rwa [same] at inserted
  next same =>
    rw [same] at inserted
    exact inserted

theorem Worded.declareIn {name : String} (worded : table.Worded) (unbroken : Unbroken name) (group : GroupId) :
    Answers (table.declareIn name group) := by
  unfold Table.declareIn
  split
  next => exact unbroken_append.mpr ⟨by decide, unbroken_nat group⟩
  next leader _ =>
    have inserted : Answers (table.insert ⟨name, leader.role, leader.value, group⟩) :=
      worded.insert unbroken
    split
    next same => rwa [same] at inserted
    next same =>
      rw [same] at inserted
      exact inserted

theorem Worded.update {change : Entry → Entry} (worded : table.Worded) (group : GroupId)
    (names : ∀ entry, (change entry).name = entry.name) : (table.update group change).Worded := by
  have changed (ids : List EntryId) (entries : Array Entry)
      (before : ∀ (id : EntryId) entry, entries[id]? = some entry → Unbroken entry.name) (id : EntryId)
      (entry : Entry)
      (found : (ids.foldl (fun entries id => entries.modify id change) entries)[id]? = some entry) :
      Unbroken entry.name := by
    induction ids generalizing entries with
    | nil => exact before id entry found
    | cons first ids ih =>
      refine ih _ (fun id entry found => ?_) found
      rw [Array.getElem?_modify] at found
      by_cases same : first = id
      · rw [if_pos same] at found
        obtain ⟨old, atId, rfl⟩ := Option.map_eq_some_iff.mp found
        rw [names]
        exact before id old atId
      · rw [if_neg same] at found
        exact before id entry found
  exact changed _ _ worded

end Table

namespace Analysis

/-- Whatever a state says is worded. -/
structure State.Worded (state : State) : Prop where
  feed : state.feed.Worded
  table : state.table.Worded
  journal : ∀ event ∈ state.journal, event.Worded

namespace State.Worded

variable {state : State}

theorem log {event : Event} (worded : state.Worded) (said : event.Worded) : (state.log event).Worded :=
  ⟨worded.feed, worded.table, List.forall_mem_cons.mpr ⟨said, worded.journal⟩⟩

theorem report {diagnostic : Diagnostic} (worded : state.Worded) (unbroken : Unbroken diagnostic.message) :
    (state.report diagnostic).Worded :=
  worded.log ⟨worded.feed.spot, unbroken⟩

theorem advance (worded : state.Worded) : state.advance.Worded :=
  ⟨worded.feed.advance, worded.table,
    List.forall_mem_append.mpr ⟨worded.feed.advance.journal, worded.journal⟩⟩

theorem withTable {table : Table} (worded : state.Worded) (after : table.Worded) :
    ({ state with table := table } : State).Worded :=
  ⟨worded.feed, after, worded.journal⟩

theorem declare (worded : state.Worded) (role : Role) : (state.declare role).Worded := by
  have answers : Table.Answers (state.advance.table.declare state.token.lexeme role) :=
    worded.table.declare worded.feed.token role
  unfold State.declare
  dsimp only
  split
  next same =>
    rw [same] at answers
    exact worded.advance.withTable answers
  next same =>
    rw [same] at answers
    exact worded.advance.report answers

theorem declareListed (worded : state.Worded) : state.declareListed.Worded := by
  unfold State.declareListed
  dsimp only
  cases group : state.advance.group with
  | none =>
    have answers : Table.Answers (state.advance.table.declare state.token.lexeme .unset) :=
      worded.table.declare worded.feed.token _
    dsimp only
    split
    next same =>
      rw [same] at answers
      exact ⟨worded.advance.feed, answers, worded.advance.journal⟩
    next same =>
      rw [same] at answers
      exact worded.advance.report answers
  | some leader =>
    have answers : Table.Answers (state.advance.table.declareIn state.token.lexeme leader) :=
      worded.table.declareIn worded.feed.token leader
    dsimp only
    split
    next same =>
      rw [same] at answers
      exact ⟨worded.advance.feed, answers, worded.advance.journal⟩
    next same =>
      rw [same] at answers
      exact worded.advance.report answers

theorem find (worded : state.Worded) : state.find.2.Worded := by
  unfold State.find
  dsimp only
  split
  · exact worded.advance
  next error same =>
    unfold Table.lookup at same
    split at same
    · cases same
    · cases same
      exact worded.advance.report (Table.unbroken_undeclared worded.feed.token)

theorem check (worded : state.Worded) (name : Option EntryId) (use : NameUse) :
    (state.check name use).Worded := by
  unfold State.check
  split
  · split
    · exact worded
    · exact worded.report (by cases use <;> decide)
  · exact worded

theorem setRole (worded : state.Worded) (role : Role) : (state.setRole role).Worded := by
  unfold State.setRole
  split
  · exact worded.withTable (worded.table.update _ fun _ => rfl)
  · exact worded

theorem setConstant (worded : state.Worded) : state.setConstant.Worded := by
  unfold State.setConstant
  split
  · exact worded.withTable (worded.table.update _ fun _ => rfl)
  · exact worded

theorem assign (worded : state.Worded) (name : Option EntryId) : (state.assign name).Worded := by
  unfold State.assign
  split
  · split
    · exact worded.withTable (worded.table.update _ fun _ => rfl)
    · exact worded
  · exact worded

theorem evaluate (worded : state.Worded) (value : Option Int) :
    ({ state with value := value } : State).Worded :=
  ⟨worded.feed, worded.table, worded.journal⟩

theorem literal (worded : state.Worded) : state.literal.Worded := by
  unfold State.literal
  dsimp only
  split
  · exact worded.advance.evaluate _
  · exact (worded.advance.report (by decide)).evaluate _

theorem combine (worded : state.Worded) (operator : Operator) (left : Option Int) :
    (state.combine operator left).Worded := by
  unfold State.combine
  split
  next left right _ =>
    have logged : (state.log (.overflowed left operator right)).Worded :=
      worded.log (show Event.Worded (.overflowed left operator right) from trivial)
    split
    · exact worded.evaluate _
    · exact worded.evaluate _
    · exact (worded.report (by decide)).evaluate _
    · exact (logged.report (by decide)).evaluate _
  next => exact worded.evaluate _

theorem refuse (worded : state.Worded) (obstacle : Obstacle) : (state.refuse obstacle).state.Worded := by
  suffices Unbroken (Diagnostic.rejected ⟨state.token, obstacle⟩).message from worded.report this
  cases obstacle with
  | illegalPrintOperand => exact (by decide : Unbroken "illegal print operand")
  | expected expectation =>
    have asked : Unbroken expectation.description := by
      cases expectation with
      | token kind => exact kind.unbroken_description
      | _ => decide
    have got : Unbroken state.token.description := by
      unfold Token.description
      split
      · decide
      · exact unbroken_append.mpr ⟨unbroken_append.mpr ⟨by decide, worded.feed.token⟩, by decide⟩
    exact unbroken_append.mpr ⟨unbroken_append.mpr ⟨asked, by decide⟩, got⟩

theorem openScope (worded : state.Worded) : state.openScope.Worded :=
  ⟨worded.feed, worded.table, List.forall_mem_cons.mpr ⟨trivial, worded.journal⟩⟩

/-- What is shown of a scope that closes are entries of the table. -/
theorem closeScope (worded : state.Worded) : state.closeScope.Worded := by
  unfold State.closeScope
  split
  · exact worded
  next frame table exits =>
    have same : table.Worded := by
      unfold Table.exit? at exits
      split at exits
      · cases exits
      · cases exits
        exact worded.table
    refine (worded.withTable same).log fun entry member => ?_
    obtain ⟨named, _, atId⟩ := List.mem_filterMap.mp member
    exact worded.table _ _ atId

end State.Worded

theorem crosses_worded : Crosses fun state after => state.Worded → after.Worded where
  refl _ worded := worded
  trans first second worded := second (first worded)
  advance _ worded := worded.advance
  declare _ role worded := worded.declare role
  declareListed _ worded := worded.declareListed
  ungroup _ worded := ⟨worded.feed, worded.table, worded.journal⟩
  find _ worded := worded.find
  check _ name use worded := worded.check name use
  setRole _ role worded := worded.setRole role
  setConstant _ worded := worded.setConstant
  assign _ name worded := worded.assign name
  evaluate _ value worded := worded.evaluate value
  literal _ worded := worded.literal
  combine _ operator left worded := worded.combine operator left
  print _ _ worded := worded.log trivial
  refuse _ obstacle worded := worded.refuse obstacle

/-- Nothing that an analysis says breaks a line. -/
theorem steady_worded : Steady State.Worded :=
  .ofOthers State.Worded.openScope State.Worded.closeScope fun opens closes =>
    crosses_worded.step _ opens closes

theorem predefined_worded : Table.predefined.Worded := by
  have names : ∀ entry ∈ Table.predefined.entries, Unbroken entry.name := by decide
  exact fun id entry atId => names entry (Array.mem_of_getElem? atId)

theorem worded_ofScanner {scanner : Scanner} (worded : scanner.reader.Worded) :
    (State.ofScanner scanner).Worded := by
  have feed : scanner.feed.Worded := scanner.feed_worded worded
  have journal : (State.ofScanner scanner).journal =
      scanner.feed.journal ++ .scopeOpened Table.predefined.level :: scanner.reader.journal := rfl
  refine ⟨feed, predefined_worded, ?_⟩
  rw [journal]
  exact List.forall_mem_append.mpr ⟨feed.journal, List.forall_mem_cons.mpr ⟨trivial, worded.journal⟩⟩

end Analysis

end AdaFront
