import AdaFront.Proofs.TokenDependence

namespace AdaFront

theorem Scanner.Keeps.searches {Holds : Reader → Prop} {scanner : Scanner} (keeps : Scanner.Keeps Holds)
    (count : Nat) (holds : Holds scanner.reader) : Holds (scanner.nextMany count).reader := by
  induction count with
  | zero => exact holds
  | succ count ih =>
    rw [nextMany_succ]
    exact keeps.search ih

/-- The event is no line, or it is the line of the text with its number. -/
def Event.InText (lines : List String) (event : Event) : Prop :=
  ∀ number text, event = .lineRead number text →
    ∃ index, number = index + 1 ∧ lines[index]? = some text

theorem Event.inText_of_other {lines : List String} {event : Event}
    (other : ∀ number text, event ≠ .lineRead number text) : event.InText lines :=
  fun number text same => absurd same (other number text)

theorem next_of_drop {lines below : List String} {count : Nat} {line : String}
    (next : line :: below = lines.drop count) :
    lines[count]? = some line ∧ below = lines.drop (count + 1) := by
  rw [← List.head?_drop, ← List.tail_drop, ← next]
  exact ⟨rfl, rfl⟩

/-- A reader of a text: the lines below are those behind the lines it has read. -/
structure Reader.Within (lines : List String) (reader : Reader) : Prop where
  below : reader.below = lines.drop reader.spot.number
  journal : ∀ event ∈ reader.journal, event.InText lines

theorem Reader.within_ofLines (lines : List String) : (Reader.ofLines lines).Within lines where
  below := rfl
  journal := List.forall_mem_nil _

/-- A line is read under the index of the first line below, which is there. -/
theorem Reader.Within.startLine {lines below : List String} {reader : Reader} {line : String}
    (within : reader.Within lines) (next : reader.below = line :: below) :
    (reader.startLine line below).Within lines := by
  obtain ⟨found, behind⟩ := next_of_drop (next.symm.trans within.below)
  refine ⟨behind, List.forall_mem_cons.mpr ⟨?_, within.journal⟩⟩
  intro number text same
  cases same
  exact ⟨reader.spot.number, rfl, found⟩

theorem Reader.Within.log {lines : List String} {reader : Reader} {event : Event}
    (within : reader.Within lines) (other : ∀ number text, event ≠ .lineRead number text) :
    (reader.log event).Within lines :=
  ⟨within.below, List.forall_mem_cons.mpr ⟨Event.inText_of_other other, within.journal⟩⟩

theorem Reader.keeps_within (lines : List String) : Scanner.Keeps (Reader.Within lines) where
  scanned within := within.log nofun
  unknown within := within.log nofun
  next {reader} within := by
    refine Reader.next_keeps within (fun {reader} within => ?_) fun line below next => within.startLine next
    unfold Reader.take
    split
    · exact ⟨within.below, within.journal⟩
    · exact ⟨within.below, within.journal⟩

namespace Feed

/-- The lines that are read before a token is found are lines of the text. -/
def InText (lines : List String) : Feed → Prop
  | last _ journal => ∀ event ∈ journal, event.InText lines
  | more head rest => (∀ event ∈ head.journal, event.InText lines) ∧ rest.InText lines

variable {lines : List String} {feed : Feed}

theorem InText.journal (inText : feed.InText lines) : ∀ event ∈ feed.journal, event.InText lines := by
  cases feed with
  | last => exact inText
  | more => exact inText.1

theorem InText.advance (inText : feed.InText lines) : feed.advance.InText lines := by
  cases feed with
  | last => exact List.forall_mem_singleton.mpr (Event.inText_of_other nofun)
  | more => exact inText.2

end Feed

theorem Scanner.feed_inText {lines : List String} (scanner : Scanner)
    (within : scanner.reader.Within lines) : scanner.feed.InText lines :=
  (Reader.keeps_within lines).feed (fun within => ⟨within.below, List.forall_mem_nil _⟩)
    (fun _ within => within.journal) (fun _ _ _ within rest => ⟨within.journal, rest⟩) within

namespace Analysis

theorem invariant_inText (lines : List String) : Invariant fun state =>
    state.feed.InText lines ∧ ∀ event ∈ state.journal, event.InText lines :=
  .ofEvents Feed.InText.advance Feed.InText.journal (fun _ _ => Event.inText_of_other nofun)
    fun _ _ other => Event.inText_of_other other

theorem inText_ofScanner {lines : List String} (scanner : Scanner)
    (within : scanner.reader.Within lines) :
    ∀ event ∈ (State.ofScanner scanner).journal, event.InText lines := by
  have journal : (State.ofScanner scanner).journal =
      scanner.feed.journal ++ .scopeOpened Table.predefined.level :: scanner.reader.journal := rfl
  have level : (Event.scopeOpened Table.predefined.level).InText lines := Event.inText_of_other nofun
  rw [journal]
  exact List.forall_mem_append.mpr
    ⟨(scanner.feed_inText within).journal, List.forall_mem_cons.mpr ⟨level, within.journal⟩⟩

/-- Every line that is read is the line of the text with its number. -/
theorem again_inText (lines : List String) (skipped calls : Nat) :
    ∀ event ∈ (again calls (.ofScanner ((Scanner.ofLines lines).nextMany skipped))).journal,
      event.InText lines := by
  have keeps := Reader.keeps_within lines
  have start : (Scanner.ofLines lines).reader.Within lines := keeps.next (Reader.within_ofLines lines)
  have within := keeps.searches skipped start
  generalize (Scanner.ofLines lines).nextMany skipped = scanner at within
  exact ((invariant_inText lines).again calls
    ⟨scanner.feed_inText within, inText_ofScanner scanner within⟩).2

end Analysis

end AdaFront
