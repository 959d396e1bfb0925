import AdaFront.Proofs.TokenDependence

namespace AdaFront

namespace Scanner

/-- A token is found without another search: the first character that is no blank begins one, or the
text ends there. -/
def Settles (scanner : Scanner) : Prop :=
  scanner.skipBlanks.current = endOfText ∨ scanner.skipBlanks.current.isDigit = true ∨
    Text.isLetter scanner.skipBlanks.current = true ∨ scanner.skipBlanks.operator? ≠ none

/-- A number of searches for a token, each of which has come to a character that begins none. -/
inductive Retries (scanner : Scanner) : Nat → Scanner → Prop
  | start : Retries scanner 0 scanner
  | again {count after} : Retries scanner count after → ¬after.Settles →
      Retries scanner (count + 1) after.skipBlanks.skipUnknown

/-- A search that begins again has passed over one character at least. -/
theorem left_retry {scanner : Scanner} (unsettled : ¬scanner.Settles) :
    scanner.skipBlanks.skipUnknown.left < scanner.left := by
  have inside : scanner.skipBlanks.current ≠ endOfText := fun mark => unsettled (Or.inl mark)
  have blanks := scanner.left_skipBlanks
  have less := left_advance scanner.skipBlanks inside
  rw [left_skipUnknown]
  omega

theorem next_retry {scanner : Scanner} (unsettled : ¬scanner.Settles) :
    scanner.next = scanner.skipBlanks.skipUnknown.next := by
  simp only [Settles, not_or, Decidable.not_not] at unsettled
  obtain ⟨inside, digit, letter, nothing⟩ := unsettled
  exact next_of_unknown inside digit letter nothing

namespace Retries

variable {scanner middle after : Scanner} {count more : Nat}

theorem left_le (retries : scanner.Retries count after) : count + after.left ≤ scanner.left := by
  induction retries with
  | start => omega
  | again _ unsettled ih =>
    have less := left_retry unsettled
    omega

theorem next_eq (retries : scanner.Retries count after) : after.next = scanner.next := by
  induction retries with
  | start => rfl
  | again _ unsettled ih => rw [← next_retry unsettled, ih]

theorem trans (first : scanner.Retries count middle) (second : middle.Retries more after) :
    scanner.Retries (count + more) after := by
  induction second with
  | start => exact first
  | again _ unsettled ih => exact .again ih unsettled

end Retries

/-- The searches come to an end, as each one begins nearer to the end of the text. -/
theorem exists_settles (scanner : Scanner) :
    ∃ count after, scanner.Retries count after ∧ after.Settles := by
  induction scanner using next_induction with
  | ended scanner mark => exact ⟨0, scanner, .start, Or.inl mark⟩
  | number scanner _ digit => exact ⟨0, scanner, .start, Or.inr (Or.inl digit)⟩
  | word scanner _ _ letter => exact ⟨0, scanner, .start, Or.inr (Or.inr (Or.inl letter))⟩
  | operator scanner found _ _ _ run =>
    exact ⟨0, scanner, .start, Or.inr (Or.inr (Or.inr (by rw [run]; nofun)))⟩
  | unknown scanner inside digit letter nothing ih =>
    obtain ⟨count, after, retries, settles⟩ := ih
    have unsettled : ¬scanner.Settles := by
      simp only [Settles, not_or, Decidable.not_not]
      exact ⟨inside, digit, letter, nothing⟩
    have first : scanner.Retries 1 scanner.skipBlanks.skipUnknown := .again .start unsettled
    exact ⟨1 + count, after, first.trans retries, settles⟩

/-- Each token before the end of the input takes characters of its own. -/
theorem length_tokens_le (scanner : Scanner) : scanner.tokens.1.length ≤ scanner.left := by
  induction scanner using tokens_induction with
  | ended scanner last =>
    rw [tokens_of_end last]
    exact Nat.zero_le _
  | more scanner more ih =>
    have less := left_next scanner more
    rw [tokens_of_more more, List.length_cons]
    omega

theorem left_feed_le (scanner : Scanner) : scanner.feed.left ≤ scanner.left := by
  have tokens := scanner.length_tokens_le
  have length := scanner.feed.length_words
  rw [scanner.words_feed, words, List.length_append, List.length_map, List.length_singleton] at length
  omega

end Scanner

namespace Analysis

/-- The points that an analysis comes to, with the number of tasks done until then. -/
inductive Walks (tasks : List Task) (state : State) : Nat → List Task → State → Prop
  | start : Walks tasks state 0 tasks state
  | step {task left later state' after count} : Walks tasks state count (task :: later) state' →
      task.step state' = .go left after → Walks tasks state (count + 1) (left ++ later) after

theorem Reaches.walks {tasks left : List Task} {state after : State}
    (reach : Reaches tasks state left after) : ∃ count, Walks tasks state count left after := by
  induction reach with
  | start => exact ⟨0, .start⟩
  | step _ step ih =>
    obtain ⟨count, walks⟩ := ih
    exact ⟨count + 1, walks.step step⟩

/-- An analysis that has done all its tasks, or has come to one that cannot go on. -/
inductive Halts (tasks : List Task) (state : State) (count : Nat) : Outcome → Prop
  | finished {last} : Walks tasks state count [] last → Halts tasks state count ⟨none, last⟩
  | stopped {task later before rejection last} : Walks tasks state count (task :: later) before →
      task.step before = .stop rejection last → Halts tasks state count ⟨some rejection, last⟩

theorem run_halts (tasks : List Task) (state : State) : ∃ count, Halts tasks state count (run tasks state) := by
  generalize same : run tasks state = outcome
  obtain ⟨rejection, last⟩ := outcome
  rcases run_reaches tasks state with ⟨finished, reach⟩ | ⟨task, later, before, why, reach, step, stopped⟩
  · rw [same] at finished reach
    obtain rfl : rejection = none := finished
    obtain ⟨count, walks⟩ := reach.walks
    exact ⟨count, .finished walks⟩
  · rw [same] at step stopped
    obtain rfl : rejection = some why := stopped
    obtain ⟨count, walks⟩ := reach.walks
    exact ⟨count, .stopped walks step⟩

namespace Walks

variable {tasks left : List Task} {state after : State} {count : Nat}

theorem reaches (walks : Walks tasks state count left after) : Reaches tasks state left after := by
  induction walks with
  | start => exact .start
  | step _ step ih => exact ih.step step

/-- Each task that is done makes what is left to do lighter, where a token weighs more than any task. -/
theorem weight_le (walks : Walks tasks state count left after) :
    count + (24 * after.left + weight left) ≤ 24 * state.left + weight tasks := by
  induction walks with
  | start => omega
  | @step task tasks later before after count _ step ih =>
    have forward := Task.step_forward before task
    rw [step] at forward
    simp only [Step.Forward] at forward
    rw [weight_append]
    rw [weight_cons] at ih
    omega

end Walks

/-- What has been read of the input is its beginning. -/
theorem invariant_tokens (tokens : List Token) :
    Invariant fun state => state.feed.tokens <:+ tokens := by
  have rest (feed : Feed) : feed.advance.tokens <:+ feed.tokens := by
    cases feed with
    | last => exact List.suffix_rfl
    | more head feed => exact List.suffix_cons _ _
  exact .ofFeed (fun feed => feed.tokens <:+ tokens) fun {feed} holds => (rest feed).trans holds

theorem State.left_eq (state : State) : state.left = state.feed.tokens.length := by
  have same (feed : Feed) : feed.left = feed.tokens.length := by
    induction feed with
    | last => rfl
    | more _ rest ih => exact congrArg (· + 1) ih
  exact same state.feed

theorem State.Sound.kind_of_mem {state : State} {token : Token} (sound : state.Sound)
    (inside : token ∈ state.feed.tokens) : token.kind ≠ .endOfInput := by
  obtain ⟨inner, whole, apart⟩ := sound.ends
  have same : state.feed.tokens.map Token.kind = inner := List.append_cancel_right whole
  intro atEnd
  rw [← same, ← atEnd] at apart
  exact apart (List.mem_map_of_mem inside)

/-- An analysis that comes back to a task of the same kind, or to a heavier one, before it has done the tasks
behind it has read a token. -/
theorem Walks.reads {task task' : Task} {later inside : List Task} {state after : State} {count : Nat}
    (sound : state.Sound) (walks : Walks (task :: later) state (count + 1) (task' :: inside ++ later) after)
    (heavy : task.weight ≤ task'.weight) :
    ∃ read, read ≠ [] ∧ (∀ token ∈ read, token.kind ≠ .endOfInput) ∧
      state.feed.tokens = read ++ after.feed.tokens := by
  have lighter := walks.weight_le
  rw [List.cons_append, weight_cons, weight_cons, weight_append] at lighter
  have less : after.left < state.left := by omega
  obtain ⟨read, whole⟩ := (invariant_tokens state.feed.tokens).reaches walks.reaches List.suffix_rfl
  refine ⟨read, ?_, fun token member => ?_, whole.symm⟩
  · rintro rfl
    rw [state.left_eq, after.left_eq, ← whole] at less
    exact Nat.lt_irrefl _ less
  · exact sound.kind_of_mem (whole ▸ List.mem_append_left _ member)

theorem left_again_le (calls : Nat) (state : State) : (again calls state).left ≤ state.left := by
  induction calls with
  | zero => exact Nat.le_refl _
  | succ calls ih => exact Nat.le_trans (left_run_le _ _) ih

/-- The search for a token ends, and so do the searches for all tokens: each search that begins again and each
token takes characters that are unread. So does the analysis: a loop that goes round, or a part of the
grammar within itself, has read a token before the end of the input, and what an analysis can do at most is
bounded by the characters that are unread when it begins. -/
theorem compile_terminates (lines : List String) (skipped calls : Nat) :
    let scanner := (Scanner.ofLines lines).nextMany skipped
    let start := again calls (.ofScanner scanner)
    (∀ one : Scanner, (∀ count after, one.Retries count after →
        after.next = one.next ∧ count + after.left ≤ one.left) ∧
      ∃ count after, one.Retries count after ∧ after.Settles) ∧
    (∀ one : Scanner, one.next.1.kind ≠ .endOfInput → one.next.2.left < one.left) ∧
    (∀ one : Scanner, one.tokens.1.length ≤ one.left ∧
      (one.nextMany one.tokens.1.length).next.1.kind = .endOfInput) ∧
    (∀ task task' later inside state after count, Reaches compilation start (task :: later) state →
      Walks (task :: later) state (count + 1) (task' :: inside ++ later) after →
      task.weight ≤ task'.weight → state.kind ≠ .endOfInput ∧
        ∃ read, read ≠ [] ∧ (∀ token ∈ read, token.kind ≠ .endOfInput) ∧
          state.feed.tokens = read ++ after.feed.tokens) ∧
    (∀ left after count, Walks compilation start count left after →
      count ≤ 24 * scanner.left + weight compilation) ∧
    ∃ count, Halts compilation start count (compile start) := by
  intro scanner start
  have sound := (resumable_again scanner calls).toSound
  refine ⟨fun one => ⟨fun count after retries => ⟨retries.next_eq, retries.left_le⟩, one.exists_settles⟩,
    Scanner.left_next, fun one => ⟨one.length_tokens_le, ?_⟩,
    fun task task' later inside state after count reach walks heavy => ?_,
    fun left after count walks => ?_, run_halts compilation start⟩
  · rw [(one.nextMany_next one.tokens.1.length).1, List.getD_eq_getElem?_getD,
      List.getElem?_eq_none (Nat.le_refl _)]
    rfl
  · have within : state.Sound := invariant_sound.reaches reach sound
    obtain ⟨read, some, inner, whole⟩ := walks.reads within heavy
    refine ⟨fun atEnd => ?_, read, some, inner, whole⟩
    obtain ⟨spot, journal, last⟩ := within.ends.eq_last atEnd
    rw [last] at whole
    exact some (List.append_eq_nil_iff.mp whole.symm).1
  · have lighter := walks.weight_le
    have before : start.left ≤ scanner.feed.left := left_again_le calls _
    have unread := scanner.left_feed_le
    omega

end Analysis

end AdaFront
