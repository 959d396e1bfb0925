import AdaFront.Proofs.Feeding
import AdaFront.Proofs.Renaming

namespace AdaFront

open AdaFront.Tree (Lexeme)

/-- A token under another name, if it is one. -/
def renameWord (image : String → String) (word : Lexeme) : Lexeme :=
  if word.1 = .identifier then (word.1, image word.2) else word

@[simp] theorem renameWord_fst (image : String → String) (word : Lexeme) :
    (renameWord image word).1 = word.1 := by
  unfold renameWord
  split <;> rfl

theorem renameWord_of_name (image : String → String) {word : Lexeme} (atName : word.1 = .identifier) :
    renameWord image word = (word.1, image word.2) :=
  if_pos atName

theorem renameWord_of_other (image : String → String) {word : Lexeme} (noName : word.1 ≠ .identifier) :
    renameWord image word = word :=
  if_neg noName

theorem renameWord_id (word : Lexeme) : renameWord id word = word := by
  unfold renameWord
  split <;> rfl

/-- A rejection under other names, without the place of its token. -/
def Rejection.recast (image : String → String) (rejection : Rejection) : Rejection :=
  let word := renameWord image rejection.token.word
  ⟨⟨word.1, word.2, 0, 0⟩, rejection.obstacle⟩

/-- A diagnostic under other names, without places. -/
def Diagnostic.recast (image : String → String) : Diagnostic → Diagnostic
  | .name error => .name (error.rename image)
  | .rejected rejection => .rejected (rejection.recast image)
  | diagnostic => diagnostic

def Effect.recast (image : String → String) : Effect → Effect
  | .remark diagnostic => .remark (diagnostic.recast image)
  | .printed value => .printed value

namespace Feed

/-- The feed of some text: it has one end, and between its tokens nothing happens but a search for
them. -/
structure Scanned (feed : Feed) : Prop where
  ends : Analysis.EndsOnce feed.kinds
  searched : feed.Searched

theorem Scanned.advance {feed : Feed} (scanned : feed.Scanned) : feed.advance.Scanned :=
  ⟨scanned.ends.advance, scanned.searched.advance⟩

/-- Behind the end of the input stands the end again. -/
theorem Scanned.words_of_end {feed : Feed} (scanned : feed.Scanned)
    (atEnd : feed.token.kind = .endOfInput) : feed.advance.words = feed.words := by
  obtain ⟨spot, journal, rfl⟩ := scanned.ends.eq_last atEnd
  rfl

end Feed

namespace Analysis

/-- Two analyses at the same place of two texts whose tokens agree up to a point, but for names: what they
know and what they have shown is the same under the image of the names. Behind the point stand other
tokens. -/
structure Parallel (image : String → String) (later later' : List Lexeme) (one other : State) : Prop where
  words : ∃ first read, one.words = first :: read ++ later ∧
    other.words = (first :: read).map (renameWord image) ++ later'
  scanned : one.feed.Scanned
  scanned' : other.feed.Scanned
  table : other.table = one.table.rename image
  value : other.value = one.value
  group : other.group = one.group
  effects : other.effects.map (Effect.recast id) = one.effects.map (Effect.recast image)

namespace Parallel

variable {image : String → String} {later later' : List Lexeme} {one other : State}

theorem word (parallel : Parallel image later later' one other) :
    other.token.word = renameWord image one.token.word := by
  obtain ⟨first, read, words, words'⟩ := parallel.words
  obtain ⟨rest, begins⟩ := one.feed.words_begin
  obtain ⟨rest', begins'⟩ := other.feed.words_begin
  have atFirst : one.token.word = first := (List.cons.inj (begins.symm.trans words)).1
  rw [atFirst]
  exact (List.cons.inj (begins'.symm.trans words')).1

theorem kind (parallel : Parallel image later later' one other) : other.kind = one.kind := by
  have same := congrArg Prod.fst parallel.word
  rwa [renameWord_fst] at same

theorem name (parallel : Parallel image later later' one other) (atName : one.kind = .identifier) :
    other.token.lexeme = image one.token.lexeme := by
  have same := congrArg Prod.snd parallel.word
  rwa [renameWord_of_name image atName] at same

theorem lexeme (parallel : Parallel image later later' one other) (noName : one.kind ≠ .identifier) :
    other.token.lexeme = one.token.lexeme := by
  have same := congrArg Prod.snd parallel.word
  rwa [renameWord_of_other image noName] at same

theorem log (parallel : Parallel image later later' one other) {event event' : Event}
    (same : event'.effect?.map (Effect.recast id) = event.effect?.map (Effect.recast image)) :
    Parallel image later later' (one.log event) (other.log event') := by
  refine ⟨parallel.words, parallel.scanned, parallel.scanned', parallel.table, parallel.value,
    parallel.group, ?_⟩
  have effects : (other.log event').effects = other.effects ++ event'.effect?.toList :=
    Journal.effects_cons _ _
  have effects' : (one.log event).effects = one.effects ++ event.effect?.toList :=
    Journal.effects_cons _ _
  rw [effects, effects', List.map_append, List.map_append, parallel.effects, ← Option.toList_map,
    ← Option.toList_map, same]

theorem effects_advance {state : State} (scanned : state.feed.Scanned) :
    state.advance.effects = state.effects :=
  Journal.effects_search scanned.searched.advance.journal state.journal

/-- Analyses advance together as long as the first one does not pass the point. -/
theorem advance (parallel : Parallel image later later' one other) (bound : later.length ≤ one.advance.left) :
    Parallel image later later' one.advance other.advance := by
  obtain ⟨first, read, words, words'⟩ := parallel.words
  refine ⟨?_, parallel.scanned.advance, parallel.scanned'.advance, parallel.table, parallel.value,
    parallel.group, ?_⟩
  · cases read with
    | cons second read =>
      exact ⟨second, read, Feed.words_advance words, Feed.words_advance words'⟩
    | nil =>
      -- The first analysis stands at the last common token. It may go on from there at the end only.
      have atEnd : one.kind = .endOfInput := by
        by_contra inner
        have less := one.left_advance inner
        have length := congrArg List.length words
        rw [State.words, one.feed.length_words] at length
        have same : one.left = later.length := Nat.succ.inj length
        omega
      exact ⟨first, [], (parallel.scanned.words_of_end atEnd).trans words,
        (parallel.scanned'.words_of_end (parallel.kind.trans atEnd)).trans words'⟩
  · rw [effects_advance parallel.scanned, effects_advance parallel.scanned']
    exact parallel.effects

theorem withTable (parallel : Parallel image later later' one other) (table : Table) :
    Parallel image later later' { one with table := table }
      { other with table := table.rename image } :=
  { parallel with table := rfl }

theorem withValue (parallel : Parallel image later later' one other) (value : Option Int) :
    Parallel image later later' { one with value := value } { other with value := value } :=
  { parallel with value := rfl }

theorem report_name (parallel : Parallel image later later' one other) (error : TableError) :
    Parallel image later later' (one.report (.name error))
      (other.report (.name (error.rename image))) := by
  refine parallel.log ?_
  cases error <;> rfl

theorem report_rejected (parallel : Parallel image later later' one other)
    {rejection rejection' : Rejection} (same : rejection'.recast id = rejection.recast image) :
    Parallel image later later' (one.report (.rejected rejection))
      (other.report (.rejected rejection')) := by
  refine parallel.log ?_
  exact congrArg (fun rejection => some (Effect.remark (.rejected rejection))) same

section Names

variable (injective : Function.Injective image)

include injective

theorem declare (parallel : Parallel image later later' one other) (role : Role)
    (atName : one.kind = .identifier) (bound : later.length ≤ one.advance.left) :
    Parallel image later later' (one.declare role) (other.declare role) := by
  have after := parallel.advance bound
  have same : other.advance.table.declare other.token.lexeme role =
      Table.renamed image (one.advance.table.declare one.token.lexeme role) := by
    rw [after.table, parallel.name atName, Table.declare_rename injective]
  unfold State.declare
  dsimp only
  rw [same]
  cases one.advance.table.declare one.token.lexeme role with
  | ok result => exact after.withTable result.2
  | error error => exact after.report_name error

theorem declareListed (parallel : Parallel image later later' one other)
    (atName : one.kind = .identifier) (bound : later.length ≤ one.advance.left) :
    Parallel image later later' one.declareListed other.declareListed := by
  have after := parallel.advance bound
  unfold State.declareListed
  dsimp only
  rw [parallel.name atName, after.table]
  cases group : one.advance.group with
  | none =>
    have group' := after.group.trans group
    simp only [group', Table.declare_rename injective]
    cases one.advance.table.declare one.token.lexeme .unset with
    | ok result => exact { after with table := rfl, group := Table.groupOf?_rename result.2 result.1 }
    | error error => exact after.report_name error
  | some leader =>
    have group' := after.group.trans group
    simp only [group', Table.declareIn_rename injective]
    cases one.advance.table.declareIn one.token.lexeme leader with
    | ok result => exact { after with table := rfl, group := rfl }
    | error error => exact after.report_name error

theorem find (parallel : Parallel image later later' one other) (atName : one.kind = .identifier)
    (bound : later.length ≤ one.advance.left) :
    other.find.1 = one.find.1 ∧ Parallel image later later' one.find.2 other.find.2 := by
  have after := parallel.advance bound
  have same : other.advance.table.lookup other.token.lexeme =
      (one.advance.table.lookup one.token.lexeme).mapError (TableError.rename image) := by
    rw [after.table, parallel.name atName, Table.lookup_rename injective]
  unfold State.find
  dsimp only
  rw [same]
  cases one.advance.table.lookup one.token.lexeme with
  | ok id => exact ⟨rfl, after⟩
  | error error => exact ⟨rfl, after.report_name error⟩

end Names

theorem bind_entry (parallel : Parallel image later later' one other) (name : Option EntryId) :
    name.bind other.table.entry? = (name.bind one.table.entry?).map (Entry.rename image) := by
  cases name with
  | none => rfl
  | some id => exact parallel.table ▸ Table.entry?_rename one.table id

theorem check (parallel : Parallel image later later' one other) (name : Option EntryId)
    (use : NameUse) : Parallel image later later' (one.check name use) (other.check name use) := by
  unfold State.check
  rw [parallel.bind_entry]
  cases name.bind one.table.entry? with
  | none => exact parallel
  | some entry =>
    dsimp only [Option.map_some, Entry.rename]
    split
    · exact parallel
    · exact parallel.log rfl

theorem valueOf (parallel : Parallel image later later' one other) (name : Option EntryId) :
    other.valueOf name = one.valueOf name := by
  rw [State.valueOf, State.valueOf, parallel.bind_entry]
  cases name.bind one.table.entry? <;> rfl

theorem setRole (parallel : Parallel image later later' one other) (role : Role) :
    Parallel image later later' (one.setRole role) (other.setRole role) := by
  unfold State.setRole
  rw [parallel.group]
  split
  next =>
    rw [parallel.table, Table.setRole_rename]
    exact { parallel with table := rfl, group := rfl }
  next => exact parallel

theorem setConstant (parallel : Parallel image later later' one other) :
    Parallel image later later' one.setConstant other.setConstant := by
  unfold State.setConstant
  rw [parallel.group, parallel.value]
  split
  next =>
    rw [parallel.table, Table.setValue_rename]
    exact { parallel with table := rfl, value := rfl, group := rfl }
  next => exact parallel

theorem assign (parallel : Parallel image later later' one other) (name : Option EntryId) :
    Parallel image later later' (one.assign name) (other.assign name) := by
  unfold State.assign
  rw [parallel.bind_entry]
  cases name.bind one.table.entry? with
  | none => exact parallel
  | some entry =>
    dsimp only [Option.map_some, Entry.rename]
    split
    · rw [parallel.table, parallel.value, Table.setValue_rename]
      exact { parallel with table := rfl, value := rfl }
    · exact parallel

theorem literal (parallel : Parallel image later later' one other) (noName : one.kind ≠ .identifier)
    (bound : later.length ≤ one.advance.left) :
    Parallel image later later' one.literal other.literal := by
  have after := parallel.advance bound
  unfold State.literal
  dsimp only
  rw [parallel.lexeme noName]
  split
  · exact after.withValue _
  · exact (after.log rfl).withValue none

theorem combine (parallel : Parallel image later later' one other) (operator : Operator)
    (left : Option Int) : Parallel image later later' (one.combine operator left)
      (other.combine operator left) := by
  unfold State.combine
  rw [parallel.value]
  split
  · split
    · exact parallel.withValue _
    · exact parallel.withValue none
    · exact (parallel.log rfl).withValue none
    · exact ((parallel.log rfl).log rfl).withValue none
  · exact parallel.withValue none

theorem openScope (parallel : Parallel image later later' one other) :
    Parallel image later later' one.openScope other.openScope := by
  have entered : Parallel image later later' { one with table := one.table.enter }
      { other with table := other.table.enter } := by
    rw [parallel.table]
    exact parallel.withTable one.table.enter
  exact entered.log rfl

theorem closeScope (parallel : Parallel image later later' one other) :
    Parallel image later later' one.closeScope other.closeScope := by
  have same : other.table.scopes = one.table.scopes.map (Table.renameFrame image) :=
    congrArg Table.scopes parallel.table
  unfold State.closeScope Table.exit?
  rw [same]
  cases scopes : one.table.scopes with
  | nil => exact parallel
  | cons frame outer =>
    have closed : Parallel image later later' { one with table := { one.table with scopes := outer } }
        { other with table := { other.table with scopes := outer.map (Table.renameFrame image) } } :=
      { parallel with table := by rw [parallel.table]; rfl }
    exact closed.log rfl

end Parallel

/-- Two steps that leave the same to do, or that stop for the same reason. -/
def Step.Alike (image : String → String) (later later' : List Lexeme) : Step → Step → Prop
  | .go tasks one, .go tasks' other =>
    tasks' = tasks ∧ Parallel image later later' one other
  | .stop rejection one, .stop rejection' other =>
    rejection'.recast id = rejection.recast image ∧ Parallel image later later' one other
  | _, _ => False

section Steps

variable {image : String → String} {later later' : List Lexeme} {one other : State} {task : Task}

/-- What one analysis can do, the other one can do too, as long as the first does not pass the point. -/
theorem Goes.parallel {after : State} {tasks : List Task} (goes : Goes one task tasks after)
    (injective : Function.Injective image) (parallel : Parallel image later later' one other)
    (bound : later.length ≤ after.left) :
    ∃ after', Goes other task tasks after' ∧ Parallel image later later' after after' := by
  have atKind {kind : Kind} (same : one.kind = kind) : other.kind = kind := parallel.kind.trans same
  have regrouped : Parallel image later later' { one with group := none } { other with group := none } :=
    { parallel with group := rfl }
  have named (use : NameUse) (atName : one.kind = .identifier)
      (bound : later.length ≤ (one.find.2.check one.find.1 use).left) :
      Parallel image later later' (one.find.2.check one.find.1 use) (other.find.2.check other.find.1 use) := by
    rw [State.left_check, State.left_find] at bound
    obtain ⟨name, found⟩ := parallel.find injective atName bound
    exact name ▸ found.check _ use
  cases goes with
  | takes takes =>
    refine ⟨_, .takes ?_, parallel.advance bound⟩
    rwa [parallel.kind, parallel.value]
  | omits optional apart => exact ⟨_, .omits optional (parallel.kind ▸ apart), parallel⟩
  | expands expands => exact ⟨_, .expands (parallel.kind ▸ expands), parallel⟩
  | declare atName =>
    rw [State.left_declare] at bound
    exact ⟨_, .declare (atKind atName), parallel.declare injective _ atName bound⟩
  | names atName =>
    rw [State.left_declareListed] at bound
    exact ⟨_, .names (atKind atName), regrouped.declareListed injective atName bound⟩
  | objects atName =>
    rw [State.left_declareListed] at bound
    exact ⟨_, .objects (atKind atName), regrouped.declareListed injective atName bound⟩
  | nextName atName =>
    rw [State.left_declareListed] at bound
    exact ⟨_, .nextName (atKind atName), parallel.declareListed injective atName bound⟩
  | closingName atName => exact ⟨_, .closingName (atKind atName), named _ atName bound⟩
  | typeName atName among => exact ⟨_, .typeName (atKind atName) among, named _ atName bound⟩
  | bare atName heads bare =>
    rw [State.left_find] at bound
    obtain ⟨name, found⟩ := parallel.find injective atName bound
    exact ⟨_, name ▸ .bare (atKind atName) heads (found.kind ▸ bare), found⟩
  | listed atName heads list =>
    have within : later.length ≤ one.advance.left :=
      one.left_find ▸ Nat.le_trans bound (State.left_advance_le _)
    obtain ⟨name, found⟩ := parallel.find injective atName within
    exact ⟨_, name ▸ .listed (atKind atName) heads (found.kind.trans list), found.advance bound⟩
  | setRole => exact ⟨_, .setRole, parallel.setRole _⟩
  | constantObject same =>
    rw [State.left_setRole] at bound
    exact ⟨_, .constantObject (atKind same), (parallel.advance bound).setRole _⟩
  | typedObject apart => exact ⟨_, .typedObject (parallel.kind ▸ apart), parallel.setRole _⟩
  | setConstant => exact ⟨_, .setConstant, parallel.setConstant⟩
  | target same => exact ⟨_, .target (atKind same), (parallel.check _ _).advance bound⟩
  | component same => exact ⟨_, .component (atKind same), (parallel.check _ _).advance bound⟩
  | call apart => exact ⟨_, .call (parallel.kind ▸ apart), parallel.check _ _⟩
  | assign => exact ⟨_, .assign, parallel.assign _⟩
  | print known => exact ⟨_, .print (parallel.value.trans known), parallel.log rfl⟩
  | endLogic apart => exact ⟨_, .endLogic (parallel.kind ▸ apart), parallel.withValue none⟩
  | forget => exact ⟨_, .forget, parallel.withValue none⟩
  | literal atLiteral =>
    rw [State.left_literal] at bound
    exact ⟨_, .literal (atKind atLiteral), parallel.literal (by simp [atLiteral]) bound⟩
  | @operand name =>
    have checked := parallel.check name .operand
    refine ⟨_, .operand, ?_⟩
    rw [checked.valueOf]
    exact checked.withValue _
  | combine => exact ⟨_, .combine, parallel.combine _ _⟩
  | openScope => exact ⟨_, .openScope, parallel.openScope⟩
  | closeScope => exact ⟨_, .closeScope, parallel.closeScope⟩

theorem Refuses.parallel {obstacle : Obstacle} (refuses : Refuses one task obstacle)
    (parallel : Parallel image later later' one other) : Refuses other task obstacle := by
  cases refuses with
  | unexpected asks apart => exact .unexpected asks (parallel.kind ▸ apart)
  | unknown unknown => exact .unknown (parallel.value.trans unknown)

/-- As long as the first of two parallel analyses does not pass the point, they take the same step. -/
theorem Task.step_alike (injective : Function.Injective image) (task : Task)
    (parallel : Parallel image later later' one other)
    (bound : later.length ≤ (task.step one).state.left) :
    Step.Alike image later later' (task.step one) (task.step other) := by
  revert bound
  refine task.step_cases one (fun goes bound => ?_) (fun {obstacle} refuses _ => ?_)
  · obtain ⟨after', goes, behind⟩ := goes.parallel injective parallel bound
    rw [goes.step]
    exact ⟨rfl, behind⟩
  · have same : Rejection.recast id ⟨other.token, obstacle⟩ = Rejection.recast image ⟨one.token, obstacle⟩ := by
      rw [Rejection.recast, Rejection.recast, parallel.word, renameWord_id]
    rw [(refuses.parallel parallel).step]
    exact ⟨same, parallel.report_rejected same⟩

end Steps

theorem invariant_left (bound : Nat) : Invariant fun state => state.left ≤ bound :=
  .ofFeed (fun feed => feed.left ≤ bound) fun {feed} holds => Nat.le_trans feed.left_advance_le holds

theorem left_run_le (tasks : List Task) (state : State) : (run tasks state).state.left ≤ state.left :=
  (invariant_left state.left).run (Nat.le_refl _)

/-- Parallel analyses end alike, if the first one does not pass the point. -/
theorem Parallel.run {image : String → String} {later later' : List Lexeme} {one other : State}
    (injective : Function.Injective image) (tasks : List Task)
    (parallel : Parallel image later later' one other)
    (bound : later.length ≤ (run tasks one).state.left) :
    (run tasks other).rejection.map (Rejection.recast id) =
        (run tasks one).rejection.map (Rejection.recast image) ∧
      Parallel image later later' (run tasks one).state (run tasks other).state := by
  induction tasks, one using run_induction generalizing other with
  | ended one =>
    rw [run_nil, run_nil]
    exact ⟨rfl, parallel⟩
  | go task tasks others one after step ih =>
    rw [run_go step] at bound ⊢
    have alike := Task.step_alike injective task parallel
      (by rw [step]; exact Nat.le_trans bound (left_run_le _ _))
    rw [step] at alike
    cases step' : task.step other with
    | go tasks' after' =>
      rw [step'] at alike
      obtain ⟨rfl, parallel⟩ := alike
      rw [run_go step']
      exact ih parallel bound
    | stop =>
      rw [step'] at alike
      cases alike
  | stop task others rejection one after step =>
    rw [run_stop step] at bound ⊢
    have alike := Task.step_alike injective task parallel (by rw [step]; exact bound)
    rw [step] at alike
    cases step' : task.step other with
    | go =>
      rw [step'] at alike
      cases alike
    | stop rejection' after' =>
      rw [step'] at alike
      obtain ⟨same, parallel⟩ := alike
      rw [run_stop step']
      exact ⟨congrArg some same, parallel⟩

end Analysis

end AdaFront
