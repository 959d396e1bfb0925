import AdaFront.Proofs.Recognition
import AdaFront.Proofs.TableLinks

namespace AdaFront

/-- What an event shows of the program. Unknown symbols are left out: they belong to the text. -/
def Event.effect? : Event → Option Effect
  | .reported _ (.unknownSymbol _) => none
  | .reported _ diagnostic => some (.remark diagnostic)
  | .printed value => some (.printed value)
  | _ => none

/-- What has been shown of the program, the earliest first. -/
def Journal.effects (journal : Journal) : List Effect :=
  journal.reverse.filterMap Event.effect?

theorem Journal.effects_cons (event : Event) (journal : Journal) :
    effects (event :: journal) = effects journal ++ event.effect?.toList := by
  rw [effects, effects, List.reverse_cons, List.filterMap_append]
  cases shown : event.effect? with
  | none => rw [List.filterMap_cons_none shown]; rfl
  | some effect => rw [List.filterMap_cons_some shown]; rfl

theorem Journal.effects_search {newer : Journal} (search : ∀ event ∈ newer, event.OfScanning)
    (journal : Journal) : effects (newer ++ journal) = effects journal := by
  induction newer with
  | nil => rfl
  | cons event newer ih =>
    obtain ⟨first, others⟩ := List.forall_mem_cons.mp search
    rw [List.cons_append, effects_cons, ih others]
    cases first <;> exact List.append_nil _

/-- The kind of the token that comes next. -/
def nextKind (rest : List Tree.Lexeme) : Kind :=
  (rest.head?.map Prod.fst).getD .endOfInput

@[simp] theorem nextKind_cons (lexeme : Tree.Lexeme) (rest : List Tree.Lexeme) :
    nextKind (lexeme :: rest) = lexeme.1 := rfl

namespace Analysis

open AdaFront.Tree (Lexeme)

namespace State

/-- The tokens from the current one on, without their places. -/
def lexemes (state : State) : List Lexeme :=
  state.feed.tokens.map fun token => (token.kind, token.lexeme)

def effects (state : State) : List Effect :=
  state.journal.effects

def scope (state : State) : Scope := state.table.scope

theorem kind_eq (state : State) : state.kind = nextKind state.lexemes := by
  obtain ⟨feed, table, value, group, journal⟩ := state
  cases feed <;> rfl

theorem kind_of_lexemes {state : State} {rest : List Lexeme} (same : state.lexemes = rest) :
    state.kind = nextKind rest := by
  rw [kind_eq, same]

theorem require_of_lexemes {state : State} {kind : Kind} {lexeme : String} {rest : List Lexeme}
    {step : Step} (same : state.lexemes = (kind, lexeme) :: rest) : state.require kind step = step := by
  have atKind : state.kind = kind := kind_of_lexemes same
  rw [require, if_pos atKind]

theorem lexeme_of_lexemes {state : State} {kind : Kind} {lexeme : String} {rest : List Lexeme}
    (same : state.lexemes = (kind, lexeme) :: rest) : state.token.lexeme = lexeme := by
  obtain ⟨feed, table, value, group, journal⟩ := state
  cases feed with
  | last => cases same
  | more =>
    obtain ⟨first, _⟩ := List.cons.inj same
    exact congrArg Prod.snd first

theorem lexemes_advance {state : State} {first : Lexeme} {rest : List Lexeme}
    (same : state.lexemes = first :: rest) : state.advance.lexemes = rest := by
  obtain ⟨feed, table, value, group, journal⟩ := state
  cases feed with
  | last => cases same
  | more => exact (List.cons.inj same).2

theorem lexemes_of_feed {state after : State} (same : after.feed = state.feed) :
    after.lexemes = state.lexemes := by
  rw [lexemes, same, lexemes]

theorem effects_report (state : State) (diagnostic : Diagnostic)
    (known : ∀ symbol, diagnostic ≠ .unknownSymbol symbol) :
    (state.report diagnostic).effects = state.effects ++ [.remark diagnostic] := by
  refine (Journal.effects_cons _ _).trans ?_
  cases diagnostic with
  | unknownSymbol symbol => exact absurd rfl (known symbol)
  | _ => rfl

/-- Before the first step of an analysis nothing has been shown. -/
theorem effects_ofLines (lines : List String) :
    (State.ofScanner (.ofReader (.ofLines lines))).effects = [] := by
  obtain ⟨newer, journal, search⟩ :=
    (Reader.keeps_searches []).next (Reader.Searches.start (.ofLines lines))
  refine (Journal.effects_search (Scanner.feed_searched _).journal _).trans ?_
  rw [Journal.effects_cons]
  exact congrArg (· ++ []) ((congrArg Journal.effects journal).trans (Journal.effects_search search []))

end State

/-- A task that looks for nothing but some kinds leaves another token where it is. -/
theorem Task.idle {state : State} {rest : List Lexeme} {task : Task} {kinds : List Kind}
    (optional : task.isOptional = true) (within : task.openings ⊆ kinds) (same : state.lexemes = rest)
    (apart : nextKind rest ∉ kinds) : task.step state = .go [] state :=
  task.step_omits optional fun opens => apart (State.kind_of_lexemes same ▸ within opens)

/-- The way from one state to another over tokens that no print statement begins with. It leaves the
table alone and makes some remarks. -/
structure Leads (state after : State) (rest : List Lexeme) (remarks : List Diagnostic) : Prop where
  lexemes : after.lexemes = rest
  read : ∃ read, state.lexemes = read ++ rest ∧ ∀ lexeme ∈ read, lexeme.1 ≠ .kwPrint
  table : after.table = state.table
  group : after.group = state.group
  effects : after.effects = state.effects ++ remarks.map .remark
  searched : after.feed.Searched

namespace Leads

variable {state middle after : State} {rest rest' : List Lexeme} {remarks more : List Diagnostic}

theorem trans (first : Leads state middle rest remarks) (second : Leads middle after rest' more) :
    Leads state after rest' (remarks ++ more) := by
  obtain ⟨before, whole, quiet⟩ := first.read
  obtain ⟨behind, again, quietAgain⟩ := second.read
  refine ⟨second.lexemes, ⟨before ++ behind, ?_, List.forall_mem_append.mpr ⟨quiet, quietAgain⟩⟩,
    second.table.trans first.table, second.group.trans first.group, ?_, second.searched⟩
  · rw [whole, ← first.lexemes, again, List.append_assoc]
  · rw [second.effects, first.effects, List.map_append, List.append_assoc]

/-- A step that takes no token and shows nothing. -/
theorem staying (searched : state.feed.Searched) (feed : after.feed = state.feed)
    (table : after.table = state.table) (group : after.group = state.group)
    (effects : after.effects = state.effects ++ remarks.map .remark) :
    Leads state after state.lexemes remarks :=
  ⟨State.lexemes_of_feed feed, ⟨[], rfl, List.forall_mem_nil _⟩, table, group, effects, feed ▸ searched⟩

theorem refl (searched : state.feed.Searched) : Leads state state state.lexemes [] :=
  staying searched rfl rfl rfl (List.append_nil _).symm

theorem report {diagnostic : Diagnostic} (searched : state.feed.Searched)
    (known : ∀ symbol, diagnostic ≠ .unknownSymbol symbol) :
    Leads state (state.report diagnostic) state.lexemes [diagnostic] :=
  staying searched rfl rfl rfl (state.effects_report diagnostic known)

/-- An event that shows nothing of the program. -/
theorem log {event : Event} (searched : state.feed.Searched) (silent : event.effect? = none) :
    Leads state (state.log event) state.lexemes [] := by
  refine staying searched rfl rfl rfl ((Journal.effects_cons event state.journal).trans ?_)
  rw [silent]
  rfl

theorem advance {first : Lexeme} (searched : state.feed.Searched)
    (same : state.lexemes = first :: rest) (quiet : first.1 ≠ .kwPrint) :
    Leads state state.advance rest [] := by
  refine ⟨State.lexemes_advance same, ⟨[first], same, List.forall_mem_singleton.mpr quiet⟩, rfl, rfl,
    ?_, searched.advance⟩
  rw [List.map_nil, List.append_nil]
  exact Journal.effects_search searched.advance.journal state.journal

/-- The value of the expression read last is no matter of the program. -/
theorem ofValue (searched : state.feed.Searched) (value : Option Int) :
    Leads state { state with value := value } state.lexemes [] :=
  staying searched rfl rfl rfl (List.append_nil _).symm

end Leads

end Analysis

namespace Table

/-- The entry that a name stands for, if it is declared. -/
def resolved (table : Table) (name : String) : Option EntryId :=
  match table.lookup name with
  | .ok id => some id
  | .error _ => none

theorem scope_eq (table : Table) (name : String) :
    table.scope name = ((table.resolved name).bind table.entry?).map Entry.cell := by
  unfold scope resolved
  cases table.lookup name <;> rfl

theorem resolve_env_of_entry (table : Table) {name : String} {entry : Entry}
    (found : (table.resolved name).bind table.entry? = some entry) :
    table.env.resolve name = some entry.group := by
  have same : table.resolved name = table.scopes.findSome? (·.lookup name) := by
    unfold resolved lookup
    cases table.scopes.findSome? (·.lookup name) <;> rfl
  obtain ⟨id, visible, atId⟩ := Option.bind_eq_some_iff.mp found
  have grouped : table.groupOf? id = some entry.group := congrArg (Option.map Entry.group) atId
  rw [resolve_env, ← same, visible, Option.map_some, cellId, grouped, Option.getD_some]

end Table

namespace Analysis

open AdaFront.Tree (Lexeme identifier)

namespace State

variable {state : State} {name : String} {rest : List Lexeme}

/-- Looking a name up reads it, and finds what the table knows. -/
theorem find_leads (searched : state.feed.Searched) (linked : state.table.Linked)
    (same : state.lexemes = identifier name :: rest) :
    Leads state state.find.2 rest (state.scope.undeclared name) ∧
      state.find.1 = state.table.resolved name ∧ state.find.2.value = state.value := by
  have read := Leads.advance searched same (by simp [identifier])
  have lexeme : state.token.lexeme = name := lexeme_of_lexemes same
  have table : state.advance.table = state.table := rfl
  unfold find Table.resolved
  simp only [lexeme, table]
  cases found : state.table.lookup name with
  | ok id =>
    obtain ⟨entry, atId⟩ := linked.lookup found
    have known : state.scope.undeclared name = [] := by
      simp [scope, Scope.undeclared, Table.scope, found, atId]
    rw [known]
    exact ⟨read, rfl, rfl⟩
  | error error =>
    have unknown : state.scope.undeclared name = [.name (.undeclared name)] := by
      simp [scope, Scope.undeclared, Table.scope, found]
    rw [unknown, Table.lookup_error found]
    have reported := @Leads.report state.advance (.name (.undeclared name)) read.searched (by simp)
    rw [read.lexemes] at reported
    exact ⟨read.trans reported, rfl, rfl⟩

/-- Checking the role of a name says what there is to say about it. -/
theorem check_leads (searched : state.feed.Searched) (use : NameUse) :
    Leads state (state.check (state.table.resolved name) use) state.lexemes
        (state.scope.misfit name use) ∧
      (state.check (state.table.resolved name) use).value = state.value := by
  have known := state.table.scope_eq name
  unfold check Scope.misfit scope
  rw [known]
  cases (state.table.resolved name).bind state.table.entry? with
  | none => exact ⟨Leads.refl searched, rfl⟩
  | some entry =>
    have role : entry.cell.role = entry.role := rfl
    simp only [Option.map_some, role]
    split
    next => exact ⟨Leads.refl searched, rfl⟩
    next => exact ⟨Leads.report searched (by simp), rfl⟩

theorem valueOf_resolved (state : State) (name : String) :
    state.valueOf (state.table.resolved name) = (state.scope name).bind Cell.value := by
  have known := state.table.scope_eq name
  unfold valueOf scope
  rw [known]
  cases (state.table.resolved name).bind state.table.entry? <;> rfl

/-- A literal is read with its value. -/
theorem literal_leads {digits : String} (searched : state.feed.Searched)
    (same : state.lexemes = (.integer, digits) :: rest) :
    Leads state state.literal rest
        (if inRange (literalValue digits) then [] else [.overflow]) ∧
      state.literal.value =
        if inRange (literalValue digits) then some (literalValue digits) else none := by
  have read := Leads.advance searched same (by simp)
  have lexeme : state.token.lexeme = digits := lexeme_of_lexemes same
  unfold literal
  simp only [lexeme]
  split
  next => exact ⟨read.trans (read.lexemes ▸ Leads.ofValue read.searched _), rfl⟩
  next =>
    have reported := @Leads.report state.advance .overflow read.searched (by simp)
    rw [read.lexemes] at reported
    have forgotten := Leads.ofValue reported.searched none
    rw [reported.lexemes] at forgotten
    exact ⟨(read.trans reported).trans forgotten, rfl⟩

/-- An operation is computed on its operands, with what there is to say about it. -/
theorem combine_leads (searched : state.feed.Searched) (operator : Operator) (left : Option Int) :
    Leads state (state.combine operator left) state.lexemes
        (operator.remarks left state.value) ∧
      (state.combine operator left).value = operator.value left state.value := by
  have unknown : Leads state state.forget state.lexemes [] := Leads.ofValue searched none
  cases left with
  | none => exact ⟨unknown, rfl⟩
  | some left =>
    unfold combine Operator.remarks Operator.value
    cases state.value with
    | none => exact ⟨unknown, rfl⟩
    | some right =>
      dsimp only
      cases operator.fold left right with
      | value value => exact ⟨Leads.ofValue searched (some value), rfl⟩
      | unknown => exact ⟨unknown, rfl⟩
      | divisionByZero =>
        have reported : Leads state (state.report .divisionByZero) state.lexemes [.divisionByZero] :=
          Leads.report searched (by simp)
        exact ⟨reported.trans (@Leads.ofValue (state.report .divisionByZero) searched none), rfl⟩
      | overflow =>
        have logged : Leads state (state.log (.overflowed left operator right)) state.lexemes [] :=
          Leads.log searched rfl
        have reported := @Leads.report (state.log (.overflowed left operator right)) .overflow
          searched (by simp)
        have forgotten := @Leads.ofValue
          ((state.log (.overflowed left operator right)).report .overflow) searched none
        exact ⟨(logged.trans reported).trans forgotten, rfl⟩

end State

end Analysis

end AdaFront
