import AdaFront.Proofs.LinesRead

namespace AdaFront

/-- What an analysis would have to do without: an entry, a group or an open scope that is not there, or an
operator that no arithmetic is known for. -/
inductive Missing where
  | entry (id : EntryId)
  | group (group : GroupId)
  | scope (name : String)
  | operator (kind : Kind)
deriving DecidableEq, Repr

/-- Something that is done only if nothing is missing for it. -/
abbrev Attempt := Except Missing

namespace Table

def demandEntry (table : Table) (id : EntryId) : Attempt Entry :=
  match table.entry? id with
  | some entry => .ok entry
  | none => .error (.entry id)

/-- The members of a group. A group without members is no group. -/
def demandMembers (table : Table) (group : GroupId) : Attempt (List EntryId) :=
  match table.members? group with
  | some (id :: ids) => .ok (id :: ids)
  | _ => .error (.group group)

def changeEntry (change : Entry → Entry) (entries : Array Entry) (id : EntryId) :
    Attempt (Array Entry) :=
  if id < entries.size then .ok (entries.modify id change) else .error (.entry id)

/-- Changes the entries of a group one after another. -/
def changeGroup (table : Table) (group : GroupId) (change : Entry → Entry) : Attempt Table := do
  let ids ← table.demandMembers group
  let entries ← ids.foldlM (changeEntry change) table.entries
  return { table with entries := entries }

/-- Declares a predefined name and gives its group the value. -/
def attemptPredefine (name : String) (role : Role) (value : Option Value) (table : Table) : Attempt Table :=
  match table.declare name role with
  | .error _ => .ok table
  | .ok (id, after) => do
    let entry ← after.demandEntry id
    after.changeGroup entry.group fun entry => { entry with value := value }

def attemptPredefined : Attempt Table := do
  let table ← attemptPredefine "boolean" .type none empty.enter
  let table ← attemptPredefine "char" .type none table
  let table ← attemptPredefine "integer" .type none table
  let table ← attemptPredefine "true" .constant (some (.boolean true)) table
  attemptPredefine "false" .constant (some (.boolean false)) table

end Table

/-- The operator that an arithmetic symbol stands for. -/
def Operator.ofKind? : Kind → Option Operator
  | .plus => some .add
  | .minus => some .subtract
  | .star => some .multiply
  | .slash => some .divide
  | .kwMod => some .modulo
  | .power => some .power
  | _ => none

namespace Analysis

namespace State

variable (state : State)

/-- Reports that a name is declared already or not at all. Any other refusal means that something is
missing. -/
def remark : TableError → Attempt State
  | .noOpenScope name => .error (.scope name)
  | .noSuchEntry id => .error (.entry id)
  | .noSuchGroup group => .error (.group group)
  | error => .ok (state.report (.name error))

def attemptDeclare (role : Role) : Attempt State :=
  let after := state.advance
  match after.table.declare state.token.lexeme role with
  | .ok (_, table) => .ok { after with table := table }
  | .error error => after.remark error

def attemptListed : Attempt State :=
  let after := state.advance
  let declared := match after.group with
    | some group => after.table.declareIn state.token.lexeme group
    | none => after.table.declare state.token.lexeme .unset
  match declared with
  | .ok (id, table) => do
    let entry ← table.demandEntry id
    return { after with table := table, group := after.group.or (some entry.group) }
  | .error error => after.remark error

def attemptCheck (name : Option EntryId) (use : NameUse) : Attempt State :=
  match name with
  | none => .ok state
  | some id => do
    let entry ← state.table.demandEntry id
    return if entry.role = .unset ∨ entry.role ∈ use.roles then state
      else state.report (.roleMismatch use)

def attemptValue (name : Option EntryId) : Attempt (Option Int) :=
  match name with
  | none => .ok none
  | some id => do
    let entry ← state.table.demandEntry id
    return entry.value.bind Value.integer?

def attemptRole (role : Role) : Attempt State :=
  match state.group with
  | none => .ok state
  | some group => do
    let table ← state.table.changeGroup group fun entry => { entry with role := role }
    return { state with table := table }

def attemptConstant : Attempt State :=
  match state.group, state.value with
  | some group, some value => do
    let table ← state.table.changeGroup group fun entry => { entry with value := some (.integer value) }
    return { state with table := table }
  | _, _ => .ok state

def attemptAssign (name : Option EntryId) : Attempt State :=
  match name with
  | none => .ok state
  | some id => do
    let entry ← state.table.demandEntry id
    if entry.role ∈ NameUse.target.roles then
      let table ← state.table.changeGroup entry.group fun entry =>
        { entry with value := state.value.map .integer }
      return { state with table := table }
    else return state

/-- Closes the innermost scope and looks up all that was declared in it. -/
def attemptClose : Attempt State :=
  match state.table.exit? with
  | none => .ok state
  | some (frame, table) => do
    let entries ← frame.mapM fun item => table.demandEntry item.2
    return { state with table := table }.log (.scopeClosed state.table.level entries)

def attemptCombine (kind : Kind) (left : Option Int) : Attempt State :=
  match left, state.value with
  | some _, some _ =>
    match Operator.ofKind? kind with
    | some operator => .ok (state.combine operator left)
    | none => .error (.operator kind)
  | _, _ => .ok state.forget

/-- Attempts a step if the current token has the kind that the grammar asks for. -/
def attemptAt (kind : Kind) (step : Attempt Step) : Attempt Step :=
  if state.kind = kind then step else .ok (state.refuse (.expected (.token kind)))

def attemptName (use : NameUse) : Attempt Step := do
  return .go [] (← state.find.2.attemptCheck state.find.1 use)

def attemptObject : Attempt Step :=
  if state.kind = .kwConstant then do
    return .go [.accept .assign, .expression, .setConstant] (← state.advance.attemptRole .constant)
  else do return .go [.typeDefinition] (← state.attemptRole .variable)

def attemptAssignOrCall (name : Option EntryId) (indexed : Bool) : Attempt Step :=
  if state.kind = .assign then do
    let tasks := if indexed then [.expression] else [.expression, .assign name]
    return .go (tasks ++ [.accept .semicolon]) (← state.attemptCheck name .target).advance
  else do return .go [.accept .semicolon] (← state.attemptCheck name .call)

def attemptOperand (name : Option EntryId) (indexed : Bool) : Attempt Step := do
  let checked ← state.attemptCheck name .operand
  if indexed then return .go [] { checked with value := none }
  else return .go [] { checked with value := ← checked.attemptValue name }

end State

/-- One task, done only if nothing is missing for it. The tasks that ask nothing of the table and compute
nothing lack nothing. -/
def Task.attempt (state : State) : Task → Attempt Step
  | .declare role => state.attemptAt .identifier do return .go [] (← state.attemptDeclare role)
  | .closeScope => do return .go [] (← state.attemptClose)
  | .closingName => if state.kind = .identifier then state.attemptName .call else .ok (.go [] state)
  | .names => state.attemptAt .identifier do
    return .go [.moreNames] (← State.attemptListed { state with group := none })
  | .nextName => state.attemptAt .identifier do return .go [.moreNames] (← state.attemptListed)
  | .setRole role => do return .go [] (← state.attemptRole role)
  | .typeName => state.attemptAt .identifier (state.attemptName .typeName)
  | .declarations =>
    if state.kind = .identifier then do
      return .go [.moreNames, .accept .colon, .object, .accept .semicolon, .declarations]
        (← State.attemptListed { state with group := none })
    else .ok state.declarationStep
  | .typeDefinition =>
    if state.kind = .identifier then state.attemptName .typeName else .ok state.typeDefinitionStep
  | .object => state.attemptObject
  | .setConstant => do return .go [] (← state.attemptConstant)
  | .index => if state.kind = .identifier then state.attemptName .typeName else .ok state.indexStep
  | .assignOrCall name indexed => state.attemptAssignOrCall name indexed
  | .assign name => do return .go [] (← state.attemptAssign name)
  | .operand name indexed => state.attemptOperand name indexed
  | .combine operator left => do return .go [] (← state.attemptCombine operator.kind left)
  | task => .ok (task.step state)

end Analysis

namespace Table

variable {table : Table}

theorem demandEntry_eq {id : EntryId} {entry : Entry} (found : table.entry? id = some entry) :
    table.demandEntry id = .ok entry := by
  rw [demandEntry, found]

theorem Linked.demandMembers_eq {group : GroupId} {ids : List EntryId} (linked : table.Linked)
    (found : table.members? group = some ids) : table.demandMembers group = .ok ids := by
  cases ids with
  | nil => exact absurd rfl (linked.present found)
  | cons id ids => rw [demandMembers, found]

theorem foldlM_changeEntry (change : Entry → Entry) (ids : List EntryId) (entries : Array Entry)
    (known : ∀ id ∈ ids, id < entries.size) :
    ids.foldlM (changeEntry change) entries =
      .ok (ids.foldl (fun entries id => entries.modify id change) entries) := by
  induction ids generalizing entries with
  | nil => rfl
  | cons id ids ih =>
    obtain ⟨first, others⟩ := List.forall_mem_cons.mp known
    have changed : changeEntry change entries id = .ok (entries.modify id change) := if_pos first
    rw [List.foldlM_cons, changed, List.foldl_cons]
    refine ih _ fun other inside => ?_
    rw [Array.size_modify]
    exact others other inside

/-- A group that exists can be changed: all its members have entries. -/
theorem Linked.changeGroup_eq {group : GroupId} (linked : table.Linked)
    (known : group < table.groups.size) (change : Entry → Entry) :
    table.changeGroup group change = .ok (table.update group change) := by
  have found : table.members? group = some table.groups[group] := Array.getElem?_eq_getElem known
  have entries : ∀ id ∈ table.groups[group], id < table.entries.size :=
    fun id inside => lt_size_of_groupOf? (linked.member found inside)
  have changed := foldlM_changeEntry change _ _ entries
  unfold changeGroup Table.update
  rw [linked.demandMembers_eq found, found]
  simp only [bind, Except.bind, changed]
  rfl

theorem Linked.group_known {id : EntryId} {entry : Entry} (linked : table.Linked)
    (found : table.entry? id = some entry) : entry.group < table.groups.size := by
  obtain ⟨ids, members, _⟩ := linked.joined (congrArg (Option.map Entry.group) found)
  exact lt_size_of_members? members

/-- The entries of a frame are all there when it is closed. -/
theorem mapM_demandEntry (frame : Frame)
    (known : ∀ name id, (name, id) ∈ frame → ∃ entry, table.entry? id = some entry) :
    frame.mapM (fun item => table.demandEntry item.2) = .ok (table.entriesOf frame) := by
  induction frame with
  | nil => rfl
  | cons first frame ih =>
    obtain ⟨name, id⟩ := first
    obtain ⟨entry, found⟩ := known name id List.mem_cons_self
    have rest := ih fun name id inside => known name id (List.mem_cons_of_mem _ inside)
    have whole : table.entriesOf ((name, id) :: frame) = entry :: table.entriesOf frame := by
      simp only [entriesOf, List.filterMap_cons, found]
    rw [List.mapM_cons, demandEntry_eq found, rest, whole]
    rfl

/-- In an open scope a name can be refused as a duplicate only. -/
theorem declare_error {name : String} {role : Role} {error : TableError} (opened : table.scopes ≠ [])
    (refused : table.declare name role = .error error) : error = .duplicate name := by
  cases scopes : table.scopes with
  | nil => exact absurd scopes opened
  | cons frame outer =>
    cases atName : frame.lookup name with
    | some id =>
      rw [declare_of_lookup_some role scopes atName] at refused
      cases refused
      rfl
    | none =>
      rw [declare_of_lookup_none role scopes atName] at refused
      cases refused

theorem Linked.declareIn_error {name : String} {group : GroupId} {error : TableError}
    (linked : table.Linked) (known : group < table.groups.size) (opened : table.scopes ≠ [])
    (refused : table.declareIn name group = .error error) : error = .duplicate name := by
  obtain ⟨id, leader, _, leads, _, same⟩ := linked.exists_leader (Array.getElem?_eq_getElem known)
  cases scopes : table.scopes with
  | nil => exact absurd scopes opened
  | cons frame outer =>
    cases atName : frame.lookup name with
    | some id =>
      rw [declareIn_of_lookup_some scopes leads atName] at refused
      cases refused
      rfl
    | none =>
      rw [declareIn_of_lookup_none scopes leads same atName] at refused
      cases refused

end Table

namespace Analysis

namespace State

/-- The name has an entry, if it is declared. -/
def Knows (state : State) (name : Option EntryId) : Prop :=
  ∀ id ∈ name, ∃ entry, state.table.entry? id = some entry

theorem knows_none (state : State) : state.Knows none := by
  intro id held
  cases held

section

variable {state : State} {name : Option EntryId}

theorem Knows.attemptCheck_eq (knows : state.Knows name) (use : NameUse) :
    state.attemptCheck name use = .ok (state.check name use) := by
  cases name with
  | none => rfl
  | some id =>
    obtain ⟨entry, found⟩ := knows id rfl
    rw [attemptCheck, Table.demandEntry_eq found, check, Option.bind_some, found]
    rfl

theorem Knows.attemptValue_eq (knows : state.Knows name) :
    state.attemptValue name = .ok (state.valueOf name) := by
  cases name with
  | none => rfl
  | some id =>
    obtain ⟨entry, found⟩ := knows id rfl
    rw [attemptValue, Table.demandEntry_eq found, valueOf, Option.bind_some, found]
    rfl

theorem Knows.attemptAssign_eq (knows : state.Knows name) (sound : state.Sound) :
    state.attemptAssign name = .ok (state.assign name) := by
  cases name with
  | none => rfl
  | some id =>
    obtain ⟨entry, found⟩ := knows id rfl
    have changed := sound.table.toLinked.changeGroup_eq (sound.table.toLinked.group_known found)
    rw [attemptAssign, Table.demandEntry_eq found, State.assign, Option.bind_some, found]
    change (if entry.role ∈ NameUse.target.roles then _ else _) = Except.ok (if _ then _ else _)
    by_cases fits : entry.role ∈ NameUse.target.roles
    · rw [if_pos fits, if_pos fits, changed]
      rfl
    · rw [if_neg fits, if_neg fits]
      rfl

/-- A name that is found has an entry. -/
theorem Sound.knows_find (sound : state.Sound) : state.find.2.Knows state.find.1 := by
  unfold find
  dsimp only
  split
  next id found =>
    intro id' same
    cases same
    exact sound.table.toLinked.lookup found
  next => exact knows_none _

theorem Sound.attemptName_eq (sound : state.Sound) (use : NameUse) :
    state.attemptName use = .ok (state.nameStep use) := by
  rw [attemptName, sound.knows_find.attemptCheck_eq use]
  rfl

theorem Sound.attemptRole_eq (sound : state.Sound) (role : Role) :
    state.attemptRole role = .ok (state.setRole role) := by
  unfold attemptRole State.setRole
  cases same : state.group with
  | none => rfl
  | some group =>
    dsimp only
    rw [sound.table.toLinked.changeGroup_eq (sound.group same)]
    rfl

theorem Sound.attemptConstant_eq (sound : state.Sound) :
    state.attemptConstant = .ok state.setConstant := by
  unfold attemptConstant State.setConstant
  cases same : state.group with
  | none => rfl
  | some group =>
    cases state.value with
    | none => rfl
    | some value =>
      dsimp only
      rw [sound.table.toLinked.changeGroup_eq (sound.group same)]
      rfl

theorem Sound.attemptClose_eq (sound : state.Sound) : state.attemptClose = .ok state.closeScope := by
  unfold attemptClose State.closeScope Table.exit?
  cases scopes : state.table.scopes with
  | nil => rfl
  | cons frame outer =>
    have inner : frame ∈ state.table.scopes := scopes ▸ List.mem_cons_self
    have known (name : String) (id : EntryId) (inside : (name, id) ∈ frame) :
        ∃ entry, Table.entry? { state.table with scopes := outer } id = some entry := by
      obtain ⟨entry, found, _⟩ := sound.table.toLinked.frames inner inside
      exact ⟨entry, found⟩
    dsimp only
    rw [Table.mapM_demandEntry frame known]
    rfl

theorem attemptDeclare_eq (opened : state.table.scopes ≠ []) (role : Role) :
    state.attemptDeclare role = .ok (state.declare role) := by
  unfold attemptDeclare State.declare
  dsimp only
  cases declared : state.advance.table.declare state.token.lexeme role with
  | ok => rfl
  | error error =>
    rw [Table.declare_error opened declared]
    rfl

theorem Sound.attemptListed_eq (sound : state.Sound) (opened : state.table.scopes ≠ []) :
    state.attemptListed = .ok state.declareListed := by
  have finish {id : EntryId} {entry : Entry} {table : Table} (found : table.entry? id = some entry) :
      (do
        let entry ← table.demandEntry id
        return { state.advance with
          table := table, group := state.advance.group.or (some entry.group) } : Attempt State) =
      .ok { state.advance with table := table, group := state.advance.group.or (table.groupOf? id) } := by
    rw [Table.demandEntry_eq found, Table.groupOf?, found]
    rfl
  have linked := sound.table.toLinked
  unfold attemptListed State.declareListed
  dsimp only
  cases same : state.advance.group with
  | none =>
    rw [same] at finish
    cases declared : state.advance.table.declare state.token.lexeme .unset with
    | ok result =>
      obtain ⟨_, entry, _, _, found, _⟩ := (performs_of_declare declared).declares rfl
      exact finish found
    | error error =>
      rw [Table.declare_error opened declared]
      rfl
  | some group =>
    rw [same] at finish
    dsimp only
    cases declared : state.advance.table.declareIn state.token.lexeme group with
    | ok result =>
      obtain ⟨_, entry, _, _, found, _⟩ := (performs_of_declareIn linked declared).declares rfl
      exact finish found
    | error error =>
      rw [linked.declareIn_error (sound.group same) opened declared]
      rfl

end

/-- Each operator is the one that its symbol stands for. -/
theorem attemptCombine_eq (state : State) (operator : Operator) (left : Option Int) :
    state.attemptCombine operator.kind left = .ok (state.combine operator left) := by
  have known : Operator.ofKind? operator.kind = some operator := by cases operator <;> rfl
  unfold attemptCombine
  cases left with
  | none => rfl
  | some left =>
    cases right : state.value with
    | none =>
      unfold combine
      rw [right]
    | some right =>
      dsimp only
      rw [known]

end State

end Analysis

end AdaFront
