import AdaFront.Event

namespace AdaFront.Table

/-- The ways to use a table. -/
inductive Command where
  | enter
  | exit
  | declare (name : String) (role : Role)
  | declareIn (name : String) (group : GroupId)
  | lookup (name : String)
  | groupOf (id : EntryId)
  | members (group : GroupId)
  | setRole (group : GroupId) (role : Role)
  | setValue (group : GroupId) (value : Option Value)
  | entry (id : EntryId)
deriving DecidableEq, Repr, Inhabited

/-- What a command gives back. -/
inductive Answer where
  | done
  | frame (frame : Option Frame)
  | id (id : EntryId)
  | group (group : GroupId)
  | members (ids : List EntryId)
  | entry (entry : Entry)
  | refused (error : TableError)
deriving DecidableEq, Repr, Inhabited

def declared (table : Table) : Except TableError (EntryId × Table) → Answer × Table
  | .ok (id, after) => (.id id, after)
  | .error error => (.refused error, table)

/-- Answers with what was found, or refuses. -/
def found {α : Type} (result : Option α) (error : TableError) (answer : α → Answer) : Answer :=
  match result with
  | some value => answer value
  | none => .refused error

/-- Changes a group that exists. -/
def changed (table : Table) (group : GroupId) (after : Table) : Answer × Table :=
  match table.members? group with
  | some _ => (.done, after)
  | none => (.refused (.noSuchGroup group), table)

/-- Carries out a command. What is refused leaves the table alone. -/
def perform (table : Table) : Command → Answer × Table
  | .enter => (.done, table.enter)
  | .exit =>
    match table.exit? with
    | some (frame, after) => (.frame (some frame), after)
    | none => (.frame none, table)
  | .declare name role => table.declared (table.declare name role)
  | .declareIn name group => table.declared (table.declareIn name group)
  | .lookup name =>
    match table.lookup name with
    | .ok id => (.id id, table)
    | .error error => (.refused error, table)
  | .groupOf id => (found (table.groupOf? id) (.noSuchEntry id) .group, table)
  | .members group => (found (table.members? group) (.noSuchGroup group) .members, table)
  | .setRole group role => table.changed group (table.setRole group role)
  | .setValue group value => table.changed group (table.setValue group value)
  | .entry id => (found (table.entry? id) (.noSuchEntry id) .entry, table)

/-- What happens when a command is carried out. -/
def events (table : Table) : Command → List Event
  | .enter => [.scopeOpened table.enter.level]
  | .exit =>
    match table.exit? with
    | some (frame, _) => [.scopeClosed table.level (table.entriesOf frame)]
    | none => []
  | _ => []

end AdaFront.Table
