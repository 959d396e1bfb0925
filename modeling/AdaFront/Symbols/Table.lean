import AdaFront.Symbols.Entry

namespace AdaFront

/-- The names declared in one scope with their entries, in the order of declaration. -/
abbrev Frame := List (String × EntryId)

/-- Entries outlive their scopes: closing a scope hides its names and keeps what was declared. The
innermost scope comes first. -/
structure Table where
  entries : Array Entry
  groups : Array (List EntryId)
  scopes : List Frame
deriving DecidableEq, Repr, Inhabited

/-- Why a table refuses a request. -/
inductive TableError where
  | duplicate (name : String)
  | undeclared (name : String)
  | noOpenScope (name : String)
  | noSuchEntry (id : EntryId)
  | noSuchGroup (group : GroupId)
deriving DecidableEq, Repr, Inhabited

def TableError.message : TableError → String
  | .duplicate name => "identifier `" ++ name ++ "` already declared in this block"
  | .undeclared name => "undeclared identifier `" ++ name ++ "`"
  | .noOpenScope name => "no open scope to declare `" ++ name ++ "` in"
  | .noSuchEntry id => "no entry " ++ toString id
  | .noSuchGroup group => "no group " ++ toString group

namespace Table

def empty : Table := ⟨#[], #[], []⟩

/-- The depth of nesting: the outermost scope is at level 0, and without a scope it is -1. -/
def level (table : Table) : Int :=
  (table.scopes.length : Int) - 1

def entry? (table : Table) (id : EntryId) : Option Entry :=
  table.entries[id]?

def groupOf? (table : Table) (id : EntryId) : Option GroupId :=
  (table.entry? id).map Entry.group

def members? (table : Table) (group : GroupId) : Option (List EntryId) :=
  table.groups[group]?

def enter (table : Table) : Table :=
  { table with scopes := [] :: table.scopes }

/-- Closes the innermost scope and gives its frame. -/
def exit? (table : Table) : Option (Frame × Table) :=
  match table.scopes with
  | [] => none
  | frame :: outer => some (frame, { table with scopes := outer })

def entriesOf (table : Table) (frame : Frame) : List Entry :=
  frame.filterMap fun (_, id) => table.entry? id

/-- Adds an entry at the end of the innermost scope, unless the scope has its name already. -/
def insert (table : Table) (entry : Entry) : Except TableError (EntryId × Table) :=
  match table.scopes with
  | [] => .error (.noOpenScope entry.name)
  | frame :: outer =>
    match frame.lookup entry.name with
    | some _ => .error (.duplicate entry.name)
    | none =>
      let id := table.entries.size
      .ok (id, { table with
        entries := table.entries.push entry
        scopes := (frame ++ [(entry.name, id)]) :: outer })

/-- Declares a name in a group of its own. -/
def declare (table : Table) (name : String) (role : Role) : Except TableError (EntryId × Table) :=
  match table.insert ⟨name, role, none, table.groups.size⟩ with
  | .error e => .error e
  | .ok (id, after) => .ok (id, { after with groups := after.groups.push [id] })

/-- The entry that lends its role and its value to the names that join a group. -/
def leader? (table : Table) (group : GroupId) : Option Entry :=
  match table.members? group with
  | some (id :: _) => table.entry? id
  | _ => none

/-- Declares a name as one more member of a group. -/
def declareIn (table : Table) (name : String) (group : GroupId) :
    Except TableError (EntryId × Table) :=
  match table.leader? group with
  | none => .error (.noSuchGroup group)
  | some leader =>
    match table.insert ⟨name, leader.role, leader.value, group⟩ with
    | .error e => .error e
    | .ok (id, after) => .ok (id, { after with groups := after.groups.modify group (· ++ [id]) })

/-- The declaration of a name that is visible here: the innermost one. -/
def lookup (table : Table) (name : String) : Except TableError EntryId :=
  match table.scopes.findSome? (·.lookup name) with
  | some id => .ok id
  | none => .error (.undeclared name)

/-- Changes every entry of a group. -/
def update (table : Table) (group : GroupId) (change : Entry → Entry) : Table :=
  let ids := (table.members? group).getD []
  { table with entries := ids.foldl (fun entries id => entries.modify id change) table.entries }

def setRole (table : Table) (group : GroupId) (role : Role) : Table :=
  table.update group fun entry => { entry with role := role }

def setValue (table : Table) (group : GroupId) (value : Option Value) : Table :=
  table.update group fun entry => { entry with value := value }

/-- Declares a name that is known to be new; a name that is refused leaves the table alone. -/
def predefine (table : Table) (name : String) (role : Role) (value : Option Value) : Table :=
  match table.declare name role with
  | .error _ => table
  | .ok (_, after) => after.setValue table.groups.size value

/-- The table every program starts with: the predefined types and the truth values, at level 0. -/
def predefined : Table :=
  empty.enter
    |>.predefine "boolean" .type none
    |>.predefine "char" .type none
    |>.predefine "integer" .type none
    |>.predefine "true" .constant (some (.boolean true))
    |>.predefine "false" .constant (some (.boolean false))

end Table

end AdaFront
