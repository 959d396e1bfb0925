import Mathlib.Logic.Function.Basic
import AdaFront.Symbols.Table

namespace AdaFront

def Entry.rename (image : String → String) (entry : Entry) : Entry :=
  { entry with name := image entry.name }

def TableError.rename (image : String → String) : TableError → TableError
  | .duplicate name => .duplicate (image name)
  | .undeclared name => .undeclared (image name)
  | .noOpenScope name => .noOpenScope (image name)
  | .noSuchEntry id => .noSuchEntry id
  | .noSuchGroup group => .noSuchGroup group

namespace Table

/-- The names of a scope under their images, with the entries they had. -/
def renameFrame (image : String → String) (frame : Frame) : Frame :=
  frame.map fun (name, id) => (image name, id)

/-- The table of the same declarations under other names. -/
def rename (image : String → String) (table : Table) : Table where
  entries := table.entries.map (Entry.rename image)
  groups := table.groups
  scopes := table.scopes.map (renameFrame image)

/-- What a declaration gives under other names. -/
def renamed (image : String → String) :
    Except TableError (EntryId × Table) → Except TableError (EntryId × Table)
  | .ok (id, after) => .ok (id, after.rename image)
  | .error error => .error (error.rename image)

variable {image : String → String}

theorem rename_id (table : Table) : table.rename id = table := by
  have entries : table.entries.map (Entry.rename id) = table.entries := Array.map_id _
  have frame (frame : Frame) : renameFrame id frame = frame := List.map_id _
  have scopes : table.scopes.map (renameFrame id) = table.scopes := by
    rw [funext frame]
    exact List.map_id _
  rw [rename, entries, scopes]

theorem lookup_renameFrame (injective : Function.Injective image) (frame : Frame) (name : String) :
    (renameFrame image frame).lookup (image name) = frame.lookup name := by
  induction frame with
  | nil => rfl
  | cons first frame ih =>
    obtain ⟨key, id⟩ := first
    have same : (image name == image key) = (name == key) := by
      rw [Bool.eq_iff_iff, beq_iff_eq, beq_iff_eq, injective.eq_iff]
    change List.lookup (image name) ((image key, id) :: renameFrame image frame) = _
    rw [List.lookup_cons, List.lookup_cons, same, ih]

theorem entry?_rename (table : Table) (id : EntryId) :
    Table.entry? (table.rename image) id = (table.entry? id).map (Entry.rename image) :=
  Array.getElem?_map

theorem groupOf?_rename (table : Table) (id : EntryId) :
    (table.rename image).groupOf? id = table.groupOf? id := by
  rw [groupOf?, groupOf?, entry?_rename, Option.map_map]
  rfl

theorem lookup_rename (injective : Function.Injective image) (table : Table) (name : String) :
    (table.rename image).lookup (image name) =
      (table.lookup name).mapError (TableError.rename image) := by
  have same : (table.rename image).scopes.findSome? (·.lookup (image name)) =
      table.scopes.findSome? (·.lookup name) := by
    rw [rename, List.findSome?_map]
    exact congrArg (table.scopes.findSome? ·) (funext fun frame => lookup_renameFrame injective frame name)
  rw [lookup, lookup, same]
  split <;> rfl

theorem insert_rename (injective : Function.Injective image) (table : Table) (entry : Entry) :
    (table.rename image).insert (entry.rename image) = renamed image (table.insert entry) := by
  unfold insert
  cases scopes : table.scopes with
  | nil =>
    have none : (table.rename image).scopes = [] := by rw [rename, scopes, List.map_nil]
    rw [none]
    rfl
  | cons frame outer =>
    have some : (table.rename image).scopes =
        renameFrame image frame :: outer.map (renameFrame image) := by
      rw [rename, scopes, List.map_cons]
    rw [some]
    have same : (renameFrame image frame).lookup (entry.rename image).name = frame.lookup entry.name :=
      lookup_renameFrame injective frame entry.name
    dsimp only
    rw [same]
    cases frame.lookup entry.name with
    | some => rfl
    | none =>
      simp [renamed, rename, renameFrame, Entry.rename]

theorem declare_rename (injective : Function.Injective image) (table : Table) (name : String)
    (role : Role) :
    (table.rename image).declare (image name) role = renamed image (table.declare name role) := by
  have same := insert_rename injective table ⟨name, role, none, table.groups.size⟩
  have inserted : (table.rename image).insert ⟨image name, role, none, (table.rename image).groups.size⟩ =
      renamed image (table.insert ⟨name, role, none, table.groups.size⟩) := same
  rw [declare, declare, inserted]
  cases table.insert ⟨name, role, none, table.groups.size⟩ <;> rfl

theorem leader?_rename (table : Table) (group : GroupId) :
    (table.rename image).leader? group = (table.leader? group).map (Entry.rename image) := by
  have members : (table.rename image).members? group = table.members? group := rfl
  rw [leader?, leader?, members]
  split
  · exact entry?_rename table _
  · rfl

theorem declareIn_rename (injective : Function.Injective image) (table : Table) (name : String)
    (group : GroupId) :
    (table.rename image).declareIn (image name) group = renamed image (table.declareIn name group) := by
  rw [declareIn, declareIn, leader?_rename]
  cases table.leader? group with
  | none => rfl
  | some leader =>
    have inserted : (table.rename image).insert ⟨image name, (leader.rename image).role,
        (leader.rename image).value, group⟩ =
        renamed image (table.insert ⟨name, leader.role, leader.value, group⟩) :=
      insert_rename injective table ⟨name, leader.role, leader.value, group⟩
    rw [Option.map_some]
    dsimp only
    rw [inserted]
    cases table.insert ⟨name, leader.role, leader.value, group⟩ <;> rfl

theorem update_rename (change : Entry → Entry)
    (apart : ∀ entry, (change entry).rename image = change (entry.rename image)) (table : Table)
    (group : GroupId) :
    (table.rename image).update group change = (table.update group change).rename image := by
  have modified (ids : List EntryId) (entries : Array Entry) :
      ids.foldl (fun entries id => entries.modify id change) (entries.map (Entry.rename image)) =
        (ids.foldl (fun entries id => entries.modify id change) entries).map (Entry.rename image) := by
    induction ids generalizing entries with
    | nil => rfl
    | cons id ids ih =>
      have first : (entries.map (Entry.rename image)).modify id change =
          (entries.modify id change).map (Entry.rename image) := by
        refine Array.ext_getElem? fun other => ?_
        rw [Array.getElem?_modify, Array.getElem?_map, Array.getElem?_map, Array.getElem?_modify]
        split
        · rw [Option.map_map, Option.map_map]
          exact congrArg (Option.map · entries[other]?) (funext fun entry => (apart entry).symm)
        · rfl
      rw [List.foldl_cons, List.foldl_cons, first, ih]
  simp only [update, rename, modified]
  rfl

theorem setRole_rename (table : Table) (group : GroupId) (role : Role) :
    (table.rename image).setRole group role = (table.setRole group role).rename image :=
  update_rename (fun entry => { entry with role := role }) (fun _ => rfl) table group

theorem setValue_rename (table : Table) (group : GroupId) (value : Option Value) :
    (table.rename image).setValue group value = (table.setValue group value).rename image :=
  update_rename (fun entry => { entry with value := value }) (fun _ => rfl) table group

end Table

end AdaFront
