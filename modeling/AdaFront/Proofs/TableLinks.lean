import AdaFront.Proofs.Elaboration

namespace AdaFront

/-- What the names that share the entry's group have in common. -/
def Entry.cell (entry : Entry) : Cell :=
  ⟨entry.role, entry.value.bind Value.integer?⟩

namespace Table

/-- Entries and groups refer to each other, the entries of a group agree, and each name in a scope has
an entry. -/
structure Linked (table : Table) : Prop where
  member {group : GroupId} {ids : List EntryId} {id : EntryId} :
    table.members? group = some ids → id ∈ ids → table.groupOf? id = some group
  joined {id : EntryId} {group : GroupId} :
    table.groupOf? id = some group → ∃ ids, table.members? group = some ids ∧ id ∈ ids
  present {group : GroupId} {ids : List EntryId} : table.members? group = some ids → ids ≠ []
  ordered {group : GroupId} {ids : List EntryId} :
    table.members? group = some ids → ids.Pairwise (· < ·)
  alike {id other : EntryId} {entry entry' : Entry} : table.entry? id = some entry →
    table.entry? other = some entry' → entry.group = entry'.group →
    entry.role = entry'.role ∧ entry.value = entry'.value
  frames {frame : Frame} {name : String} {id : EntryId} : frame ∈ table.scopes →
    (name, id) ∈ frame → ∃ entry, table.entry? id = some entry ∧ entry.name = name

theorem entry?_of_groupOf? {table : Table} {id : EntryId} {group : GroupId}
    (same : table.groupOf? id = some group) :
    ∃ entry, table.entry? id = some entry ∧ entry.group = group :=
  Option.map_eq_some_iff.mp same

theorem lt_size_of_entry {table : Table} {id : EntryId} {entry : Entry}
    (found : table.entry? id = some entry) : id < table.entries.size :=
  (Array.getElem?_eq_some_iff.mp found).1

theorem lt_size_of_groupOf? {table : Table} {id : EntryId} {group : GroupId}
    (same : table.groupOf? id = some group) : id < table.entries.size := by
  obtain ⟨entry, found, _⟩ := entry?_of_groupOf? same
  exact (Array.getElem?_eq_some_iff.mp found).1

theorem lt_size_of_members? {table : Table} {group : GroupId} {ids : List EntryId}
    (found : table.members? group = some ids) : group < table.groups.size :=
  (Array.getElem?_eq_some_iff.mp found).1

theorem empty_linked : empty.Linked where
  member found := by cases found
  joined found := by cases found
  present found := by cases found
  ordered found := by cases found
  alike found := by cases found
  frames found := absurd found List.not_mem_nil

theorem Linked.enter {table : Table} (linked : table.Linked) : table.enter.Linked where
  member := linked.member
  joined := linked.joined
  present := linked.present
  ordered := linked.ordered
  alike := linked.alike
  frames atFrame atName := by
    rcases List.mem_cons.mp atFrame with rfl | outer
    · cases atName
    · exact linked.frames outer atName

theorem Linked.exit {table after : Table} {frame : Frame} (linked : table.Linked)
    (exits : table.exit? = some (frame, after)) : after.Linked := by
  unfold exit? at exits
  split at exits
  next => cases exits
  next first outer scopes =>
    obtain ⟨rfl, rfl⟩ := Prod.mk.inj (Option.some.inj exits)
    refine ⟨linked.member, linked.joined, linked.present, linked.ordered, linked.alike, ?_⟩
    intro frame name id atFrame
    exact linked.frames (scopes ▸ List.mem_cons_of_mem _ atFrame)

/-- A new entry at the end of the innermost scope leaves the other names their entries. -/
theorem Linked.frames_push {table after : Table} {entry : Entry} {first : Frame} {outer : List Frame}
    (linked : table.Linked) (scopes : table.scopes = first :: outer)
    (entries : after.entries = table.entries.push entry)
    (scopes' : after.scopes = (first ++ [(entry.name, table.entries.size)]) :: outer)
    {frame : Frame} {name : String} {id : EntryId} (atFrame : frame ∈ after.scopes)
    (atName : (name, id) ∈ frame) : ∃ found, after.entry? id = some found ∧ found.name = name := by
  have pushed (id : EntryId) :
      after.entry? id = if id = table.entries.size then some entry else table.entry? id := by
    rw [ entry?, entries]
    exact Array.getElem?_push
  have kept (old : ∃ found, table.entry? id = some found ∧ found.name = name) :
      ∃ found, after.entry? id = some found ∧ found.name = name := by
    obtain ⟨found, atId, same⟩ := old
    have bound := (Array.getElem?_eq_some_iff.mp atId).1
    rw [pushed, if_neg (Nat.ne_of_lt bound)]
    exact ⟨found, atId, same⟩
  rw [scopes'] at atFrame
  rcases List.mem_cons.mp atFrame with rfl | atOuter
  · rcases List.mem_append.mp atName with old | new
    · exact kept (linked.frames (scopes ▸ List.mem_cons_self) old)
    · cases List.mem_singleton.mp new
      rw [pushed, if_pos rfl]
      exact ⟨_, rfl, rfl⟩
  · exact kept (linked.frames (scopes ▸ List.mem_cons_of_mem _ atOuter) atName)

section Declare

variable {table : Table} {name : String} {frame : Frame} {outer : List Frame}

/-- The table with one more entry, in a new group of its own. -/
def withEntry (table : Table) (name : String) (role : Role) (frame : Frame) (outer : List Frame) :
    Table where
  entries := table.entries.push ⟨name, role, none, table.groups.size⟩
  groups := table.groups.push [table.entries.size]
  scopes := (frame ++ [(name, table.entries.size)]) :: outer

theorem declare_of_lookup_none (role : Role) (scopes : table.scopes = frame :: outer)
    (new : frame.lookup name = none) :
    table.declare name role =
      .ok (table.entries.size, table.withEntry name role frame outer) := by
  simp [declare, insert, scopes, new, withEntry]

theorem declare_of_lookup_some (role : Role) {id : EntryId} (scopes : table.scopes = frame :: outer)
    (old : frame.lookup name = some id) : table.declare name role = .error (.duplicate name) := by
  simp [declare, insert, scopes, old]

theorem entry?_withEntry (role : Role) (id : EntryId) :
    Table.entry? (table.withEntry name role frame outer) id =
      if id = table.entries.size then some ⟨name, role, none, table.groups.size⟩
      else table.entry? id :=
  Array.getElem?_push

theorem groupOf?_withEntry (role : Role) (id : EntryId) :
    (table.withEntry name role frame outer).groupOf? id =
      if id = table.entries.size then some table.groups.size else table.groupOf? id := by
  rw [groupOf?, entry?_withEntry]
  split <;> rfl

theorem members?_withEntry (role : Role) (group : GroupId) :
    (table.withEntry name role frame outer).members? group =
      if group = table.groups.size then some [table.entries.size] else table.members? group :=
  Array.getElem?_push

theorem Linked.declare (linked : table.Linked) (role : Role) (scopes : table.scopes = frame :: outer) :
    (table.withEntry name role frame outer).Linked where
  member {group ids id} found inside := by
    rw [members?_withEntry] at found
    rw [groupOf?_withEntry]
    split at found
    next same =>
      cases found
      rw [if_pos (List.mem_singleton.mp inside), same]
    next =>
      have old := linked.member found inside
      have bound := lt_size_of_groupOf? old
      rw [if_neg (Nat.ne_of_lt bound)]
      exact old
  joined {id group} found := by
    rw [groupOf?_withEntry] at found
    rw [members?_withEntry]
    split at found
    next same =>
      cases found
      exact ⟨_, if_pos rfl, List.mem_singleton.mpr same⟩
    next =>
      obtain ⟨ids, old, inside⟩ := linked.joined found
      have bound := lt_size_of_members? old
      rw [if_neg (Nat.ne_of_lt bound)]
      exact ⟨ids, old, inside⟩
  present {group ids} found := by
    rw [members?_withEntry] at found
    split at found
    next =>
      cases found
      exact List.cons_ne_nil _ _
    next => exact linked.present found
  ordered {group ids} found := by
    rw [members?_withEntry] at found
    split at found
    next =>
      cases found
      exact List.pairwise_singleton _ _
    next => exact linked.ordered found
  alike {id other entry entry'} found found' same := by
    rw [entry?_withEntry] at found found'
    have fresh {id : EntryId} {entry : Entry} (found : table.entry? id = some entry) :
        entry.group < table.groups.size := by
      obtain ⟨ids, old, _⟩ := linked.joined (congrArg (Option.map Entry.group) found)
      exact lt_size_of_members? old
    split at found
    next =>
      cases found
      split at found'
      next =>
        cases found'
        exact ⟨rfl, rfl⟩
      next =>
        exact absurd same.symm (Nat.ne_of_lt (fresh found'))
    next =>
      split at found'
      next =>
        cases found'
        exact absurd same (Nat.ne_of_lt (fresh found))
      next => exact linked.alike found found' same
  frames := linked.frames_push scopes rfl rfl

end Declare

section DeclareIn

variable {table : Table} {name : String} {group : GroupId} {leader : Entry} {frame : Frame}
  {outer : List Frame}

/-- The table with one more entry that joins the group of another. -/
def withMember (table : Table) (name : String) (leader : Entry) (frame : Frame)
    (outer : List Frame) : Table where
  entries := table.entries.push { leader with name := name }
  groups := table.groups.modify leader.group (· ++ [table.entries.size])
  scopes := (frame ++ [(name, table.entries.size)]) :: outer

/-- A group that exists has an entry that lends its role and value to the next one. -/
theorem Linked.exists_leader {ids : List EntryId} (linked : table.Linked)
    (found : table.members? group = some ids) :
    ∃ id leader, ids.head? = some id ∧ table.leader? group = some leader ∧
      table.entry? id = some leader ∧ leader.group = group := by
  cases ids with
  | nil => exact absurd rfl (linked.present found)
  | cons id ids =>
    obtain ⟨leader, atId, same⟩ := entry?_of_groupOf? (linked.member found List.mem_cons_self)
    refine ⟨id, leader, rfl, ?_, atId, same⟩
    rw [leader?, found]
    exact atId

theorem declareIn_of_lookup_none (scopes : table.scopes = frame :: outer)
    (leads : table.leader? group = some leader) (same : leader.group = group)
    (new : frame.lookup name = none) :
    table.declareIn name group =
      .ok (table.entries.size, table.withMember name leader frame outer) := by
  simp [declareIn, leads, insert, scopes, new, withMember, same]

theorem declareIn_of_lookup_some {id : EntryId} (scopes : table.scopes = frame :: outer)
    (leads : table.leader? group = some leader) (old : frame.lookup name = some id) :
    table.declareIn name group = .error (.duplicate name) := by
  simp [declareIn, leads, insert, scopes, old]

theorem entry?_withMember (id : EntryId) :
    Table.entry? (table.withMember name leader frame outer) id =
      if id = table.entries.size then some { leader with name := name } else table.entry? id :=
  Array.getElem?_push

theorem groupOf?_withMember (id : EntryId) :
    (table.withMember name leader frame outer).groupOf? id =
      if id = table.entries.size then some leader.group else table.groupOf? id := by
  rw [groupOf?, entry?_withMember]
  split <;> rfl

theorem members?_withMember (other : GroupId) :
    (table.withMember name leader frame outer).members? other =
      if leader.group = other then (table.members? other).map (· ++ [table.entries.size])
      else table.members? other :=
  Array.getElem?_modify

theorem Linked.declareIn {id : EntryId} (linked : table.Linked)
    (scopes : table.scopes = frame :: outer) (leads : table.entry? id = some leader) :
    (table.withMember name leader frame outer).Linked where
  member {other ids id'} found inside := by
    have kept (ids : List EntryId) (old : table.members? other = some ids) (inside : id' ∈ ids) :
        (table.withMember name leader frame outer).groupOf? id' = some other := by
      have same := linked.member old inside
      rw [groupOf?_withMember, if_neg (Nat.ne_of_lt (lt_size_of_groupOf? same))]
      exact same
    rw [members?_withMember] at found
    split at found
    next same =>
      obtain ⟨before, old, rfl⟩ := Option.map_eq_some_iff.mp found
      rcases List.mem_append.mp inside with atOld | new
      · exact kept before old atOld
      · rw [groupOf?_withMember, if_pos (List.mem_singleton.mp new), same]
    next => exact kept ids found inside
  joined {id' other} found := by
    rw [groupOf?_withMember] at found
    rw [members?_withMember]
    split at found
    next same =>
      cases found
      obtain ⟨ids, old, _⟩ := linked.joined (congrArg (Option.map Entry.group) leads)
      rw [if_pos rfl]
      exact ⟨_, congrArg (Option.map _) old, List.mem_append_right _ (List.mem_singleton.mpr same)⟩
    next =>
      obtain ⟨ids, old, inside⟩ := linked.joined found
      split
      next => exact ⟨_, congrArg (Option.map _) old, List.mem_append_left _ inside⟩
      next => exact ⟨ids, old, inside⟩
  present {other ids} found := by
    rw [members?_withMember] at found
    split at found
    next =>
      obtain ⟨before, _, rfl⟩ := Option.map_eq_some_iff.mp found
      exact List.append_ne_nil_of_right_ne_nil _ (List.cons_ne_nil _ _)
    next => exact linked.present found
  ordered {other ids} found := by
    rw [members?_withMember] at found
    split at found
    next =>
      obtain ⟨before, old, rfl⟩ := Option.map_eq_some_iff.mp found
      refine List.pairwise_append.mpr ⟨linked.ordered old, List.pairwise_singleton _ _, ?_⟩
      intro id' inside last atLast
      rw [List.mem_singleton.mp atLast]
      exact lt_size_of_groupOf? (linked.member old inside)
    next => exact linked.ordered found
  alike {one other entry entry'} found found' same := by
    rw [entry?_withMember] at found found'
    split at found
    next =>
      cases found
      split at found'
      next =>
        cases found'
        exact ⟨rfl, rfl⟩
      next => exact @linked.alike id other leader entry' leads found' same
    next =>
      split at found'
      next =>
        cases found'
        exact @linked.alike one id entry leader found leads same
      next => exact linked.alike found found' same
  frames := linked.frames_push scopes rfl rfl

end DeclareIn

section Update

variable {table : Table} {group : GroupId} {change : Entry → Entry}

theorem getElem?_foldl_modify (ids : List Nat) (apart : ids.Pairwise (· < ·)) (entries : Array Entry)
    (id : Nat) :
    (ids.foldl (fun entries id => entries.modify id change) entries)[id]? =
      if id ∈ ids then entries[id]?.map change else entries[id]? := by
  induction ids generalizing entries with
  | nil => rfl
  | cons first ids ih =>
    obtain ⟨less, apart⟩ := List.pairwise_cons.mp apart
    rw [List.foldl_cons, ih apart, Array.getElem?_modify]
    by_cases same : first = id
    · subst same
      have outside : first ∉ ids := fun inside => Nat.lt_irrefl _ (less first inside)
      simp [outside]
    · simp [same, Ne.symm same]

/-- A change of a group changes the entries of the group and no others. -/
theorem Linked.entry?_update (linked : table.Linked) (id : EntryId) :
    Table.entry? (table.update group change) id =
      (table.entry? id).map fun entry => if entry.group = group then change entry else entry := by
  cases found : table.members? group with
  | none =>
    have same : table.update group change = table := by simp [update, found]
    rw [same]
    cases atId : table.entry? id with
    | none => rfl
    | some entry =>
      obtain ⟨ids, known, _⟩ := linked.joined (congrArg (Option.map Entry.group) atId)
      have other : entry.group ≠ group := by
        intro same
        rw [same, found] at known
        cases known
      simp [other]
  | some ids =>
    have changed := @getElem?_foldl_modify change ids (linked.ordered found) table.entries id
    rw [ entry?, update, found]
    refine changed.trans ?_
    cases atId : table.entries[id]? with
    | none => simp [ entry?, atId]
    | some entry =>
      have grouped : table.groupOf? id = some entry.group := congrArg (Option.map Entry.group) atId
      have inside : id ∈ ids ↔ entry.group = group := by
        constructor
        · intro inside
          rw [linked.member found inside] at grouped
          exact (Option.some.inj grouped).symm
        · rintro rfl
          obtain ⟨ids', found', inside⟩ := linked.joined grouped
          cases found.symm.trans found'
          exact inside
      simp only [inside, entry?, atId, Option.map_some]
      split <;> rfl

/-- A change that leaves groups and names alone and treats entries that agree in the same way. -/
structure Gentle (change : Entry → Entry) : Prop where
  group (entry : Entry) : (change entry).group = entry.group
  name (entry : Entry) : (change entry).name = entry.name
  alike (entry other : Entry) : entry.role = other.role ∧ entry.value = other.value →
    (change entry).role = (change other).role ∧ (change entry).value = (change other).value

theorem Linked.groupOf?_update (linked : table.Linked) (gentle : Gentle change) (id : EntryId) :
    (table.update group change).groupOf? id = table.groupOf? id := by
  rw [groupOf?, linked.entry?_update, groupOf?, Option.map_map]
  congr 1
  funext entry
  rw [Function.comp_apply]
  split
  next => exact gentle.group entry
  next => rfl

theorem Linked.update (linked : table.Linked) (gentle : Gentle change) :
    (table.update group change).Linked where
  member found inside := (linked.groupOf?_update gentle _).trans (linked.member found inside)
  joined found := linked.joined ((linked.groupOf?_update gentle _).symm.trans found)
  present := linked.present
  ordered := linked.ordered
  alike {id other entry entry'} found found' same := by
    rw [linked.entry?_update] at found found'
    obtain ⟨before, atId, rfl⟩ := Option.map_eq_some_iff.mp found
    obtain ⟨before', atOther, rfl⟩ := Option.map_eq_some_iff.mp found'
    have groups (entry : Entry) :
        (if entry.group = group then change entry else entry).group = entry.group := by
      split
      next => exact gentle.group entry
      next => rfl
    rw [groups, groups] at same
    have agree := linked.alike atId atOther same
    rw [same]
    split
    next => exact gentle.alike before before' agree
    next => exact agree
  frames atFrame atName := by
    obtain ⟨entry, found, same⟩ := linked.frames atFrame atName
    rw [linked.entry?_update, found]
    refine ⟨_, rfl, ?_⟩
    dsimp only
    split
    next => exact (gentle.name entry).trans same
    next => exact same

theorem gentle_setRole (role : Role) : Gentle fun entry => { entry with role := role } :=
  ⟨fun _ => rfl, fun _ => rfl, fun _ _ agree => ⟨rfl, agree.2⟩⟩

theorem gentle_setValue (value : Option Value) : Gentle fun entry => { entry with value := value } :=
  ⟨fun _ => rfl, fun _ => rfl, fun _ _ agree => ⟨agree.1, rfl⟩⟩

end Update

/-- What a name stands for at the table's point of the program. -/
def scope (table : Table) : Scope := fun name =>
  match table.lookup name with
  | .ok id => (table.entry? id).map Entry.cell
  | .error _ => none

/-- The cell of a group. -/
def cellOf (table : Table) (ids : List EntryId) : Cell :=
  ((ids.head?.bind table.entry?).map Entry.cell).getD ⟨.unset, none⟩

/-- The group of an entry as the number of its cell. -/
def cellId (table : Table) (id : EntryId) : Nat :=
  (table.groupOf? id).getD 0

/-- A frame with cells in the place of the entries. -/
def named (table : Table) (frame : Frame) : List (String × Nat) :=
  frame.map fun (name, id) => (name, table.cellId id)

/-- The table with a cell for each group in the place of the entries. -/
def env (table : Table) : Environment where
  frames := table.scopes.map table.named
  cells := table.groups.toList.map table.cellOf

theorem getElem?_cells_env (table : Table) (group : GroupId) :
    table.env.cells[group]? = (table.members? group).map table.cellOf := by
  rw [env, List.getElem?_map, Array.getElem?_toList, members?]

theorem env_enter (table : Table) : table.enter.env = table.env.push := rfl

theorem env_exit {table after : Table} {frame : Frame} (exits : table.exit? = some (frame, after)) :
    after.env = table.env.pop := by
  unfold exit? at exits
  split at exits
  next => cases exits
  next first outer scopes =>
    obtain ⟨rfl, rfl⟩ := Prod.mk.inj (Option.some.inj exits)
    simp only [env, Environment.pop, scopes, List.map_cons, List.tail_cons]
    rfl

theorem lookup_map {α β : Type} (f : α → β) (name : String) (frame : List (String × α)) :
    (frame.map fun (key, value) => (key, f value)).lookup name = (frame.lookup name).map f := by
  induction frame with
  | nil => rfl
  | cons first frame ih =>
    obtain ⟨key, value⟩ := first
    rw [List.map_cons, List.lookup_cons, List.lookup_cons, ih]
    split <;> rfl

theorem lookup_named (table : Table) (name : String) (frame : Frame) :
    (table.named frame).lookup name = (frame.lookup name).map table.cellId :=
  lookup_map table.cellId name frame

theorem resolve_env (table : Table) (name : String) :
    table.env.resolve name = (table.scopes.findSome? (·.lookup name)).map table.cellId := by
  rw [Environment.resolve, env, List.findSome?_map, List.map_findSome?]
  congr 1
  funext frame
  exact table.lookup_named name frame

theorem holds_env {table : Table} {name : String} {frame : Frame} {outer : List Frame}
    (scopes : table.scopes = frame :: outer) :
    table.env.holds name = (frame.lookup name).isSome := by
  have head : table.env.frames.headD [] = table.named frame := by
    rw [env, scopes]
    rfl
  rw [Environment.holds, head, lookup_named, Option.isSome_map]

/-- A declared name has an entry. -/
theorem Linked.lookup {table : Table} {name : String} {id : EntryId} (linked : table.Linked)
    (found : table.lookup name = .ok id) : ∃ entry, table.entry? id = some entry := by
  unfold Table.lookup at found
  split at found
  next id' visible =>
    cases found
    obtain ⟨frame, atFrame, atName⟩ := List.exists_of_findSome?_eq_some visible
    obtain ⟨before, after, same, _⟩ := List.lookup_eq_some_iff.mp atName
    obtain ⟨entry, atId, _⟩ := @linked.frames frame name id atFrame (by simp [same])
    exact ⟨entry, atId⟩
  next => cases found

theorem lookup_error {table : Table} {name : String} {error : TableError}
    (refused : table.lookup name = .error error) : error = .undeclared name := by
  unfold lookup at refused
  split at refused
  next => cases refused
  next =>
    cases refused
    rfl

theorem Linked.cellOf {table : Table} {ids : List EntryId} {group : GroupId} {id : EntryId}
    {entry : Entry} (linked : table.Linked) (found : table.members? group = some ids)
    (atId : table.entry? id = some entry) (same : entry.group = group) :
    table.cellOf ids = entry.cell := by
  obtain ⟨first, leader, head, _, atFirst, sameGroup⟩ := linked.exists_leader found
  obtain ⟨role, value⟩ := linked.alike atFirst atId (sameGroup.trans same.symm)
  rw [Table.cellOf, head, Option.bind_some, atFirst, Option.map_some, Option.getD_some, Entry.cell,
    Entry.cell, role, value]

/-- Cells give each name what its entry gives it. -/
theorem Linked.scope_env {table : Table} (linked : table.Linked) :
    table.env.scope = table.scope := by
  funext name
  rw [Environment.scope, resolve_env, Table.scope]
  cases visible : table.scopes.findSome? (·.lookup name) with
  | none =>
    have nothing : table.lookup name = .error (.undeclared name) := by simp [Table.lookup, visible]
    rw [nothing]
    rfl
  | some id =>
    have found : table.lookup name = .ok id := by simp [Table.lookup, visible]
    obtain ⟨entry, atId⟩ := linked.lookup found
    have grouped : table.groupOf? id = some entry.group := congrArg (Option.map Entry.group) atId
    obtain ⟨ids, members, inside⟩ := linked.joined grouped
    rw [found]
    simp only [Option.map_some, Option.bind_some, cellId, grouped, Option.getD_some, atId, env,
      List.getElem?_map, Array.getElem?_toList]
    rw [members?] at members
    rw [members, Option.map_some, linked.cellOf members atId rfl]

section Push

variable {table after : Table} {frame : Frame} {name : String} {group : GroupId} {outer : List Frame}

/-- A new entry leaves the names that are there their cells. -/
theorem Linked.named_push (linked : table.Linked) (grouped : ∀ id, after.groupOf? id =
      if id = table.entries.size then some group else table.groupOf? id)
    (atFrame : frame ∈ table.scopes) : after.named frame = table.named frame := by
  refine List.map_congr_left fun (key, id) member => ?_
  obtain ⟨entry, found, _⟩ := linked.frames atFrame member
  have bound := (Array.getElem?_eq_some_iff.mp found).1
  dsimp only
  rw [cellId, cellId, grouped, if_neg (Nat.ne_of_lt bound)]

theorem Linked.frames_env_push (linked : table.Linked) (scopes : table.scopes = frame :: outer)
    (grouped : ∀ id, after.groupOf? id =
      if id = table.entries.size then some group else table.groupOf? id)
    (scopes' : after.scopes = (frame ++ [(name, table.entries.size)]) :: outer) :
    after.env.frames = (table.env.name name group).frames := by
  have atFrame := linked.named_push grouped (scopes ▸ List.mem_cons_self)
  have atOuter : outer.map after.named = outer.map table.named :=
    List.map_congr_left fun inner member =>
      linked.named_push grouped (scopes ▸ List.mem_cons_of_mem frame member)
  have atName : after.cellId table.entries.size = group := by rw [cellId, grouped, if_pos rfl]; rfl
  have first : after.named (frame ++ [(name, table.entries.size)]) =
      table.named frame ++ [(name, group)] := calc
    _ = after.named frame ++ [(name, after.cellId table.entries.size)] := List.map_append
    _ = table.named frame ++ [(name, group)] := by rw [atFrame, atName]
  rw [Environment.name, env, env, scopes', scopes, List.map_cons, List.map_cons, first, atOuter]
  rfl

/-- Members that have entries already keep their cell. -/
theorem Linked.cellOf_push {ids : List EntryId} {entry : Entry} (linked : table.Linked)
    (found : table.members? group = some ids) (entries : after.entries = table.entries.push entry)
    (others : List EntryId) : after.cellOf (ids ++ others) = table.cellOf ids := by
  obtain ⟨first, leader, head, _, atFirst, _⟩ := linked.exists_leader found
  have bound := (Array.getElem?_eq_some_iff.mp atFirst).1
  have same : after.entry? first = table.entry? first := by
    rw [ entry?, entries]
    exact Array.getElem?_push.trans (if_neg (Nat.ne_of_lt bound))
  have headAfter : (ids ++ others).head? = some first := by
    rw [List.head?_append, head]
    rfl
  rw [Table.cellOf, headAfter, Table.cellOf, head, Option.bind_some, Option.bind_some, same]

theorem Linked.env_declare {role : Role} (linked : table.Linked)
    (scopes : table.scopes = frame :: outer) :
    (table.withEntry name role frame outer).env =
      (table.env.allocate ⟨role, none⟩).name name table.env.cells.length := by
  have size : table.env.cells.length = table.groups.size := by
    rw [env, List.length_map, Array.length_toList]
  have frames := @Linked.frames_env_push table (table.withEntry name role frame outer) frame name
    table.groups.size outer linked scopes (groupOf?_withEntry role) rfl
  have old : table.groups.toList.map (table.withEntry name role frame outer).cellOf =
      table.groups.toList.map table.cellOf := by
    refine List.map_congr_left ?_
    intro ids member
    obtain ⟨group, atGroup⟩ := List.getElem?_of_mem member
    rw [Array.getElem?_toList] at atGroup
    have same := @Linked.cellOf_push table (table.withEntry name role frame outer) group ids _ linked
      atGroup rfl []
    rwa [List.append_nil] at same
  have new : (table.withEntry name role frame outer).cellOf [table.entries.size] = ⟨role, none⟩ := by
    rw [Table.cellOf, List.head?_cons, Option.bind_some, entry?_withEntry, if_pos rfl]
    rfl
  have cells : (table.withEntry name role frame outer).env.cells =
      table.env.cells ++ [⟨role, none⟩] := by
    rw [env, withEntry, Array.toList_push, List.map_append, List.map_singleton]
    exact congr (congrArg _ old) (congrArg (fun cell => [cell]) new)
  rw [size]
  exact congr (congrArg Environment.mk frames) cells

/-- One more member leaves all cells what they are. -/
theorem Linked.env_declareIn {leader : Entry} (linked : table.Linked)
    (scopes : table.scopes = frame :: outer) :
    (table.withMember name leader frame outer).env = table.env.name name leader.group := by
  have frames := @Linked.frames_env_push table (table.withMember name leader frame outer) frame name
    leader.group outer linked scopes groupOf?_withMember rfl
  have cells : (table.withMember name leader frame outer).env.cells = table.env.cells := by
    refine List.ext_getElem? ?_
    intro group
    rw [getElem?_cells_env, getElem?_cells_env, members?_withMember]
    cases found : table.members? group with
    | none => split <;> rfl
    | some ids =>
      have same := @Linked.cellOf_push table (table.withMember name leader frame outer) group ids _
        linked found rfl
      split
      next => exact congrArg some (same [table.entries.size])
      next =>
        have plain := same []
        rw [List.append_nil] at plain
        exact congrArg some plain
  exact congr (congrArg Environment.mk frames) cells

end Push

/-- Changing the entries of a group changes one cell. -/
theorem Linked.env_update {table : Table} {group : GroupId} {change : Entry → Entry}
    {change' : Cell → Cell} (linked : table.Linked) (gentle : Gentle change)
    (same : ∀ entry, (change entry).cell = change' entry.cell) :
    (table.update group change).env = table.env.change (some group) change' := by
  have named (frame : Frame) : (table.update group change).named frame = table.named frame := by
    refine List.map_congr_left fun (key, id) _ => ?_
    dsimp only
    rw [cellId, linked.groupOf?_update gentle, cellId]
  have frames : (table.update group change).env.frames = table.env.frames :=
    List.map_congr_left fun frame _ => named frame
  have cells : (table.update group change).env.cells = table.env.cells.modify group change' := by
    refine List.ext_getElem? ?_
    intro other
    rw [getElem?_cells_env, List.getElem?_modify, getElem?_cells_env]
    have members : (table.update group change).members? other = table.members? other := rfl
    rw [members]
    cases found : table.members? other with
    | none => split <;> rfl
    | some ids =>
      obtain ⟨first, leader, head, _, atFirst, sameGroup⟩ := linked.exists_leader found
      have changed : Table.entry? (table.update group change) first =
          some (if leader.group = group then change leader else leader) := by
        rw [linked.entry?_update, atFirst]
        rfl
      have after : (table.update group change).cellOf ids =
          (if leader.group = group then change leader else leader).cell := by
        rw [Table.cellOf, head, Option.bind_some, changed]
        rfl
      have before : table.cellOf ids = leader.cell := by
        rw [Table.cellOf, head, Option.bind_some, atFirst]
        rfl
      rw [Option.map_some, Option.map_some, after, before, sameGroup]
      by_cases atGroup : other = group
      · simp [atGroup, same]
      · simp [atGroup, Ne.symm atGroup]
  exact congr (congrArg Environment.mk frames) cells

theorem Linked.setRole {table : Table} (linked : table.Linked) (group : GroupId) (role : Role) :
    (table.setRole group role).Linked ∧ (table.setRole group role).env =
      table.env.change (some group) fun cell => { cell with role := role } :=
  ⟨linked.update (gentle_setRole role), linked.env_update (gentle_setRole role) fun _ => rfl⟩

theorem Linked.setValue {table : Table} (linked : table.Linked) (group : GroupId)
    (value : Option Value) :
    (table.setValue group value).Linked ∧ (table.setValue group value).env =
      table.env.change (some group) fun cell => { cell with value := value.bind Value.integer? } :=
  ⟨linked.update (gentle_setValue value), linked.env_update (gentle_setValue value) fun _ => rfl⟩

theorem Linked.predefine {table : Table} (linked : table.Linked) (name : String) (role : Role)
    (value : Option Value) : (table.predefine name role value).Linked := by
  unfold Table.predefine
  cases scopes : table.scopes with
  | nil =>
    have refused : table.declare name role = .error (.noOpenScope name) := by
      simp [Table.declare, insert, scopes]
    rw [refused]
    exact linked
  | cons frame outer =>
    cases atName : frame.lookup name with
    | some id =>
      rw [declare_of_lookup_some role scopes atName]
      exact linked
    | none =>
      rw [declare_of_lookup_none role scopes atName]
      exact ((linked.declare role scopes).setValue table.groups.size value).1

theorem predefined_linked : predefined.Linked :=
  empty_linked.enter.predefine "boolean" .type none
    |>.predefine "char" .type none
    |>.predefine "integer" .type none
    |>.predefine "true" .constant (some (.boolean true))
    |>.predefine "false" .constant (some (.boolean false))

theorem env_predefined : predefined.env = .predefined := by
  decide

end Table

end AdaFront
