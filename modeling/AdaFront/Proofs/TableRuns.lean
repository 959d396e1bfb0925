import AdaFront.Proofs.TableLinks
import AdaFront.Symbols.Command

namespace AdaFront.Table

/-- Carries out commands one after another. -/
def performAll (table : Table) (commands : List Command) : Table :=
  commands.foldl (fun table command => (table.perform command).2) table

@[simp] theorem performAll_nil (table : Table) : table.performAll [] = table := rfl

@[simp] theorem performAll_cons (table : Table) (command : Command) (commands : List Command) :
    table.performAll (command :: commands) = (table.perform command).2.performAll commands := rfl

@[simp] theorem performAll_append (table : Table) (first second : List Command) :
    table.performAll (first ++ second) = (table.performAll first).performAll second :=
  List.foldl_append

/-- The name that a command declares. -/
def Command.declares? : Command → Option String
  | .declare name _ | .declareIn name _ => some name
  | _ => none

/-- A command that only asks. -/
def Command.Asks : Command → Prop
  | .lookup _ | .groupOf _ | .members _ | .entry _ => True
  | _ => False

/-- What a command can do to a table. A declaration ends with the new name at the end of the innermost
scope; nothing else but opening and closing touches the scopes. -/
inductive Performs (table : Table) : Command → Answer → Table → Prop
  | enter : Performs table .enter .done table.enter
  | exit {frame outer} : table.scopes = frame :: outer →
      Performs table .exit (.frame (some frame)) { table with scopes := outer }
  | outside : table.scopes = [] → Performs table .exit (.frame none) table
  | declare {name role frame outer} : table.scopes = frame :: outer → frame.lookup name = none →
      Performs table (.declare name role) (.id table.entries.size)
        (table.withEntry name role frame outer)
  | join {name id leader frame outer} : table.scopes = frame :: outer → frame.lookup name = none →
      table.entry? id = some leader →
      Performs table (.declareIn name leader.group) (.id table.entries.size)
        (table.withMember name leader frame outer)
  | setRole {group ids} (role) : table.members? group = some ids →
      Performs table (.setRole group role) .done (table.setRole group role)
  | setValue {group ids} (value) : table.members? group = some ids →
      Performs table (.setValue group value) .done (table.setValue group value)
  | ask {command} (answer) : command.Asks → Performs table command answer table
  | refuse (command error) : Performs table command (.refused error) table

theorem declare_of_scopes_nil {table : Table} (name : String) (role : Role)
    (scopes : table.scopes = []) : table.declare name role = .error (.noOpenScope name) := by
  simp [declare, insert, scopes]

theorem declareIn_of_scopes_nil {table : Table} {group : GroupId} {leader : Entry} (name : String)
    (scopes : table.scopes = []) (leads : table.leader? group = some leader) :
    table.declareIn name group = .error (.noOpenScope name) := by
  simp [declareIn, leads, insert, scopes]

theorem members?_of_leader? {table : Table} {group : GroupId} {leader : Entry}
    (leads : table.leader? group = some leader) : ∃ ids, table.members? group = some ids := by
  unfold leader? at leads
  split at leads
  next _ _ found => exact ⟨_, found⟩
  next => cases leads

theorem performs_declare (table : Table) (name : String) (role : Role) :
    Performs table (.declare name role) (table.perform (.declare name role)).1
      (table.perform (.declare name role)).2 := by
  rw [perform]
  cases scopes : table.scopes with
  | nil =>
    rw [declare_of_scopes_nil name role scopes]
    exact .refuse _ _
  | cons frame outer =>
    cases atName : frame.lookup name with
    | some id =>
      rw [declare_of_lookup_some role scopes atName]
      exact .refuse _ _
    | none =>
      rw [declare_of_lookup_none role scopes atName]
      exact .declare scopes atName

theorem Linked.performs_declareIn {table : Table} (linked : table.Linked) (name : String)
    (group : GroupId) :
    Performs table (.declareIn name group) (table.perform (.declareIn name group)).1
      (table.perform (.declareIn name group)).2 := by
  rw [perform]
  cases leads : table.leader? group with
  | none =>
    have refused : table.declareIn name group = .error (.noSuchGroup group) := by
      simp [Table.declareIn, leads]
    rw [refused]
    exact .refuse _ _
  | some leader =>
    obtain ⟨ids, found⟩ := members?_of_leader? leads
    obtain ⟨id, same, _, leads', atId, rfl⟩ := linked.exists_leader found
    cases leads.symm.trans leads'
    cases scopes : table.scopes with
    | nil =>
      rw [declareIn_of_scopes_nil name scopes leads]
      exact .refuse _ _
    | cons frame outer =>
      cases atName : frame.lookup name with
      | some id =>
        rw [declareIn_of_lookup_some scopes leads atName]
        exact .refuse _ _
      | none =>
        rw [declareIn_of_lookup_none scopes leads rfl atName]
        exact .join scopes atName atId

theorem performs_exit (table : Table) :
    Performs table .exit (table.perform .exit).1 (table.perform .exit).2 := by
  rw [perform, exit?]
  cases scopes : table.scopes with
  | nil => exact .outside scopes
  | cons frame outer => exact .exit scopes

/-- What a command does is one of the things that commands can do. -/
theorem Linked.performs {table : Table} (linked : table.Linked) (command : Command) :
    Performs table command (table.perform command).1 (table.perform command).2 := by
  cases command with
  | enter => exact .enter
  | exit => exact performs_exit table
  | declare name role => exact table.performs_declare name role
  | declareIn name group => exact linked.performs_declareIn name group
  | setRole group role =>
    rw [perform, changed]
    cases found : table.members? group with
    | none => exact .refuse _ _
    | some ids => exact .setRole role found
  | setValue group value =>
    rw [perform, changed]
    cases found : table.members? group with
    | none => exact .refuse _ _
    | some ids => exact .setValue value found
  | lookup name =>
    rw [perform]
    split <;> exact .ask _ trivial
  | groupOf | members | entry => exact .ask _ trivial

/-- The names of the open scopes with their entries, from the outermost scope inwards and in the order of
declaration. -/
def inForce (table : Table) : Frame :=
  table.scopes.reverse.flatten

theorem inForce_cons {table : Table} {frame : Frame} {outer : List Frame}
    (scopes : table.scopes = frame :: outer) :
    table.inForce = outer.reverse.flatten ++ frame := by
  simp [inForce, scopes]

theorem mem_inForce {table : Table} {name : String} {id : EntryId} :
    (name, id) ∈ table.inForce ↔ ∃ frame ∈ table.scopes, (name, id) ∈ frame := by
  simp [inForce]

/-- A table as it should be: entries and groups are linked, no scope has a name twice, and of two names in
force the one declared later or further inside has the larger entry number. -/
structure Sound (table : Table) : Prop extends Linked table where
  distinct {frame : Frame} : frame ∈ table.scopes → (frame.map Prod.fst).Nodup
  rising : (table.inForce.map Prod.snd).Pairwise (· < ·)

theorem empty_sound : empty.Sound where
  toLinked := empty_linked
  distinct inside := absurd inside List.not_mem_nil
  rising := .nil

theorem Linked.lt_size {table : Table} (linked : table.Linked) {name : String} {id : EntryId}
    (inside : (name, id) ∈ table.inForce) : id < table.entries.size := by
  obtain ⟨frame, atFrame, atName⟩ := mem_inForce.mp inside
  obtain ⟨entry, found, _⟩ := linked.frames atFrame atName
  exact (Array.getElem?_eq_some_iff.mp found).1

theorem Sound.enter {table : Table} (sound : table.Sound) : table.enter.Sound where
  toLinked := sound.toLinked.enter
  distinct inside := by
    rcases List.mem_cons.mp inside with rfl | outer
    · exact List.nodup_nil
    · exact sound.distinct outer
  rising := by
    have same : table.enter.inForce = table.inForce := by simp [inForce, Table.enter]
    rw [same]
    exact sound.rising

theorem Sound.exit {table : Table} {frame : Frame} {outer : List Frame} (sound : table.Sound)
    (scopes : table.scopes = frame :: outer) : Sound { table with scopes := outer } where
  toLinked := sound.toLinked.exit (by rw [exit?, scopes])
  distinct inside := sound.distinct (scopes ▸ List.mem_cons_of_mem _ inside)
  rising := by
    have rising := sound.rising
    rw [inForce_cons scopes, List.map_append] at rising
    exact (List.pairwise_append.mp rising).1

theorem frame_lookup_eq_none {frame : Frame} {name : String} :
    frame.lookup name = none ↔ name ∉ frame.map Prod.fst := by
  rw [List.lookup_eq_none_iff, List.mem_map]
  constructor
  · rintro apart ⟨item, inside, rfl⟩
    simpa using apart item inside
  · intro apart item inside
    exact bne_iff_ne.mpr fun same => apart ⟨item, inside, same.symm⟩

/-- A new name comes last of those in force. -/
theorem Sound.push {table after : Table} {name : String} {frame : Frame} {outer : List Frame}
    (sound : table.Sound) (linked : after.Linked) (scopes : table.scopes = frame :: outer)
    (new : frame.lookup name = none)
    (scopes' : after.scopes = (frame ++ [(name, table.entries.size)]) :: outer) : after.Sound where
  toLinked := linked
  distinct {inner} inside := by
    rw [scopes'] at inside
    rcases List.mem_cons.mp inside with rfl | atOuter
    · have old := sound.distinct (scopes ▸ List.mem_cons_self)
      rw [List.map_append, List.map_singleton]
      refine List.nodup_append.mpr ⟨old, List.pairwise_singleton _ _, ?_⟩
      intro other inside last atLast same
      rw [same, List.mem_singleton.mp atLast] at inside
      exact frame_lookup_eq_none.mp new inside
    · exact sound.distinct (scopes ▸ List.mem_cons_of_mem _ atOuter)
  rising := by
    have last : after.inForce = table.inForce ++ [(name, table.entries.size)] := by
      rw [inForce_cons scopes', inForce_cons scopes, List.append_assoc]
    rw [last, List.map_append]
    refine List.pairwise_append.mpr ⟨sound.rising, List.pairwise_singleton _ _, ?_⟩
    intro id inside last atLast
    obtain ⟨⟨_, _⟩, member, rfl⟩ := List.mem_map.mp inside
    rw [List.mem_singleton.mp atLast]
    exact sound.toLinked.lt_size member

theorem Sound.update {table : Table} {group : GroupId} {change : Entry → Entry} (sound : table.Sound)
    (gentle : Gentle change) : (table.update group change).Sound where
  toLinked := sound.toLinked.update gentle
  distinct := sound.distinct
  rising := sound.rising

theorem Performs.sound {table after : Table} {command : Command} {answer : Answer}
    (performs : Performs table command answer after) (sound : table.Sound) : after.Sound := by
  cases performs with
  | enter => exact sound.enter
  | exit scopes => exact sound.exit scopes
  | outside => exact sound
  | declare scopes new => exact sound.push (sound.declare _ scopes) scopes new rfl
  | join scopes new leads => exact sound.push (sound.declareIn scopes leads) scopes new rfl
  | setRole role => exact sound.update (gentle_setRole role)
  | setValue value => exact sound.update (gentle_setValue value)
  | ask => exact sound
  | refuse => exact sound

theorem Sound.performAll {table : Table} (sound : table.Sound) (commands : List Command) :
    (table.performAll commands).Sound := by
  induction commands generalizing table with
  | nil => exact sound
  | cons command commands ih => exact ih ((sound.toLinked.performs command).sound sound)

/-- A change of a group changes its entries where they stand and nothing else. -/
theorem Linked.update_eq {table : Table} (linked : table.Linked) (group : GroupId)
    (change : Entry → Entry) :
    table.update group change = { table with
      entries := table.entries.map fun entry => if entry.group = group then change entry else entry } := by
  have entries : (table.update group change).entries =
      table.entries.map fun entry => if entry.group = group then change entry else entry := by
    refine Array.ext_getElem? fun id => ?_
    rw [Array.getElem?_map]
    exact linked.entry?_update id
  exact congrArg (fun entries => { table with entries := entries }) entries

/-- An entry that is there stays there, with its name and in its group. -/
theorem Performs.keeps {table after : Table} {command : Command} {answer : Answer} {id : EntryId}
    {entry : Entry} (performs : Performs table command answer after) (linked : table.Linked)
    (found : table.entry? id = some entry) :
    ∃ kept, after.entry? id = some kept ∧ kept.name = entry.name ∧ kept.group = entry.group := by
  have bound := (Array.getElem?_eq_some_iff.mp found).1
  have updated {group : GroupId} {change : Entry → Entry} (gentle : Gentle change) :
      ∃ kept, Table.entry? (table.update group change) id = some kept ∧ kept.name = entry.name ∧
        kept.group = entry.group := by
    rw [linked.entry?_update, found]
    refine ⟨_, rfl, ?_⟩
    dsimp only
    split
    next => exact ⟨gentle.name entry, gentle.group entry⟩
    next => exact ⟨rfl, rfl⟩
  cases performs with
  | declare =>
    rw [entry?_withEntry, if_neg (Nat.ne_of_lt bound)]
    exact ⟨entry, found, rfl, rfl⟩
  | join =>
    rw [entry?_withMember, if_neg (Nat.ne_of_lt bound)]
    exact ⟨entry, found, rfl, rfl⟩
  | setRole role => exact updated (gentle_setRole role)
  | setValue value => exact updated (gentle_setValue value)
  | _ => exact ⟨entry, found, rfl, rfl⟩

/-- A declaration leaves the entries that are there alone. -/
theorem Performs.entry?_of_declares {table after : Table} {command : Command} {answer : Answer}
    {name : String} {id : EntryId} {entry : Entry} (performs : Performs table command answer after)
    (declares : command.declares? = some name) (found : table.entry? id = some entry) :
    after.entry? id = some entry := by
  have bound := (Array.getElem?_eq_some_iff.mp found).1
  cases performs with
  | declare => exact (entry?_withEntry _ _).trans ((if_neg (Nat.ne_of_lt bound)).trans found)
  | join => exact (entry?_withMember _).trans ((if_neg (Nat.ne_of_lt bound)).trans found)
  | setRole | setValue => cases declares
  | _ => exact found

/-- The number of groups that a command makes. -/
def Command.newGroups : Command → Nat
  | .declare _ _ => 1
  | _ => 0

theorem Performs.groups_size {table after : Table} {command : Command} {answer : Answer}
    (performs : Performs table command answer after)
    (granted : ∀ error, answer ≠ .refused error) :
    after.groups.size = table.groups.size + command.newGroups := by
  cases performs with
  | declare => exact Array.size_push _
  | join => exact Array.size_modify
  | @ask command _ asks => cases command <;> first | rfl | cases asks
  | refuse _ error => exact absurd rfl (granted error)
  | _ => rfl

theorem Performs.groups_size_le {table after : Table} {command : Command} {answer : Answer}
    (performs : Performs table command answer after) : table.groups.size ≤ after.groups.size := by
  cases performs with
  | declare => simp [withEntry]
  | join => simp [withMember]
  | _ => exact Nat.le_refl _

/-- Apart from opening and closing, commands add names to the innermost scope at most. -/
theorem Performs.scopes_of_flat {table after : Table} {command : Command} {answer : Answer}
    {frame : Frame} {outer : List Frame}
    (performs : Performs table command answer after) (noEnter : command ≠ .enter)
    (noExit : command ≠ .exit) (scopes : table.scopes = frame :: outer) :
    ∃ more, after.scopes = (frame ++ more) :: outer := by
  cases performs with
  | enter => exact absurd rfl noEnter
  | exit | outside => exact absurd rfl noExit
  | declare same | join same =>
    cases scopes.symm.trans same
    exact ⟨_, rfl⟩
  | setRole | setValue | ask | refuse => exact ⟨[], by rw [List.append_nil]; exact scopes⟩

theorem Sound.performAll_keeps {table : Table} {id : EntryId} {entry : Entry} (sound : table.Sound)
    (commands : List Command) (found : table.entry? id = some entry) :
    ∃ kept, Table.entry? (table.performAll commands) id = some kept ∧ kept.name = entry.name ∧
      kept.group = entry.group := by
  induction commands generalizing table entry with
  | nil => exact ⟨entry, found, rfl, rfl⟩
  | cons command commands ih =>
    have performs := sound.toLinked.performs command
    obtain ⟨kept, atId, name, group⟩ := performs.keeps sound.toLinked found
    obtain ⟨last, atLast, sameName, sameGroup⟩ := ih (performs.sound sound) atId
    exact ⟨last, atLast, sameName.trans name, sameGroup.trans group⟩

/-- A declaration that succeeds gets an entry number that no entry had before. -/
theorem Performs.declares {table after : Table} {command : Command} {name : String} {id : EntryId}
    (performs : Performs table command (.id id) after) (declares : command.declares? = some name) :
    table.entry? id = none ∧ ∃ entry frame outer, after.entry? id = some entry ∧ entry.name = name ∧
      table.scopes = frame :: outer ∧ after.scopes = (frame ++ [(name, id)]) :: outer := by
  have fresh : table.entry? table.entries.size = none := Array.getElem?_eq_none (Nat.le_refl _)
  cases performs with
  | declare scopes new =>
    cases declares
    exact ⟨fresh, _, _, _, (entry?_withEntry _ _).trans (if_pos rfl), rfl, scopes, rfl⟩
  | join scopes new leads =>
    cases declares
    exact ⟨fresh, _, _, _, (entry?_withMember _).trans (if_pos rfl), rfl, scopes, rfl⟩
  | @ask command _ asks =>
    cases command with
    | declare | declareIn => cases asks
    | _ => cases declares

def Refuses (table : Table) (command : Command) : Prop :=
  ∃ error, (table.perform command).1 = .refused error

/-- No scope is open, or the innermost one has the name. -/
def Blocked (table : Table) (name : String) : Prop :=
  table.scopes = [] ∨ ∃ frame outer, table.scopes = frame :: outer ∧ name ∈ frame.map Prod.fst

theorem blocked_of_lookup {table : Table} {name : String} {frame : Frame} {outer : List Frame}
    (scopes : table.scopes = frame :: outer) : table.Blocked name ↔ (frame.lookup name).isSome := by
  have same : (frame.lookup name).isSome = true ↔ name ∈ frame.map Prod.fst := by
    rw [Option.isSome_iff_ne_none, ne_eq, frame_lookup_eq_none, Decidable.not_not]
  rw [same, Blocked, scopes]
  constructor
  · rintro (closed | ⟨_, _, same, member⟩)
    · cases closed
    · cases same
      exact member
  · exact fun member => Or.inr ⟨frame, outer, rfl, member⟩

/-- A declaration in a group of its own is refused where the name is blocked and nowhere else. -/
theorem refuses_declare_iff (table : Table) (name : String) (role : Role) :
    table.Refuses (.declare name role) ↔ table.Blocked name := by
  rw [Refuses, perform]
  cases scopes : table.scopes with
  | nil =>
    rw [declare_of_scopes_nil name role scopes]
    exact iff_of_true ⟨_, rfl⟩ (Or.inl scopes)
  | cons frame outer =>
    rw [blocked_of_lookup scopes]
    cases atName : frame.lookup name with
    | none =>
      rw [declare_of_lookup_none role scopes atName]
      exact iff_of_false nofun nofun
    | some id =>
      rw [declare_of_lookup_some role scopes atName]
      exact iff_of_true ⟨_, rfl⟩ rfl

theorem Linked.refuses_declareIn_iff {table : Table} {group : GroupId} {ids : List EntryId}
    (linked : table.Linked) (found : table.members? group = some ids) (name : String) :
    table.Refuses (.declareIn name group) ↔ table.Blocked name := by
  obtain ⟨id, leader, _, leads, atId, rfl⟩ := linked.exists_leader found
  rw [Refuses, perform]
  cases scopes : table.scopes with
  | nil =>
    rw [declareIn_of_scopes_nil name scopes leads]
    exact iff_of_true ⟨_, rfl⟩ (Or.inl scopes)
  | cons frame outer =>
    rw [blocked_of_lookup scopes]
    cases atName : frame.lookup name with
    | none =>
      rw [declareIn_of_lookup_none scopes leads rfl atName]
      exact iff_of_false nofun nofun
    | some id =>
      rw [declareIn_of_lookup_some scopes leads atName]
      exact iff_of_true ⟨_, rfl⟩ rfl

/-- What is refused leaves the table as it is. -/
theorem perform_of_refuses {table : Table} {command : Command} (refuses : table.Refuses command) :
    (table.perform command).2 = table := by
  obtain ⟨error, refused⟩ := refuses
  cases command with
  | enter => cases refused
  | exit =>
    rw [perform] at refused
    split at refused <;> cases refused
  | declare name role =>
    rw [perform] at refused ⊢
    cases result : table.declare name role with
    | ok => rw [result] at refused; cases refused
    | error => rfl
  | declareIn name group =>
    rw [perform] at refused ⊢
    cases result : table.declareIn name group with
    | ok => rw [result] at refused; cases refused
    | error => rfl
  | lookup name =>
    rw [perform]
    split <;> rfl
  | groupOf | members | entry => rfl
  | setRole group | setValue group =>
    rw [perform, changed] at refused ⊢
    cases found : table.members? group with
    | none => rfl
    | some => rw [found] at refused; cases refused

/-- The commands that make the predefined table. -/
def predefining : List Command :=
  [.enter, .declare "boolean" .type, .setValue 0 none, .declare "char" .type, .setValue 1 none,
   .declare "integer" .type, .setValue 2 none, .declare "true" .constant,
   .setValue 3 (some (.boolean true)), .declare "false" .constant,
   .setValue 4 (some (.boolean false))]

/-- The two tables to begin with. -/
def initial (predefines : Bool) : Table :=
  if predefines then predefined else empty

/-- The commands that make them of an empty table. -/
def opening (predefines : Bool) : List Command :=
  if predefines then predefining else []

theorem initial_eq (predefines : Bool) : initial predefines = empty.performAll (opening predefines) := by
  cases predefines <;> decide

theorem initial_sound (predefines : Bool) : (initial predefines).Sound := by
  rw [initial_eq]
  exact empty_sound.performAll _

/-- A table is sound whatever has been done to it. Changing a group changes the entries of the group and
nothing else; entries keep their names and groups, and no entry number is given twice. A declaration is
refused if no scope is open or the innermost one has the name, and what is refused changes nothing. -/
theorem performAll_initial (predefines : Bool) (commands : List Command) :
    let table := (initial predefines).performAll commands
    table.Sound ∧
      (∀ group ids, table.members? group = some ids →
        (∀ role, table.perform (.setRole group role) = (.done, { table with
          entries := table.entries.map fun entry =>
            if entry.group = group then { entry with role := role } else entry })) ∧
        ∀ value, table.perform (.setValue group value) = (.done, { table with
          entries := table.entries.map fun entry =>
            if entry.group = group then { entry with value := value } else entry })) ∧
      (∀ later id entry, table.entry? id = some entry →
        ∃ kept, Table.entry? (table.performAll later) id = some kept ∧ kept.name = entry.name ∧
          kept.group = entry.group) ∧
      (∀ command name id, command.declares? = some name → (table.perform command).1 = .id id →
        table.entry? id = none ∧
          ∃ entry, Table.entry? (table.perform command).2 id = some entry ∧ entry.name = name) ∧
      (∀ name role, table.Refuses (.declare name role) ↔ table.Blocked name) ∧
      (∀ name group ids, table.members? group = some ids →
        (table.Refuses (.declareIn name group) ↔ table.Blocked name)) ∧
      ∀ command, table.Refuses command → (table.perform command).2 = table := by
  intro table
  have sound : table.Sound := (initial_sound predefines).performAll commands
  have linked := sound.toLinked
  refine ⟨sound, fun group ids found => ⟨fun role => ?_, fun value => ?_⟩,
    fun later id entry found => sound.performAll_keeps later found,
    fun command name id declares answer => ?_, table.refuses_declare_iff,
    fun name group ids found => linked.refuses_declareIn_iff found name,
    fun command refuses => perform_of_refuses refuses⟩
  · rw [perform, changed, found, Table.setRole, linked.update_eq]
  · rw [perform, changed, found, Table.setValue, linked.update_eq]
  · have performs := linked.performs command
    rw [answer] at performs
    obtain ⟨fresh, entry, _, _, atId, same, _⟩ := performs.declares declares
    exact ⟨fresh, entry, atId, same⟩

end AdaFront.Table
