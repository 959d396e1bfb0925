import Mathlib.Data.List.Induction
import AdaFront.Proofs.TableRuns

namespace AdaFront.Table

/-- Commands that never close more scopes than they have opened before: the scope that is innermost
before them is open behind them. -/
def Stays (commands : List Command) : Prop :=
  ∀ first, first <+: commands → first.count .exit ≤ first.count .enter

theorem stays_nil : Stays [] := by
  intro first begins
  rw [List.prefix_nil.mp begins]
  exact Nat.le_refl _

theorem stays_concat {commands : List Command} {command : Command} :
    Stays (commands ++ [command]) ↔ Stays commands ∧
      (commands ++ [command]).count .exit ≤ (commands ++ [command]).count .enter := by
  constructor
  · intro stays
    exact ⟨fun first begins => stays first (begins.trans (List.prefix_append _ _)),
      stays _ List.prefix_rfl⟩
  · rintro ⟨stays, whole⟩ first begins
    rcases List.prefix_concat_iff.mp begins with rfl | begins
    · exact whole
    · exact stays first begins

theorem Stays.whole {commands : List Command} (stays : Stays commands) :
    commands.count .exit ≤ commands.count .enter :=
  stays commands List.prefix_rfl

/-- One of the commands has declared the name as an entry, in a scope that is open behind the last of
them. -/
def Declared (table : Table) (commands : List Command) (name : String) (id : EntryId) : Prop :=
  ∃ before command after, commands = before ++ command :: after ∧ command.declares? = some name ∧
    ((table.performAll before).perform command).1 = .id id ∧ Stays after

/-- The same with the number of scopes that have been opened inside that scope and are open. -/
def DeclaredAt (table : Table) (commands : List Command) (depth : Nat) (name : String)
    (id : EntryId) : Prop :=
  ∃ before command after, commands = before ++ command :: after ∧ command.declares? = some name ∧
    ((table.performAll before).perform command).1 = .id id ∧ Stays after ∧
    after.count .enter = after.count .exit + depth

section Declared

variable {table : Table} {commands : List Command} {command : Command} {depth : Nat} {name : String}
  {id : EntryId}

theorem declared_iff :
    Declared table commands name id ↔ ∃ depth, DeclaredAt table commands depth name id := by
  constructor
  · rintro ⟨before, command, after, whole, declares, answer, stays⟩
    have bound := stays.whole
    exact ⟨after.count .enter - after.count .exit, before, command, after, whole, declares, answer,
      stays, by omega⟩
  · rintro ⟨_, before, command, after, whole, declares, answer, stays, _⟩
    exact ⟨before, command, after, whole, declares, answer, stays⟩

/-- The last command either declares the name itself or comes behind the one that does. -/
theorem declaredAt_concat :
    DeclaredAt table (commands ++ [command]) depth name id ↔
      (command.declares? = some name ∧ ((table.performAll commands).perform command).1 = .id id ∧
        depth = 0) ∨
      ∃ before first after, commands = before ++ first :: after ∧ first.declares? = some name ∧
        ((table.performAll before).perform first).1 = .id id ∧ Stays after ∧
        (after ++ [command]).count .exit ≤ (after ++ [command]).count .enter ∧
        (after ++ [command]).count .enter = (after ++ [command]).count .exit + depth := by
  constructor
  · rintro ⟨before, first, after, whole, declares, answer, stays, count⟩
    rcases after.eq_nil_or_concat with rfl | ⟨others, last, rfl⟩
    · obtain ⟨rfl, same⟩ := List.append_inj' whole rfl
      cases same
      exact Or.inl ⟨declares, answer, by simpa using count.symm⟩
    · rw [List.concat_eq_append] at whole stays count
      rw [← List.cons_append, ← List.append_assoc] at whole
      obtain ⟨rfl, same⟩ := List.append_inj' whole rfl
      cases same
      obtain ⟨stays, bound⟩ := stays_concat.mp stays
      exact Or.inr ⟨before, first, others, rfl, declares, answer, stays, bound, count⟩
  · rintro (⟨declares, answer, rfl⟩ | ⟨before, first, after, rfl, declares, answer, stays, bound, count⟩)
    · exact ⟨commands, command, [], rfl, declares, answer, stays_nil, rfl⟩
    · refine ⟨before, first, after ++ [command], ?_, declares, answer,
        stays_concat.mpr ⟨stays, bound⟩, count⟩
      rw [List.append_assoc, List.cons_append]

theorem declaredAt_enter :
    DeclaredAt table (commands ++ [.enter]) depth name id ↔
      ∃ outer, depth = outer + 1 ∧ DeclaredAt table commands outer name id := by
  rw [declaredAt_concat]
  constructor
  · rintro (⟨declares, _⟩ | ⟨before, first, after, whole, declares, answer, stays, _, count⟩)
    · cases declares
    · have bound := stays.whole
      simp [List.count_append] at count
      exact ⟨after.count .enter - after.count .exit, by omega, before, first, after, whole, declares,
        answer, stays, by omega⟩
  · rintro ⟨outer, rfl, before, first, after, whole, declares, answer, stays, count⟩
    refine Or.inr ⟨before, first, after, whole, declares, answer, stays, ?_, ?_⟩
    all_goals simp [List.count_append]; omega

theorem declaredAt_exit :
    DeclaredAt table (commands ++ [.exit]) depth name id ↔
      DeclaredAt table commands (depth + 1) name id := by
  rw [declaredAt_concat]
  constructor
  · rintro (⟨declares, _⟩ | ⟨before, first, after, whole, declares, answer, stays, _, count⟩)
    · cases declares
    · refine ⟨before, first, after, whole, declares, answer, stays, ?_⟩
      simp [List.count_append] at count
      omega
  · rintro ⟨before, first, after, whole, declares, answer, stays, count⟩
    refine Or.inr ⟨before, first, after, whole, declares, answer, stays, ?_, ?_⟩
    all_goals simp [List.count_append]; omega

theorem declaredAt_other (noEnter : command ≠ .enter) (noExit : command ≠ .exit) :
    DeclaredAt table (commands ++ [command]) depth name id ↔
      (command.declares? = some name ∧ ((table.performAll commands).perform command).1 = .id id ∧
        depth = 0) ∨ DeclaredAt table commands depth name id := by
  rw [declaredAt_concat]
  refine or_congr_right ⟨?_, ?_⟩
  · rintro ⟨before, first, after, whole, declares, answer, stays, _, count⟩
    refine ⟨before, first, after, whole, declares, answer, stays, ?_⟩
    simpa [List.count_append, noEnter, noExit] using count
  · rintro ⟨before, first, after, whole, declares, answer, stays, count⟩
    refine ⟨before, first, after, whole, declares, answer, stays, ?_, ?_⟩
    · simpa [List.count_append, noEnter, noExit] using stays.whole
    · simpa [List.count_append, noEnter, noExit] using count

end Declared

section Frames

variable {table after : Table} {command : Command} {answer : Answer} {commands : List Command}
  {depth : Nat} {name : String} {id : EntryId}

/-- The scope at a depth, counted from the innermost one, has the name with the entry. -/
def HasAt (table : Table) (depth : Nat) (name : String) (id : EntryId) : Prop :=
  ∃ frame, table.scopes[depth]? = some frame ∧ (name, id) ∈ frame

theorem hasAt_push {frame : Frame} {outer : List Frame} {other : String} {new : EntryId}
    (scopes : table.scopes = frame :: outer)
    (scopes' : after.scopes = (frame ++ [(other, new)]) :: outer) :
    after.HasAt depth name id ↔ (other = name ∧ new = id ∧ depth = 0) ∨ table.HasAt depth name id := by
  rw [HasAt, HasAt, scopes, scopes']
  cases depth with
  | zero => simp [or_comm, eq_comm]
  | succ depth => simp

/-- Apart from opening and closing, only a declaration changes what the scopes have. -/
theorem Performs.hasAt_iff (performs : Performs table command answer after)
    (noEnter : command ≠ .enter) (noExit : command ≠ .exit) :
    after.HasAt depth name id ↔
      (command.declares? = some name ∧ answer = .id id ∧ depth = 0) ∨ table.HasAt depth name id := by
  cases performs with
  | enter => exact absurd rfl noEnter
  | exit | outside => exact absurd rfl noExit
  | declare scopes | join scopes =>
    refine (hasAt_push scopes rfl).trans (or_congr_left ?_)
    simp [Command.declares?]
  | setRole | setValue | refuse => exact (or_iff_right nofun).symm
  | ask answer asks =>
    refine (or_iff_right ?_).symm
    cases command with
    | declare | declareIn => cases asks
    | _ => nofun

theorem scopes_exit (table : Table) : (table.perform .exit).2.scopes = table.scopes.tail := by
  rw [perform, exit?]
  cases scopes : table.scopes with
  | nil => exact scopes
  | cons => rfl

/-- The scopes have the names that have been declared in scopes that are still open, each at its
depth. -/
theorem Sound.hasAt_iff (sound : table.Sound) (outside : table.scopes = []) (commands : List Command)
    (depth : Nat) :
    (table.performAll commands).HasAt depth name id ↔ DeclaredAt table commands depth name id := by
  induction commands using List.reverseRecOn generalizing depth with
  | nil =>
    rw [performAll_nil, HasAt, outside]
    constructor
    · rintro ⟨_, found, _⟩
      cases found
    · rintro ⟨before, _, _, whole, _⟩
      cases before <;> cases whole
  | append_singleton commands command ih =>
    rw [performAll_append, performAll_cons, performAll_nil]
    by_cases enters : command = .enter
    · subst enters
      rw [declaredAt_enter]
      cases depth with
      | zero => simp [HasAt, perform, Table.enter]
      | succ depth =>
        simp only [Nat.succ.injEq, exists_eq_left', ← ih]
        rfl
    · by_cases exits : command = .exit
      · subst exits
        rw [declaredAt_exit, ← ih, HasAt, scopes_exit, List.getElem?_tail]
        rfl
      · have performs := (sound.performAll commands).toLinked.performs command
        rw [declaredAt_other enters exits, ← ih]
        exact performs.hasAt_iff enters exits

theorem Sound.mem_inForce_iff (sound : table.Sound) (outside : table.scopes = [])
    (commands : List Command) :
    (name, id) ∈ (table.performAll commands).inForce ↔ Declared table commands name id := by
  rw [mem_inForce, declared_iff]
  simp only [← sound.hasAt_iff outside, HasAt, List.mem_iff_getElem?]
  constructor
  · rintro ⟨frame, ⟨depth, found⟩, member⟩
    exact ⟨depth, frame, found, member⟩
  · rintro ⟨depth, frame, found, member⟩
    exact ⟨frame, ⟨depth, found⟩, member⟩

end Frames

section Lookup

variable {table : Table} {name : String} {id : EntryId}

theorem lookup_eq_ok : table.lookup name = .ok id ↔ table.scopes.findSome? (·.lookup name) = some id := by
  unfold lookup
  cases table.scopes.findSome? (·.lookup name) with
  | none => exact iff_of_false nofun nofun
  | some => simp

/-- In a scope that has no name twice, a name has one entry. -/
theorem lookup_of_mem {frame : Frame} (distinct : (frame.map Prod.fst).Nodup)
    (inside : (name, id) ∈ frame) : frame.lookup name = some id := by
  induction frame with
  | nil => cases inside
  | cons first frame ih =>
    obtain ⟨key, value⟩ := first
    obtain ⟨apart, distinct⟩ := List.nodup_cons.mp distinct
    rcases List.mem_cons.mp inside with same | behind
    · cases same
      exact List.lookup_cons_self
    · have other : (name == key) = false := by
        rw [beq_eq_false_iff_ne]
        rintro rfl
        exact apart (List.mem_map.mpr ⟨_, behind, rfl⟩)
      rw [List.lookup_cons, other]
      exact ih distinct behind

/-- A name that is found is in force, and whatever else it stands for has been declared before. -/
theorem Sound.lookup_greatest (sound : table.Sound) (found : table.lookup name = .ok id) :
    (name, id) ∈ table.inForce ∧ ∀ other, (name, other) ∈ table.inForce → other ≤ id := by
  obtain ⟨inner, frame, outer, scopes, atName, apart⟩ :=
    List.findSome?_eq_some_iff.mp (lookup_eq_ok.mp found)
  obtain ⟨before, behind, same, _⟩ := List.lookup_eq_some_iff.mp atName
  have atFrame : (name, id) ∈ frame := by simp [same]
  refine ⟨mem_inForce.mpr ⟨frame, by simp [scopes], atFrame⟩, ?_⟩
  intro other member
  obtain ⟨frame', inside, atOther⟩ := mem_inForce.mp member
  have inScopes := inside
  rw [scopes] at inside
  rcases List.mem_append.mp inside with further | inside
  · have nothing := frame_lookup_eq_none.mp (apart frame' further)
    exact absurd (List.mem_map.mpr ⟨_, atOther, rfl⟩) nothing
  · rcases List.mem_cons.mp inside with rfl | atOuter
    · have atOther := lookup_of_mem (sound.distinct inScopes) atOther
      exact Nat.le_of_eq (Option.some.inj (atOther.symm.trans atName))
    · have rising := sound.rising
      have whole : table.inForce = outer.reverse.flatten ++ (frame ++ inner.reverse.flatten) := by
        simp [inForce, scopes]
      rw [whole, List.map_append, List.pairwise_append] at rising
      refine Nat.le_of_lt (rising.2.2 other ?_ id ?_)
      · exact List.mem_map.mpr ⟨_, by simpa using ⟨frame', atOuter, atOther⟩, rfl⟩
      · exact List.mem_map.mpr ⟨_, List.mem_append_left _ atFrame, rfl⟩

/-- A name is found unless it is not in force. -/
theorem lookup_undeclared_iff :
    table.lookup name = .error (.undeclared name) ↔ ∀ id, (name, id) ∉ table.inForce := by
  have nothing : table.lookup name = .error (.undeclared name) ↔
      ∀ frame ∈ table.scopes, frame.lookup name = none := by
    rw [← List.findSome?_eq_none_iff, lookup]
    cases table.scopes.findSome? (·.lookup name) with
    | none => exact iff_of_true rfl rfl
    | some => simp
  rw [nothing]
  simp only [frame_lookup_eq_none, mem_inForce, List.mem_map, not_exists, not_and, Prod.forall]
  constructor
  · exact fun apart id frame inside member => apart frame inside name id member rfl
  · rintro apart frame inside _ id member rfl
    exact apart id frame inside member

/-- Of all that a name stands for in the open scopes, what has been declared last is found. -/
theorem Sound.lookup_iff (sound : table.Sound) :
    table.lookup name = .ok id ↔
      (name, id) ∈ table.inForce ∧ ∀ other, (name, other) ∈ table.inForce → other ≤ id := by
  refine ⟨sound.lookup_greatest, ?_⟩
  rintro ⟨member, greatest⟩
  cases found : table.lookup name with
  | ok other =>
    obtain ⟨atOther, greatest'⟩ := sound.lookup_greatest found
    rw [Nat.le_antisymm (greatest other atOther) (greatest' id member)]
  | error error =>
    rw [lookup_error found] at found
    exact absurd member (lookup_undeclared_iff.mp found id)

end Lookup

/-- Commands that close each scope that they open and no other. -/
inductive Balanced : List Command → Prop
  | nil : Balanced []
  | flat {command commands} : command ≠ .enter → command ≠ .exit → Balanced commands →
      Balanced (command :: commands)
  | nested {inside rest} : Balanced inside → Balanced rest →
      Balanced (.enter :: inside ++ .exit :: rest)

namespace Balanced

variable {commands : List Command}

theorem count_enter (balanced : Balanced commands) :
    commands.count .enter = commands.count .exit := by
  induction balanced with
  | nil => rfl
  | flat noEnter noExit _ ih => simpa [noEnter, noExit] using ih
  | nested _ _ inside rest =>
    simp [List.count_append, inside, rest]
    omega

theorem stays (balanced : Balanced commands) : Stays commands := by
  induction balanced with
  | nil => exact stays_nil
  | @flat command commands noEnter noExit _ ih =>
    intro first begins
    rcases List.prefix_cons_iff.mp begins with rfl | ⟨others, rfl, further⟩
    · exact Nat.le_refl _
    · simpa [noEnter, noExit] using ih others further
  | @nested inside rest balanced _ ihInside ihRest =>
    have count := balanced.count_enter
    intro first begins
    rcases List.prefix_cons_iff.mp begins with rfl | ⟨others, rfl, behind, whole⟩
    · exact Nat.le_refl _
    · rcases List.append_eq_append_iff.mp whole with ⟨middle, same, _⟩ | ⟨further, rfl, tail⟩
      · have bound := ihInside others ⟨middle, same.symm⟩
        simp
        omega
      · rcases List.prefix_cons_iff.mp ⟨behind, tail.symm⟩ with rfl | ⟨last, rfl, atRest⟩
        · simp
          omega
        · have bound := ihRest last atRest
          simp [List.count_append]
          omega

/-- What follows a point of balanced commands and closes none of the scopes open there closes all that it
opens. -/
theorem count_suffix {before after : List Command} (balanced : Balanced (before ++ after))
    (stays : Stays after) : after.count .enter = after.count .exit := by
  have whole := balanced.count_enter
  have begins := balanced.stays before (List.prefix_append _ _)
  have bound := stays.whole
  rw [List.count_append, List.count_append] at whole
  omega

/-- Balanced commands add names to the innermost scope and leave the other scopes alone. -/
theorem scopes (balanced : Balanced commands) {table : Table} {frame : Frame} {outer : List Frame}
    (sound : table.Sound) (scopes : table.scopes = frame :: outer) :
    ∃ more, (table.performAll commands).scopes = (frame ++ more) :: outer := by
  induction balanced generalizing table frame outer with
  | nil => exact ⟨[], by rw [performAll_nil, scopes, List.append_nil]⟩
  | @flat command commands noEnter noExit _ ih =>
    have performs := sound.toLinked.performs command
    obtain ⟨first, extended⟩ := performs.scopes_of_flat noEnter noExit scopes
    obtain ⟨others, same⟩ := ih (performs.sound sound) extended
    exact ⟨first ++ others, by rw [performAll_cons, same, List.append_assoc]⟩
  | @nested inside rest _ _ ihInside ihRest =>
    have entered : table.enter.scopes = [] :: frame :: outer := congrArg ([] :: ·) scopes
    obtain ⟨_, within⟩ := ihInside sound.enter entered
    have soundInside := sound.enter.performAll inside
    have left : ((table.enter.performAll inside).perform .exit).2.scopes = frame :: outer := by
      rw [scopes_exit, within]
      rfl
    rw [List.cons_append, performAll_cons, performAll_append, performAll_cons]
    exact ihRest ((performs_exit _).sound soundInside) left

end Balanced

/-- The names of the open scopes alone, the innermost scope first. -/
def names (table : Table) : List (List String) :=
  table.scopes.map fun frame => frame.map Prod.fst

/-- The names with one more in the innermost scope, unless it is there or no scope is open. -/
def addName (name : String) : List (List String) → List (List String)
  | [] => []
  | frame :: outer => (if name ∈ frame then frame else frame ++ [name]) :: outer

/-- Puts other group numbers into a command. -/
def Command.regroup (change : GroupId → GroupId) : Command → Command
  | .declareIn name group => .declareIn name (change group)
  | .setRole group role => .setRole (change group) role
  | .setValue group value => .setValue (change group) value
  | .members group => .members (change group)
  | .enter => .enter
  | .exit => .exit
  | .declare name role => .declare name role
  | .lookup name => .lookup name
  | .groupOf id => .groupOf id
  | .entry id => .entry id

theorem Command.declares?_regroup (change : GroupId → GroupId) (command : Command) :
    (command.regroup change).declares? = command.declares? := by
  cases command <;> rfl

theorem Command.regroup_ne_enter {change : GroupId → GroupId} {command : Command}
    (noEnter : command ≠ .enter) : command.regroup change ≠ .enter := by
  cases command with
  | enter => exact absurd rfl noEnter
  | _ => nofun

theorem Command.regroup_ne_exit {change : GroupId → GroupId} {command : Command}
    (noExit : command ≠ .exit) : command.regroup change ≠ .exit := by
  cases command with
  | exit => exact absurd rfl noExit
  | _ => nofun

/-- The group numbers from the first bound on, moved to the second one. -/
def skipping (first second group : Nat) : GroupId :=
  if group < first then group else group + (second - first)

theorem le_skipping {first second group groups : Nat} (bound : first ≤ groups) :
    groups + (second - first) ≤ skipping first second group ↔ groups ≤ group := by
  unfold skipping
  split <;> omega

/-- Two tables whose open scopes have the same names, and the first of which has given all group numbers
between the bounds on top of those that the second one has given. -/
structure Resembles (first second : Nat) (one other : Table) : Prop where
  names : one.names = other.names
  groups : one.groups.size = other.groups.size + (second - first)
  bound : first ≤ other.groups.size

section Names

variable {table after : Table} {command : Command} {answer : Answer} {name : String}

theorem blocked_iff_names : table.Blocked name ↔ ∀ frame ∈ table.names.head?, name ∈ frame := by
  rw [Blocked, names]
  cases table.scopes with
  | nil => simp
  | cons frame outer => simp

theorem addName_of_lookup {frame : Frame} {outer : List Frame} {id : EntryId}
    (scopes : table.scopes = frame :: outer) (new : frame.lookup name = none)
    (scopes' : after.scopes = (frame ++ [(name, id)]) :: outer) :
    after.names = addName name table.names := by
  have apart := frame_lookup_eq_none.mp new
  simp only [names, scopes, scopes', List.map_cons, List.map_append, List.map_nil, addName, if_neg apart]

theorem Performs.names_of_declares (performs : Performs table command answer after)
    (declares : command.declares? = some name) (granted : ∀ error, answer ≠ .refused error) :
    after.names = addName name table.names := by
  cases performs with
  | declare scopes new | join scopes new =>
    cases declares
    exact addName_of_lookup scopes new rfl
  | ask _ asks =>
    cases command with
    | declare | declareIn => cases asks
    | _ => cases declares
  | refuse _ error => exact absurd rfl (granted error)
  | _ => cases declares

theorem Performs.names_of_flat (performs : Performs table command answer after)
    (noEnter : command ≠ .enter) (noExit : command ≠ .exit) (declares : command.declares? = none) :
    after.names = table.names ∧ after.groups.size = table.groups.size := by
  cases performs with
  | enter => exact absurd rfl noEnter
  | exit | outside => exact absurd rfl noExit
  | declare | join => cases declares
  | setRole | setValue | ask | refuse => exact ⟨rfl, rfl⟩

theorem names_exit (table : Table) : (table.perform .exit).2.names = table.names.tail := by
  rw [names, scopes_exit, List.map_tail]
  rfl

theorem groups_exit (table : Table) : (table.perform .exit).2.groups = table.groups := by
  rw [perform, exit?]
  cases table.scopes <;> rfl

theorem Sound.groups_size_le (sound : table.Sound) (commands : List Command) :
    table.groups.size ≤ (table.performAll commands).groups.size := by
  induction commands generalizing table with
  | nil => exact Nat.le_refl _
  | cons command commands ih =>
    have performs := sound.toLinked.performs command
    exact Nat.le_trans performs.groups_size_le (ih (performs.sound sound))

theorem Linked.refuses_join_iff (linked : table.Linked) (name : String) (group : GroupId) :
    table.Refuses (.declareIn name group) ↔ table.groups.size ≤ group ∨ table.Blocked name := by
  rcases Nat.lt_or_ge group table.groups.size with known | unknown
  · have found : table.members? group = some table.groups[group] := Array.getElem?_eq_getElem known
    rw [linked.refuses_declareIn_iff found, or_iff_right (Nat.not_le_of_lt known)]
  · have missing : table.members? group = none := Array.getElem?_eq_none unknown
    have refused : table.declareIn name group = .error (.noSuchGroup group) := by
      simp [Table.declareIn, leader?, missing]
    refine iff_of_true ⟨.noSuchGroup group, ?_⟩ (Or.inl unknown)
    rw [perform, refused]
    rfl

section Resembles

variable {first second : Nat} {one other : Table}

theorem Resembles.blocked_iff (resembles : Resembles first second one other) :
    one.Blocked name ↔ other.Blocked name := by
  rw [blocked_iff_names, blocked_iff_names, resembles.names]

/-- Of two such tables, both refuse a declaration or none. -/
theorem Resembles.refuses_iff (resembles : Resembles first second one other) (linked : one.Linked)
    (linked' : other.Linked) (declares : command.declares? = some name) :
    one.Refuses (command.regroup (skipping first second)) ↔ other.Refuses command := by
  cases command with
  | declare name role =>
    rw [Command.regroup, refuses_declare_iff, refuses_declare_iff, resembles.blocked_iff]
  | declareIn name group =>
    have unknown : one.groups.size ≤ skipping first second group ↔ other.groups.size ≤ group := by
      rw [resembles.groups, le_skipping resembles.bound]
    rw [Command.regroup, linked.refuses_join_iff, linked'.refuses_join_iff, resembles.blocked_iff,
      unknown]
  | _ => cases declares

theorem Resembles.perform_declares (resembles : Resembles first second one other) (linked : one.Linked)
    (linked' : other.Linked) (declares : command.declares? = some name) :
    Resembles first second (one.perform (command.regroup (skipping first second))).2
      (other.perform command).2 := by
  have same := resembles.refuses_iff linked linked' declares
  by_cases refused : other.Refuses command
  · rw [perform_of_refuses refused, perform_of_refuses (same.mpr refused)]
    exact resembles
  · have performs := linked.performs (command.regroup (skipping first second))
    have performs' := linked'.performs command
    have granted error answer := refused (same.mp ⟨error, answer⟩)
    have granted' error answer := refused ⟨error, answer⟩
    have declares' := (command.declares?_regroup (skipping first second)).trans declares
    have new : (command.regroup (skipping first second)).newGroups = command.newGroups := by
      cases command <;> rfl
    have count := performs.groups_size granted
    have count' := performs'.groups_size granted'
    refine ⟨?_, ?_, Nat.le_trans resembles.bound performs'.groups_size_le⟩
    · rw [performs.names_of_declares declares' granted, performs'.names_of_declares declares granted',
        resembles.names]
    · rw [count, count', resembles.groups, new]
      omega

theorem Resembles.perform_flat (resembles : Resembles first second one other) (linked : one.Linked)
    (linked' : other.Linked) (noEnter : command ≠ .enter) (noExit : command ≠ .exit)
    (declares : command.declares? = none) :
    Resembles first second (one.perform (command.regroup (skipping first second))).2
      (other.perform command).2 := by
  have performs := linked.performs (command.regroup (skipping first second))
  obtain ⟨names, groups⟩ := performs.names_of_flat (Command.regroup_ne_enter noEnter)
    (Command.regroup_ne_exit noExit) ((command.declares?_regroup _).trans declares)
  obtain ⟨names', groups'⟩ := (linked'.performs command).names_of_flat noEnter noExit declares
  refine ⟨?_, ?_, ?_⟩
  · rw [names, names', resembles.names]
  · rw [groups, groups', resembles.groups]
  · rw [groups']
    exact resembles.bound

/-- Tables that resemble each other do so after a command, with the group number that it has in each. -/
theorem Resembles.perform (resembles : Resembles first second one other) (linked : one.Linked)
    (linked' : other.Linked) (command : Command) :
    Resembles first second (one.perform (command.regroup (skipping first second))).2
      (other.perform command).2 := by
  cases command with
  | enter => exact ⟨congrArg ([] :: ·) resembles.names, resembles.groups, resembles.bound⟩
  | exit =>
    refine ⟨?_, ?_, ?_⟩
    · rw [Command.regroup, names_exit, names_exit, resembles.names]
    · rw [Command.regroup, groups_exit, groups_exit, resembles.groups]
    · rw [groups_exit]
      exact resembles.bound
  | declare | declareIn => exact resembles.perform_declares linked linked' rfl
  | _ => exact resembles.perform_flat linked linked' nofun nofun rfl

theorem Resembles.performAll (resembles : Resembles first second one other) (sound : one.Sound)
    (sound' : other.Sound) (commands : List Command) :
    Resembles first second (one.performAll (commands.map (·.regroup (skipping first second))))
      (other.performAll commands) := by
  induction commands generalizing one other with
  | nil => exact resembles
  | cons command commands ih =>
    have performs := sound.toLinked.performs (command.regroup (skipping first second))
    have performs' := sound'.toLinked.performs command
    exact ih (resembles.perform sound.toLinked sound'.toLinked command) (performs.sound sound)
      (performs'.sound sound')

end Resembles

end Names

/-- The innermost scope has what has been declared in it, and nothing of the scopes inside it. -/
theorem Balanced.mem_frame_iff {table : Table} {history inside : List Command} {frame : Frame}
    {outer : List Frame} {name : String} {id : EntryId} (balanced : Balanced inside)
    (sound : table.Sound) (outside : table.scopes = [])
    (scopes : ((table.performAll history).enter.performAll inside).scopes = frame :: outer) :
    (name, id) ∈ frame ↔ Declared (table.performAll history).enter inside name id := by
  have run (before : List Command) : table.performAll (history ++ .enter :: before) =
      (table.performAll history).enter.performAll before := by
    rw [performAll_append, performAll_cons]
    rfl
  have innermost : (table.performAll (history ++ .enter :: inside)).HasAt 0 name id ↔
      (name, id) ∈ frame := by
    rw [run, HasAt, scopes]
    simp
  rw [← innermost, sound.hasAt_iff outside]
  constructor
  · rintro ⟨before, command, after, whole, declares, answer, stays, count⟩
    rcases List.append_eq_append_iff.mp whole with ⟨middle, rfl, same⟩ | ⟨middle, rfl, same⟩
    · cases middle with
      | nil =>
        cases same
        cases declares
      | cons first middle =>
        cases same
        rw [run] at answer
        exact ⟨middle, command, after, rfl, declares, answer, stays⟩
    · cases middle with
      | nil =>
        cases same
        cases declares
      | cons first middle =>
        -- The scope that the commands begin with is inside the one of this declaration.
        cases same
        have bound := stays middle (List.prefix_append _ _)
        have even := balanced.count_enter
        simp [List.count_append] at count
        omega
  · rintro ⟨before, command, after, rfl, declares, answer, stays⟩
    refine ⟨history ++ .enter :: before, command, after, by simp, declares, ?_, stays, ?_⟩
    · rw [run]
      exact answer
    · rw [← List.singleton_append, ← List.append_assoc] at balanced
      exact balanced.count_suffix stays

/-- Looking a name up finds its latest declaration in a scope that is still open, and none if there is no
such declaration. A scope that has been closed again leaves no trace: the scopes are those before it,
later declarations succeed as they would have without it, though groups made from now on have numbers
behind those of its own, and closing it gives what has been declared in it. -/
theorem lookup_scoping (predefines : Bool) (history : List Command) :
    let table := (initial predefines).performAll history
    let declared := Declared empty (opening predefines ++ history)
    (∀ name, (∀ id, table.lookup name = .ok id ↔
          declared name id ∧ ∀ other, declared name other → other ≤ id) ∧
        (table.lookup name = .error (.undeclared name) ↔ ∀ id, ¬declared name id)) ∧
      ∀ inside, Balanced inside → ∃ frame closed,
        (table.enter.performAll inside).exit? = some (frame, closed) ∧
        closed.scopes = table.scopes ∧
        (∀ name, closed.lookup name = table.lookup name) ∧
        (∀ later command name, command.declares? = some name →
          let skip := skipping table.groups.size closed.groups.size
          ((closed.performAll (later.map (·.regroup skip))).Refuses (command.regroup skip) ↔
            (table.performAll later).Refuses command)) ∧
        (∀ name id, (name, id) ∈ frame ↔ Declared table.enter inside name id) ∧
        (frame.map Prod.snd).Pairwise (· < ·) := by
  intro table declared
  have whole : table = empty.performAll (opening predefines ++ history) := by
    rw [performAll_append, ← initial_eq]
  have sound : table.Sound := (initial_sound predefines).performAll history
  have inForce (name : String) (id : EntryId) : (name, id) ∈ table.inForce ↔ declared name id := by
    rw [whole]
    exact empty_sound.mem_inForce_iff rfl _
  refine ⟨fun name => ⟨fun id => ?_, ?_⟩, fun inside balanced => ?_⟩
  · simp only [sound.lookup_iff, inForce]
  · simp only [lookup_undeclared_iff, inForce]
  · have entered : table.enter.scopes = [] :: table.scopes := rfl
    obtain ⟨frame, scopes⟩ := balanced.scopes sound.enter entered
    rw [List.nil_append] at scopes
    have soundInside := sound.enter.performAll inside
    refine ⟨frame, { table.enter.performAll inside with scopes := table.scopes },
      by rw [exit?, scopes], rfl, fun name => rfl, fun later command name declares => ?_, ?_, ?_⟩
    · have bound : table.groups.size ≤ _ := sound.enter.groups_size_le inside
      have soundClosed := soundInside.exit scopes
      have resembles : Resembles _ _ { table.enter.performAll inside with scopes := table.scopes } table :=
        ⟨rfl, (Nat.add_sub_cancel' bound).symm, Nat.le_refl _⟩
      exact (resembles.performAll soundClosed sound later).refuses_iff
        (soundClosed.performAll _).toLinked (sound.performAll later).toLinked declares
    · intro name id
      rw [whole] at scopes ⊢
      exact balanced.mem_frame_iff empty_sound rfl scopes
    · have rising := soundInside.rising
      rw [inForce_cons scopes, List.map_append] at rising
      exact (List.pairwise_append.mp rising).2.1

end AdaFront.Table
