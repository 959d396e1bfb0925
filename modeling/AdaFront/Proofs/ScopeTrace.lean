import Mathlib.Data.List.Perm.Basic
import AdaFront.Proofs.Scoping

namespace AdaFront

/-- The opening or the closing of a scope. -/
def Event.isScope : Event → Bool
  | .scopeOpened _ | .scopeClosed _ _ => true
  | _ => false

/-- The entries that are shown when a scope is closed. -/
def Event.dumped : Event → List Entry
  | .scopeClosed _ entries => entries
  | _ => []

namespace Table

theorem performAll_declare {table : Table} {name : String} {role : Role}
    {result : Except TableError (EntryId × Table)} (declared : table.declare name role = result) :
    table.performAll [.declare name role] = (table.declared result).2 := by
  rw [performAll_cons, performAll_nil, perform, declared]

theorem performAll_declareIn {table : Table} {name : String} {group : GroupId}
    {result : Except TableError (EntryId × Table)} (declared : table.declareIn name group = result) :
    table.performAll [.declareIn name group] = (table.declared result).2 := by
  rw [performAll_cons, performAll_nil, perform, declared]

/-- A group that does not exist has no members to change. -/
theorem changed_update (table : Table) (group : GroupId) (change : Entry → Entry) :
    (table.changed group (table.update group change)).2 = table.update group change := by
  unfold changed update
  cases table.members? group <;> rfl

/-- What happens when commands are carried out one after another. -/
def trace (table : Table) : List Command → List Event
  | [] => []
  | command :: commands => table.events command ++ (table.perform command).2.trace commands

theorem trace_append (table : Table) (first second : List Command) :
    table.trace (first ++ second) = table.trace first ++ (table.performAll first).trace second := by
  induction first generalizing table with
  | nil => rfl
  | cons command first ih =>
    rw [List.cons_append, trace, trace, performAll_cons, ih, List.append_assoc]

theorem trace_singleton (table : Table) (command : Command) :
    table.trace [command] = table.events command :=
  List.append_nil _

/-- Scopes that are opened from a level on inwards, each of which is closed again at the level at which it
has been opened. -/
inductive Bracketed : Nat → List Event → Prop
  | nil {level} : Bracketed level []
  | scope {level inside entries rest} : Bracketed (level + 1) inside → Bracketed level rest →
      Bracketed level (.scopeOpened level :: inside ++ .scopeClosed level entries :: rest)

/-- The same with a number of scopes that are still open, each inside the one before. -/
inductive Unclosed : Nat → List Event → Prop
  | none : Unclosed 0 []
  | opened {level before inside} : Unclosed level before → Bracketed (level + 1) inside →
      Unclosed (level + 1) (before ++ .scopeOpened level :: inside)

/-- Closes as many scopes as there are lists of entries to show, the innermost one first. -/
def closings : List (List Entry) → List Event
  | [] => []
  | entries :: outer => .scopeClosed outer.length entries :: closings outer

section Brackets

variable {level : Nat} {first second events : List Event}

theorem Bracketed.append (left : Bracketed level first) (right : Bracketed level second) :
    Bracketed level (first ++ second) := by
  induction left with
  | nil => exact right
  | scope inside _ _ ih =>
    rw [List.append_assoc, List.cons_append]
    exact .scope inside (ih right)

theorem Unclosed.enter (unclosed : Unclosed level events) :
    Unclosed (level + 1) (events ++ [.scopeOpened level]) :=
  .opened unclosed .nil

/-- Closing a scope inside another one leaves what is open outside. -/
theorem Unclosed.exit (unclosed : Unclosed (level + 2) events) (entries : List Entry) :
    Unclosed (level + 1) (events ++ [.scopeClosed ((level + 1 : Nat) : Int) entries]) := by
  cases unclosed with
  | opened outer inner =>
    cases outer with
    | @opened _ before inside outer around =>
      have closed : Bracketed (level + 1) (inside ++ (.scopeOpened ((level + 1 : Nat) : Int) :: _ ++
          [.scopeClosed ((level + 1 : Nat) : Int) entries])) := around.append (.scope inner .nil)
      simpa using Unclosed.opened outer closed

/-- What is open can be closed. -/
theorem Unclosed.closings (unclosed : Unclosed level events) (inside : Bracketed level second)
    (dumps : List (List Entry)) (count : dumps.length = level) :
    Bracketed 0 (events ++ second ++ Table.closings dumps) := by
  induction unclosed generalizing second dumps with
  | none =>
    rw [List.length_eq_zero_iff.mp count, Table.closings, List.append_nil]
    exact inside
  | @opened level before around outer inner ih =>
    cases dumps with
    | nil => cases count
    | cons entries dumps =>
      obtain rfl : dumps.length = level := Nat.succ.inj count
      have closed : Bracketed dumps.length (.scopeOpened dumps.length :: (around ++ second) ++
          [.scopeClosed dumps.length entries]) := .scope (inner.append inside) .nil
      simpa [Table.closings] using ih closed dumps rfl

/-- Where one scope is open, it is the first that has been opened. -/
theorem Unclosed.outermost (unclosed : Unclosed 1 events) :
    ∃ inside, events = .scopeOpened (0 : Nat) :: inside ∧ Bracketed 1 inside := by
  cases unclosed with
  | opened outer inner =>
    cases outer with
    | none => exact ⟨_, rfl, inner⟩

theorem Performs.length_scopes {table after : Table} {command : Command} {answer : Answer}
    (performs : Performs table command answer after) (noEnter : command ≠ .enter) (noExit : command ≠ .exit) :
    after.scopes.length = table.scopes.length := by
  cases performs with
  | enter => exact absurd rfl noEnter
  | exit | outside => exact absurd rfl noExit
  | declare scopes | join scopes =>
    rw [scopes]
    rfl
  | setRole | setValue | ask | refuse => rfl

/-- A command that leaves a scope open leaves open what it does not close. -/
theorem Unclosed.perform {table : Table} {command : Command} (unclosed : Unclosed table.scopes.length events)
    (linked : table.Linked) (inside : (table.perform command).2.scopes ≠ []) :
    Unclosed (table.perform command).2.scopes.length (events ++ table.events command) := by
  have flat (noEnter : command ≠ .enter) (noExit : command ≠ .exit) (silent : table.events command = []) :
      Unclosed (table.perform command).2.scopes.length (events ++ table.events command) := by
    rw [(linked.performs command).length_scopes noEnter noExit, silent, List.append_nil]
    exact unclosed
  cases command with
  | enter =>
    have level : table.enter.level = table.scopes.length := by simp [level, Table.enter]
    rw [Table.events, level]
    exact unclosed.enter
  | exit =>
    rw [scopes_exit] at inside ⊢
    cases scopes : table.scopes with
    | nil => exact absurd (congrArg List.tail scopes) inside
    | cons frame outer =>
      obtain ⟨around, further, rfl⟩ := List.exists_cons_of_ne_nil (fun nothing : outer = [] =>
        inside ((congrArg List.tail scopes).trans nothing))
      have level : table.level = ((further.length + 1 : Nat) : Int) := by simp [level, scopes]
      rw [scopes] at unclosed
      rw [Table.events, exit?, scopes, level]
      exact unclosed.exit _
  | _ => exact flat (by simp) (by simp) rfl

end Brackets

/-- The entries in force. -/
def visible (table : Table) : List EntryId :=
  table.inForce.map Prod.snd

/-- The members of a group whose entries are in force are in one scope. -/
def Gathered (table : Table) : Prop :=
  ∀ frame ∈ table.scopes, ∀ id ∈ frame.map Prod.snd, ∀ other, table.groupOf? other = table.groupOf? id →
    other ∈ frame.map Prod.snd

/-- The members of a group are in the innermost scope, and there is one. -/
def Fronts (table : Table) (group : GroupId) : Prop :=
  ∃ frame outer, table.scopes = frame :: outer ∧
    (∃ id ∈ frame.map Prod.snd, table.groupOf? id = some group) ∧
    ∀ id, table.groupOf? id = some group → id ∈ frame.map Prod.snd

/-- A command that closes a scope only if one is open, that is given to groups in force only, and that lets
names join a group of the innermost scope only. -/
def Tame (table : Table) : Command → Prop
  | .exit => table.scopes ≠ []
  | .declareIn _ group => table.Fronts group
  | .setRole group _ | .setValue group _ => ∃ id ∈ table.visible, table.groupOf? id = some group
  | _ => True

/-- Tame commands one after another. -/
def TameAll (table : Table) : List Command → Prop
  | [] => True
  | command :: commands => table.Tame command ∧ (table.perform command).2.TameAll commands

theorem tameAll_append {table : Table} {first second : List Command} :
    table.TameAll (first ++ second) ↔ table.TameAll first ∧ (table.performAll first).TameAll second := by
  induction first generalizing table with
  | nil => exact (and_iff_right trivial).symm
  | cons command first ih =>
    rw [List.cons_append, TameAll, TameAll, performAll_cons, ih, and_assoc]

theorem tameAll_singleton {table : Table} {command : Command} :
    table.TameAll [command] ↔ table.Tame command :=
  and_iff_left trivial

theorem mem_visible {table : Table} {id : EntryId} :
    id ∈ table.visible ↔ ∃ frame ∈ table.scopes, id ∈ frame.map Prod.snd := by
  simp only [visible, List.mem_map, Prod.exists, mem_inForce, exists_eq_right]
  constructor
  · rintro ⟨name, frame, inside, member⟩
    exact ⟨frame, inside, name, member⟩
  · rintro ⟨frame, inside, name, member⟩
    exact ⟨name, frame, inside, member⟩

theorem Fronts.visible {table : Table} {group : GroupId} (fronts : table.Fronts group) :
    ∃ id ∈ table.visible, table.groupOf? id = some group := by
  obtain ⟨frame, outer, scopes, ⟨id, member, grouped⟩, _⟩ := fronts
  exact ⟨id, mem_visible.mpr ⟨frame, scopes ▸ List.mem_cons_self, member⟩, grouped⟩

section Gathered

variable {table after : Table} {command : Command} {answer : Answer} {commands : List Command}
  {frame : Frame} {outer : List Frame} {id : EntryId} {entry : Entry}

/-- No entry is in two scopes. -/
theorem Sound.apart {inner : Frame} (sound : table.Sound) (scopes : table.scopes = frame :: outer)
    (inside : inner ∈ outer) (member : id ∈ inner.map Prod.snd) : id ∉ frame.map Prod.snd := by
  intro innermost
  have rising := sound.rising
  rw [inForce_cons scopes, List.map_append, List.pairwise_append] at rising
  obtain ⟨item, inInner, rfl⟩ := List.mem_map.mp member
  have around : item ∈ outer.reverse.flatten := by simpa using ⟨inner, inside, inInner⟩
  exact Nat.lt_irrefl _ (rising.2.2 _ (List.mem_map_of_mem around) _ innermost)

theorem Gathered.push {name : String} {group : GroupId} (gathered : table.Gathered) (sound : table.Sound)
    (scopes : table.scopes = frame :: outer)
    (scopes' : after.scopes = (frame ++ [(name, table.entries.size)]) :: outer)
    (groups : ∀ other, after.groupOf? other =
      if other = table.entries.size then some group else table.groupOf? other)
    (own : ∀ other, table.groupOf? other = some group → other ∈ frame.map Prod.snd) : after.Gathered := by
  have old {inner : Frame} (inside : inner ∈ table.scopes) {id : EntryId} (member : id ∈ inner.map Prod.snd) :
      after.groupOf? id = table.groupOf? id := by
    obtain ⟨item, inInner, rfl⟩ := List.mem_map.mp member
    rw [groups, if_neg (Nat.ne_of_lt (sound.toLinked.lt_size (mem_inForce.mpr ⟨inner, inside, inInner⟩)))]
  intro inner inside id member other same
  rw [scopes'] at inside
  rcases List.mem_cons.mp inside with rfl | around
  · rw [List.map_append, List.mem_append] at member ⊢
    by_cases last : other = table.entries.size
    · exact Or.inr (by simp [last])
    · rw [groups other, if_neg last] at same
      rcases member with member | new
      · rw [old (scopes ▸ List.mem_cons_self) member] at same
        exact Or.inl (gathered frame (scopes ▸ List.mem_cons_self) id member other same)
      · obtain rfl : id = table.entries.size := by simpa using new
        rw [groups, if_pos rfl] at same
        exact Or.inl (own other same)
  · have among : inner ∈ table.scopes := scopes ▸ List.mem_cons_of_mem _ around
    rw [old among member, groups] at same
    split at same
    · exact absurd (own id same.symm) (sound.apart scopes around member)
    · exact gathered inner among id member other same

/-- Tame commands leave the members of each group in one scope. -/
theorem Gathered.remains (gathered : table.Gathered) (sound : table.Sound) (tame : table.Tame command)
    (performs : Performs table command answer after) : after.Gathered := by
  have updated {group : GroupId} {change : Entry → Entry} (gentle : Gentle change) :
      (table.update group change).Gathered := by
    intro inner inside id member other same
    rw [sound.toLinked.groupOf?_update gentle, sound.toLinked.groupOf?_update gentle] at same
    exact gathered inner inside id member other same
  cases performs with
  | enter =>
    intro inner inside id member
    rcases List.mem_cons.mp inside with rfl | around
    · cases member
    · exact gathered inner around id member
  | exit scopes => exact fun inner inside => gathered inner (scopes ▸ List.mem_cons_of_mem _ inside)
  | declare scopes =>
    refine gathered.push sound scopes rfl (groupOf?_withEntry _) fun other new => ?_
    obtain ⟨ids, known, _⟩ := sound.toLinked.joined new
    exact absurd (lt_size_of_members? known) (Nat.lt_irrefl _)
  | join scopes =>
    obtain ⟨_, _, scopes', _, own⟩ := tame
    obtain ⟨rfl, rfl⟩ := List.cons.inj (scopes.symm.trans scopes')
    exact gathered.push sound scopes rfl groupOf?_withMember own
  | setRole role => exact updated (gentle_setRole role)
  | setValue value => exact updated (gentle_setValue value)
  | outside | ask | refuse => exact gathered

/-- What a closed scope takes out of force are its entries. -/
theorem visible_exit (scopes : table.scopes = frame :: outer) :
    table.visible = visible { table with scopes := outer } ++ frame.map Prod.snd := by
  rw [visible, inForce_cons scopes, List.map_append]
  rfl

/-- Opening a scope and changing a group leave what is in force, and a declaration adds to it. -/
theorem Performs.visible_or (performs : Performs table command answer after) (stays : command ≠ .exit) :
    (after.visible = table.visible ∧ after.entries.size = table.entries.size) ∨
      after.visible = table.visible ++ [table.entries.size] ∧ after.entries.size = table.entries.size + 1 := by
  have pushed {name : String} {frame : Frame} {outer : List Frame} (scopes : table.scopes = frame :: outer)
      (scopes' : after.scopes = (frame ++ [(name, table.entries.size)]) :: outer) :
      after.visible = table.visible ++ [table.entries.size] := by
    simp [Table.visible, inForce_cons scopes, inForce_cons scopes']
  have updated (ids : List EntryId) (change : Entry → Entry) (entries : Array Entry) :
      (ids.foldl (fun entries id => entries.modify id change) entries).size = entries.size := by
    induction ids generalizing entries with
    | nil => rfl
    | cons id ids ih => rw [List.foldl_cons, ih, Array.size_modify]
  cases performs with
  | enter => exact Or.inl ⟨by simp [Table.visible, inForce, Table.enter], rfl⟩
  | exit | outside => exact absurd rfl stays
  | declare scopes => exact Or.inr ⟨pushed scopes rfl, Array.size_push _⟩
  | join scopes => exact Or.inr ⟨pushed scopes rfl, Array.size_push _⟩
  | setRole | setValue => exact Or.inl ⟨rfl, updated _ _ _⟩
  | ask | refuse => exact Or.inl ⟨rfl, rfl⟩

/-- What is no longer in force stays out of force. -/
theorem Performs.hidden (performs : Performs table command answer after)
    (found : table.entry? id = some entry) (hidden : id ∉ table.visible) : id ∉ after.visible := by
  by_cases exits : command = .exit
  · subst exits
    cases performs with
    | exit scopes => exact fun shown => hidden (visible_exit scopes ▸ List.mem_append_left _ shown)
    | outside | ask | refuse => exact hidden
  · rcases performs.visible_or exits with ⟨same, _⟩ | ⟨more, _⟩
    · rwa [same]
    · rw [more]
      intro shown
      rcases List.mem_append.mp shown with old | new
      · exact hidden old
      · obtain rfl := List.mem_singleton.mp new
        exact Nat.lt_irrefl _ (lt_size_of_entry found)

/-- An entry that is no longer in force. -/
structure Closed (table : Table) (id : EntryId) (entry : Entry) : Prop where
  found : table.entry? id = some entry
  hidden : id ∉ table.visible

/-- Tame commands leave what is no longer in force as it is. -/
theorem Closed.remains (closed : table.Closed id entry) (gathered : table.Gathered) (linked : table.Linked)
    (tame : table.Tame command) (performs : Performs table command answer after) :
    after.Closed id entry := by
  obtain ⟨found, hidden⟩ := closed
  have updated {group : GroupId} {change : Entry → Entry}
      (inForce : ∃ id ∈ table.visible, table.groupOf? id = some group) :
      Table.entry? (table.update group change) id = some entry := by
    rw [linked.entry?_update, found, Option.map_some, if_neg]
    rintro rfl
    obtain ⟨other, shown, same⟩ := inForce
    obtain ⟨frame, inside, member⟩ := mem_visible.mp shown
    have grouped : table.groupOf? id = table.groupOf? other :=
      (congrArg (Option.map Entry.group) found).trans same.symm
    exact hidden (mem_visible.mpr ⟨frame, inside, gathered frame inside other member id grouped⟩)
  refine ⟨?_, performs.hidden found hidden⟩
  cases performs with
  | declare scopes new => exact (Performs.declare scopes new).entry?_of_declares rfl found
  | join scopes new leads => exact (Performs.join scopes new leads).entry?_of_declares rfl found
  | setRole | setValue => exact updated tame
  | enter | exit | outside | ask | refuse => exact found

/-- Entries have been shown that are no longer in force. With those in force they are all that there are, each
of them once, and they are as they have been shown. -/
structure Dumps (table : Table) (events : List Event) (ids : List EntryId) : Prop where
  all : (ids ++ table.visible).Perm (List.range table.entries.size)
  shown : events.flatMap Event.dumped = ids.filterMap table.entry?

/-- The entries of a scope are shown when it is closed. -/
theorem Dumps.exit {events : List Event} {ids : List EntryId} (dumps : Dumps table events ids)
    (scopes : table.scopes = frame :: outer) :
    Dumps (table.perform .exit).2 (events ++ table.events .exit) (ids ++ frame.map Prod.snd) := by
  have after : (table.perform .exit).2 = { table with scopes := outer } := by rw [perform, exit?, scopes]
  rw [after, Table.events, exit?, scopes]
  constructor
  · refine List.Perm.trans ?_ dumps.all
    rw [visible_exit scopes, List.append_assoc]
    exact .append_left _ List.perm_append_comm
  · rw [List.flatMap_append, dumps.shown, List.filterMap_append, List.filterMap_map]
    exact congrArg _ (List.append_nil _)

/-- Other commands leave what has been shown. -/
theorem Dumps.perform {events : List Event} {ids : List EntryId} (dumps : Dumps table events ids)
    (gathered : table.Gathered) (linked : table.Linked) (tame : table.Tame command) (stays : command ≠ .exit) :
    Dumps (table.perform command).2 (events ++ table.events command) ids := by
  have performs := linked.performs command
  have silent : (table.events command).flatMap Event.dumped = [] := by
    cases command with
    | exit => exact absurd rfl stays
    | _ => rfl
  constructor
  · rcases performs.visible_or stays with ⟨visible, size⟩ | ⟨visible, size⟩
    · rw [visible, size]
      exact dumps.all
    · rw [visible, size, List.range_succ, ← List.append_assoc]
      exact dumps.all.append_right _
  · rw [List.flatMap_append, silent, List.append_nil, dumps.shown]
    refine List.filterMap_congr fun id member => ?_
    have bound : id < table.entries.size :=
      List.mem_range.mp (dumps.all.mem_iff.mp (List.mem_append_left _ member))
    have distinct := dumps.all.nodup_iff.mpr List.nodup_range
    have closed : table.Closed id table.entries[id] :=
      ⟨Array.getElem?_eq_getElem bound,
        fun inForce => (List.nodup_append.mp distinct).2.2 id member id inForce rfl⟩
    exact closed.found.trans (closed.remains gathered linked tame performs).found.symm

end Gathered

end Table

end AdaFront
