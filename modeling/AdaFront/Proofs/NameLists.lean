import Mathlib.Logic.Function.Basic
import AdaFront.Proofs.Actions
import AdaFront.Proofs.ScopeTrace

namespace AdaFront

/-- The table whose entries in a group have a role, if there is a group. -/
def Table.giveRole (table : Table) (group : Option GroupId) (role : Role) : Table :=
  match group with
  | some group => table.setRole group role
  | none => table

/-- The group and the table behind some names of a list which has begun with another table. The first name
that can be declared founds the group, the others join it. -/
inductive Table.Listed (opening : Table) : Option GroupId → Table → Prop
  | begun : Listed opening none opening
  | first {name id table} : opening.declare name .unset = .ok (id, table) →
      Listed opening (some opening.groups.size) table
  | next {name id group table after} : Listed opening (some group) table →
      table.declareIn name group = .ok (id, after) → Listed opening (some group) after

namespace Table

open Analysis (performs_of_declare performs_of_declareIn)

theorem Linked.group_lt {table : Table} {id : EntryId} {entry : Entry} (linked : table.Linked)
    (found : table.entry? id = some entry) : entry.group < table.groups.size := by
  obtain ⟨ids, known, _⟩ := linked.joined (congrArg (Option.map Entry.group) found)
  exact lt_size_of_members? known

namespace Listed

variable {opening table : Table} {group : Option GroupId} {id : EntryId} {entry : Entry}

theorem sound (listed : opening.Listed group table) (sound : opening.Sound) : table.Sound := by
  induction listed with
  | begun => exact sound
  | first declared => exact (performs_of_declare declared).sound sound
  | next _ declared ih => exact (performs_of_declareIn ih.toLinked declared).sound ih

theorem group_eq (listed : opening.Listed group table) :
    (group = none ∧ table = opening) ∨ group = some opening.groups.size := by
  induction listed with
  | begun => exact Or.inl ⟨rfl, rfl⟩
  | first => exact Or.inr rfl
  | next _ _ ih => exact Or.inr (ih.resolve_left fun nothing => nomatch nothing.1)

/-- What was declared before the list is as it was. -/
theorem older (listed : opening.Listed group table) (sound : opening.Sound)
    (bound : id < opening.entries.size) : table.entry? id = opening.entry? id := by
  obtain ⟨entry, found⟩ : ∃ entry, opening.entry? id = some entry := ⟨_, Array.getElem?_eq_getElem bound⟩
  rw [found]
  induction listed with
  | begun => exact found
  | first declared => exact (performs_of_declare declared).entry?_of_declares rfl found
  | next listed declared ih =>
    exact (performs_of_declareIn (listed.sound sound).toLinked declared).entry?_of_declares rfl ih

/-- An entry of the group has been declared in the list. -/
theorem new_of_member (listed : opening.Listed group table) (sound : opening.Sound)
    (found : table.entry? id = some entry) (member : group = some entry.group) :
    opening.entries.size ≤ id := by
  by_contra old
  rw [listed.older sound (Nat.lt_of_not_le old)] at found
  rcases listed.group_eq with ⟨nothing, _⟩ | same
  · cases nothing.symm.trans member
  · have bound := sound.toLinked.group_lt found
    rw [← Option.some.inj (same.symm.trans member)] at bound
    exact Nat.lt_irrefl _ bound

/-- The names of the list have no role and no value yet, and they are in the innermost scope. -/
theorem newer (listed : opening.Listed group table) (sound : opening.Sound)
    (new : opening.entries.size ≤ id) (found : table.entry? id = some entry) :
    entry.role = .unset ∧ entry.value = none ∧ group = some entry.group ∧
      ∃ frame outer, table.scopes = frame :: outer ∧ (entry.name, id) ∈ frame := by
  induction listed generalizing id entry with
  | begun => exact absurd (lt_size_of_entry found) (Nat.not_lt.mpr new)
  | first declared =>
    cases performs_of_declare declared with
    | declare =>
      rw [entry?_withEntry] at found
      split at found
      next same =>
        cases found
        exact ⟨rfl, rfl, rfl, _, _, rfl, by simp [same]⟩
      next => exact absurd (lt_size_of_entry found) (Nat.not_lt.mpr new)
    | ask _ asks => cases asks
  | next listed declared ih =>
    cases performs_of_declareIn (listed.sound sound).toLinked declared with
    | @join _ _ leader frame outer scopes _ leads =>
      rw [entry?_withMember] at found
      split at found
      next same =>
        cases found
        obtain ⟨unset, unvalued, _⟩ := ih (listed.new_of_member sound leads rfl) leads
        exact ⟨unset, unvalued, rfl, _, _, rfl, by simp [same]⟩
      next =>
        obtain ⟨unset, unvalued, grouped, _, _, scopes', inside⟩ := ih new found
        obtain ⟨rfl, rfl⟩ := List.cons.inj (scopes.symm.trans scopes')
        exact ⟨unset, unvalued, grouped, _, _, rfl, List.mem_append_left _ inside⟩
    | ask _ asks => cases asks

theorem member_iff (listed : opening.Listed group table) (sound : opening.Sound)
    (found : table.entry? id = some entry) :
    group = some entry.group ↔ opening.entries.size ≤ id :=
  ⟨listed.new_of_member sound found, fun new => (listed.newer sound new found).2.2.1⟩

/-- The names of the list get the role, and nothing else changes. -/
theorem entry?_giveRole (listed : opening.Listed group table) (sound : opening.Sound) (role : Role)
    (id : EntryId) :
    Table.entry? (table.giveRole group role) id = (table.entry? id).map fun entry =>
      if opening.entries.size ≤ id then { entry with role := role } else entry := by
  have members (entry : Entry) (found : table.entry? id = some entry) :=
    listed.member_iff sound found
  cases group with
  | none =>
    cases found : table.entry? id with
    | none => exact found
    | some entry =>
      have old : ¬opening.entries.size ≤ id := (members entry found).not.mp nofun
      rw [Option.map_some, if_neg old]
      exact found
  | some group =>
    refine ((listed.sound sound).toLinked.entry?_update id).trans ?_
    cases found : table.entry? id with
    | none => rfl
    | some entry =>
      have same : entry.group = group ↔ opening.entries.size ≤ id := by
        rw [← members entry found, Option.some_inj, eq_comm]
      simp only [Option.map_some, same]

theorem fronts {group : GroupId} (listed : opening.Listed (some group) table) (sound : opening.Sound) :
    table.Fronts group := by
  obtain ⟨id, entry, found, same⟩ : ∃ id entry, table.entry? id = some entry ∧ entry.group = group := by
    cases listed with
    | first declared =>
      cases performs_of_declare declared with
      | declare => exact ⟨_, _, (entry?_withEntry _ _).trans (if_pos rfl), rfl⟩
      | ask _ asks => cases asks
    | next listed declared =>
      cases performs_of_declareIn (listed.sound sound).toLinked declared with
      | join => exact ⟨_, _, (entry?_withMember _).trans (if_pos rfl), rfl⟩
      | ask _ asks => cases asks
  have inFront {id : EntryId} {entry : Entry} (found : table.entry? id = some entry)
      (same : entry.group = group) :
      ∃ frame outer, table.scopes = frame :: outer ∧ id ∈ frame.map Prod.snd := by
    have new := listed.new_of_member sound found (congrArg some same.symm)
    obtain ⟨_, _, _, frame, outer, scopes, inside⟩ := listed.newer sound new found
    exact ⟨frame, outer, scopes, List.mem_map_of_mem inside⟩
  obtain ⟨frame, outer, scopes, member⟩ := inFront found same
  refine ⟨frame, outer, scopes, ⟨id, member, ?_⟩, fun other grouped => ?_⟩
  · exact (congrArg (Option.map Entry.group) found).trans (congrArg some same)
  · obtain ⟨entry', found', same'⟩ := entry?_of_groupOf? grouped
    obtain ⟨_, _, scopes', member'⟩ := inFront found' same'
    obtain ⟨rfl, _⟩ := List.cons.inj (scopes.symm.trans scopes')
    exact member'

end Listed

end Table

end AdaFront
