import AdaFront.Proofs.TableMoves

namespace AdaFront

/-- An entry as every entry is: types, procedures and names without a role have no value, and truth values
belong to the predefined names. -/
structure Entry.Proper (entry : Entry) (id : EntryId) : Prop where
  valueless : entry.role ∈ [.type, .procedure, .unset] → entry.value = none
  predefined {truth : Bool} : entry.value = some (.boolean truth) → Table.predefined.entry? id = some entry

namespace Analysis

/-- A moment of the analyses of an input, with the tasks that are left to do then. -/
structure Moment where
  left : List Task
  state : State

/-- The moment behind a moment. An analysis that has come to its end or cannot go on is followed by the next
one. -/
inductive Moment.Next : Moment → Moment → Prop
  | step {task later more state after} : task.step state = .go more after →
      Next ⟨task :: later, state⟩ ⟨more ++ later, after⟩
  | stopped {task later rejection state after} : task.step state = .stop rejection after →
      Next ⟨task :: later, state⟩ ⟨compilation, after⟩
  | finished {state} : Next ⟨[], state⟩ ⟨compilation, state⟩

namespace Moment

abbrev Leads : Moment → Moment → Prop :=
  Relation.ReflTransGen Next

/-- The moment before the first analysis. -/
def first (scanner : Scanner) : Moment :=
  ⟨compilation, .ofScanner scanner⟩

def entry? (moment : Moment) (id : EntryId) : Option Entry :=
  moment.state.table.entry? id

end Moment

/-- What can become of an entry in the next moment. The declaration whose list it belongs to gives it a role,
and if it is a constant a value; what can be assigned to takes the values of the assignments to its group. -/
inductive Changes (start moment : Moment) (id : EntryId) (entry : Entry) : Entry → Prop
  | same : Changes start moment id entry entry
  | role {role task later tasks begun opening} : moment.left = task :: later →
      task ∈ [.setRole role, .object] → entry.role = .unset → role ≠ .unset → start.Leads ⟨tasks, begun⟩ →
      Reading tasks begun opening moment.left moment.state →
      opening.Listed moment.state.group moment.state.table → opening.entries.size ≤ id →
      Changes start moment id entry { entry with role := role }
  | constant {value later tasks begun opening listed} : moment.left = .setConstant :: later →
      entry.role = .constant → entry.value = none → start.Leads ⟨tasks, begun⟩ →
      Defining tasks begun opening listed moment.left moment.state →
      opening.Listed moment.state.group listed →
      moment.state.table = listed.giveRole moment.state.group .constant → opening.entries.size ≤ id →
      Changes start moment id entry { entry with value := some (.integer value) }
  | store {value : Option Int} {later target} : moment.left = .assign (some target) :: later →
      entry.role ∈ NameUse.target.roles → moment.state.table.groupOf? target = some entry.group →
      Changes start moment id entry { entry with value := value.map .integer }

section Points

variable {tasks left : List Task} {start state : State}

theorem Reaches.leads (reach : Reaches tasks start left state) :
    Moment.Leads ⟨tasks, start⟩ ⟨left, state⟩ := by
  induction reach with
  | start => exact .refl
  | step _ step ih => exact ih.tail (.step step)

/-- The end of an analysis is the beginning of the next one. -/
theorem leads_run (tasks : List Task) (state : State) :
    Moment.Leads ⟨tasks, state⟩ ⟨compilation, (run tasks state).state⟩ := by
  rcases run_reaches tasks state with ⟨_, reach⟩ | ⟨_, _, _, _, reach, step, _⟩
  · exact reach.leads.tail .finished
  · exact reach.leads.tail (.stopped step)

theorem leads_again (scanner : Scanner) (calls : Nat) :
    (Moment.first scanner).Leads ⟨compilation, again calls (.ofScanner scanner)⟩ := by
  induction calls with
  | zero => exact .refl
  | succ calls ih => exact ih.trans (leads_run _ _)

/-- Every moment belongs to one of the analyses. -/
theorem Moment.Leads.reaches {scanner : Scanner} {moment : Moment}
    (leads : (Moment.first scanner).Leads moment) :
    ∃ calls, Reaches compilation (again calls (.ofScanner scanner)) moment.left moment.state := by
  induction leads with
  | refl => exact ⟨0, .start⟩
  | tail _ next ih =>
    obtain ⟨calls, reach⟩ := ih
    have begins {state : State} (ends : (run compilation (again calls (.ofScanner scanner))).state = state) :
        Reaches compilation (again (calls + 1) (.ofScanner scanner)) compilation state :=
      ends ▸ .start
    cases next with
    | step step => exact ⟨calls, reach.step step⟩
    | stopped step => exact ⟨calls + 1, begins (by rw [reach.run_eq, run_stop step])⟩
    | finished => exact ⟨calls + 1, begins (by rw [reach.run_eq, run_nil])⟩

end Points

section Changes

variable {tasks later : List Task} {task : Task} {start state : State} {after : Table} {id : EntryId}
  {entry kept : Entry}

/-- An entry is changed by its declaration and by assignments only. -/
theorem Moves.changes {first : Moment} (leads : first.Leads ⟨tasks, start⟩) (sound : start.Sound)
    (reach : Reaches tasks start (task :: later) state) (moves : Moves tasks start later state task after)
    (found : state.table.entry? id = some entry) :
    ∃ kept, after.entry? id = some kept ∧ Changes first ⟨task :: later, state⟩ id entry kept := by
  have linked : state.table.Linked := (invariant_sound.reaches reach sound).table.toLinked
  cases moves with
  | stay | enter | exit => exact ⟨entry, found, .same⟩
  | declare _ declared | first declared =>
    exact ⟨entry, (performs_of_declare declared).entry?_of_declares rfl found, .same⟩
  | next _ _ _ declared =>
    exact ⟨entry, (performs_of_declareIn linked declared).entry?_of_declares rfl found, .same⟩
  | role giver known reading opened listed =>
    rw [listed.entry?_giveRole opened, found]
    refine ⟨_, rfl, ?_⟩
    dsimp only
    split
    next new => exact .role rfl giver (listed.newer opened new found).1 known leads reading listed new
    next => exact .same
  | @constant opening others leader value group defining opened listed same =>
    rw [Table.setValue, linked.entry?_update, found]
    refine ⟨_, rfl, ?_⟩
    dsimp only
    split
    next member =>
      have given : Table.entry? (others.giveRole state.group .constant) id = some entry := same ▸ found
      rw [listed.entry?_giveRole opened] at given
      obtain ⟨old, atOld, rfl⟩ := Option.map_eq_some_iff.mp given
      have new : opening.entries.size ≤ id := by
        refine listed.new_of_member opened atOld (group.trans (congrArg some ?_))
        split at member <;> exact member.symm
      obtain ⟨_, unvalued, _⟩ := listed.newer opened new atOld
      simp only [if_pos new]
      exact .constant rfl rfl unvalued leads defining listed same new
    next => exact .same
  | @store text target leader value known atTarget assignable =>
    rw [Table.setValue, linked.entry?_update, found]
    refine ⟨_, rfl, ?_⟩
    dsimp only
    split
    next member =>
      have alike := (linked.alike found atTarget member).1
      refine .store rfl (alike ▸ assignable) ?_
      exact (congrArg (Option.map Entry.group) atTarget).trans (congrArg some member.symm)
    next => exact .same

/-- What is declared has no value yet. -/
theorem Moves.fresh (linked : state.table.Linked)
    (moves : Moves tasks start later state task after)
    (new : state.table.entry? id = none) (found : after.entry? id = some entry) : entry.value = none := by
  have updated {group : GroupId} {change : Entry → Entry} :
      ¬Table.entry? (state.table.update group change) id = some entry := by
    rw [linked.entry?_update, new]
    exact nofun
  cases moves with
  | stay | enter | exit => cases new.symm.trans found
  | declare _ declared | first declared =>
    cases performs_of_declare declared with
    | declare =>
      rw [Table.entry?_withEntry, new] at found
      split at found
      · cases found
        rfl
      · cases found
    | ask _ asks => cases asks
  | next _ opened listed declared =>
    cases performs_of_declareIn linked declared with
    | @join _ _ leader _ _ _ _ leads =>
      rw [Table.entry?_withMember, new] at found
      split at found
      · cases found
        exact (listed.newer opened (listed.new_of_member opened leads rfl) leads).2.1
      · cases found
    | ask _ asks => cases asks
  | role =>
    generalize state.group = group at found
    cases group with
    | none => cases new.symm.trans found
    | some => exact absurd found updated
  | constant | store => exact absurd found updated

variable {first moment next : Moment}

theorem Changes.proper (changes : Changes first moment id entry kept) (proper : entry.Proper id) :
    kept.Proper id := by
  cases changes with
  | same => exact proper
  | role _ _ unset =>
    have unvalued : entry.value = none := proper.valueless (by simp [unset])
    exact ⟨fun _ => unvalued, fun truth => nomatch unvalued.symm.trans truth⟩
  | constant _ isConstant => exact ⟨fun among => by simp [isConstant] at among, nofun⟩
  | @store value _ _ _ assignable =>
    constructor
    · intro among
      exact absurd among (by revert assignable; cases entry.role <;> decide)
    · intro _ truth
      obtain ⟨_, _, same⟩ := Option.map_eq_some_iff.mp truth
      cases same

theorem Changes.keeps (changes : Changes first moment id entry kept) :
    kept.name = entry.name ∧ kept.group = entry.group ∧
      (entry.role ≠ .unset → kept.role = entry.role) ∧
      (entry.role = .constant → entry.value ≠ none → kept = entry) := by
  cases changes with
  | same => exact ⟨rfl, rfl, fun _ => rfl, fun _ _ => rfl⟩
  | role _ _ unset =>
    exact ⟨rfl, rfl, fun known => absurd unset known, fun isConstant => nomatch unset.symm.trans isConstant⟩
  | constant _ _ unvalued => exact ⟨rfl, rfl, fun _ => rfl, fun _ valued => absurd unvalued valued⟩
  | store _ assignable =>
    refine ⟨rfl, rfl, fun _ => rfl, fun isConstant => ?_⟩
    rw [isConstant] at assignable
    exact absurd assignable (by decide)

end Changes

section Moments

variable {scanner : Scanner} {moment next later : Moment} {id : EntryId} {entry : Entry}

namespace Moment

theorem Leads.linked (leads : (first scanner).Leads moment) : moment.state.table.Linked := by
  obtain ⟨calls, reach⟩ := leads.reaches
  exact (invariant_sound.reaches reach (resumable_again scanner calls).toSound).table.toLinked

/-- The next moment is that behind a move, or the table stays as it is. -/
theorem Leads.moves (leads : (first scanner).Leads moment) (follows : moment.Next next) :
    next.state.table = moment.state.table ∨ ∃ calls task later, moment.left = task :: later ∧
      Reaches compilation (again calls (.ofScanner scanner)) (task :: later) moment.state ∧
      Moves compilation (again calls (.ofScanner scanner)) later moment.state task next.state.table := by
  cases follows with
  | @step task others _ _ _ step =>
    obtain ⟨calls, reach⟩ := leads.reaches
    exact Or.inr ⟨calls, task, others, rfl, reach,
      reach.moves turns_compilation (resumable_again scanner calls).toSound step⟩
  | stopped step =>
    obtain ⟨_, rfl⟩ := Task.step_stop_eq step
    exact Or.inl rfl
  | finished => exact Or.inl rfl

theorem Leads.changes (leads : (first scanner).Leads moment) (follows : moment.Next next)
    (found : moment.entry? id = some entry) :
    ∃ kept, next.entry? id = some kept ∧ Changes (first scanner) moment id entry kept := by
  rcases leads.moves follows with same | ⟨calls, task, others, left, reach, moves⟩
  · exact ⟨entry, (congrArg (Table.entry? · id) same).trans found, .same⟩
  · obtain ⟨_, state⟩ := moment
    obtain rfl : _ = _ := left
    exact moves.changes (leads_again scanner calls) (resumable_again scanner calls).toSound reach found

theorem Leads.fresh (leads : (first scanner).Leads moment) (follows : moment.Next next)
    (new : moment.entry? id = none) (found : next.entry? id = some entry) : entry.value = none := by
  rcases leads.moves follows with same | ⟨calls, _, _, _, _, moves⟩
  · cases new.symm.trans ((congrArg (Table.entry? · id) same).symm.trans found)
  · exact moves.fresh leads.linked new found

theorem Leads.proper (leads : (first scanner).Leads moment) (found : moment.entry? id = some entry) :
    entry.Proper id := by
  induction leads generalizing entry with
  | refl =>
    have valueless : ∀ entry ∈ Table.predefined.entries, entry.role ∈ [.type, .procedure, .unset] →
        entry.value = none := by decide
    exact ⟨valueless entry (Array.mem_of_getElem? found), fun _ => found⟩
  | @tail before _ leads follows ih =>
    cases old : before.entry? id with
    | none =>
      have unvalued := Leads.fresh leads follows old found
      exact ⟨fun _ => unvalued, fun truth => nomatch unvalued.symm.trans truth⟩
    | some =>
      obtain ⟨kept, atId, changes⟩ := Leads.changes leads follows old
      obtain rfl := Option.some.inj (atId.symm.trans found)
      exact changes.proper (ih old)

/-- A role stays, and so does a constant with a value. -/
theorem Leads.keeps (leads : (first scanner).Leads moment) (onward : moment.Leads later)
    (found : moment.entry? id = some entry) :
    ∃ kept, later.entry? id = some kept ∧ kept.name = entry.name ∧ kept.group = entry.group ∧
      (entry.role ≠ .unset → kept.role = entry.role) ∧
      (entry.role = .constant → entry.value ≠ none → kept = entry) := by
  induction onward with
  | refl => exact ⟨entry, found, rfl, rfl, fun _ => rfl, fun _ _ => rfl⟩
  | tail onward follows ih =>
    obtain ⟨kept, atId, name, group, role, constant⟩ := ih
    obtain ⟨last, atLast, changes⟩ := Leads.changes (leads.trans onward) follows atId
    obtain ⟨sameName, sameGroup, sameRole, same⟩ := changes.keeps
    refine ⟨last, atLast, sameName.trans name, sameGroup.trans group, fun known => ?_,
      fun isConstant valued => ?_⟩
    · exact (sameRole (role known ▸ known)).trans (role known)
    · obtain rfl := constant isConstant valued
      exact same isConstant valued

end Moment

/-- However often an input is analysed, an entry gets a role once, when the list that has declared it has been
read, and a constant gets a value at most once, from its own declaration; other values come from assignments to
variables and parameters. Types, procedures and names without a role have no value, and only the predefined
truth values are no integers. Behind a first analysis that goes through, every entry has a role. -/
theorem compile_settles (scanner : Scanner) :
    let first := Moment.first scanner
    (∀ moment, first.Leads moment → ∀ id entry, moment.entry? id = some entry →
      entry.Proper id ∧
      (∀ next, moment.Next next →
        ∃ kept, next.entry? id = some kept ∧ Changes first moment id entry kept) ∧
      ∀ later, moment.Leads later → ∃ kept, later.entry? id = some kept ∧ kept.name = entry.name ∧
        kept.group = entry.group ∧ (entry.role ≠ .unset → kept.role = entry.role) ∧
        (entry.role = .constant → entry.value ≠ none → kept = entry)) ∧
    (∀ moment next, first.Leads moment → moment.Next next → ∀ id entry, moment.entry? id = none →
      next.entry? id = some entry → entry.value = none) ∧
    ((compile first.state).rejection = none → ∀ id entry,
      (compile first.state).state.table.entry? id = some entry → entry.role ≠ .unset) := by
  intro first
  refine ⟨fun moment leads id entry found =>
      ⟨leads.proper found, fun next follows => ?_, fun later onward => ?_⟩,
    fun moment next leads follows id entry => leads.fresh follows, fun finished id entry found => ?_⟩
  · exact leads.changes follows found
  · exact leads.keeps onward found
  · have sound := sound_ofScanner scanner
    have settled := (run_finished finished).settled turns_compilation sound
    by_cases new : first.state.table.entries.size ≤ id
    · exact settled id entry new found
    · -- what has been there before has got its role before
      have known : ∀ entry ∈ Table.predefined.entries, entry.role ≠ .unset := by decide
      obtain ⟨old, atOld⟩ : ∃ old, first.entry? id = some old :=
        ⟨_, Array.getElem?_eq_getElem (Nat.lt_of_not_le new)⟩
      have start : first.Leads first := .refl
      obtain ⟨kept, atId, _, _, role, _⟩ := Moment.Leads.keeps start (leads_run compilation _) atOld
      obtain rfl := Option.some.inj (atId.symm.trans found)
      have settled := known old (Array.mem_of_getElem? atOld)
      exact role settled ▸ settled

end Moments

end Analysis

end AdaFront
