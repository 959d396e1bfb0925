import AdaFront.Proofs.TableCommands
import AdaFront.Proofs.Verbosity

namespace AdaFront

open Table (Bracketed Unclosed)

theorem isTrace_of_isAside {line : String} (beside : isAside true line = false) : isTrace line = false := by
  rw [isAside, Bool.true_and] at beside
  exact (Bool.or_eq_false_iff.mp beside).2

theorem isTrace_echo (number : Nat) (text : String) : isTrace (echo number text) = false := by
  have opens : (echo number text).toList.head? = some '#' := head?_of_begins (isEcho_echo number text) rfl
  have other {first : Char} (apart : first ≠ '#') : (echo number text).toList.head? ≠ some first := by
    rw [opens]
    exact fun same => apart (Option.some.inj same).symm
  have noStars : begins "***" (echo number text) = false := begins_of_head rfl (other (by decide))
  have noName : begins "Name:" (echo number text) = false := begins_of_head rfl (other (by decide))
  rw [isTrace, noStars, noName, Bool.or_self]

theorem isTrace_of_stars {line : String} (stars : begins "***" line = true) : isTrace line = true := by
  rw [isTrace, stars, Bool.true_or]

/-- In a verbose run the scopes are all that looks like a trace of them. -/
theorem Event.Worded.filter_isTrace {event : Event} (worded : event.Worded) :
    (event.diagnosticLines true).filter isTrace =
      if event.isScope then event.diagnosticLines true else [] := by
  cases event with
  | noted | summarized => exact worded.elim
  | lineRead number text =>
    exact List.filter_cons_of_neg (Bool.eq_false_iff.mp (isTrace_echo number text))
  | reported spot diagnostic =>
    have own : [marked spot.column diagnostic.message].filter isTrace = [] :=
      List.filter_cons_of_neg (Bool.eq_false_iff.mp (isTrace_of_isAside (isAside_marked true _ _)))
    rw [diagnosticLines]
    cases spot.text <;> exact own
  | scopeOpened level =>
    have stars : begins "***" ("*** Entered level " ++ toString level) = true := begins_append (by decide) _
    exact List.filter_cons_of_pos (isTrace_of_stars stars)
  | scopeClosed level entries =>
    have first : begins "***" ("*** Symbol table for level " ++ toString level) = true :=
      begins_append (by decide) _
    have last : begins "***" ("*** Exited level " ++ toString level) = true := begins_append (by decide) _
    refine List.filter_eq_self.mpr (List.forall_mem_cons.mpr ⟨isTrace_of_stars first, ?_⟩)
    refine List.forall_mem_append.mpr ⟨fun line member => ?_, ?_⟩
    · obtain ⟨entry, _, rfl⟩ := List.mem_map.mp member
      exact entry.isTrace_description
    · exact List.forall_mem_singleton.mpr (isTrace_of_stars last)
  | _ => rfl

theorem Journal.filter_isTrace {journal : Journal} (worded : ∀ event ∈ journal, event.Worded) :
    (journal.linesOn true .diagnostics).filter isTrace =
      journal.scopes.flatMap (Event.diagnosticLines true) := by
  induction journal with
  | nil => rfl
  | cons event journal ih =>
    obtain ⟨first, older⟩ := List.forall_mem_cons.mp worded
    have own : (event.linesOn true .diagnostics).filter isTrace =
        if event.isScope then event.diagnosticLines true else [] := first.filter_isTrace
    rw [linesOn_cons, List.filter_append, ih older, own]
    cases isScope : event.isScope with
    | true =>
      rw [if_pos rfl, scopes_cons journal isScope, List.flatMap_append, List.flatMap_singleton]
    | false =>
      rw [if_neg Bool.false_ne_true, List.append_nil, scopes_other journal isScope]

namespace Compilation

variable (source : String)

/-- The trace in the diagnostics of a verbose run tells of the scopes that have been opened and closed. -/
theorem filter_isTrace :
    ((ofSource source).journal.linesOn true .diagnostics).filter isTrace =
      (ofSource source).outcome.state.journal.scopes.flatMap (Event.diagnosticLines true) := by
  have banner : ["", "Compilation complete"].filter isTrace = [] := by decide
  have ending : [last source].filter isTrace = [] :=
    List.filter_cons_of_neg (Bool.eq_false_iff.mp (isTrace_of_isAside (isAside_summary true _)))
  have scopes : Journal.scopes (said source) = (ofSource source).outcome.state.journal.scopes := by
    refine Journal.scopes_append fun event member => ?_
    obtain ⟨rejection, _, rfl⟩ := Option.map_eq_some_iff.mp (Option.mem_toList.mp member)
    rfl
  rw [linesOn_diagnostics, List.filter_append, if_pos rfl, List.filter_append, banner, ending,
    Journal.filter_isTrace (said_worded source), scopes]
  exact List.append_nil _

end Compilation

namespace Analysis

section Points

variable {point after : State} {left : List Task}

/-- Wherever an analysis is within its program, the outermost scope is open. -/
theorem Reaches.body_scopes (sound : point.Sound) (outermost : point.table.scopes.length = 1)
    (reach : Reaches body point left after) : ∃ frame outer, after.table.scopes = frame :: outer := by
  obtain ⟨inner, outer, scopes, gains, _⟩ := reach.body_gains sound
  refine List.exists_cons_of_ne_nil (scopes ▸ List.append_ne_nil_of_right_ne_nil _ (gains.ne_nil ?_))
  exact List.ne_nil_of_length_pos (by omega)

/-- There the scopes that have been opened are closed again from the innermost one on, and those in the table
are open. -/
theorem Reaches.unclosed (sound : point.Sound) (searched : point.feed.Searched)
    (outermost : point.table.scopes.length = 1) (opened : Unclosed 1 point.journal.scopes)
    (reach : Reaches body point left after) :
    Unclosed after.table.scopes.length after.journal.scopes := by
  induction reach with
  | start => rwa [outermost]
  | @step task more later before after reach step ih =>
    have journal := Task.step_scopes_journal (invariant_searched.reaches reach searched) step
    have carries := Task.step_carries before task
    rw [step, Step.Carries] at carries
    obtain ⟨frame, outer, scopes⟩ := (reach.step step).body_scopes sound outermost
    rw [journal, carries]
    cases given : task.command? before with
    | none =>
      rw [Option.toList_none, Table.performAll_nil, Table.trace, List.append_nil]
      exact ih
    | some command =>
      rw [given, Option.toList_some, Table.performAll_cons, Table.performAll_nil] at carries
      rw [Option.toList_some, Table.performAll_cons, Table.performAll_nil, Table.trace_singleton]
      refine ih.perform (invariant_sound.reaches reach sound).table.toLinked ?_
      rw [← carries, scopes]
      exact List.cons_ne_nil _ _

end Points

end Analysis

end AdaFront
