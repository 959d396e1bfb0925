import AdaFront.Proofs.Additions
import AdaFront.Proofs.Places

namespace AdaFront

/-- The report of an error that ends an analysis. -/
def Event.isFatal : Event → Bool
  | .reported _ (.rejected _) => true
  | _ => false

theorem Event.OfScanning.isFatal {event : Event} (scanning : event.OfScanning) : event.isFatal = false := by
  cases scanning <;> rfl

namespace Analysis

/-- A task that goes on reports nothing fatal. -/
theorem Task.Adds.isFatal {state : State} {task : Task} {event : Event} (adds : task.Adds state event) :
    event.isFatal = false := by
  cases adds with
  | search scanning => exact scanning.isFatal
  | name | mismatch | behind => rfl
  | arithmetic among =>
    simp only [List.mem_cons, List.not_mem_nil, or_false] at among
    obtain rfl | rfl := among <;> rfl
  | silent quiet => cases event <;> first | rfl | cases quiet

/-- On the way of an analysis nothing fatal happens. -/
theorem Reaches.quiet {tasks left : List Task} {start after : State} (searched : start.feed.Searched)
    (reach : Reaches tasks start left after) : start.Extends (fun event => event.isFatal = false) after := by
  refine (reach.adds searched).mono fun event origin => ?_
  obtain ⟨_, _, _, _, _, _, _, adds⟩ := origin
  exact adds.isFatal

theorem again_searched (scanner : Scanner) (calls : Nat) :
    (again calls (.ofScanner scanner)).feed.Searched :=
  invariant_searched.again calls scanner.feed_searched

end Analysis

end AdaFront
