import AdaFront.Analysis.StepCases

namespace AdaFront.Analysis

/-- The number of tasks that a task can turn into before it takes a token, itself included. -/
def Task.weight : Task → Nat
  | .object | .assignOrCall _ _ => 2
  | .factor => 3
  | .term => 5
  | .simple => 7
  | .relation => 9
  | .expression => 11
  | _ => 1

def weight (tasks : List Task) : Nat :=
  tasks.foldr (fun task rest => task.weight + rest) 0

@[simp] theorem weight_nil : weight [] = 0 := rfl

@[simp] theorem weight_cons (task : Task) (tasks : List Task) :
    weight (task :: tasks) = task.weight + weight tasks := rfl

@[simp] theorem weight_append (first second : List Task) :
    weight (first ++ second) = weight first + weight second := by
  induction first with
  | nil => simp
  | cons task tasks ih => rw [List.cons_append, weight_cons, weight_cons, ih, Nat.add_assoc]

namespace State

def left (state : State) : Nat :=
  state.feed.left

@[simp] theorem feed_check (state : State) (name : Option EntryId) (use : NameUse) :
    (state.check name use).feed = state.feed := by
  unfold check
  split
  · split <;> rfl
  · rfl

@[simp] theorem left_check (state : State) (name : Option EntryId) (use : NameUse) :
    (state.check name use).left = state.left :=
  congrArg Feed.left (feed_check state name use)

@[simp] theorem feed_setRole (state : State) (role : Role) :
    (state.setRole role).feed = state.feed := by
  unfold setRole
  split <;> rfl

@[simp] theorem left_setRole (state : State) (role : Role) :
    (state.setRole role).left = state.left :=
  congrArg Feed.left (feed_setRole state role)

theorem left_advance_le (state : State) : state.advance.left ≤ state.left :=
  Feed.left_advance_le state.feed

theorem left_advance (state : State) (token : state.kind ≠ .endOfInput) :
    state.advance.left < state.left :=
  Feed.left_advance state.feed token

@[simp] theorem feed_declare (state : State) (role : Role) :
    (state.declare role).feed = state.advance.feed := by
  unfold declare
  dsimp only
  split <;> rfl

@[simp] theorem left_declare (state : State) (role : Role) :
    (state.declare role).left = state.advance.left :=
  congrArg Feed.left (feed_declare state role)

@[simp] theorem feed_declareListed (state : State) :
    state.declareListed.feed = state.advance.feed := by
  unfold declareListed
  dsimp only
  split <;> rfl

@[simp] theorem left_declareListed (state : State) :
    state.declareListed.left = state.advance.left :=
  congrArg Feed.left (feed_declareListed state)

@[simp] theorem feed_find (state : State) : state.find.2.feed = state.advance.feed := by
  unfold find
  dsimp only
  split <;> rfl

@[simp] theorem left_find (state : State) : state.find.2.left = state.advance.left :=
  congrArg Feed.left (feed_find state)

@[simp] theorem feed_literal (state : State) : state.literal.feed = state.advance.feed := by
  unfold literal
  dsimp only
  split <;> rfl

@[simp] theorem left_literal (state : State) : state.literal.left = state.advance.left :=
  congrArg Feed.left (feed_literal state)

@[simp] theorem feed_setConstant (state : State) : state.setConstant.feed = state.feed := by
  unfold setConstant
  split <;> rfl

@[simp] theorem left_setConstant (state : State) : state.setConstant.left = state.left :=
  congrArg Feed.left (feed_setConstant state)

@[simp] theorem feed_assign (state : State) (name : Option EntryId) :
    (state.assign name).feed = state.feed := by
  unfold assign
  split
  · split <;> rfl
  · rfl

@[simp] theorem left_assign (state : State) (name : Option EntryId) :
    (state.assign name).left = state.left :=
  congrArg Feed.left (feed_assign state name)

@[simp] theorem feed_closeScope (state : State) : state.closeScope.feed = state.feed := by
  unfold closeScope
  split <;> rfl

@[simp] theorem left_closeScope (state : State) : state.closeScope.left = state.left :=
  congrArg Feed.left (feed_closeScope state)

@[simp] theorem feed_combine (state : State) (operator : Operator) (left : Option Int) :
    (state.combine operator left).feed = state.feed := by
  unfold combine
  split
  · split <;> rfl
  · rfl

@[simp] theorem left_combine (state : State) (operator : Operator) (left : Option Int) :
    (state.combine operator left).left = state.left :=
  congrArg Feed.left (feed_combine state operator left)

end State

/-- A step goes forward: what it leaves to do weighs less than what there was, where a token weighs
more than all that can follow from it at once. -/
def Step.Forward (state : State) (bound : Nat) : Step → Prop
  | .go tasks after => 24 * after.left + weight tasks < 24 * state.left + bound
  | .stop _ _ => True

namespace Step.Forward

variable {state after : State} {tasks : List Task}

/-- A step that takes the current token can leave several tasks. -/
theorem taking (bound : Nat) (token : state.kind ≠ .endOfInput) (less : after.left ≤ state.advance.left)
    (light : weight tasks < 24) : (Step.go tasks after).Forward state bound := by
  have step := State.left_advance state token
  simp only [Forward]
  omega

/-- A step that takes no token can leave only what weighs less than the task. -/
theorem staying {bound : Nat} (less : after.left ≤ state.left) (light : weight tasks < bound) :
    (Step.go tasks after).Forward state bound := by
  simp only [Forward]
  omega

end Step.Forward

theorem Task.weight_pos (task : Task) : 0 < task.weight := by
  cases task <;> exact Nat.succ_pos _

/-- Behind a token that is taken little is left to do. -/
theorem Takes.light {value : Option Int} {task : Task} {kind : Kind} {tasks : List Task}
    (takes : Takes value task kind tasks) : weight tasks < 24 := by
  cases takes with
  | further first => cases first <;> decide
  | logic | moreLogic | moreTerms | moreFactors | exponent => simp [Task.weight]
  | _ => decide

theorem Expands.light {kind : Kind} {task : Task} {tasks : List Task} (expands : Expands kind task tasks) :
    weight tasks < task.weight := by
  cases expands <;> decide

theorem Heads.light {task : Task} {last : Option EntryId → Bool → Task} {later : List Task}
    (heads : Heads task last later) (name : Option EntryId) (indexed : Bool) :
    weight (last name indexed :: later) ≤ 3 := by
  cases heads <;> simp [Task.weight]

theorem Goes.forward {state after : State} {task : Task} {tasks : List Task}
    (goes : Goes state task tasks after) : (Step.go tasks after).Forward state task.weight := by
  open Step.Forward in
  have positive := task.weight_pos
  cases goes with
  | takes takes =>
    rcases takes.inner_or_word with inner | ⟨_, rfl⟩
    · exact taking _ inner (Nat.le_refl _) takes.light
    · exact staying state.left_advance_le positive
  | omits => exact staying (Nat.le_refl _) positive
  | expands expands => exact staying (Nat.le_refl _) expands.light
  | declare atName =>
    exact taking _ (by simp [atName]) (Nat.le_of_eq (state.left_declare _)) (by decide)
  | names atName | objects atName | nextName atName =>
    exact taking _ (by simp [atName]) (Nat.le_of_eq (State.left_declareListed _)) (by decide)
  | closingName atName | typeName atName =>
    refine taking _ (by simp [atName]) (Nat.le_of_eq ?_) (by decide)
    exact (State.left_check _ _ _).trans state.left_find
  | bare atName heads _ =>
    have light := heads.light state.find.1 false
    exact taking _ (by simp [atName]) (Nat.le_of_eq state.left_find) (by omega)
  | listed atName heads _ =>
    have light := heads.light state.find.1 true
    have list : weight arguments = 13 := rfl
    refine taking _ (by simp [atName]) ?_ ?_
    · exact Nat.le_trans (State.left_advance_le _) (Nat.le_of_eq state.left_find)
    · rw [weight_append, list]
      omega
  | constantObject atWord => exact taking _ (by simp [atWord]) (Nat.le_of_eq (State.left_setRole _ _)) (by decide)
  | target atWord | component atWord =>
    refine taking _ (by simp [atWord]) (Nat.le_of_eq ?_) (by simp [Task.weight])
    simp only [State.left, State.advance, State.feed_check]
  | literal atLiteral => exact taking _ (by simp [atLiteral]) (Nat.le_of_eq state.left_literal) (by decide)
  | typedObject => exact staying (Nat.le_of_eq (state.left_setRole _)) (by decide)
  | call => exact staying (Nat.le_of_eq (state.left_check _ _)) (by simp [Task.weight])
  | setRole => exact staying (Nat.le_of_eq (state.left_setRole _)) positive
  | setConstant => exact staying (Nat.le_of_eq state.left_setConstant) positive
  | assign => exact staying (Nat.le_of_eq (state.left_assign _)) positive
  | operand => exact staying (Nat.le_of_eq (state.left_check _ _)) positive
  | combine => exact staying (Nat.le_of_eq (state.left_combine _ _)) positive
  | closeScope => exact staying (Nat.le_of_eq state.left_closeScope) positive
  | print | endLogic | forget | openScope => exact staying (Nat.le_refl _) positive

theorem Task.step_forward (state : State) (task : Task) :
    (task.step state).Forward state task.weight :=
  task.step_cases state Goes.forward fun _ => trivial

end AdaFront.Analysis
