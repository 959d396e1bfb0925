import AdaFront.Proofs.Lookahead

namespace AdaFront

namespace Form

/-- A form as the row of forms that it stands for. Parts that only give a name to such a row are
opened. -/
def split : Form → List Form
  | .both first second => first.split ++ second.split
  | .empty => []
  | .part .mode => [optional (.word .kwIn), optional (.word .kwOut)]
  | .part .declarativePart => [.many (.part .basicDeclaration)]
  | .part .sequence => [.part .statement, .many (.part .statement)]
  | form => [form]

end Form

theorem Form.Inner.split {form : Form} (inner : form.Inner) : ∀ one ∈ form.split, one.Inner := by
  induction form with
  | both first second ihFirst ihSecond =>
    intro one member
    rcases List.mem_append.mp member with atFirst | atSecond
    · exact ihFirst inner.1 one atFirst
    · exact ihSecond inner.2 one atSecond
  | empty => exact fun _ member => absurd member List.not_mem_nil
  | part part =>
    cases part with
    | mode | declarativePart | sequence => decide
    | _ => exact List.forall_mem_singleton.mpr inner
  | word | either | many => exact List.forall_mem_singleton.mpr inner

theorem derivesAll_part {part : Part} {forms : List Form} {sentence : List Kind} :
    DerivesAll (.part part :: forms) sentence ↔ DerivesAll (part.factored :: forms) sentence := by
  simp only [derivesAll_cons, derives_factored]

theorem derivesAll_empty {forms : List Form} {sentence : List Kind} :
    DerivesAll (.empty :: forms) sentence ↔ DerivesAll forms sentence := by
  constructor
  · intro derives
    obtain ⟨left, right, rfl, nothing, rest⟩ := derivesAll_cons.mp derives
    cases nothing
    exact rest
  · exact fun derives => .cons .empty derives

/-- Splitting a form keeps its sentences. -/
theorem derivesAll_split (form : Form) (forms : List Form) (sentence : List Kind) :
    DerivesAll (form.split ++ forms) sentence ↔ DerivesAll (form :: forms) sentence := by
  induction form generalizing forms sentence with
  | both first second ihFirst ihSecond =>
    rw [Form.split, List.append_assoc, ihFirst, derivesAll_cons]
    simp only [ihSecond]
    rw [← derivesAll_cons]
    exact derivesAll_both.symm
  | empty => exact derivesAll_empty.symm
  | part part =>
    cases part with
    | mode => exact derivesAll_both.symm.trans (@derivesAll_part .mode _ _).symm
    | declarativePart => exact (@derivesAll_part .declarativePart _ _).symm
    | sequence => exact derivesAll_both.symm.trans (@derivesAll_part .sequence _ _).symm
    | _ => exact Iff.rfl
  | word | either | many => exact Iff.rfl

/-- The words that a row of forms can begin with. -/
def startsAll : List Form → List Kind
  | [] => []
  | form :: forms => form.starts ++ if form.nullable then startsAll forms else []

theorem DerivesAll.mem_startsAll {forms : List Form} {kind : Kind} {rest : List Kind}
    (derives : DerivesAll forms (kind :: rest)) : kind ∈ startsAll forms := by
  induction forms generalizing rest with
  | nil => cases derives
  | cons form forms ih =>
    obtain ⟨left, right, same, atForm, later⟩ := derivesAll_cons.mp derives
    cases left with
    | nil =>
      refine List.mem_append_right _ ?_
      rw [if_pos (atForm.nullable rfl)]
      rw [List.nil_append] at same
      exact ih (same ▸ later)
    | cons first left =>
      obtain ⟨rfl, _⟩ := List.cons.inj same
      exact List.mem_append_left _ (atForm.mem_starts rfl)

/-- Each form of the row is predictable, and what follows it never looks like its continuation. -/
def PredictableAll : List Form → Prop
  | [] => True
  | form :: forms =>
    form.Predictable ∧ (∀ kind ∈ form.continuations, kind ∉ startsAll forms) ∧ PredictableAll forms

/-- A row that says no less than another about what can follow. -/
structure Narrows (narrow wide : List Form) : Prop where
  predictable : PredictableAll wide → PredictableAll narrow
  starts : ∀ kind ∈ startsAll narrow, kind ∈ startsAll wide

namespace Narrows

variable {first second third : List Form}

theorem refl (forms : List Form) : Narrows forms forms := ⟨id, fun _ => id⟩

theorem trans (left : Narrows first second) (right : Narrows second third) :
    Narrows first third :=
  ⟨left.predictable ∘ right.predictable, fun kind member => right.starts kind (left.starts kind member)⟩

theorem cons (form : Form) (narrows : Narrows first second) :
    Narrows (form :: first) (form :: second) := by
  constructor
  · rintro ⟨atForm, apart, rest⟩
    refine ⟨atForm, ?_, narrows.predictable rest⟩
    intro kind continues member
    exact apart kind continues (narrows.starts kind member)
  · intro kind member
    rcases List.mem_append.mp member with atForm | later
    · exact List.mem_append_left _ atForm
    · refine List.mem_append_right _ ?_
      cases possible : form.nullable with
      | false => simp [possible] at later
      | true =>
        simp only [possible, if_true] at later ⊢
        exact narrows.starts kind later

theorem both (left right : Form) (forms : List Form) :
    Narrows (left :: right :: forms) ((left ++ right) :: forms) := by
  constructor
  · rintro ⟨⟨atLeft, atRight, apart⟩, follow, rest⟩
    refine ⟨atLeft, fun kind continues member => ?_, atRight, fun kind continues => ?_, rest⟩
    · rcases List.mem_append.mp member with atRight | later
      · exact apart kind continues atRight
      · cases possible : right.nullable with
        | false => simp [possible] at later
        | true =>
          simp only [possible, if_true] at later
          refine follow kind (List.mem_append_right _ ?_) later
          rw [if_pos possible]
          exact continues
    · exact follow kind (List.mem_append_left _ continues)
  · intro kind member
    simp only [startsAll, Form.nullable_both, Form.starts_both] at member ⊢
    by_cases possible : left.nullable = true
    · simpa [possible] using member
    · simpa [possible] using member

theorem part (part : Part) (forms : List Form) :
    Narrows (part.factored :: forms) (.part part :: forms) := by
  constructor
  · rintro ⟨_, follow, rest⟩
    refine ⟨part.factored_predictable, ?_, rest⟩
    intro kind continues
    exact follow kind (part.factored_continuations kind continues)
  · intro kind member
    rcases List.mem_append.mp member with atPart | later
    · exact List.mem_append_left _ (part.factored_starts kind atPart)
    · rw [part.factored_nullable] at later
      exact List.mem_append_right _ later

theorem empty (forms : List Form) : Narrows forms (.empty :: forms) :=
  ⟨fun whole => whole.2.2, fun _ member => member⟩

/-- Splitting a form keeps a row predictable. -/
theorem split (form : Form) (forms : List Form) :
    Narrows (form.split ++ forms) (form :: forms) := by
  induction form generalizing forms with
  | both left right ihLeft ihRight =>
    rw [Form.split, List.append_assoc]
    exact (ihLeft _).trans (((ihRight forms).cons left).trans (both left right forms))
  | empty => exact empty forms
  | part part =>
    cases part with
    | mode => exact (both _ _ forms).trans (Narrows.part .mode forms)
    | declarativePart => exact Narrows.part .declarativePart forms
    | sequence => exact (both _ _ forms).trans (Narrows.part .sequence forms)
    | _ => exact refl _
  | word | either | many => exact refl _

end Narrows

section Choice

variable {one other body : Form} {forms : List Form} {kind : Kind} {rest : List Kind}

theorem PredictableAll.first (predictable : PredictableAll ((one ||| other) :: forms)) :
    PredictableAll (one :: forms) := by
  obtain ⟨⟨atFirst, _, _, _⟩, follow, rest⟩ := predictable
  refine ⟨atFirst, ?_, rest⟩
  intro kind continues
  exact follow kind (List.mem_append_left _ (List.mem_append_left _ continues))

theorem PredictableAll.second (predictable : PredictableAll ((one ||| other) :: forms)) :
    PredictableAll (other :: forms) := by
  obtain ⟨⟨_, atSecond, _, _⟩, follow, rest⟩ := predictable
  refine ⟨atSecond, ?_, rest⟩
  intro kind continues
  exact follow kind (List.mem_append_left _ (List.mem_append_right _ continues))

theorem PredictableAll.again (predictable : PredictableAll (.many body :: forms)) :
    PredictableAll (body :: .many body :: forms) := by
  have whole := predictable
  obtain ⟨⟨atBody, _, apart⟩, follow, _⟩ := predictable
  refine ⟨atBody, ?_, whole⟩
  intro kind continues member
  rcases List.mem_append.mp member with start | later
  · exact apart kind continues start
  · exact follow kind (List.mem_append_right _ continues) later

/-- A word that the first alternative can begin with excludes the second one, also when that is
empty. -/
theorem DerivesAll.of_mem_starts (derives : DerivesAll ((one ||| other) :: forms) (kind :: rest))
    (predictable : PredictableAll ((one ||| other) :: forms)) (start : kind ∈ one.starts) :
    DerivesAll (one :: forms) (kind :: rest) := by
  obtain ⟨⟨_, _, _, apart⟩, follow, _⟩ := predictable
  obtain ⟨left, right, same, atEither, later⟩ := derivesAll_cons.mp derives
  cases atEither with
  | first atFirst => exact same ▸ .cons atFirst later
  | second atSecond =>
    cases left with
    | nil =>
      have continues : kind ∈ (one ||| other).continuations := by
        refine List.mem_append_right _ ?_
        rw [if_pos (atSecond.nullable rfl)]
        exact start
      rw [List.nil_append] at same
      exact absurd (same ▸ later).mem_startsAll (follow kind continues)
    | cons word left =>
      obtain ⟨rfl, _⟩ := List.cons.inj same
      exact absurd (atSecond.mem_starts rfl) (apart kind start)

theorem DerivesAll.of_notMem_starts
    (derives : DerivesAll ((one ||| other) :: forms) (kind :: rest))
    (predictable : PredictableAll ((one ||| other) :: forms)) (start : kind ∉ one.starts) :
    DerivesAll (other :: forms) (kind :: rest) := by
  obtain ⟨⟨_, _, present, _⟩, _, _⟩ := predictable
  obtain ⟨left, right, same, atEither, later⟩ := derivesAll_cons.mp derives
  cases atEither with
  | first atFirst =>
    cases left with
    | nil => simp [atFirst.nullable rfl] at present
    | cons word left =>
      obtain ⟨rfl, _⟩ := List.cons.inj same
      exact absurd (atFirst.mem_starts rfl) start
  | second atSecond => exact same ▸ .cons atSecond later

theorem DerivesAll.again (derives : DerivesAll (.many body :: forms) (kind :: rest))
    (predictable : PredictableAll (.many body :: forms)) (start : kind ∈ body.starts) :
    DerivesAll (body :: .many body :: forms) (kind :: rest) := by
  obtain ⟨_, follow, _⟩ := predictable
  obtain ⟨left, right, same, atMany, later⟩ := derivesAll_cons.mp derives
  cases atMany with
  | done =>
    rw [List.nil_append] at same
    exact absurd (same ▸ later).mem_startsAll (follow kind (List.mem_append_left _ start))
  | again atBody atBodies =>
    rw [same, List.append_assoc]
    exact .cons atBody (.cons atBodies later)

theorem DerivesAll.done (derives : DerivesAll (.many body :: forms) (kind :: rest))
    (predictable : PredictableAll (.many body :: forms)) (start : kind ∉ body.starts) :
    DerivesAll forms (kind :: rest) := by
  obtain ⟨⟨_, present, _⟩, _, _⟩ := predictable
  obtain ⟨left, right, same, atMany, later⟩ := derivesAll_cons.mp derives
  cases atMany with
  | done =>
    rw [List.nil_append] at same
    exact same ▸ later
  | @again _ left _ atBody atBodies =>
    cases left with
    | nil => simp [atBody.nullable rfl] at present
    | cons word left =>
      obtain ⟨rfl, _⟩ := List.cons.inj same
      exact absurd (atBody.mem_starts rfl) start

end Choice

/-- The word that a choice looks at: the first one to be read, or the one behind if none is. -/
inductive Looks : List Kind → Kind → Kind → Prop
  | word {kind read next} : Looks (kind :: read) next kind
  | next {next} : Looks [] next next

theorem Looks.begins {read : List Kind} {next kind : Kind} (looks : Looks read next kind)
    (rest : List Kind) : ∃ later, read ++ next :: rest = kind :: later := by
  cases looks with
  | word => exact ⟨_, rfl⟩
  | next => exact ⟨rest, rfl⟩

/-- Reading words along a row of forms. Each choice looks at one word only; the word `next` stands
behind all that is read. -/
inductive Reads : List Form → List Kind → Kind → List Form → Prop
  | stay {forms next} : Reads forms [] next forms
  | word {kind forms read next after} :
      Reads forms read next after → Reads (.word kind :: forms) (kind :: read) next after
  | part {part forms read next after} :
      Reads (part.factored.split ++ forms) read next after →
      Reads (.part part :: forms) read next after
  | first {first second forms read next kind after} :
      Looks read next kind → kind ∈ first.starts → Reads (first.split ++ forms) read next after →
      Reads ((first ||| second) :: forms) read next after
  | second {first second forms read next kind after} :
      Looks read next kind → kind ∉ first.starts → Reads (second.split ++ forms) read next after →
      Reads ((first ||| second) :: forms) read next after
  | again {body forms read next kind after} :
      Looks read next kind → kind ∈ body.starts →
      Reads (body.split ++ .many body :: forms) read next after →
      Reads (.many body :: forms) read next after
  | done {body forms read next kind after} :
      Looks read next kind → kind ∉ body.starts → Reads forms read next after →
      Reads (.many body :: forms) read next after

namespace Reads

variable {forms after : List Form} {read : List Kind} {next : Kind}

theorem predictable (reads : Reads forms read next after) (predictable : PredictableAll forms) :
    PredictableAll after := by
  induction reads with
  | stay => exact predictable
  | word _ ih => exact ih predictable.2.2
  | part _ ih =>
    exact ih ((Narrows.split _ _).predictable ((Narrows.part _ _).predictable predictable))
  | first _ _ _ ih => exact ih ((Narrows.split _ _).predictable predictable.first)
  | second _ _ _ ih => exact ih ((Narrows.split _ _).predictable predictable.second)
  | again _ _ _ ih => exact ih ((Narrows.split _ _).predictable predictable.again)
  | done _ _ _ ih => exact ih predictable.2.2

theorem inner (reads : Reads forms read next after) (inner : ∀ form ∈ forms, form.Inner) :
    ∀ form ∈ after, form.Inner := by
  induction reads with
  | stay => exact inner
  | word _ ih => exact ih (List.forall_mem_cons.mp inner).2
  | @part part _ _ _ _ _ ih =>
    obtain ⟨atPart, later⟩ := List.forall_mem_cons.mp inner
    exact ih (List.forall_mem_append.mpr ⟨(part.factored_inner atPart).split, later⟩)
  | first _ _ _ ih =>
    obtain ⟨⟨atFirst, _⟩, later⟩ := List.forall_mem_cons.mp inner
    exact ih (List.forall_mem_append.mpr ⟨atFirst.split, later⟩)
  | second _ _ _ ih =>
    obtain ⟨⟨_, atSecond⟩, later⟩ := List.forall_mem_cons.mp inner
    exact ih (List.forall_mem_append.mpr ⟨atSecond.split, later⟩)
  | @again body _ _ _ _ _ _ _ _ ih =>
    have atBody : body.Inner := (List.forall_mem_cons.mp inner).1
    exact ih (List.forall_mem_append.mpr ⟨atBody.split, inner⟩)
  | done _ _ _ ih => exact ih (List.forall_mem_cons.mp inner).2

/-- What can be read behind the words can be read behind them in the whole row. -/
theorem sound (reads : Reads forms read next after) {rest : List Kind}
    (derives : DerivesAll after rest) : DerivesAll forms (read ++ rest) := by
  induction reads with
  | stay => exact derives
  | word _ ih => exact derivesAll_cons.mpr ⟨[_], _, rfl, .word _, ih derives⟩
  | part _ ih => exact derivesAll_part.mpr ((derivesAll_split _ _ _).mp (ih derives))
  | first _ _ _ ih =>
    obtain ⟨left, right, same, atFirst, later⟩ :=
      derivesAll_cons.mp ((derivesAll_split _ _ _).mp (ih derives))
    exact same ▸ .cons (.first atFirst) later
  | second _ _ _ ih =>
    obtain ⟨left, right, same, atSecond, later⟩ :=
      derivesAll_cons.mp ((derivesAll_split _ _ _).mp (ih derives))
    exact same ▸ .cons (.second atSecond) later
  | again _ _ _ ih =>
    obtain ⟨left, right, same, atBody, later⟩ :=
      derivesAll_cons.mp ((derivesAll_split _ _ _).mp (ih derives))
    obtain ⟨middle, last, rfl, atBodies, later⟩ := derivesAll_cons.mp later
    rw [same, ← List.append_assoc]
    exact .cons (.again atBody atBodies) later
  | done _ _ _ ih => exact derivesAll_cons.mpr ⟨[], _, rfl, .done, ih derives⟩

/-- Every sentence of a predictable row that goes on with these words and the next one is read along
the same way: no other choice could have led to it. -/
theorem complete (reads : Reads forms read next after) (predictable : PredictableAll forms)
    {rest : List Kind} (derives : DerivesAll forms (read ++ next :: rest)) :
    DerivesAll after (next :: rest) := by
  induction reads with
  | stay => exact derives
  | word _ ih =>
    obtain ⟨_, _, same, atWord, later⟩ := derivesAll_cons.mp derives
    cases atWord
    obtain ⟨_, same⟩ := List.cons.inj same
    rw [List.append_eq, List.append_eq, List.nil_append] at same
    exact ih predictable.2.2 (same ▸ later)
  | part _ ih =>
    refine ih ((Narrows.split _ _).predictable ((Narrows.part _ _).predictable predictable)) ?_
    exact (derivesAll_split _ _ _).mpr (derivesAll_part.mp derives)
  | first looks start _ ih =>
    obtain ⟨later, same⟩ := looks.begins rest
    refine ih ((Narrows.split _ _).predictable predictable.first) ?_
    rw [same] at derives ⊢
    exact (derivesAll_split _ _ _).mpr (derives.of_mem_starts predictable start)
  | second looks start _ ih =>
    obtain ⟨later, same⟩ := looks.begins rest
    refine ih ((Narrows.split _ _).predictable predictable.second) ?_
    rw [same] at derives ⊢
    exact (derivesAll_split _ _ _).mpr (derives.of_notMem_starts predictable start)
  | again looks start _ ih =>
    obtain ⟨later, same⟩ := looks.begins rest
    refine ih ((Narrows.split _ _).predictable predictable.again) ?_
    rw [same] at derives ⊢
    exact (derivesAll_split _ _ _).mpr (derives.again predictable start)
  | done looks start _ ih =>
    obtain ⟨later, same⟩ := looks.begins rest
    refine ih predictable.2.2 ?_
    rw [same] at derives ⊢
    exact derives.done predictable start

end Reads

/-- A choice among words, such as an operator. -/
inductive Form.Choice : Form → Prop
  | word (kind : Kind) : Choice (.word kind)
  | either {first second} : Choice first → Choice second → Choice (first ||| second)

theorem Form.Choice.split {form : Form} (choice : form.Choice) : form.split = [form] := by
  cases choice <;> rfl

theorem Form.Choice.reads {form : Form} {forms after : List Form} {kind next : Kind}
    {read : List Kind} (choice : form.Choice) (member : kind ∈ form.starts)
    (reads : Reads forms read next after) : Reads (form :: forms) (kind :: read) next after := by
  induction choice with
  | word =>
    cases List.mem_singleton.mp member
    exact .word reads
  | @either first second atFirst atSecond ihFirst ihSecond =>
    by_cases start : kind ∈ first.starts
    · refine .first .word start ?_
      rw [atFirst.split]
      exact ihFirst start
    · refine .second .word start ?_
      rw [atSecond.split]
      exact ihSecond ((List.mem_append.mp member).resolve_left start)

/-- The sentences of a choice are its words. -/
theorem Form.Choice.derives_iff {form : Form} {sentence : List Kind} (choice : form.Choice) :
    Derives form sentence ↔ ∃ kind ∈ form.starts, sentence = [kind] := by
  constructor
  · intro derives
    induction choice with
    | word kind =>
      cases derives
      exact ⟨kind, List.mem_cons_self, rfl⟩
    | either _ _ ihFirst ihSecond =>
      cases derives with
      | first derives =>
        obtain ⟨kind, start, same⟩ := ihFirst derives
        exact ⟨kind, List.mem_append_left _ start, same⟩
      | second derives =>
        obtain ⟨kind, start, same⟩ := ihSecond derives
        exact ⟨kind, List.mem_append_right _ start, same⟩
  · rintro ⟨kind, start, rfl⟩
    induction choice with
    | word =>
      cases List.mem_singleton.mp start
      exact .word kind
    | either _ _ ihFirst ihSecond =>
      rcases List.mem_append.mp start with atFirst | atSecond
      · exact .first (ihFirst atFirst)
      · exact .second (ihSecond atSecond)

theorem Form.relationalOperator_choice : Form.relationalOperator.Choice :=
  .either (.either (.either (.either (.either (.word _) (.word _)) (.word _)) (.word _)) (.word _))
    (.word _)

theorem Form.addingOperator_choice : Form.addingOperator.Choice :=
  .either (.word _) (.word _)

theorem Form.multiplyingOperator_choice : Form.multiplyingOperator.Choice :=
  .either (.either (.word _) (.word _)) (.word _)

end AdaFront
