import AdaFront.Proofs.Finality
import AdaFront.Proofs.Verbosity

namespace AdaFront

/-- The parts of a text between its line feeds. Behind the last line feed stands one more part. -/
def Text.parts (text : String) : List String :=
  (List.splitOn '\n' text.toList).map String.ofList

/-- A text that is written line by line has the lines that are written, and nothing behind them. -/
theorem Text.parts_joined {written : List String} (apart : ∀ line ∈ written, '\n' ∉ line.toList) :
    parts (joined written) = written ++ [""] := by
  rw [parts, toList_joined]
  induction written with
  | nil => rfl
  | cons line written ih =>
    obtain ⟨first, later⟩ := List.forall_mem_cons.mp apart
    rw [List.flatMap_cons, List.append_assoc, List.singleton_append,
      List.splitOn_append_cons_self_of_not_mem first, List.map_cons, ih later, String.ofList_toList]
    rfl

/-- A message is what stands behind at least four spaces and the mark of an error. -/
theorem isMessage_iff {line : String} : isMessage line = true ↔
    ∃ width rest, 4 ≤ width ∧ line.toList = List.replicate width ' ' ++ 'E' :: ':' :: ' ' :: rest := by
  constructor
  · intro message
    obtain ⟨indented, marks⟩ := Bool.and_eq_true_iff.mp message
    obtain ⟨text, whole⟩ : List.replicate 4 ' ' <+: line.toList := List.isPrefixOf_iff_prefix.mp indented
    have beginning := List.isPrefixOf_iff_prefix.mp marks
    rw [String.toList_ofList, String.toList_ofList] at beginning
    obtain ⟨rest, behind⟩ := beginning
    have blank : ∀ c ∈ List.replicate 4 ' ', (c == ' ') = true := fun _ member =>
      beq_iff_eq.mpr (List.eq_of_mem_replicate member)
    have spaces (chars : List Char) : chars.takeWhile (· == ' ') =
        List.replicate (chars.takeWhile (· == ' ')).length ' ' :=
      List.eq_replicate_of_mem fun c member =>
        beq_iff_eq.mp (List.all_eq_true.mp List.all_takeWhile c member)
    refine ⟨(line.toList.takeWhile (· == ' ')).length, rest, ?_, ?_⟩
    · rw [← whole, List.takeWhile_append_of_pos blank, List.length_append, List.length_replicate]
      exact Nat.le_add_right 4 _
    · have mark : 'E' :: ':' :: ' ' :: rest = line.toList.dropWhile (· == ' ') := behind
      rw [← spaces, mark, List.takeWhile_append_dropWhile]
  · rintro ⟨width, rest, wide, whole⟩
    obtain ⟨more, rfl⟩ := Nat.exists_eq_add_of_le wide
    have same : line = marked more (String.ofList rest) := by
      rw [← String.toList_inj, toList_marked, whole, String.toList_ofList]
      rfl
    rw [same]
    exact isMessage_marked _ _

/-- The summary of many errors reads like no other one. -/
theorem summary_ne (errors : Nat) :
    summary (errors + 2) ≠ summary 0 ∧ summary (errors + 2) ≠ summary 1 := by
  constructor
  · intro same
    obtain ⟨first, opens, digit⟩ := head?_summary errors
    rw [same] at opens
    cases opens
    cases digit
  · intro same
    have parts : summary (errors + 2) = toString (errors + 2) ++ " errors reported" := rfl
    have ending : (summary (errors + 2)).toList.reverse.take 10 = (summary 1).toList.reverse.take 10 :=
      congrArg (fun line : String => line.toList.reverse.take 10) same
    rw [parts, String.toList_append, List.reverse_append,
      List.take_append_of_le_length (by decide)] at ending
    exact absurd ending (by decide)

/-- The summary tells the number of the errors. -/
theorem summary_injective : Function.Injective summary := by
  intro one other same
  match one, other with
  | 0, 0 | 1, 1 => rfl
  | 0, 1 | 1, 0 => exact absurd same (by decide)
  | 0, errors + 2 => exact absurd same.symm (summary_ne errors).1
  | 1, errors + 2 => exact absurd same.symm (summary_ne errors).2
  | errors + 2, 0 => exact absurd same (summary_ne errors).1
  | errors + 2, 1 => exact absurd same (summary_ne errors).2
  | one + 2, other + 2 =>
    have numerals : toString (one + 2) = toString (other + 2) :=
      (String.append_left_inj " errors reported").mp same
    exact Text.toString_nat_inj.mp numerals

theorem Journal.length_messages (journal : Journal) : journal.messages.length = journal.errors := by
  rw [messages, List.length_filterMap_eq_countP, List.countP_reverse, errors]
  refine List.countP_congr fun event _ => ?_
  cases event <;> rfl

/-- The diagnostic lines of an event, and the message among them. -/
structure Event.Lined (verbose : Bool) (event : Event) : Prop where
  apart : ∀ line ∈ event.diagnosticLines verbose, '\n' ∉ line.toList
  message : (event.diagnosticLines verbose).filter isMessage = event.message?.toList

namespace Compilation

variable (source : String)

/-- Whatever characters the source has, each event writes whole lines, and only a report writes a line that
looks like a message, which is its own. -/
theorem lined (verbose : Bool) : ∀ event ∈ (ofSource source).journal, event.Lined verbose := by
  rw [journal_eq]
  refine List.forall_mem_cons.mpr ⟨⟨?_, ?_⟩, fun event member => ⟨?_, ?_⟩⟩
  · intro line member
    refine (isLine_linesOn source verbose line ?_).1
    rw [linesOn_diagnostics]
    exact List.mem_append_right _ member
  · have banner : (if verbose then ["", "Compilation complete"] else []).filter isMessage = [] := by
      cases verbose <;> decide
    refine (List.filter_append ..).trans ?_
    rw [banner]
    exact List.filter_cons_of_neg (Bool.eq_false_iff.mp (isMessage_summary _))
  · exact fun line inside => ((said_worded source event member).isLine verbose .diagnostics line inside).1
  · exact (said_worded source event member).filter_lines (fun _ => isMessage_of_isAside) isMessage_marked

/-- The errors of a run are those of its analysis. -/
theorem errors_eq : (ofSource source).summary.errors = (ofSource source).outcome.state.journal.errors := by
  have silent (rejection : Option Rejection) :
      (rejection.map Event.aborted).toList.countP Event.isReport = 0 := by
    cases rejection <;> rfl
  have total : (ofSource source).journal.errors = (said source).countP Event.isReport := by
    rw [journal_eq]
    exact List.countP_cons_of_neg Bool.false_ne_true
  exact total.trans (by rw [said, List.countP_append, silent, Nat.zero_add]; rfl)

/-- A run that is aborted has an error. -/
theorem errors_of_aborted (aborted : (ofSource source).summary.aborted = true) :
    1 ≤ (ofSource source).summary.errors := by
  obtain ⟨rejection, stopped⟩ := Option.isSome_iff_exists.mp aborted
  obtain ⟨_, _, before, _, _, refused⟩ := Analysis.run_stopped stopped
  have journal : (ofSource source).outcome.state.journal =
      .reported before.feed.spot (.rejected rejection) :: before.journal := congrArg _ refused
  rw [errors_eq, journal]
  exact List.countP_pos_iff.mpr ⟨_, List.mem_cons_self, rfl⟩

end Compilation

namespace Analysis

/-- The diagnostic text accounts for every error. It falls into the lines that the events of the run write, and
whatever characters the source has, these are whole lines, among which only a report writes one that looks like
a message, its own. So there are as many such lines as errors, and as the last line tells. A run that is aborted
has an error, hence a run is clean exactly if it is not aborted and has no such line. -/
theorem compile_accounts (source : String) (verbose : Bool) :
    let compilation := Compilation.ofSource source
    let total := compilation.summary
    ∃ text before, compilation.result Sinks.reliable verbose = .ok total ∧
      Text.bytes text = (compilation.delivery Sinks.reliable verbose).diagnostics.bytes ∧
      Text.parts text = compilation.journal.reverse.flatMap (Event.diagnosticLines verbose) ++ [""] ∧
      (∀ event ∈ compilation.journal, event.Lined verbose) ∧
      (Text.parts text).countP isMessage = total.errors ∧
      Text.parts text = before ++ [summary total.errors, ""] ∧
      (∀ errors, summary errors = summary total.errors → errors = total.errors) ∧
      (total.aborted = true → 1 ≤ total.errors) ∧
      (total.clean = true ↔
        total.aborted = false ∧ ∀ line ∈ Text.parts text, isMessage line = false) := by
  intro compilation total
  have parts := Text.parts_joined fun line member => (Compilation.isLine_linesOn source verbose line member).1
  have bytes := Compilation.bytes_diagnostics source verbose
  have aborted : total.aborted = true → 1 ≤ total.errors := Compilation.errors_of_aborted source
  generalize Text.joined ((Compilation.ofSource source).journal.linesOn verbose .diagnostics) = text at parts bytes
  have count : (Text.parts text).countP isMessage = total.errors := by
    rw [parts, List.countP_append, List.countP_eq_length_filter, Compilation.filter_isMessage,
      Journal.length_messages]
    rfl
  have last : Compilation.last source = summary total.errors :=
    congrArg summary (Compilation.errors_eq source).symm
  refine ⟨text, (Compilation.said source).linesOn verbose .diagnostics ++
      if verbose then ["", "Compilation complete"] else [], compilation.result_reliable verbose, bytes, parts,
    Compilation.lined source verbose, count, ?_, fun errors same => summary_injective same, aborted, ?_⟩
  · rw [parts, Compilation.linesOn_diagnostics, last]
    simp only [List.append_assoc]
    rfl
  · have none : total.errors = 0 ↔ ∀ line ∈ Text.parts text, isMessage line = false := by
      rw [← count, List.countP_eq_zero]
      exact forall₂_congr fun line _ => Bool.eq_false_iff.symm
    rw [← none, Summary.clean, beq_iff_eq]
    refine ⟨fun clean => ⟨Bool.eq_false_iff.mpr fun stopped => ?_, clean⟩, And.right⟩
    exact absurd (aborted stopped) (by omega)

end Analysis

end AdaFront
