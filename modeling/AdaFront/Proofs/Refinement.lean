import AdaFront.Proofs.Coverage
import AdaFront.Proofs.DeclarationWalk
import AdaFront.Proofs.Showing

namespace AdaFront

/-- The tokens of a text without their places. -/
def Scanner.lexemes (scanner : Scanner) : List Tree.Lexeme :=
  scanner.tokens.1.map fun token => (token.kind, token.lexeme)

/-- The tokens that a text falls into are spelled as their kinds ask for. -/
theorem Scans.spelled {text : List Char} {pieces : List Piece} (scans : Scans text pieces) :
    ∀ lexeme ∈ pieces.filterMap Piece.token?, Tree.Spelled lexeme := by
  have ofSpelling {kind : Kind} {text : String} (same : kind.spelling? = some text) :
      Tree.Spelled (kind, text) := by
    refine Or.inr (Or.inr ?_)
    rw [Tree.word, same, Option.getD_some]
  induction scans with
  | done => exact List.forall_mem_nil _
  | blank _ _ ih | unknown _ _ _ _ ih => exact ih
  | number _ _ _ _ ih => exact List.forall_mem_cons.mpr ⟨Or.inr (Or.inl rfl), ih⟩
  | word _ _ _ spells _ ih =>
    refine List.forall_mem_cons.mpr ⟨?_, ih⟩
    rcases spells with ⟨_, same⟩ | ⟨rfl, _⟩
    · exact ofSpelling same
    · exact Or.inl rfl
  | pair _ same _ ih | single _ _ same _ ih => exact List.forall_mem_cons.mpr ⟨ofSpelling same, ih⟩

theorem Scanner.spelled (scanner : Scanner) : ∀ lexeme ∈ scanner.lexemes, Tree.Spelled lexeme := by
  obtain ⟨pieces, scans, same, _⟩ := scanner.tokens_scans
  rw [lexemes, ← same]
  exact scans.spelled

/-- The programs of the grammar are the texts whose tokens a tree yields. -/
theorem Scanner.derives_iff_tree (scanner : Scanner) :
    Derives (.part .compilation) scanner.kinds ↔
      ∃ program : Tree.Subprogram, scanner.lexemes = program.yield := by
  have kinds : scanner.kinds = scanner.lexemes.map Prod.fst ++ [.endOfInput] := by
    rw [Scanner.kinds, lexemes, List.map_map]
    rfl
  rw [kinds, ← Tree.exists_yield_iff scanner.spelled]
  exact exists_congr fun program => eq_comm

namespace Analysis

open AdaFront.Tree (Lexeme word)

theorem lexemes_ofScanner (scanner : Scanner) :
    (State.ofScanner scanner).lexemes = scanner.lexemes :=
  congrArg (List.map _) scanner.tokens_feed

/-- An analysis and a walk begin at the same point. -/
theorem mirrors_start (lines : List String) :
    let scanner := Scanner.ofReader (.ofLines lines)
    Mirrors scanner.lexemes 0 (.ofScanner scanner) .start := by
  intro scanner
  have searched : scanner.feed.Searched := scanner.feed_searched
  have nothing : (State.ofScanner scanner).effects = [] := State.effects_ofLines lines
  exact ⟨Table.predefined_linked, Table.env_predefined.symm, rfl, nothing.symm, searched, [],
    (lexemes_ofScanner scanner).symm, rfl⟩

theorem State.effects_closeScope (state : State) : state.closeScope.effects = state.effects := by
  unfold closeScope
  split
  next => rfl
  next => exact (Journal.effects_cons _ _).trans (List.append_nil _)

/-- The end of the input is there when all tokens have been read. -/
theorem Leads.advance_end {state : State} (searched : state.feed.Searched)
    (same : state.lexemes = []) : Leads state state.advance [] [] := by
  have ended : state.advance.lexemes = [] := by
    obtain ⟨feed, table, value, group, journal⟩ := state
    cases feed with
    | last => rfl
    | more => cases same
  have effects : state.advance.effects = state.effects :=
    Journal.effects_search searched.advance.journal state.journal
  exact ⟨ended, ⟨[], same, List.forall_mem_nil _⟩, rfl, rfl,
    effects.trans (List.append_nil _).symm, searched.advance⟩

/-- An analysis of a whole text does the same as a walk over its tree. -/
theorem compilation_simulates {whole : List Lexeme} {state : State} {walk : Walk}
    (mirrors : Mirrors whole 0 state walk) (program : Tree.Subprogram)
    (same : state.lexemes = program.yield) :
    Simulates whole 0 compilation [.closeScope] state [] (program.elaborate walk) := by
  obtain ⟨behind, yield⟩ : ∃ behind, program.yield = word .kwProcedure :: behind := by
    cases program
    exact ⟨_, rfl⟩
  refine .accept mirrors (same.trans yield) (by simp) ?_
  intro atName leads _ mirrors
  have begun : word .kwProcedure :: atName.lexemes = program.yield ++ [] := by
    rw [leads.lexemes, yield, List.append_nil]
  have read := program.simulates mirrors begun
  refine (read.append [.accept .endOfInput, .closeScope]).quietly ?_
  intro atEnd walk mirrors same
  have ends : (Task.accept .endOfInput).step atEnd = .go [] atEnd.advance := by
    have atKind : atEnd.kind = .endOfInput := State.kind_of_lexemes same
    rw [Task.step, State.require, if_pos atKind]
  have leads := Leads.advance_end mirrors.searched same
  exact .step ends (.done (mirrors.quietly leads) leads.lexemes)

/-- Reading a program in one pass and walking over its tree come to the same: the same end, the same
diagnostics and the same lines for the sink of the output. Where the operand of a print statement is
not known, both end at that statement. -/
theorem compile_elaborates (lines : List String) (program : Tree.Subprogram)
    (spells : (Scanner.ofReader (.ofLines lines)).lexemes = program.yield) :
    let outcome := compile (.ofScanner (.ofReader (.ofLines lines)))
    match program.elaborate Walk.start with
    | .ok walk => outcome.rejection = none ∧ outcome.state.journal.Shows walk.trace
    | .error walk => ∃ rejection read, outcome.rejection = some rejection ∧
      rejection = ⟨outcome.state.token, .illegalPrintOperand⟩ ∧
      program.yield = read ++ outcome.state.lexemes ∧
      (read.map Prod.fst).count .kwPrint = walk.prints ∧
      outcome.state.journal.Shows (walk.trace ++ [.remark (.rejected rejection)]) := by
  intro outcome
  have same := (lexemes_ofScanner (.ofReader (.ofLines lines))).trans spells
  have simulates := compilation_simulates (mirrors_start lines) program same
  cases elaborated : program.elaborate Walk.start with
  | ok walk =>
    rw [elaborated] at simulates
    obtain ⟨after, reach, mirrors, _⟩ := simulates
    have ended : outcome = ⟨none, after.closeScope⟩ := (reach.step rfl).run_eq.trans (run_nil _)
    have effects : after.closeScope.journal.effects = walk.trace :=
      after.effects_closeScope.trans mirrors.trace.symm
    rw [ended]
    exact ⟨rfl, effects ▸ after.closeScope.journal.shows_effects⟩
  | error walk =>
    rw [elaborated] at simulates
    obtain ⟨later, before, level, reach, unknown, mirrors⟩ := simulates
    have refused : Task.print.step before = before.refuse .illegalPrintOperand := by
      rw [Task.step, State.printStep, unknown]
    have ended : outcome = ⟨some ⟨before.token, .illegalPrintOperand⟩,
        before.report (.rejected ⟨before.token, .illegalPrintOperand⟩)⟩ :=
      reach.run_eq.trans (run_stop refused)
    obtain ⟨read, whole, count⟩ := mirrors.prints
    have effects := before.effects_report (.rejected ⟨before.token, .illegalPrintOperand⟩) (by simp)
    rw [← mirrors.trace] at effects
    rw [ended]
    exact ⟨_, read, rfl, rfl, spells.symm.trans whole, count, effects ▸ Journal.shows_effects _⟩

/-- A factor on its own. -/
def alone (factor : Tree.Factor) : Tree.Expression :=
  .relation (.simple (.term none (.factor factor)))

/-- A value is printed under the other name of its list; a name that is not declared has none. -/
theorem compile_elaborates_shared :
    let outcome := compile (.ofScanner (.ofReader (.ofLines
      ["procedure p is x, y: integer;", "begin x := 2 ** 3; print (y); print (z); end p;"])))
    ∃ rejection, outcome.rejection = some rejection ∧ outcome.state.journal.Shows
      [.printed 8, .remark (.name (.undeclared "z")), .remark (.rejected rejection)] := by
  intro outcome
  obtain ⟨rejection, _, stopped, _, _, _, shows⟩ := compile_elaborates
    ["procedure p is x, y: integer;", "begin x := 2 ** 3; print (y); print (z); end p;"]
    (.mk "p" [] (.variable ⟨"x", ["y"]⟩ (.type "integer") .none)
      (.more (.assignment (.plain "x") (alone (.power (.literal "2") (.literal "3"))))
        (.more (.print (alone (.primary (.name (.plain "y")))))
          (.one (.print (alone (.primary (.name (.plain "z"))))))))
      (some "p"))
    (by decide +kernel)
  exact ⟨rejection, stopped, shows⟩

end Analysis

end AdaFront
