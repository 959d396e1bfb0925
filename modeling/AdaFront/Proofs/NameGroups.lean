import Mathlib.Data.List.Induction
import AdaFront.Proofs.DeclarationWalk
import AdaFront.Proofs.Evaluation

namespace AdaFront

namespace Frame

/-- The names of a list, each with whether it is new where it stands: a scope with the frame does not have it yet,
and no place before has the same name. -/
def tested (frame : Frame) (names : List String) : List (String × Bool) :=
  names.zipIdx.map fun place =>
    (place.1, decide (place.1 ∉ frame.map Prod.fst ∧ place.1 ∉ names.take place.2))

/-- The names of a list that a scope with the frame takes. -/
def accepted (frame : Frame) (names : List String) : List String :=
  ((frame.tested names).filter Prod.snd).map Prod.fst

/-- The names of a list that are declared already when their turn comes. -/
def rejected (frame : Frame) (names : List String) : List String :=
  ((frame.tested names).filter (!·.2)).map Prod.fst

variable (frame : Frame) (names : List String) (name : String)

theorem tested_concat :
    frame.tested (names ++ [name]) =
      frame.tested names ++ [(name, decide (name ∉ frame.map Prod.fst ∧ name ∉ names))] := by
  have before : ∀ place ∈ names.zipIdx,
      (place.1, decide (place.1 ∉ frame.map Prod.fst ∧ place.1 ∉ (names ++ [name]).take place.2)) =
        (place.1, decide (place.1 ∉ frame.map Prod.fst ∧ place.1 ∉ names.take place.2)) := by
    rintro ⟨other, place⟩ inside
    have bound : place ≤ names.length := Nat.le_of_lt (List.snd_lt_of_mem_zipIdx inside)
    rw [List.take_append_of_le_length bound]
  rw [tested, List.zipIdx_append, List.map_append, List.map_congr_left before, tested, List.zipIdx_singleton,
    List.map_singleton, Nat.zero_add, List.take_left]

variable {frame names name}

theorem accepted_of_new (new : name ∉ frame.map Prod.fst ∧ name ∉ names) :
    frame.accepted (names ++ [name]) = frame.accepted names ++ [name] ∧
      frame.rejected (names ++ [name]) = frame.rejected names := by
  simp only [accepted, rejected, tested_concat, decide_eq_true new, List.filter_append, List.map_append]
  exact ⟨rfl, List.append_nil _⟩

theorem accepted_of_old (old : ¬(name ∉ frame.map Prod.fst ∧ name ∉ names)) :
    frame.accepted (names ++ [name]) = frame.accepted names ∧
      frame.rejected (names ++ [name]) = frame.rejected names ++ [name] := by
  simp only [accepted, rejected, tested_concat, decide_eq_false old, List.filter_append, List.map_append]
  exact ⟨List.append_nil _, rfl⟩

/-- A name of the list is in the scope in the end, and no other name has come into it. -/
theorem mem_accepted (frame : Frame) (names : List String) (name : String) :
    name ∈ frame.map Prod.fst ∨ name ∈ frame.accepted names ↔
      name ∈ frame.map Prod.fst ∨ name ∈ names := by
  induction names using List.reverseRecOn with
  | nil => exact Iff.rfl
  | append_singleton names last ih =>
    by_cases new : last ∉ frame.map Prod.fst ∧ last ∉ names
    · rw [(accepted_of_new new).1, List.mem_append, List.mem_append, ← or_assoc, ih, or_assoc]
    · rw [(accepted_of_old new).1, ih, List.mem_append, List.mem_singleton]
      refine ⟨Or.imp_right Or.inl, ?_⟩
      rintro (inside | before | rfl)
      · exact Or.inl inside
      · exact Or.inr before
      · by_contra outside
        exact new (not_or.mp outside)

end Frame

/-- A change of what was pushed last. -/
theorem modify_push_size {α : Type} (items : Array α) (last : α) (change : α → α) :
    (items.push last).modify items.size change = items.push (change last) := by
  refine Array.ext_getElem? fun index => ?_
  rw [Array.getElem?_modify, Array.getElem?_push, Array.getElem?_push]
  by_cases atEnd : items.size = index
  · rw [if_pos atEnd, if_pos atEnd.symm, if_pos atEnd.symm, Option.map_some]
  · rw [if_neg atEnd, if_neg (Ne.symm atEnd), if_neg (Ne.symm atEnd)]

namespace Table

/-- The table with some more names in its innermost scope. They have no role yet, and if there are any they form one
new group. -/
def withGroup (table : Table) (names : List String) (frame : Frame) (outer : List Frame) : Table where
  entries := table.entries ++ (names.map fun name => (⟨name, .unset, none, table.groups.size⟩ : Entry)).toArray
  groups :=
    if names = [] then table.groups
    else table.groups.push (List.range' table.entries.size names.length)
  scopes := (frame ++ names.zipIdx table.entries.size) :: outer

/-- The group that the names of a list are in, if there are any. -/
def groupFor (table : Table) (names : List String) : Option GroupId :=
  if names = [] then none else some table.groups.size

variable {table : Table} {names : List String} {name : String} {frame : Frame} {outer : List Frame}

theorem withGroup_nil (scopes : table.scopes = frame :: outer) : table.withGroup [] frame outer = table := by
  rw [withGroup, if_pos rfl, List.zipIdx_nil, List.append_nil, ← scopes]
  rfl

theorem size_withGroup : (table.withGroup names frame outer).entries.size = table.entries.size + names.length := by
  simp [withGroup]

/-- The scope has its old names and the new ones. -/
theorem keys_withGroup (names : List String) (first : Nat) :
    (frame ++ names.zipIdx first).map Prod.fst = frame.map Prod.fst ++ names := by
  rw [List.map_append, List.zipIdx_map_fst]

/-- The first name founds the group. -/
theorem declare_withGroup (scopes : table.scopes = frame :: outer) (new : name ∉ frame.map Prod.fst) :
    table.declare name .unset = .ok (table.entries.size, table.withGroup [name] frame outer) := by
  rw [declare_of_lookup_none .unset scopes (frame_lookup_eq_none.mpr new)]
  rfl

theorem leader?_withGroup (first : String) (others : List String) :
    (table.withGroup (first :: others) frame outer).leader? table.groups.size =
      some ⟨first, .unset, none, table.groups.size⟩ := by
  have members : (table.withGroup (first :: others) frame outer).members? table.groups.size =
      some (List.range' table.entries.size (others.length + 1)) := Array.getElem?_push_size
  rw [leader?, members, List.range'_succ]
  simp [withGroup, entry?]

/-- The others join it. -/
theorem declareIn_withGroup (present : names ≠ []) (new : name ∉ frame.map Prod.fst ++ names) :
    (table.withGroup names frame outer).declareIn name table.groups.size =
      .ok (table.entries.size + names.length, table.withGroup (names ++ [name]) frame outer) := by
  obtain ⟨first, others, rfl⟩ := List.exists_cons_of_ne_nil present
  let grouped := table.withGroup (first :: others) frame outer
  have scopes : grouped.scopes = (frame ++ (first :: others).zipIdx table.entries.size) :: outer := rfl
  rw [← keys_withGroup (first :: others) table.entries.size] at new
  rw [declareIn_of_lookup_none scopes (leader?_withGroup first others) rfl (frame_lookup_eq_none.mpr new)]
  have size : grouped.entries.size = table.entries.size + (first :: others).length := size_withGroup
  have entries : (grouped.entries.push ⟨name, .unset, none, table.groups.size⟩) =
      (table.withGroup (first :: others ++ [name]) frame outer).entries := by
    simp [grouped, withGroup]
  have groups : grouped.groups.modify table.groups.size (· ++ [grouped.entries.size]) =
      (table.withGroup (first :: others ++ [name]) frame outer).groups := by
    have length : List.range' table.entries.size (first :: others ++ [name]).length =
        List.range' table.entries.size (first :: others).length ++ [grouped.entries.size] := by
      rw [List.length_append, List.length_singleton, List.range'_1_concat, size]
    exact (modify_push_size _ _ _).trans (congrArg table.groups.push length.symm)
  have front : (frame ++ (first :: others).zipIdx table.entries.size) ++ [(name, grouped.entries.size)] =
      frame ++ (first :: others ++ [name]).zipIdx table.entries.size := by
    rw [List.zipIdx_append, List.append_assoc, size]
    rfl
  have same : grouped.withMember name ⟨first, .unset, none, table.groups.size⟩
      (frame ++ (first :: others).zipIdx table.entries.size) outer =
        table.withGroup (first :: others ++ [name]) frame outer := by
    rw [withMember, groups, front, entries]
    rfl
  rw [same, size]

/-- Declares a name in a group, or in one of its own. -/
def declareNext (table : Table) (group : Option GroupId) (name : String) : Except TableError (EntryId × Table) :=
  match group with
  | some group => table.declareIn name group
  | none => table.declare name .unset

theorem declareNext_of_new (scopes : table.scopes = frame :: outer) (new : name ∉ frame.map Prod.fst ++ names) :
    (table.withGroup names frame outer).declareNext (table.groupFor names) name =
      .ok (table.entries.size + names.length, table.withGroup (names ++ [name]) frame outer) := by
  by_cases nothing : names = []
  · subst nothing
    rw [List.append_nil] at new
    rw [withGroup_nil scopes, groupFor, if_pos rfl]
    exact declare_withGroup scopes new
  · rw [groupFor, if_neg nothing]
    exact declareIn_withGroup nothing new

theorem declareNext_of_old (old : name ∈ frame.map Prod.fst ++ names) :
    (table.withGroup names frame outer).declareNext (table.groupFor names) name = .error (.duplicate name) := by
  rw [← keys_withGroup names table.entries.size] at old
  obtain ⟨id, found⟩ := Option.ne_none_iff_exists'.mp fun new => frame_lookup_eq_none.mp new old
  have front : (table.withGroup names frame outer).scopes = (frame ++ names.zipIdx table.entries.size) :: outer := rfl
  cases names with
  | nil => exact declare_of_lookup_some .unset front found
  | cons first others => exact declareIn_of_lookup_some front (leader?_withGroup first others) found

/-- The group of the list is the one of its newest name. -/
theorem groupFor_concat (table : Table) (names : List String) (name : String) :
    (table.groupFor names).or
        ((table.withGroup (names ++ [name]) frame outer).groupOf? (table.entries.size + names.length)) =
      table.groupFor (names ++ [name]) := by
  have newest : (table.withGroup (names ++ [name]) frame outer).groupOf? (table.entries.size + names.length) =
      some table.groups.size := by
    simp [groupOf?, entry?, withGroup]
  rw [newest, groupFor, groupFor, if_neg (List.append_ne_nil_of_right_ne_nil _ (List.cons_ne_nil _ _))]
  split <;> rfl

end Table

namespace Analysis

open AdaFront.Tree (Lexeme identifier word)

section Listed

variable {state : State}

theorem State.declareListed_of_ok {id : EntryId} {table : Table}
    (declared : state.advance.table.declareNext state.advance.group state.token.lexeme = .ok (id, table)) :
    state.declareListed =
      { state.advance with table := table, group := state.advance.group.or (table.groupOf? id) } := by
  unfold Table.declareNext at declared
  unfold State.declareListed
  dsimp only
  cases group : state.advance.group with
  | none | some =>
    rw [group] at declared
    dsimp only at declared ⊢
    rw [declared]

theorem State.declareListed_of_error {error : TableError}
    (refused : state.advance.table.declareNext state.advance.group state.token.lexeme = .error error) :
    state.declareListed = state.advance.report (.name error) := by
  unfold Table.declareNext at refused
  unfold State.declareListed
  dsimp only
  cases group : state.advance.group with
  | none | some =>
    rw [group] at refused
    dsimp only at refused ⊢
    rw [refused]

end Listed

/-- Some names of a list have been read. Those that the innermost scope took are in it, in one new group, and each of
the others has been reported. -/
structure State.Gathers (start : State) (frame : Frame) (outer : List Frame) (seen : List String)
    (state : State) : Prop where
  table : state.table = start.table.withGroup (frame.accepted seen) frame outer
  group : state.group = start.table.groupFor (frame.accepted seen)
  effects : state.effects =
    start.effects ++ (frame.rejected seen).map fun name => .remark (.name (.duplicate name))
  searched : state.feed.Searched

namespace State.Gathers

variable {start state : State} {frame : Frame} {outer : List Frame} {seen : List String} {name : String}
  {rest : List Lexeme}

theorem advance {first : Lexeme} (gathers : start.Gathers frame outer seen state)
    (same : state.lexemes = first :: rest) (quiet : first.1 ≠ .kwPrint) :
    start.Gathers frame outer seen state.advance := by
  have read := Leads.advance gathers.searched same quiet
  have effects : state.advance.effects = state.effects := read.effects.trans (List.append_nil _)
  exact ⟨gathers.table, gathers.group, effects.trans gathers.effects, read.searched⟩

theorem declare (gathers : start.Gathers frame outer seen state) (scopes : start.table.scopes = frame :: outer)
    (same : state.lexemes = identifier name :: rest) :
    start.Gathers frame outer (seen ++ [name]) state.declareListed := by
  have lexeme : state.token.lexeme = name := State.lexeme_of_lexemes same
  have read := gathers.advance same (by simp)
  have known := frame.mem_accepted seen name
  have next : state.advance.table.declareNext state.advance.group state.token.lexeme =
      (start.table.withGroup (frame.accepted seen) frame outer).declareNext
        (start.table.groupFor (frame.accepted seen)) name := by
    rw [lexeme, read.table, read.group]
  by_cases new : name ∉ frame.map Prod.fst ∧ name ∉ seen
  · obtain ⟨accepted, rejected⟩ := Frame.accepted_of_new new
    have outside : name ∉ frame.map Prod.fst ++ frame.accepted seen := by
      rw [List.mem_append, known]
      exact not_or.mpr new
    rw [State.declareListed_of_ok (next.trans (Table.declareNext_of_new scopes outside)), read.group]
    refine ⟨?_, ?_, ?_, read.searched⟩
    · rw [accepted]
    · rw [accepted]
      exact Table.groupFor_concat _ _ _
    · rw [rejected]
      exact read.effects
  · obtain ⟨accepted, rejected⟩ := Frame.accepted_of_old new
    have inside : name ∈ frame.map Prod.fst ++ frame.accepted seen := by
      rw [List.mem_append, known]
      exact Decidable.not_not.mp fun outside => new (not_or.mp outside)
    rw [State.declareListed_of_error (next.trans (Table.declareNext_of_old inside))]
    refine ⟨?_, ?_, ?_, read.searched⟩
    · rw [accepted]
      exact read.table
    · rw [accepted]
      exact read.group
    · have reported := state.advance.effects_report (.name (.duplicate name)) (by simp)
      rw [rejected, List.map_append, ← List.append_assoc, ← read.effects]
      exact reported

/-- The names behind the first one are read one after another, each with the comma before it. -/
theorem more {names : List String} (gathers : start.Gathers frame outer seen state)
    (scopes : start.table.scopes = frame :: outer)
    (same : state.lexemes = (names.flatMap fun name => [word .comma, identifier name]) ++ rest)
    (apart : nextKind rest ≠ .comma) :
    ∃ after, Reaches [.moreNames] state [] after ∧ start.Gathers frame outer (seen ++ names) after ∧
      after.feed = Feed.advance^[2 * names.length] state.feed ∧ after.lexemes = rest := by
  induction names generalizing state seen with
  | nil =>
    have none : nextKind rest ∉ Task.moreNames.openings := mt List.mem_singleton.mp apart
    have idle := Task.idle rfl (List.Subset.refl _) same none
    rw [List.append_nil]
    exact ⟨state, Reaches.start.step idle, gathers, rfl, same⟩
  | cons name names ih =>
    have divides : Task.moreNames.step state = .go [.nextName] state.advance :=
      Takes.step .moreNames (State.kind_of_lexemes same)
    have here := State.lexemes_advance same
    have next : Task.nextName.step state.advance = .go [.moreNames] state.advance.declareListed :=
      State.require_of_lexemes here
    have behind : state.advance.declareListed.feed = state.feed.advance.advance := State.feed_declareListed _
    have declared := (gathers.advance same (by simp)).declare scopes here
    obtain ⟨after, reach, final, feed, last⟩ := ih declared
      ((State.lexemes_of_feed (State.feed_declareListed _)).trans (State.lexemes_advance here))
    refine ⟨after, ((Reaches.start.step divides).step next).trans reach, ?_, ?_, last⟩
    · rwa [List.append_assoc, List.singleton_append] at final
    · rw [feed, behind]
      rfl

end State.Gathers

/-- A list of names before anything but a comma is read whole, whatever stands in an open scope. The names that the
innermost scope does not have, each where it stands first, become entries one after another without a role or a
value, and they alone form one new group; the others are reported in their order. Where the declarations of a
block go on with an identifier, they go on with such a list. -/
theorem names_share_group (scanner : Scanner) (table : Table) (value : Option Int) (group : Option GroupId)
    (journal : Journal) (names : Tree.Names) (next : Lexeme) (later : List Lexeme) (frame : Frame)
    (outer : List Frame) (opened : table.scopes = frame :: outer)
    (upcoming : scanner.words = names.yield ++ next :: later) (apart : next.1 ≠ .comma) :
    let state : State := ⟨scanner.feed, table, value, group, journal⟩
    let outcome := run [.names] state
    let accepted := frame.accepted (names.first :: names.others)
    let rejected := frame.rejected (names.first :: names.others)
    let fresh := table.groups.size
    let ids := List.range' table.entries.size accepted.length
    outcome.rejection = none ∧ outcome.state.words = next :: later ∧
      outcome.state.feed = Feed.advance^[names.yield.length] scanner.feed ∧
      outcome.state.table.entries.toList =
        table.entries.toList ++ accepted.map (fun name => ⟨name, .unset, none, fresh⟩) ∧
      outcome.state.table.groups.toList = table.groups.toList ++ (if accepted = [] then [] else [ids]) ∧
      outcome.state.table.scopes = (frame ++ accepted.zip ids) :: outer ∧
      outcome.state.group = (if accepted = [] then none else some fresh) ∧
      outcome.state.journal.effects =
        journal.effects ++ rejected.map (fun name => .remark (.name (.duplicate name))) ∧
      (∀ tasks, run (.names :: tasks) state = run tasks outcome.state) ∧
      ∀ tasks, run (.declarations :: tasks) state =
        run (.accept .colon :: .object :: .accept .semicolon :: .declarations :: tasks) outcome.state := by
  intro state outcome accepted rejected fresh ids
  obtain ⟨rest, tokens, behind, kind⟩ := Feed.words_split (scanner.words_feed.trans upcoming)
  have same : state.lexemes = identifier names.first ::
      ((names.others.flatMap fun name => [word .comma, identifier name]) ++ rest) := tokens
  let begun : State := { state with group := none }
  have nothing : begun.Gathers frame outer [] begun := by
    refine ⟨?_, rfl, (List.append_nil _).symm, scanner.feed_searched⟩
    exact (Table.withGroup_nil opened).symm
  have first : begun.Gathers frame outer [names.first] begun.declareListed := nothing.declare opened same
  obtain ⟨after, reach, gathers, feed, last⟩ := first.more opened
    ((State.lexemes_of_feed (State.feed_declareListed _)).trans (State.lexemes_advance same)) (kind ▸ apart)
  have begins : Task.names.step state = .go [.moreNames] begun.declareListed := State.require_of_lexemes same
  have ends : outcome = ⟨none, after⟩ :=
    ((Reaches.start.step begins).trans reach).run_eq.trans (run_nil after)
  have length : names.yield.length = 2 * names.others.length + 1 := by
    simp [Tree.Names.yield, List.length_flatMap, List.map_const', Nat.mul_comm]
  rw [ends]
  refine ⟨rfl, ?_, ?_, ?_, ?_, ?_, gathers.group, gathers.effects, fun tasks => ?_, fun tasks => ?_⟩
  · exact (congrArg (· ++ [(Kind.endOfInput, "")]) last).trans behind.symm
  · rw [length, feed, State.feed_declareListed]
    rfl
  · rw [gathers.table]
    exact Array.toList_append
  · rw [gathers.table, Table.withGroup]
    split
    next empty => exact (if_pos empty).symm ▸ (List.append_nil _).symm
    next present => exact (if_neg present).symm ▸ Array.toList_push
  · rw [gathers.table, ← List.zipIdx_eq_zip_range']
    rfl
  · exact ((Reaches.start.step begins).trans (reach.append tasks)).run_eq
  · have declares := names.declarations_step same
    exact ((Reaches.start.step declares).trans (reach.append _)).run_eq

/-- The scope has `x` already, so that the second name founds the group. -/
theorem names_share_group_duplicates :
    let scanner := Scanner.ofReader (.ofLines ["x, A, b, a, x : integer;"])
    let table := (Table.initial true).performAll [.enter, .declare "x" .parameter]
    let outcome := run [.names] ⟨scanner.feed, table, none, some 0, []⟩
    outcome.rejection = none ∧ outcome.state.group = some 6 ∧
      outcome.state.words = [Tree.word .colon, identifier "integer", Tree.word .semicolon, (.endOfInput, "")] ∧
      outcome.state.table.groups.toList = table.groups.toList ++ [[6, 7]] ∧
      outcome.state.table.scopes.head? = some [("x", 5), ("a", 6), ("b", 7)] ∧
      outcome.state.journal.effects =
        ["x", "a", "x"].map fun name => .remark (.name (.duplicate name)) := by
  intro scanner table outcome
  obtain ⟨finished, words, _, _, groups, scopes, group, effects, _⟩ :=
    names_share_group scanner table none (some 0) [] ⟨"x", ["a", "b", "a", "x"]⟩ (Tree.word .colon)
      [identifier "integer", Tree.word .semicolon, (.endOfInput, "")] [("x", 5)] table.scopes.tail
      (by decide +kernel) (by decide +kernel) (by decide)
  exact ⟨finished, group, words, groups, congrArg List.head? scopes, effects⟩

end Analysis

end AdaFront
