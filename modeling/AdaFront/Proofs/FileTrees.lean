import AdaFront.CommandLine.FileTree

namespace AdaFront

namespace CommandLine

namespace FileTree

variable {tree : FileTree} {path other : Path} {content : List UInt8} {here : Option Path} {part name : String}

/-- All that stands above the path are directories. -/
def Admits (tree : FileTree) (path : Path) : Prop :=
  ∀ other, other ≠ [] → other <+: path → other ≠ path → tree.isDirectory other = true

/-- The place is there, or something can be put there. -/
def Offers (tree : FileTree) : Place → Prop
  | .directory here => ∀ path, here = some path → path ≠ [] → tree.isDirectory path = true
  | .file path | .vacant path => tree.isDirectory path = false ∧ tree.Admits path

/-- The name is that of a file, which may still be to come. -/
def Names (tree : FileTree) (name : String) (path : Path) : Prop :=
  tree.locate name = .ok (.file path) ∨ tree.locate name = .ok (.vacant path)

section Directories

theorem isDirectory_iff : tree.isDirectory path = true ↔
    (∃ directory ∈ tree.directories, path <+: directory) ∨
      ∃ file ∈ tree.files, path <+: file.1 ∧ path ≠ file.1 := by
  simp [isDirectory]

/-- What stands above a directory is one. -/
theorem isDirectory_above (directory : tree.isDirectory path = true) (above : other <+: path) :
    tree.isDirectory other = true := by
  rw [isDirectory_iff] at directory ⊢
  rcases directory with ⟨found, member, inside⟩ | ⟨file, member, inside, apart⟩
  · exact Or.inl ⟨found, member, above.trans inside⟩
  · refine Or.inr ⟨file, member, above.trans inside, ?_⟩
    rintro rfl
    exact apart (inside.eq_of_length_le above.length_le)

theorem offers_above (offers : tree.Offers (.directory here)) : tree.Offers (.directory (above here)) := by
  intro path same present
  cases here with
  | none => cases same
  | some inner =>
    cases inner with
    | nil => cases same
    | cons first rest =>
      cases same
      exact isDirectory_above (offers _ rfl (List.cons_ne_nil _ _)) (List.dropLast_prefix _)

theorem admits_inside {above : Path} (offers : tree.Offers (.directory (some above))) (part : String) :
    tree.Admits (above ++ [part]) := by
  intro other present inside apart
  rcases List.prefix_concat_iff.mp inside with same | inside
  · exact absurd same apart
  · refine isDirectory_above (offers above rfl ?_) inside
    rintro rfl
    exact present (List.prefix_nil.mp inside)

theorem enter_offers {place : Place} (offers : tree.Offers (.directory here))
    (entered : tree.enter here part = .ok place) : tree.Offers place := by
  unfold enter at entered
  split at entered
  · cases entered
    exact offers
  split at entered
  · cases entered
    exact offers_above offers
  split at entered
  · cases entered
  cases here with
  | none => cases entered
  | some above =>
    dsimp only at entered
    split at entered
    next directory =>
      cases entered
      intro path same _
      cases same
      exact directory
    next free =>
      have offered := And.intro (Bool.eq_false_iff.mpr free) (admits_inside offers part)
      split at entered
      · cases entered
        exact offered
      · cases entered
        exact offered

theorem descend_offers {parts : List String} {directory : Option Path} (offers : tree.Offers (.directory here))
    (found : tree.descend here parts = .ok directory) : tree.Offers (.directory directory) := by
  induction parts generalizing here with
  | nil =>
    cases found
    exact offers
  | cons part rest ih =>
    unfold descend at found
    split at found
    next next entered => exact ih (enter_offers offers entered) found
    all_goals cases found

/-- The root needs no entry in the tree, and from there each part of a name leads on. -/
theorem locate_offers {place : Place} (located : tree.locate name = .ok place) : tree.Offers place := by
  have start : tree.Offers (.directory (if name.startsWith "/" then none else some [])) := by
    intro path same present
    split at same
    · cases same
    · cases same
      exact absurd rfl present
  unfold locate parent at located
  split at located
  · cases located
  next directory above =>
    split at above
    · cases above
    split at above
    · cases above
    have offers := descend_offers start above
    split at located
    · exact enter_offers offers located
    · cases located
      exact offers

end Directories

theorem Names.offers (names : tree.Names name path) : tree.isDirectory path = false ∧ tree.Admits path := by
  rcases names with located | located
  · exact locate_offers located
  · exact locate_offers located

section Put

variable (free : tree.isDirectory path = false) (admits : tree.Admits path)

include free admits

end Put

end FileTree

end CommandLine

end AdaFront
