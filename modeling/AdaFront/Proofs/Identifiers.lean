import Mathlib.Logic.Function.Basic
import AdaFront.Proofs.Characters
import AdaFront.Proofs.Feeding

namespace AdaFront

open AdaFront.Tree (Lexeme)

/-- A word that is no keyword. -/
def IsIdentifier (text : String) : Prop :=
  text.toList.head?.any Text.isLetter = true ∧ (∀ c ∈ text.toList, isWordCharacter c = true) ∧
    wordKind text = .identifier

instance (text : String) : Decidable (IsIdentifier text) :=
  let _ : Decidable (∀ c ∈ text.toList, isWordCharacter c = true) := List.decidableBAll _ _
  inferInstanceAs (Decidable (_ ∧ _ ∧ _))

abbrev Identifier := { text : String // IsIdentifier text }

namespace Identifier

/-- A map of identifiers as one of texts. Other texts stay as they are. -/
def spelling (image : Identifier → Identifier) (text : String) : String :=
  if valid : IsIdentifier text then (image ⟨text, valid⟩).1 else text

variable {image : Identifier → Identifier} {text : String}

theorem spelling_of (valid : IsIdentifier text) : spelling image text = (image ⟨text, valid⟩).1 :=
  dif_pos valid

theorem spelling_of_not (invalid : ¬IsIdentifier text) : spelling image text = text :=
  dif_neg invalid

theorem isIdentifier_spelling : IsIdentifier (spelling image text) ↔ IsIdentifier text := by
  by_cases valid : IsIdentifier text
  · rw [spelling_of valid]
    exact iff_of_true (image _).2 valid
  · rw [spelling_of_not valid]

theorem spelling_injective (injective : Function.Injective image) : Function.Injective (spelling image) := by
  intro one other same
  have spelled (text : String) : IsIdentifier (spelling image text) ↔ IsIdentifier text := isIdentifier_spelling
  have both : IsIdentifier one ↔ IsIdentifier other := by rw [← spelled one, same, spelled other]
  by_cases valid : IsIdentifier one
  · rw [spelling_of valid, spelling_of (both.mp valid)] at same
    exact congrArg Subtype.val (injective (Subtype.ext same))
  · rwa [spelling_of_not valid, spelling_of_not (both.not.mp valid)] at same

end Identifier

/-- The mark around what a message quotes. -/
def quotationMark : Char := '\x60'

/-- What makes the words of a text fit to be quoted. -/
structure Quotable (word : Lexeme) : Prop where
  identifier : word.1 = .identifier ↔ IsIdentifier word.2
  plain : quotationMark ∉ word.2.toList

/-- What has a spelling of its own is no identifier. -/
theorem Kind.quotable_spelling (kind : Kind) : ∀ text ∈ kind.spelling?, Quotable (kind, text) := by
  have each : ∀ text ∈ kind.spelling?, ¬IsIdentifier text ∧ quotationMark ∉ text.toList := by
    cases kind <;> decide +kernel
  intro text spelled
  obtain ⟨invalid, plain⟩ := each text spelled
  refine ⟨iff_of_false ?_ invalid, plain⟩
  rintro rfl
  cases spelled

theorem HasWordKind.wordKind {word : String} (atWord : HasWordKind word .identifier) :
    wordKind word = .identifier := by
  rcases hasWordKind_wordKind word with ⟨keyword, spelled⟩ | ⟨same, _⟩
  · rcases atWord with ⟨impossible, _⟩ | ⟨_, none⟩
    · cases impossible
    · exact absurd spelled (none _ keyword)
  · exact same

theorem quotationMark_notMem {letters : List Char} (each : ∀ c ∈ letters, isWordCharacter c = true) :
    quotationMark ∉ letters := fun member =>
  absurd (each _ member) (by decide)

/-- The tokens that a text falls into are identifiers if they look like them. -/
theorem Scans.quotable {text : List Char} {pieces : List Piece} (scans : Scans text pieces) :
    ∀ word ∈ pieces.filterMap Piece.token?, Quotable word := by
  induction scans with
  | done => exact List.forall_mem_nil _
  | blank _ _ ih | unknown _ _ _ _ ih => exact ih
  | @number digits _ _ present each _ _ ih =>
    refine List.forall_mem_cons.mpr ⟨⟨iff_of_false nofun ?_, ?_⟩, ih⟩
    · rintro ⟨begins, _⟩
      obtain ⟨first, others, rfl⟩ := List.exists_cons_of_ne_nil present
      rw [String.toList_ofList, List.head?_cons, Option.any_some,
        Text.isLetter_of_isDigit (each first List.mem_cons_self)] at begins
      cases begins
    · rw [String.toList_ofList]
      exact quotationMark_notMem fun c member => Text.isWordCharacter_of_isDigit (each c member)
  | @word letters kind _ _ begins each _ atWord _ ih =>
    refine List.forall_mem_cons.mpr ⟨?_, ih⟩
    by_cases name : kind = .identifier
    · subst name
      rw [← String.toList_ofList (l := letters)] at begins each
      exact ⟨iff_of_true rfl ⟨begins, each, atWord.wordKind⟩, quotationMark_notMem each⟩
    · exact kind.quotable_spelling _ ((atWord.resolve_right fun other => name other.1).2)
  | pair _ spelled _ ih | single _ _ spelled _ ih =>
    exact List.forall_mem_cons.mpr ⟨Kind.quotable_spelling _ _ spelled, ih⟩

theorem Scanner.quotable (scanner : Scanner) : ∀ word ∈ scanner.words, Quotable word := by
  obtain ⟨pieces, scans, same, _⟩ := scanner.tokens_scans
  refine List.forall_mem_append.mpr ⟨?_, List.forall_mem_singleton.mpr ?_⟩
  · exact fun word member => scans.quotable word (same ▸ member)
  · exact ⟨by decide +kernel, by decide⟩

end AdaFront
