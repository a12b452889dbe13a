import ConfigWatch.Proofs.Document.Grammar
/-!
Documents in two parts. When the first part leaves no line open, all that reading the second
part takes from the first is the namespace in force at its end. A second part that opens with
a section of its own takes nothing, and one that opens with a pair gives the entry of that pair
first.
-/
namespace ConfigWatch.Document

/-- A line that is passed over wherever it stands: an empty one or a comment. -/
def IsSilent (line : Text) : Prop := line = [] ∨ line.head? = some '#'

instance (line : Text) : Decidable (IsSilent line) := inferInstanceAs (Decidable (_ ∨ _))

instance (line : Text) : Decidable (IsHeader line) := inferInstanceAs (Decidable (_ ∧ _))

/-- The first line that is not passed over, if there is one, is a header. -/
def OpensSection (content : Text) : Prop :=
  ∀ line ∈ content.lines.find? fun line => ¬ IsSilent line, IsHeader line

instance (content : Text) : Decidable (OpensSection content) :=
  inferInstanceAs (Decidable (∀ line ∈ _, IsHeader line))

theorem ofText_of_isSilent {line : Text} (hsilent : IsSilent line) : Line.ofText line = .silent := by
  obtain rfl | hcomment := hsilent
  · rfl
  · simp [Line.ofText, hcomment]

theorem entriesOfLines_append (space : Text) (above below : List Text) :
    entriesOfLines space (above ++ below) =
      entriesOfLines space above ++ entriesOfLines (spaceAfterLines space above) below := by
  induction above generalizing space with
  | nil => rfl
  | cons line above ih =>
    rw [List.cons_append, entriesOfLines, entriesOfLines, ih, List.append_assoc]
    rfl

/-- After whole lines a document continues under the namespace in force. -/
theorem entriesFrom_append (space : Text) {front : Text} (hfront : front.IsWholeLines) (rest : Text) :
    entriesFrom space (front ++ rest) =
      entriesFrom space front ++ entriesFrom (spaceAfter space front) rest := by
  rw [entriesFrom, Text.lines_append hfront, entriesOfLines_append]
  rfl

theorem spaceAfter_eq_iff {content space : Text} (hspace : space ≠ []) :
    spaceAfter [] content = space ↔
      ∃ header, NearestHeader content.lines content.lines.length header ∧ headerSpace header = space :=
  spaceAfterLines_eq_iff hspace

theorem entriesOfLines_eq_of_header_first {lines : List Text}
    (hfirst : ∀ line ∈ lines.find? fun line => ¬ IsSilent line, IsHeader line) (space other : Text) :
    entriesOfLines space lines = entriesOfLines other lines := by
  induction lines with
  | nil => rfl
  | cons line rest ih =>
    by_cases hsilent : IsSilent line
    · rw [List.find?_cons_of_neg (by simpa using hsilent)] at hfirst
      simp only [entriesOfLines, ofText_of_isSilent hsilent, entryOf?, spaceAfterLine, ih hfirst]
    · have hheader : IsHeader line := hfirst line (List.find?_cons_of_pos (by simpa using hsilent))
      simp only [entriesOfLines, entryOf?, spaceAfterLine, ofText_eq_header_iff_isHeader.2 ⟨hheader, rfl⟩]

theorem OpensSection.entriesFrom_eq {content : Text} (hopens : OpensSection content) (space : Text) :
    entriesFrom space content = entries content :=
  entriesOfLines_eq_of_header_first hopens space []

/-- A text that can stand before the first equals sign of a line. -/
structure IsKeySide (left : Text) : Prop where
  filled : left.trim ≠ []
  equals : '=' ∉ left
  feed : '\n' ∉ left
  comment : left.head? ≠ some '#'

/-- A text before which a line can end: there is nothing more, or a line feed comes first. -/
def EndsLine (rest : Text) : Prop := rest = [] ∨ rest.head? = some '\n'

theorem isPair_append_cons {left right : Text} (hleft : IsKeySide left) (hvalue : right.trim ≠ [])
    (hlast : right.trim.getLast? ≠ some ']') : IsPair (left ++ '=' :: right) left.trim right.trim := by
  have hleftne : left ≠ [] := by
    rintro rfl
    exact hleft.filled rfl
  have hrightne : right ≠ [] := by
    rintro rfl
    exact hvalue rfl
  refine ⟨?_, ?_, left, right, rfl, hleft.equals, rfl, rfl, hleft.filled, hvalue⟩
  · rw [List.head?_append_of_ne_nil _ hleftne]
    exact hleft.comment
  · rintro ⟨-, hbracket⟩
    rw [List.getLast?_append_cons, List.getLast?_cons_of_ne_nil hrightne] at hbracket
    exact hlast (Text.getLast?_trim hbracket (by decide))

theorem entriesOfLines_cons_of_isPair {space line key value : Text} (hspace : space ≠ [])
    (hpair : IsPair line key value) (rest : List Text) :
    entriesOfLines space (line :: rest) = ⟨⟨space, key⟩, value⟩ :: entriesOfLines space rest := by
  simp [entriesOfLines, ofText_eq_pair_iff.2 hpair, entryOf?, spaceAfterLine, hspace]

/-- A line that is a pair gives its entry first, whether or not more lines follow it. -/
theorem entriesFrom_append_pair {space left right rest : Text} (hspace : space ≠ []) (hleft : IsKeySide left)
    (hfeed : '\n' ∉ right) (hvalue : right.trim ≠ []) (hlast : right.trim.getLast? ≠ some ']')
    (hrest : EndsLine rest) :
    entriesFrom space (left ++ '=' :: right ++ rest) =
      ⟨⟨space, left.trim⟩, right.trim⟩ :: entriesFrom space rest := by
  have hline : '\n' ∉ left ++ '=' :: right := by simp [hleft.feed, hfeed]
  obtain rfl | hhead := hrest
  · have hpair := isPair_append_cons hleft hvalue hlast
    rw [List.append_nil, entriesFrom, Text.lines_eq_singleton (by simp) hline,
      entriesOfLines_cons_of_isPair hspace hpair]
    rfl
  · obtain ⟨more, rfl⟩ := List.head?_eq_some_iff.1 hhead
    rw [← Text.trim_dropReturn right] at hvalue hlast ⊢
    have hpair := isPair_append_cons hleft hvalue hlast
    rw [entriesFrom, Text.lines_append_feed hline, Text.dropReturn_append_cons (by decide),
      entriesOfLines_cons_of_isPair hspace hpair]
    rfl

end ConfigWatch.Document
