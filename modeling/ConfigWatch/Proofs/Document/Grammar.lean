import ConfigWatch.Proofs.Document
/-!
The grammar of documents. Which entry a line gives, if any, is told by the line itself
and the nearest header above it. A document gives the entries of its lines in their
order, and nothing else.
-/
namespace ConfigWatch.Document

/-- A header begins with an opening bracket and ends with a closing one. -/
def IsHeader (line : Text) : Prop := line.head? = some '[' ∧ line.getLast? = some ']'

/-- The namespace named by a header: its trimmed inner text. -/
def headerSpace (header : Text) : Text := Text.trim header.tail.dropLast

/-- A line that has something besides blanks on both sides of its first equals sign,
    and is neither a comment nor a header. -/
def IsPair (line key value : Text) : Prop :=
  line.head? ≠ some '#' ∧ ¬ IsHeader line ∧
    ∃ left right : Text, line = left ++ '=' :: right ∧ '=' ∉ left ∧
      left.trim = key ∧ right.trim = value ∧ key ≠ [] ∧ value ≠ []

/-- The nearest header above the line at a position. -/
def NearestHeader (lines : List Text) (position : Nat) (header : Text) : Prop :=
  ∃ above between, lines.take position = above ++ header :: between ∧ IsHeader header ∧
    ∀ line ∈ between, ¬ IsHeader line

/-- The line at a position is a pair, and the nearest header above it is not blank. -/
def Gives (lines : List Text) (position : Nat) (e : Entry) : Prop :=
  ∃ line header, lines[position]? = some line ∧ IsPair line e.name.key e.value ∧
    NearestHeader lines position header ∧ headerSpace header = e.name.space ∧ e.name.space ≠ []

theorem isHeader_iff {line : Text} : IsHeader line ↔ ∃ inner : Text, line = '[' :: inner ++ [']'] := by
  constructor
  · rintro ⟨hhead, hlast⟩
    obtain ⟨rest, rfl⟩ := List.head?_eq_some_iff.1 hhead
    have hrest : rest ≠ [] := by
      rintro rfl
      simp at hlast
    rw [List.getLast?_cons_of_ne_nil hrest] at hlast
    exact ⟨rest.dropLast, congrArg ('[' :: ·) (List.dropLast_append_getLast? _ hlast).symm⟩
  · rintro ⟨inner, rfl⟩
    exact ⟨rfl, List.getLast?_concat⟩

theorem ofText_eq_header_iff_isHeader {line space : Text} :
    Line.ofText line = .header space ↔ IsHeader line ∧ headerSpace line = space := by
  rw [ofText_eq_header_iff, isHeader_iff]
  constructor
  · rintro ⟨inner, rfl, hspace⟩
    exact ⟨⟨inner, rfl⟩, by simpa [headerSpace] using hspace⟩
  · rintro ⟨⟨inner, rfl⟩, hspace⟩
    exact ⟨inner, rfl, by simpa [headerSpace] using hspace⟩

theorem ofText_eq_pair_iff {line key value : Text} :
    Line.ofText line = .pair key value ↔ IsPair line key value := by
  constructor
  · intro hpair
    have hcomment : line.head? ≠ some '#' := by
      intro hhead
      simp [Line.ofText, hhead] at hpair
    have hheader : ¬ IsHeader line := by
      intro hheader
      rw [ofText_eq_header_iff_isHeader.2 ⟨hheader, rfl⟩] at hpair
      cases hpair
    exact ⟨hcomment, hheader, keyValue?_eq_some_iff.1 (keyValue?_of_ofText_eq_pair hpair)⟩
  · rintro ⟨hcomment, hheader, hparts⟩
    have hfound : keyValue? line = some (key, value) := keyValue?_eq_some_iff.2 hparts
    have hne : line ≠ [] := by
      rintro rfl
      cases hfound
    have hplain : bracketed? line = none := by
      refine Option.eq_none_iff_forall_ne_some.2 fun inner hinner => hheader ?_
      exact isHeader_iff.2 ⟨inner, bracketed?_eq_some_iff.1 hinner⟩
    simp [Line.ofText, hne, hcomment, hplain, hfound]

/-- The namespace in force after lines. -/
def spaceAfterLines (space : Text) (lines : List Text) : Text :=
  lines.foldl (fun space line => spaceAfterLine space (Line.ofText line)) space

theorem spaceAfterLines_concat (space : Text) (lines : List Text) (line : Text) :
    spaceAfterLines space (lines ++ [line]) =
      spaceAfterLine (spaceAfterLines space lines) (Line.ofText line) :=
  List.foldl_concat ..

theorem spaceAfterLine_of_isHeader {line : Text} (hheader : IsHeader line) (space : Text) :
    spaceAfterLine space (Line.ofText line) = headerSpace line := by
  rw [ofText_eq_header_iff_isHeader.2 ⟨hheader, rfl⟩]
  rfl

theorem spaceAfterLine_of_not_isHeader {line : Text} (hheader : ¬ IsHeader line) (space : Text) :
    spaceAfterLine space (Line.ofText line) = space := by
  cases hread : Line.ofText line with
  | header inner => exact absurd (ofText_eq_header_iff_isHeader.1 hread).1 hheader
  | silent => rfl
  | pair key value => rfl
  | malformed => rfl

/-- From no namespace on, one is in force exactly if the last header names it. -/
theorem spaceAfterLines_eq_iff {lines : List Text} {space : Text} (hspace : space ≠ []) :
    spaceAfterLines [] lines = space ↔
      ∃ header, NearestHeader lines lines.length header ∧ headerSpace header = space := by
  simp only [NearestHeader, List.take_length]
  induction lines using List.reverseRecOn with
  | nil => simpa [spaceAfterLines] using hspace.symm
  | append_singleton lines line ih =>
    rw [spaceAfterLines_concat]
    by_cases hheader : IsHeader line
    · rw [spaceAfterLine_of_isHeader hheader]
      constructor
      · intro hline
        exact ⟨line, ⟨lines, [], rfl, hheader, by simp⟩, hline⟩
      · rintro ⟨header, ⟨above, between, hlines, -, hbetween⟩, hname⟩
        -- The last line is a header, so none can stand between it and the end.
        obtain rfl | ⟨between, last, rfl⟩ := between.eq_nil_or_concat
        · rw [(List.append_singleton_inj.1 hlines).2]
          exact hname
        · rw [List.concat_eq_append, ← List.cons_append, ← List.append_assoc] at hlines
          have hlast : last = line := (List.append_singleton_inj.1 hlines).2.symm
          exact absurd (hlast ▸ hheader) (hbetween last (by simp))
    · rw [spaceAfterLine_of_not_isHeader hheader, ih]
      constructor
      · rintro ⟨header, ⟨above, between, hlines, hhead, hbetween⟩, hname⟩
        refine ⟨header, ⟨above, between ++ [line], by simp [hlines], hhead, ?_⟩, hname⟩
        simpa [or_imp, forall_and, hheader] using hbetween
      · rintro ⟨header, ⟨above, between, hlines, hhead, hbetween⟩, hname⟩
        obtain rfl | ⟨between, last, rfl⟩ := between.eq_nil_or_concat
        · rw [(List.append_singleton_inj.1 hlines).2] at hheader
          exact absurd hhead hheader
        · rw [List.concat_eq_append, ← List.cons_append, ← List.append_assoc] at hlines
          refine ⟨header, ⟨above, between, (List.append_singleton_inj.1 hlines).1, hhead, ?_⟩, hname⟩
          exact fun other hother => hbetween other (by simp [hother])

/-- What the line at a position gives is what is read from it under the namespace in
    force there. -/
theorem gives_length_iff {above below : List Text} {line : Text} {e : Entry} :
    Gives (above ++ line :: below) above.length e ↔
      entryOf? (spaceAfterLines [] above) (Line.ofText line) = some e := by
  have hline : (above ++ line :: below)[above.length]? = some line := by simp
  have hnearest (header : Text) : NearestHeader (above ++ line :: below) above.length header ↔
      NearestHeader above above.length header := by
    simp [NearestHeader]
  rw [entryOf?_eq_some_iff, ofText_eq_pair_iff]
  constructor
  · rintro ⟨found, header, hfound, hpair, hheader, hname, hne⟩
    cases hline.symm.trans hfound
    exact ⟨hpair, (spaceAfterLines_eq_iff hne).2 ⟨header, (hnearest header).1 hheader, hname⟩, hne⟩
  · rintro ⟨hpair, hspace, hne⟩
    obtain ⟨header, hheader, hname⟩ := (spaceAfterLines_eq_iff hne).1 hspace
    exact ⟨line, header, hline, hpair, (hnearest header).2 hheader, hname, hne⟩

/-- The positions of a document's remaining lines that give entries, and these entries. -/
theorem exists_positions (above below : List Text) :
    ∃ positions : List Nat, positions.Pairwise (· < ·) ∧
      (∀ position, position ∈ positions ↔
        above.length ≤ position ∧ ∃ e, Gives (above ++ below) position e) ∧
      List.Forall₂ (fun position e => ∀ e', Gives (above ++ below) position e' ↔ e' = e) positions
        (entriesOfLines (spaceAfterLines [] above) below) := by
  induction below generalizing above with
  | nil =>
    refine ⟨[], .nil, fun position => ?_, .nil⟩
    simp only [List.append_nil, List.not_mem_nil, false_iff, not_and, not_exists]
    rintro hle e ⟨line, header, hline, -⟩
    rw [List.getElem?_eq_none hle] at hline
    cases hline
  | cons line below ih =>
    obtain ⟨positions, hincreasing, hmem, hgive⟩ := ih (above ++ [line])
    rw [spaceAfterLines_concat] at hgive
    simp only [List.append_assoc, List.singleton_append, List.length_append, List.length_singleton]
      at hmem hgive
    have hlater : ∀ position ∈ positions, above.length < position := fun position hposition =>
      ((hmem position).1 hposition).1
    cases hentry : entryOf? (spaceAfterLines [] above) (Line.ofText line) with
    | none =>
      refine ⟨positions, hincreasing, fun position => ?_, by simpa [entriesOfLines, hentry] using hgive⟩
      rw [hmem]
      constructor
      · rintro ⟨hle, hgives⟩
        exact ⟨by omega, hgives⟩
      · rintro ⟨hle, e, hgives⟩
        refine ⟨?_, e, hgives⟩
        by_contra hnot
        have hhere : position = above.length := by omega
        rw [hhere, gives_length_iff, hentry] at hgives
        cases hgives
    | some e =>
      have hhere : ∀ e', Gives (above ++ line :: below) above.length e' ↔ e' = e := by
        intro e'
        rw [gives_length_iff, hentry, Option.some.injEq, eq_comm]
      refine ⟨above.length :: positions, .cons hlater hincreasing, fun position => ?_, ?_⟩
      · rw [List.mem_cons, hmem]
        constructor
        · rintro (rfl | ⟨hle, hgives⟩)
          · exact ⟨le_rfl, e, (hhere e).2 rfl⟩
          · exact ⟨by omega, hgives⟩
        · rintro ⟨hle, hgives⟩
          by_cases hposition : position = above.length
          · exact .inl hposition
          · exact .inr ⟨by omega, hgives⟩
      · simpa [entriesOfLines, hentry] using List.Forall₂.cons hhere hgive

/-- A document gives one entry for each of its lines that is a pair under a header that
    is not blank, in the order of these lines, and no other entries. -/
theorem entries_follow_grammar (content : Text) :
    let lines := Text.linesOfPieces (content.pieces '\n')
    ∃ positions : List Nat, positions.Pairwise (· < ·) ∧
      (∀ position, position ∈ positions ↔ ∃ e, Gives lines position e) ∧
      List.Forall₂ (fun position e => ∀ e', Gives lines position e' ↔ e' = e) positions
        (entries content) := by
  intro lines
  obtain ⟨positions, hincreasing, hmem, hgive⟩ := exists_positions [] lines
  refine ⟨positions, hincreasing, fun position => by simpa using hmem position, ?_⟩
  rw [entries, entriesFrom, Text.lines_eq_linesOfPieces]
  exact hgive

example : entries "a=0\n[ s ]\r\n #k=1\n#l=2\n[x]y=3\n[ ]\nm=4\n[=]\nn=\r5\r".toList =
    [⟨⟨"s".toList, "#k".toList⟩, "1".toList⟩, ⟨⟨"s".toList, "[x]y".toList⟩, "3".toList⟩,
      ⟨⟨"=".toList, "n".toList⟩, "5".toList⟩] := by decide

end ConfigWatch.Document
