import ConfigWatch.Document
import ConfigWatch.Proofs.Name
/-!
The entries of documents. Whatever a document says, the parts of its entries are
trimmed, not empty and free of line feeds, and no key has an equals sign; and
entries with such parts are read back from the document that is written of them.
-/
namespace ConfigWatch

/-- A text that one field of an entry can hold. -/
def Text.IsField (t : Text) : Prop := t ≠ [] ∧ t.trim = t ∧ '\n' ∉ t

instance (t : Text) : Decidable t.IsField := inferInstanceAs (Decidable (_ ∧ _ ∧ _))

theorem Text.isField_trim {t : Text} (hne : t.trim ≠ []) (hfeed : '\n' ∉ t) : t.trim.IsField :=
  ⟨hne, trim_trim t, fun hmem => hfeed (mem_of_mem_trim hmem)⟩

/-- A name to which a document can give a value. -/
def Name.IsStorable (name : Name) : Prop :=
  name.space.IsField ∧ name.key.IsField ∧ '=' ∉ name.key

instance (name : Name) : Decidable name.IsStorable := inferInstanceAs (Decidable (_ ∧ _ ∧ _))

theorem Name.IsStorable.isComplete {name : Name} (hname : name.IsStorable) :
    name.isComplete = true :=
  isComplete_iff.2 ⟨hname.1.1, hname.2.1.1⟩

/-- An entry that a document can give. -/
def Entry.IsWellFormed (e : Entry) : Prop := e.name.IsStorable ∧ e.value.IsField

instance (e : Entry) : Decidable e.IsWellFormed := inferInstanceAs (Decidable (_ ∧ _))

namespace Document

theorem bracketed?_eq_some_iff {line inner : Text} :
    bracketed? line = some inner ↔ line = '[' :: inner ++ [']'] := by
  cases line with
  | nil => simp [bracketed?]
  | cons c rest =>
    by_cases hc : c = '['
    · subst c
      simp only [bracketed?, List.cons_append, List.cons.injEq, true_and]
      constructor
      · intro hinner
        split at hinner
        · rename_i hlast
          cases hinner
          exact (List.dropLast_append_getLast? _ hlast).symm
        · cases hinner
      · rintro rfl
        simp
    · simp [bracketed?, hc]

theorem keyValue?_eq_some_iff {line key value : Text} :
    keyValue? line = some (key, value) ↔
      ∃ left right : Text, line = left ++ '=' :: right ∧ '=' ∉ left ∧
        left.trim = key ∧ right.trim = value ∧ key ≠ [] ∧ value ≠ [] := by
  unfold keyValue?
  simp only [Option.bind_eq_some_iff, Prod.exists, Text.cutFirst?_eq_some_iff]
  constructor
  · rintro ⟨left, right, ⟨hline, hfree⟩, hparts⟩
    split at hparts
    · cases hparts
    · rename_i hne
      cases hparts
      simp only [Bool.or_eq_true, List.isEmpty_iff, not_or] at hne
      exact ⟨left, right, hline, hfree, rfl, rfl, hne.1, hne.2⟩
  · rintro ⟨left, right, hline, hfree, rfl, rfl, hkey, hvalue⟩
    refine ⟨left, right, ⟨hline, hfree⟩, ?_⟩
    simp [hkey, hvalue]

/-- Lines in square brackets are headers, and no other lines are. -/
theorem ofText_eq_header_iff {line space : Text} :
    Line.ofText line = .header space ↔ ∃ inner : Text, line = '[' :: inner ++ [']'] ∧ inner.trim = space := by
  simp only [← bracketed?_eq_some_iff]
  unfold Line.ofText
  split
  · rename_i hsilent
    have hnone : bracketed? line = none := by
      cases line with
      | nil => rfl
      | cons c rest =>
        have hc : c = '#' := by simpa using hsilent
        subst c
        rfl
    simp [hnone]
  · cases hinner : bracketed? line with
    | some inner => simp
    | none => cases keyValue? line <;> simp

theorem keyValue?_of_ofText_eq_pair {line key value : Text}
    (hpair : Line.ofText line = .pair key value) : keyValue? line = some (key, value) := by
  unfold Line.ofText at hpair
  split at hpair
  · cases hpair
  · cases hinner : bracketed? line with
    | some inner => simp [hinner] at hpair
    | none =>
      cases hfound : keyValue? line with
      | none => simp [hinner, hfound] at hpair
      | some found =>
        simp only [hinner, hfound, Line.pair.injEq] at hpair
        rw [← hpair.1, ← hpair.2]

/-- The namespace in force is blank or a field, whatever the lines so far. -/
theorem spaceAfterLine_eq_nil_or_isField {space line : Text} (hspace : space = [] ∨ space.IsField)
    (hfeed : '\n' ∉ line) :
    spaceAfterLine space (Line.ofText line) = [] ∨ (spaceAfterLine space (Line.ofText line)).IsField := by
  cases hread : Line.ofText line with
  | header inner =>
    obtain ⟨text, rfl, rfl⟩ := ofText_eq_header_iff.1 hread
    by_cases hblank : text.trim = []
    · exact .inl hblank
    · exact .inr (Text.isField_trim hblank fun hmem => hfeed (by simp [hmem]))
  | silent => exact hspace
  | pair key value => exact hspace
  | malformed => exact hspace

theorem entryOf?_eq_some_iff {space : Text} {line : Line} {e : Entry} :
    entryOf? space line = some e ↔
      line = .pair e.name.key e.value ∧ space = e.name.space ∧ e.name.space ≠ [] := by
  constructor
  · intro hentry
    cases line with
    | pair key value =>
      simp only [entryOf?] at hentry
      split at hentry
      · cases hentry
      · rename_i hne
        cases hentry
        exact ⟨rfl, rfl, by simpa using hne⟩
    | silent => cases hentry
    | header inner => cases hentry
    | malformed => cases hentry
  · rintro ⟨rfl, rfl, hne⟩
    simp [entryOf?, hne]

theorem isWellFormed_of_entryOf? {space line : Text} {e : Entry}
    (hspace : space = [] ∨ space.IsField) (hfeed : '\n' ∉ line)
    (hentry : entryOf? space (Line.ofText line) = some e) : e.IsWellFormed := by
  obtain ⟨hread, rfl, hne⟩ := entryOf?_eq_some_iff.1 hentry
  obtain ⟨left, right, rfl, hequals, hkey, hvalue, hkeyne, hvaluene⟩ :=
    keyValue?_eq_some_iff.1 (keyValue?_of_ofText_eq_pair hread)
  rw [← hkey] at hkeyne
  rw [← hvalue] at hvaluene
  simp only [List.mem_append, List.mem_cons, not_or] at hfeed
  have hkeyField : e.name.key.IsField := hkey ▸ Text.isField_trim hkeyne hfeed.1
  have hvalueField : e.value.IsField := hvalue ▸ Text.isField_trim hvaluene hfeed.2.2
  have hfree : '=' ∉ e.name.key := fun hmem => hequals (Text.mem_of_mem_trim (hkey ▸ hmem))
  exact ⟨⟨hspace.resolve_left hne, hkeyField, hfree⟩, hvalueField⟩

theorem isWellFormed_of_mem_entriesOfLines {space : Text} {lines : List Text} {e : Entry}
    (hspace : space = [] ∨ space.IsField) (hfeed : ∀ line ∈ lines, '\n' ∉ line)
    (he : e ∈ entriesOfLines space lines) : e.IsWellFormed := by
  induction lines generalizing space with
  | nil => cases he
  | cons line rest ih =>
    simp only [List.mem_cons, forall_eq_or_imp] at hfeed
    simp only [entriesOfLines, List.mem_append, Option.mem_toList] at he
    obtain hentry | hrest := he
    · exact isWellFormed_of_entryOf? hspace hfeed.1 hentry
    · exact ih (spaceAfterLine_eq_nil_or_isField hspace hfeed.1) hfeed.2 hrest

/-- Documents give nothing but well-formed entries. -/
theorem isWellFormed_of_mem_entries {content : Text} {e : Entry} (he : e ∈ entries content) :
    e.IsWellFormed :=
  isWellFormed_of_mem_entriesOfLines (.inl rfl) Text.newline_not_mem_of_mem_lines he

theorem renderEntry_append (e : Entry) (rest : Text) :
    renderEntry e ++ rest =
      ('[' :: e.name.space ++ [']']) ++ '\n' :: ((' ' :: e.name.key ++ '=' :: e.value) ++ '\n' :: rest) := by
  simp [renderEntry]

theorem lines_renderEntry_append {e : Entry} (he : e.IsWellFormed) (rest : Text) :
    Text.lines (renderEntry e ++ rest) =
      ('[' :: e.name.space ++ [']']) :: (' ' :: e.name.key ++ '=' :: e.value) :: rest.lines := by
  obtain ⟨⟨⟨-, -, hspace⟩, ⟨-, -, hkey⟩, -⟩, hne, htrim, hvalue⟩ := he
  have hbracket : ('[' :: e.name.space ++ [']']).getLast? ≠ some '\r' := by
    rw [List.getLast?_concat]
    decide
  have hlast : (' ' :: e.name.key ++ '=' :: e.value).getLast? ≠ some '\r' := by
    rw [List.getLast?_append_cons, List.getLast?_cons_of_ne_nil hne]
    exact Text.getLast?_ne_of_trim_eq htrim (by decide)
  rw [renderEntry_append, Text.lines_append_newline (by simpa using hspace) hbracket,
    Text.lines_append_newline (by simp [hkey, hvalue]) hlast]

theorem ofText_bracketed {space : Text} (hspace : space.IsField) :
    Line.ofText ('[' :: space ++ [']']) = .header space :=
  ofText_eq_header_iff.2 ⟨space, rfl, hspace.2.1⟩

/-- An indented line is no comment and no header, so it is read as the pair that it holds. -/
theorem ofText_indented {key value : Text} (hkey : key.IsField) (hequals : '=' ∉ key)
    (hvalue : value.IsField) : Line.ofText (' ' :: key ++ '=' :: value) = .pair key value := by
  have hpair : keyValue? (' ' :: key ++ '=' :: value) = some (key, value) := by
    refine keyValue?_eq_some_iff.2 ⟨' ' :: key, value, rfl, by simp [hequals], ?_, hvalue.2.1,
      hkey.1, hvalue.1⟩
    rw [Text.trim_cons_of_blank (by decide), hkey.2.1]
  rw [List.cons_append] at hpair ⊢
  simp [Line.ofText, bracketed?, hpair]

theorem entriesFrom_renderEntry_append {e : Entry} (he : e.IsWellFormed) (space rest : Text) :
    entriesFrom space (renderEntry e ++ rest) = e :: entriesFrom e.name.space rest := by
  have hname := he.1
  have hfilled : e.name.space.isEmpty = false := by simpa using hname.1.1
  simp only [entriesFrom, lines_renderEntry_append he, entriesOfLines, ofText_bracketed hname.1,
    ofText_indented hname.2.1 hname.2.2 he.2, entryOf?, spaceAfterLine, hfilled]
  rfl

/-- Well-formed entries are read back from the document that is written of them. -/
theorem entries_render {es : List Entry} (hes : ∀ e ∈ es, e.IsWellFormed) : entries (render es) = es := by
  suffices hfrom : ∀ space, entriesFrom space (render es) = es from hfrom []
  induction es with
  | nil => intro space; rfl
  | cons e es ih =>
    intro space
    simp only [List.mem_cons, forall_eq_or_imp] at hes
    rw [render, List.flatMap_cons, entriesFrom_renderEntry_append hes.1]
    exact congrArg (e :: ·) (ih hes.2 e.name.space)

/-- Entries are read back from the document that is written of them exactly if all of
    them are well-formed. No document gives others, so writing what was read and reading
    it again changes nothing. -/
theorem entries_read_back_iff_wellFormed :
    (∀ es, entries (render es) = es ↔ ∀ e ∈ es, e.IsWellFormed) ∧
    (∀ content, ∀ e ∈ entries content, e.IsWellFormed) ∧
    (∀ content, entries (render (entries content)) = entries content) := by
  refine ⟨fun es => ⟨fun hback e he => ?_, entries_render⟩, fun content e he => ?_, fun content => ?_⟩
  · rw [← hback] at he
    exact isWellFormed_of_mem_entries he
  · exact isWellFormed_of_mem_entries he
  · exact entries_render fun e he => isWellFormed_of_mem_entries he

/-- Brackets, number signs and equals signs survive wherever a field may hold them, and a
    key with an equals sign does not. -/
theorem marks_read_back :
    let marked : List Entry :=
      [⟨⟨"a]=[".toList, "#[k".toList⟩, "v=]".toList⟩, ⟨⟨"#".toList, "[".toList⟩, "x\ry".toList⟩]
    let split : Entry := ⟨⟨"a".toList, "k=l".toList⟩, "v".toList⟩
    (∀ e ∈ marked, e.IsWellFormed) ∧ entries (render marked) = marked ∧ entries (render [split]) ≠ [split] := by
  intro marked split
  obtain ⟨hback, -, -⟩ := entries_read_back_iff_wellFormed
  have hmarked : ∀ e ∈ marked, e.IsWellFormed := by decide
  refine ⟨hmarked, (hback marked).2 hmarked, fun hsplit => ?_⟩
  have hwell : split.IsWellFormed := (hback [split]).1 hsplit split (by simp)
  exact absurd hwell (by decide)

end Document

end ConfigWatch
