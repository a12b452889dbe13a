import ConfigWatch.Text.Blank
import ConfigWatch.Text.Line
import ConfigWatch.Text.Utf8
import Mathlib.Data.List.DropRight
/-!
What cutting, trimming and reading lines do to a text. A cut is told by the parts it
gives, trimming twice is trimming once, and a line that is followed by a line feed
is read back unless it ends in a carriage return. Text that is written in ASCII is read
back from its bytes.
-/
namespace ConfigWatch.Text

/-- Comparing texts follows their lexicographic order by code points. -/
theorem lt_of_compare_eq_lt {a b : Text} (hcompare : compare a b = .lt) : a < b := by
  induction a generalizing b with
  | nil =>
    cases b with
    | nil => cases hcompare
    | cons d b => exact List.nil_lt_cons d b
  | cons c a ih =>
    cases b with
    | nil => cases hcompare
    | cons d b =>
      rw [List.compare_cons_cons, Ordering.then_eq_lt] at hcompare
      obtain hlt | ⟨heq, hrest⟩ := hcompare
      · exact List.cons_lt_cons_iff.2 (.inl (compareOfLessAndEq_eq_lt.1 hlt))
      · exact List.cons_lt_cons_iff.2 (.inr ⟨Std.LawfulEqCmp.compare_eq_iff_eq.1 heq, ih hrest⟩)

/-- A cut succeeds on exactly the texts that are two parts joined by the separator,
    the left one free of it. -/
theorem cutFirst?_eq_some_iff {separator : Char} {t left right : Text} :
    cutFirst? separator t = some (left, right) ↔
      t = left ++ separator :: right ∧ separator ∉ left := by
  induction t generalizing left with
  | nil => simp [cutFirst?]
  | cons c rest ih =>
    by_cases hc : c = separator
    · subst c
      cases left with
      | nil => simp [cutFirst?, eq_comm]
      | cons d left =>
        simp only [cutFirst?, ↓reduceIte, List.cons_append, List.cons.injEq, List.mem_cons, not_or]
        constructor
        · intro hcut
          cases hcut
        · rintro ⟨⟨rfl, -⟩, hfree, -⟩
          exact absurd rfl hfree
    · cases left with
      | nil => simp [cutFirst?, hc]
      | cons d left =>
        simp only [cutFirst?, hc, ↓reduceIte, Option.map_eq_some_iff, Prod.exists, Prod.mk.injEq,
          List.cons.injEq, List.cons_append, List.mem_cons, not_or]
        constructor
        · rintro ⟨left', right', hcut, ⟨rfl, rfl⟩, rfl⟩
          obtain ⟨hrest, hfree⟩ := ih.1 hcut
          exact ⟨⟨rfl, hrest⟩, fun h => hc h.symm, hfree⟩
        · rintro ⟨⟨rfl, hrest⟩, -, hfree⟩
          exact ⟨left, right, ih.2 ⟨hrest, hfree⟩, ⟨rfl, rfl⟩, rfl⟩

theorem cutLast?_eq_none {separator : Char} {t : Text} (ht : separator ∉ t) : cutLast? separator t = none := by
  induction t with
  | nil => rfl
  | cons c rest ih =>
    rw [List.mem_cons, not_or] at ht
    rw [cutLast?, ih ht.2]
    exact if_neg (Ne.symm ht.1)

/-- A separator with none after it is the last one, whatever stands before it. -/
theorem cutLast?_append_cons {separator : Char} (left : Text) {right : Text} (hright : separator ∉ right) :
    cutLast? separator (left ++ separator :: right) = some (left, right) := by
  induction left with
  | nil =>
    rw [List.nil_append, cutLast?, cutLast?_eq_none hright]
    exact if_pos rfl
  | cons c left ih => rw [List.cons_append, cutLast?, ih]

theorem mem_of_mem_trimStart {t : Text} {c : Char} (hc : c ∈ t.trimStart) : c ∈ t :=
  List.dropWhile_subset _ hc

theorem mem_of_mem_trimEnd {t : Text} {c : Char} (hc : c ∈ t.trimEnd) : c ∈ t :=
  (List.rdropWhile_prefix _ _).subset hc

theorem mem_of_mem_trim {t : Text} {c : Char} (hc : c ∈ t.trim) : c ∈ t :=
  mem_of_mem_trimStart (mem_of_mem_trimEnd hc)

theorem trim_cons_of_blank {c : Char} (hc : isBlankChar c = true) (t : Text) :
    trim (c :: t) = t.trim := by
  rw [trim, trim, trimStart, trimStart, List.dropWhile_cons_of_pos hc]

theorem trimStart_append_cons {c : Char} (hc : isBlankChar c = false) (left right : Text) :
    trimStart (left ++ c :: right) = left.trimStart ++ c :: right := by
  have hright : (c :: right).dropWhile isBlankChar = c :: right := List.dropWhile_cons_of_neg (by simp [hc])
  rw [trimStart, trimStart, List.dropWhile_append, hright]
  split
  · rename_i hempty
    rw [List.isEmpty_iff.1 hempty, List.nil_append]
  · rfl

theorem trimEnd_append_cons {c : Char} (hc : isBlankChar c = false) (left right : Text) :
    trimEnd (left ++ c :: right) = left ++ c :: right.trimEnd := by
  have hreverse : (left ++ c :: right).reverse = right.reverse ++ c :: left.reverse := by simp
  have htrim := trimStart_append_cons hc right.reverse left.reverse
  rw [trimStart] at htrim
  rw [trimEnd, hreverse, htrim]
  simp [trimEnd, trimStart]

theorem trim_append_cons {c : Char} (hc : isBlankChar c = false) (left right : Text) :
    trim (left ++ c :: right) = left.trimStart ++ c :: right.trimEnd := by
  rw [trim, trimStart_append_cons hc, trimEnd_append_cons hc]

theorem trim_append {front : Text} (hne : front ≠ []) (hfront : ∀ c ∈ front, isBlankChar c = false) (t : Text) :
    trim (front ++ t) = front ++ t.trimEnd := by
  obtain ⟨init, last, rfl⟩ := List.eq_nil_or_concat' front |>.resolve_left hne
  have hstart : trimStart init = init := by
    rw [trimStart, List.dropWhile_eq_self_iff]
    intro hpos
    simp [hfront _ (List.mem_append_left _ (List.getElem_mem hpos))]
  rw [List.append_assoc, List.singleton_append, trim_append_cons (hfront last (by simp)), hstart,
    List.append_assoc, List.singleton_append]

theorem trim_eq_self {t : Text} (ht : ∀ c ∈ t, isBlankChar c = false) : t.trim = t := by
  obtain rfl | hne := Decidable.eq_or_ne t []
  · rfl
  · have htrim := trim_append hne ht []
    rwa [List.append_nil, show trimEnd [] = [] from rfl, List.append_nil] at htrim

theorem isBlankChar_of_printable {c : Char} (hc : 0x20 < c.toNat ∧ c.toNat < 0x7F) : isBlankChar c = false := by
  simp only [isBlankChar, blankRanges, List.any_cons, List.any_nil, Bool.or_false, Bool.or_eq_false_iff,
    Bool.and_eq_false_iff, decide_eq_false_iff_not]
  omega

theorem trim_trimStart (t : Text) : t.trimStart.trim = t.trim := by
  rw [trim, trim, trimStart, trimStart, List.dropWhile_idempotent]

/-- It does not matter which end is trimmed first. -/
theorem trimStart_trimEnd (t : Text) : t.trimEnd.trimStart = t.trim := by
  by_cases hfilled : ∃ c ∈ t, isBlankChar c = false
  · obtain ⟨c, hmem, hc⟩ := hfilled
    obtain ⟨left, right, rfl⟩ := List.append_of_mem hmem
    rw [trimEnd_append_cons hc, trimStart_append_cons hc, trim_append_cons hc]
  · have hblank : ∀ c ∈ t, isBlankChar c = true := by simpa using hfilled
    have hstart : t.trimStart = [] := List.dropWhile_eq_nil_iff.2 hblank
    have hend : t.trimEnd = [] := List.rdropWhile_eq_nil_iff.2 hblank
    rw [trim, hstart, hend]
    rfl

theorem trim_trimEnd (t : Text) : t.trimEnd.trim = t.trim := by
  rw [trim, trimStart_trimEnd, trim]
  exact List.rdropWhile_idempotent _ _

@[simp] theorem trim_trim (t : Text) : t.trim.trim = t.trim :=
  (trim_trimEnd t.trimStart).trans (trim_trimStart t)

theorem trimStart_append_of_isBlank {front : Text} (hfront : front.isBlank = true) (t : Text) :
    trimStart (front ++ t) = t.trimStart :=
  List.dropWhile_append_of_pos (List.all_eq_true.1 hfront)

theorem trimEnd_append_of_isBlank (t : Text) {back : Text} (hback : back.isBlank = true) :
    trimEnd (t ++ back) = t.trimEnd := by
  have hreverse : ∀ c ∈ back.reverse, isBlankChar c = true := by
    intro c hc
    exact List.all_eq_true.1 hback c (List.mem_reverse.1 hc)
  rw [trimEnd, List.reverse_append, List.dropWhile_append_of_pos hreverse, trimEnd]

/-- Blanks around a text are trimmed away. -/
theorem trim_padded {front back : Text} (hfront : front.isBlank = true) (t : Text) (hback : back.isBlank = true) :
    trim (front ++ t ++ back) = t.trim := by
  rw [← trimStart_trimEnd, trimEnd_append_of_isBlank _ hback, trimStart_trimEnd, trim,
    trimStart_append_of_isBlank hfront, trim]

theorem getLast?_trim {t : Text} {c : Char} (hlast : t.getLast? = some c) (hc : isBlankChar c = false) :
    t.trim.getLast? = some c := by
  obtain ⟨front, rfl⟩ := List.getLast?_eq_some_iff.1 hlast
  rw [trim_append_cons hc]
  exact List.getLast?_concat

theorem trimEnd_of_trim_eq {t : Text} (ht : t.trim = t) : t.trimEnd = t := by
  rw [← ht, trim]
  exact List.rdropWhile_idempotent _ _

theorem getLast?_ne_of_trim_eq {t : Text} {c : Char} (ht : t.trim = t) (hc : isBlankChar c = true) :
    t.getLast? ≠ some c := by
  intro hlast
  have hself : t.trimStart.rdropWhile isBlankChar = t := ht
  have hne : t.trimStart.rdropWhile isBlankChar ≠ [] := by
    rw [hself]
    rintro rfl
    cases hlast
  have hnot := List.rdropWhile_last_not isBlankChar t.trimStart hne
  simp only [hself] at hnot
  rw [List.getLast?_eq_some_getLast (hself ▸ hne)] at hlast
  exact hnot (Option.some.inj hlast ▸ hc)

theorem not_mem_consFirst {separator c : Char} {pieces : List Text} (hc : c ≠ separator)
    (hpieces : ∀ piece ∈ pieces, separator ∉ piece) : ∀ piece ∈ consFirst c pieces, separator ∉ piece := by
  cases pieces with
  | nil => simpa [consFirst] using hc.symm
  | cons first rest =>
    simp only [consFirst, List.mem_cons, forall_eq_or_imp, not_or] at hpieces ⊢
    exact ⟨⟨hc.symm, hpieces.1⟩, hpieces.2⟩

theorem newline_not_mem_of_mem_lines {t : Text} : ∀ line ∈ t.lines, '\n' ∉ line := by
  fun_induction lines t with
  | case1 => simp
  | case2 rest ih => simpa using ih
  | case3 rest ih => simpa using ih
  | case4 c rest hfeed hreturn ih => exact not_mem_consFirst (fun h => hfeed h) ih

theorem lines_cons_of_not_end {c : Char} {rest : Text} (hfeed : c ≠ '\n')
    (hreturn : c = '\r' → rest.head? ≠ some '\n') : lines (c :: rest) = consFirst c (lines rest) := by
  rw [lines]
  · exact hfeed
  · rintro after rfl rfl
    exact hreturn rfl rfl

/-- A text that leaves no line open at its end. -/
def IsWholeLines (t : Text) : Prop := t = [] ∨ t.getLast? = some '\n'

instance (t : Text) : Decidable t.IsWholeLines := inferInstanceAs (Decidable (_ ∨ _))

theorem IsWholeLines.of_cons {c : Char} {t : Text} (hwhole : IsWholeLines (c :: t)) : t.IsWholeLines := by
  cases t with
  | nil => exact .inl rfl
  | cons d t => exact .inr (by simpa [IsWholeLines] using hwhole)

theorem consFirst_append (c : Char) {pieces : List Text} (hne : pieces ≠ []) (more : List Text) :
    consFirst c (pieces ++ more) = consFirst c pieces ++ more := by
  cases pieces with
  | nil => exact absurd rfl hne
  | cons piece pieces => rfl

theorem lines_ne_nil {t : Text} (hne : t ≠ []) : lines t ≠ [] := by
  fun_cases lines t with
  | case1 => exact absurd rfl hne
  | case2 rest => simp
  | case3 rest => simp
  | case4 c rest hfeed hreturn => cases lines rest <;> simp [consFirst]

/-- After whole lines a text is read line by line as if it stood alone. -/
theorem lines_append {front : Text} (hfront : front.IsWholeLines) (rest : Text) :
    lines (front ++ rest) = lines front ++ lines rest := by
  fun_induction lines front with
  | case1 => rfl
  | case2 tail ih => exact congrArg ([] :: ·) (ih hfront.of_cons)
  | case3 tail ih => exact congrArg ([] :: ·) (ih hfront.of_cons.of_cons)
  | case4 c tail hfeed hreturn ih =>
    -- The line that `c` begins is ended within the front, so there is more of the front.
    have htail : tail ≠ [] := by
      rintro rfl
      exact hfeed (by simpa [IsWholeLines] using hfront)
    have hnext : c = '\r' → (tail ++ rest).head? ≠ some '\n' := by
      intro hc hhead
      rw [List.head?_append_of_ne_nil _ htail] at hhead
      obtain ⟨after, rfl⟩ := List.head?_eq_some_iff.1 hhead
      exact hreturn after hc rfl
    rw [List.cons_append, lines_cons_of_not_end hfeed hnext, ih hfront.of_cons,
      consFirst_append c (lines_ne_nil htail)]

/-- A line without the one carriage return that belongs to its end. -/
def dropReturn (line : Text) : Text := if line.getLast? = some '\r' then line.dropLast else line

/-- The lines that pieces between line feeds make. Only a line feed gives a carriage
    return before it to the end, and nothing after the last one is no line. -/
def linesOfPieces : List Text → List Text
  | [] => []
  | [last] => if last.isEmpty then [] else [last]
  | piece :: next :: rest => dropReturn piece :: linesOfPieces (next :: rest)

theorem dropReturn_cons {c : Char} {line : Text} (hc : c = '\r' → line ≠ []) :
    dropReturn (c :: line) = c :: dropReturn line := by
  cases line with
  | nil =>
    have hreturn : c ≠ '\r' := fun h => hc h rfl
    simp [dropReturn, hreturn]
  | cons d line =>
    by_cases hlast : (d :: line).getLast? = some '\r' <;> simp [dropReturn, hlast]

theorem pieces_ne_nil (separator : Char) (t : Text) : pieces separator t ≠ [] := by
  cases t with
  | nil => simp [pieces]
  | cons c rest =>
    rw [pieces]
    split
    · simp
    · cases pieces separator rest <;> simp [consFirst]

/-- Only a text that begins with the separator has an empty piece before others. -/
theorem head?_of_pieces_eq_nil_cons {separator : Char} {t next : Text} {rest : List Text}
    (hpieces : pieces separator t = [] :: next :: rest) : t.head? = some separator := by
  cases t with
  | nil => simp [pieces] at hpieces
  | cons c tail =>
    rw [pieces] at hpieces
    split at hpieces
    · rename_i hc
      rw [hc, List.head?_cons]
    · cases htail : pieces separator tail <;> simp [htail, consFirst] at hpieces

theorem linesOfPieces_consFirst {c : Char} {piece : Text} {rest : List Text}
    (hc : c = '\r' → piece = [] → rest = []) :
    linesOfPieces (consFirst c (piece :: rest)) = consFirst c (linesOfPieces (piece :: rest)) := by
  cases rest with
  | nil => cases piece <;> rfl
  | cons next rest =>
    have hpiece : c = '\r' → piece ≠ [] := by
      intro hreturn hempty
      cases hc hreturn hempty
    simp only [consFirst, linesOfPieces, dropReturn_cons hpiece]

/-- Lines are the pieces between line feeds, without a carriage return right before
    the line feed. -/
theorem lines_eq_linesOfPieces (t : Text) : lines t = linesOfPieces (pieces '\n' t) := by
  fun_induction lines t with
  | case1 => rfl
  | case2 rest ih =>
    obtain ⟨piece, more, hpieces⟩ := List.exists_cons_of_ne_nil (pieces_ne_nil '\n' rest)
    rw [ih, pieces, if_pos rfl, hpieces]
    rfl
  | case3 rest ih =>
    obtain ⟨piece, more, hpieces⟩ := List.exists_cons_of_ne_nil (pieces_ne_nil '\n' rest)
    rw [ih, pieces, if_neg (by decide), pieces, if_pos rfl, hpieces]
    rfl
  | case4 c rest hfeed hreturn ih =>
    obtain ⟨piece, more, hpieces⟩ := List.exists_cons_of_ne_nil (pieces_ne_nil '\n' rest)
    have hnext : c = '\r' → piece = [] → more = [] := by
      rintro rfl rfl
      cases more with
      | nil => rfl
      | cons next more =>
        obtain ⟨after, rfl⟩ := List.head?_eq_some_iff.1 (head?_of_pieces_eq_nil_cons hpieces)
        exact absurd rfl (hreturn after rfl)
    rw [ih, pieces, if_neg hfeed, hpieces, linesOfPieces_consFirst hnext]

theorem pieces_eq_singleton {separator : Char} {t : Text} (hfree : separator ∉ t) : pieces separator t = [t] := by
  induction t with
  | nil => rfl
  | cons c rest ih =>
    rw [List.mem_cons, not_or] at hfree
    rw [pieces, if_neg (Ne.symm hfree.1), ih hfree.2, consFirst]

theorem pieces_append_cons {separator : Char} {left : Text} (hfree : separator ∉ left) (right : Text) :
    pieces separator (left ++ separator :: right) = left :: pieces separator right := by
  induction left with
  | nil => rw [List.nil_append, pieces, if_pos rfl]
  | cons c left ih =>
    rw [List.mem_cons, not_or] at hfree
    rw [List.cons_append, pieces, if_neg (Ne.symm hfree.1), ih hfree.2, consFirst]

theorem lines_eq_singleton {line : Text} (hne : line ≠ []) (hfeed : '\n' ∉ line) : lines line = [line] := by
  rw [lines_eq_linesOfPieces, pieces_eq_singleton hfeed, linesOfPieces, if_neg (mt List.isEmpty_iff.1 hne)]

/-- A line feed ends the line before it, and takes a carriage return with it. -/
theorem lines_append_feed {line : Text} (hfeed : '\n' ∉ line) (rest : Text) :
    lines (line ++ '\n' :: rest) = dropReturn line :: lines rest := by
  obtain ⟨piece, more, hpieces⟩ := List.exists_cons_of_ne_nil (pieces_ne_nil '\n' rest)
  rw [lines_eq_linesOfPieces, lines_eq_linesOfPieces, pieces_append_cons hfeed, hpieces, linesOfPieces]

/-- A line that is ended by a line feed is read back, unless it ends in a carriage
    return itself. -/
theorem lines_append_newline {line : Text} (hfeed : '\n' ∉ line) (hreturn : line.getLast? ≠ some '\r')
    (rest : Text) : lines (line ++ '\n' :: rest) = line :: lines rest := by
  rw [lines_append_feed hfeed, dropReturn, if_neg hreturn]

/-- The carriage return that a line loses is a blank at its end. -/
theorem trim_dropReturn (line : Text) : line.dropReturn.trim = line.trim := by
  by_cases hreturn : line.getLast? = some '\r'
  · obtain ⟨front, rfl⟩ := List.getLast?_eq_some_iff.1 hreturn
    rw [dropReturn, if_pos hreturn, List.dropLast_concat, ← trimStart_trimEnd, ← trimStart_trimEnd,
      trimEnd_append_of_isBlank front (by decide)]
  · rw [dropReturn, if_neg hreturn]

theorem dropReturn_append_cons {c : Char} (hc : c ≠ '\r') (left right : Text) :
    dropReturn (left ++ c :: right) = left ++ c :: dropReturn right := by
  induction left with
  | nil => exact dropReturn_cons fun hreturn => absurd hreturn hc
  | cons d left ih =>
    rw [List.cons_append, dropReturn_cons fun _ => by simp, ih, List.cons_append]

theorem after?_eq_some_iff {beginning t rest : Text} : after? beginning t = some rest ↔ t = beginning ++ rest := by
  induction beginning generalizing t with
  | nil => simp [after?]
  | cons b beginning ih =>
    cases t with
    | nil => simp [after?]
    | cons c t =>
      rw [after?]
      split
      · rename_i hbc
        simp [ih, hbc]
      · rename_i hbc
        simp [Ne.symm hbc]

theorem isSome_after?_iff {beginning t : Text} : (after? beginning t).isSome = true ↔ beginning <+: t := by
  rw [Option.isSome_iff_exists]
  exact exists_congr fun rest => after?_eq_some_iff.trans eq_comm

/-- A text that has the separator is cut around the first one, and no other text is cut. -/
theorem cutFirst?_eq (separator : Char) (t : Text) :
    cutFirst? separator t =
      if separator ∈ t then
        some (t.takeWhile (· ≠ separator), (t.dropWhile (· ≠ separator)).tail)
      else none := by
  induction t with
  | nil => rfl
  | cons c rest ih =>
    rw [cutFirst?, ih]
    by_cases hc : c = separator
    · simp [hc]
    · have hmem : separator ∈ c :: rest ↔ separator ∈ rest := by
        rw [List.mem_cons, or_iff_right (Ne.symm hc)]
      by_cases hrest : separator ∈ rest
      · simp [hc, hmem, hrest]
      · simp [hc, hmem, hrest]

theorem pieces_eq_splitOn (separator : Char) (t : Text) : pieces separator t = t.splitOn separator := by
  induction t with
  | nil => rfl
  | cons c rest ih =>
    rw [pieces, ih, List.splitOn, List.splitOn, List.splitOnP_cons_eq_if_modifyHead]
    by_cases hc : c = separator
    · simp [hc]
    · obtain ⟨piece, more, hpieces⟩ :=
        List.exists_cons_of_ne_nil (List.splitOnP_ne_nil (· == separator) rest)
      simp [hc, hpieces, consFirst]

theorem not_mem_of_mem_splitOn {separator : Char} {t : Text} :
    ∀ piece ∈ t.splitOn separator, separator ∉ piece := by
  rw [← pieces_eq_splitOn]
  induction t with
  | nil => simp [pieces]
  | cons c rest ih =>
    rw [pieces]
    split
    · simpa using ih
    · rename_i hc
      exact not_mem_consFirst hc ih

theorem join_cons_of_ne_nil (separator : Char) (piece : Text) {rest : List Text} (hne : rest ≠ []) :
    join [separator] (piece :: rest) = piece ++ separator :: join [separator] rest := by
  rw [join, List.append_assoc, List.singleton_append]
  exact hne

theorem join_eq_intercalate (separator : Text) (ts : List Text) :
    join separator ts = separator.intercalate ts := by
  fun_induction join separator ts with
  | case1 => rfl
  | case2 piece => rw [List.intercalate_singleton]
  | case3 piece rest hrest ih => rw [ih, List.intercalate_cons_of_ne_nil hrest]

/-- The lower-case forms are the usual ones of ASCII. -/
theorem lowerChar_eq_toLower (c : Char) : lowerChar c = c.toLower := by
  unfold lowerChar
  by_cases hc : 'A' ≤ c ∧ c ≤ 'Z'
  · have hupper : c.val ≥ 'A'.val ∧ c.val ≤ 'Z'.val := hc
    have hlower : c.toLower.val = c.val + 32 := congrArg Char.val (dif_pos hupper)
    have hfits : c.val.toNat + 32 < 2 ^ 32 := by
      have hbound : c.val.toNat ≤ 90 := hc.2
      omega
    have hshift : c.toLower.toNat = c.toNat + 32 := by
      change c.toLower.val.toNat = c.val.toNat + 32
      rw [hlower, UInt32.toNat_add]
      exact Nat.mod_eq_of_lt hfits
    rw [if_pos hc, ← hshift, Char.ofNat_toNat]
  · have hother : ¬ (c.val ≥ 'A'.val ∧ c.val ≤ 'Z'.val) := hc
    have hsame : c.toLower = c := dif_neg hother
    rw [if_neg hc, hsame]

end ConfigWatch.Text

namespace ConfigWatch.Utf8

theorem utf8EncodeChar_of_ascii {c : Char} (hc : c.toNat < 0x80) :
    String.utf8EncodeChar c = [UInt8.ofNat c.toNat] := by
  have hval : c.val ≤ 0x7F := by
    rw [UInt32.le_iff_toNat_le]
    exact Nat.le_of_lt_succ hc
  rw [String.utf8EncodeChar_eq_singleton (Char.utf8Size_eq_one_iff.2 hval)]
  rfl

theorem takeChar_of_ascii {c : Char} (hc : c.toNat < 0x80) (rest : List UInt8) :
    takeChar (UInt8.ofNat c.toNat) rest = (some c, rest) := by
  have hbyte : (UInt8.ofNat c.toNat).toNat = c.toNat := by simp; omega
  have hsmall : UInt8.ofNat c.toNat < 0x80 := by
    rw [UInt8.lt_iff_toNat_lt, hbyte]
    exact hc
  have hlength : tailLength (UInt8.ofNat c.toNat) = some 0 := if_pos hsmall
  simp only [takeChar, hlength, hbyte, Char.ofNat_toNat]

theorem chars_encode {t : Text} (ht : ∀ c ∈ t, c.toNat < 0x80) : chars (encode t) = t.map some := by
  induction t with
  | nil => simp [encode, chars]
  | cons c rest ih =>
    have hc : c.toNat < 0x80 := ht c (by simp)
    have hrest := ih fun later hlater => ht later (by simp [hlater])
    have hencode : encode (c :: rest) = UInt8.ofNat c.toNat :: encode rest := by
      simp [encode, utf8EncodeChar_of_ascii hc]
    rw [hencode, chars, takeChar_of_ascii hc, hrest, List.map_cons]

/-- Text without any character beyond the first 128 is read as it was written. -/
theorem decodeLossy_encode {t : Text} (ht : ∀ c ∈ t, c.toNat < 0x80) : decodeLossy (encode t) = t := by
  rw [decodeLossy, chars_encode ht, List.map_map]
  exact List.map_id t

theorem decode?_encode {t : Text} (ht : ∀ c ∈ t, c.toNat < 0x80) : decode? (encode t) = some t := by
  rw [decode?, chars_encode ht, List.mapM_map]
  exact (List.mapM_pure : t.mapM (pure : Char → Option Char) = _).trans (congrArg some (List.map_id t))

end ConfigWatch.Utf8
