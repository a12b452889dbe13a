import ConfigWatch.Proofs.Url.Encode
import ConfigWatch.Proofs.Url.Reference
/-!
Directories. The path that is read from a text with a slash at its end is the directory of the
path that is read from the text without it. Paths that were read are read back from their written
form, so that a directory is also what a path reads as with a slash after it.
-/
namespace ConfigWatch.Text

theorem pieces_concat_separator (separator : Char) (t : Text) :
    pieces separator (t ++ [separator]) = pieces separator t ++ [[]] := by
  induction t with
  | nil => simp [pieces]
  | cons c rest ih =>
    rw [List.cons_append, pieces, pieces, ih]
    split
    · rfl
    · obtain ⟨piece, more, hpieces⟩ := List.exists_cons_of_ne_nil (pieces_ne_nil separator rest)
      rw [hpieces]
      rfl

/-- Only a text that is empty or ends in the separator has an empty last piece. -/
theorem getLast?_pieces_ne {separator : Char} {t : Text} (hne : t ≠ [])
    (hlast : t.getLast? ≠ some separator) : (pieces separator t).getLast? ≠ some [] := by
  induction t with
  | nil => exact absurd rfl hne
  | cons c rest ih =>
    cases rest with
    | nil =>
      have hc : c ≠ separator := by simpa using hlast
      simp [pieces, hc, consFirst]
    | cons d rest =>
      have hrest := ih (by simp) (by simpa using hlast)
      obtain ⟨piece, more, hpieces⟩ := List.exists_cons_of_ne_nil (pieces_ne_nil separator (d :: rest))
      rw [hpieces] at hrest
      rw [pieces, hpieces]
      split
      · simpa using hrest
      · cases more with
        | nil => simp [consFirst]
        | cons next more => simpa [consFirst] using hrest

end ConfigWatch.Text

namespace ConfigWatch.Url

namespace Path

theorem cutSegments_ne_nil (special : Bool) (t : Text) : cutSegments special t ≠ [] :=
  Text.pieces_ne_nil _ _

theorem resolve_cons {segment : Text} {rest : List Text} (hne : rest ≠ []) (before : List Text) :
    resolve before (segment :: rest) =
      if isAbove segment then resolve before.dropLast rest
      else if isHere segment then resolve before rest
      else resolve (before ++ [encode .path segment]) rest := by
  rw [resolve]
  exact hne

theorem resolve_nil_segment (before : List Text) : resolve before [[]] = before ++ [[]] := by
  rw [resolve, if_neg (by decide), if_neg (by decide)]
  rfl

/-- The directory of a directory is the directory itself. -/
theorem asDirectory_asDirectory (path : Path) : path.asDirectory.asDirectory = path.asDirectory := by
  cases path with
  | plain t => rfl
  | segments parts =>
    rw [asDirectory]
    split
    · rename_i hlast
      rw [asDirectory, if_pos hlast]
    · rw [asDirectory, List.getLast?_concat, if_pos rfl]

/-- An empty segment after the others makes the resolved path a directory. -/
theorem asDirectory_resolve {parts : List Text} (hne : parts ≠ []) (hlast : parts.getLast? ≠ some [])
    (before : List Text) :
    asDirectory (.segments (resolve before parts)) = .segments (resolve before (parts ++ [[]])) := by
  induction parts generalizing before with
  | nil => exact absurd rfl hne
  | cons segment rest ih =>
    have happended : rest ++ [[]] ≠ [] := by simp
    rw [List.cons_append, resolve_cons happended]
    by_cases hrest : rest = []
    · subst rest
      have hsegment : segment ≠ [] := by simpa using hlast
      simp only [List.nil_append, resolve_nil_segment]
      rw [resolve]
      split
      · rw [asDirectory, List.getLast?_concat, if_pos rfl]
      · split
        · rw [asDirectory, List.getLast?_concat, if_pos rfl]
        · have hfilled : some (encode .path segment) ≠ some [] := by simpa using encode_ne_nil .path hsegment
          rw [asDirectory, List.getLast?_concat, if_neg hfilled]
    · have hnext : rest.getLast? ≠ some [] := by rwa [List.getLast?_cons_of_ne_nil hrest] at hlast
      rw [resolve_cons hrest]
      split
      · exact ih hrest hnext _
      · split
        · exact ih hrest hnext _
        · exact ih hrest hnext _

/-- A slash at the end of a path is one more segment, which is empty. -/
theorem cutSegments_concat_slash (special : Bool) (t : Text) :
    cutSegments special (t ++ ['/']) = cutSegments special t ++ [[]] := by
  cases special with
  | false => exact Text.pieces_concat_separator '/' t
  | true =>
    rw [cutSegments, cutSegments, ← Text.pieces_concat_separator]
    simp

theorem getLast?_cutSegments_ne {t : Text} (hne : t ≠ []) (hlast : ∀ c ∈ t.getLast?, isSlash true c = false) :
    (cutSegments true t).getLast? ≠ some [] := by
  apply Text.getLast?_pieces_ne
  · simpa using hne
  · simp only [if_true, List.getLast?_map, ne_eq, Option.map_eq_some_iff, not_exists, not_and]
    intro c hc hslash
    have hnot := hlast c hc
    split at hslash
    · rename_i hbackslash
      simp [isSlash, hbackslash] at hnot
    · simp [isSlash, hslash] at hnot

/-- A slash after a path that does not end in one makes its directory. -/
theorem asDirectory_rootPath {c : Char} {t : Text} (hne : t ≠ []) (hlast : ∀ c ∈ t.getLast?, isSlash true c = false) :
    (rootPath true (c :: t)).asDirectory = rootPath true (c :: t ++ ['/']) := by
  rw [rootPath, List.cons_append, rootPath, cutSegments_concat_slash,
    asDirectory_resolve (cutSegments_ne_nil true t) (getLast?_cutSegments_ne hne hlast)]

/-- Whether a segment can stand in a path that was read. -/
structure IsSettled (segment : Text) : Prop where
  kept : ∀ c ∈ segment, Component.path.keeps c = true
  inner : ∀ c ∈ segment, isSlash true c = false
  notAbove : isAbove segment = false
  notHere : isHere segment = false

theorem isSettled_nil : IsSettled [] := ⟨by simp, by simp, rfl, rfl⟩

theorem encode_of_isAbove {segment : Text} (habove : isAbove (encode .path segment) = true) :
    encode .path segment = segment := by
  apply encode_eq_self_of_escapesPoints
  simp only [isAbove, Bool.or_eq_true, beq_iff_eq] at habove
  obtain ((heq | heq) | heq) | heq := habove <;> rw [heq, EscapesPoints] <;> decide

theorem encode_of_isHere {segment : Text} (hhere : isHere (encode .path segment) = true) :
    encode .path segment = segment := by
  apply encode_eq_self_of_escapesPoints
  simp only [isHere, Bool.or_eq_true, beq_iff_eq] at hhere
  obtain heq | heq := hhere <;> rw [heq, EscapesPoints] <;> decide

/-- Encoding makes no segment one that stands for a directory. -/
theorem isSettled_encode {segment : Text} (hinner : ∀ c ∈ segment, isSlash true c = false)
    (habove : isAbove segment = false) (hhere : isHere segment = false) : IsSettled (encode .path segment) where
  kept := keeps_of_mem_encode
  inner := by
    intro c hc
    by_contra hslash
    have hescape : c ≠ '%' ∧ ∀ d < 16, c ≠ Numeral.upperHexDigit d := by
      simp only [isSlash, Bool.true_and, Bool.not_eq_false, Bool.or_eq_true, decide_eq_true_eq] at hslash
      obtain rfl | rfl := hslash <;> decide
    exact hslash (hinner c (mem_of_mem_encode hescape.1 hescape.2 hc))
  notAbove := by
    by_contra hencoded
    rw [Bool.not_eq_false] at hencoded
    rw [encode_of_isAbove hencoded, habove] at hencoded
    cases hencoded
  notHere := by
    by_contra hencoded
    rw [Bool.not_eq_false] at hencoded
    rw [encode_of_isHere hencoded, hhere] at hencoded
    cases hencoded

theorem isSettled_of_mem_concat {before : List Text} {last : Text} (hbefore : ∀ segment ∈ before, IsSettled segment)
    (hlast : IsSettled last) : ∀ segment ∈ before ++ [last], IsSettled segment := by
  intro segment hmem
  obtain hmem | hmem := List.mem_append.1 hmem
  · exact hbefore segment hmem
  · rwa [List.mem_singleton.1 hmem]

theorem isSettled_of_mem_resolve {before parts : List Text} (hbefore : ∀ segment ∈ before, IsSettled segment)
    (hparts : ∀ segment ∈ parts, ∀ c ∈ segment, isSlash true c = false) :
    ∀ segment ∈ resolve before parts, IsSettled segment := by
  have hdrop : ∀ {before : List Text}, (∀ segment ∈ before, IsSettled segment) →
      ∀ segment ∈ before.dropLast, IsSettled segment := fun hall segment hmem =>
    hall segment (List.mem_of_mem_dropLast hmem)
  fun_induction resolve before parts with
  | case1 before => exact hbefore
  | case2 before last habove => exact isSettled_of_mem_concat (hdrop hbefore) isSettled_nil
  | case3 before last habove hhere => exact isSettled_of_mem_concat hbefore isSettled_nil
  | case4 before last habove hhere =>
    have hencode := isSettled_encode (hparts last (by simp)) (by simpa using habove) (by simpa using hhere)
    exact isSettled_of_mem_concat hbefore hencode
  | case5 before segment rest hne habove ih =>
    exact ih (hdrop hbefore) fun later hlater => hparts later (by simp [hlater])
  | case6 before segment rest hne habove hhere ih =>
    exact ih hbefore fun later hlater => hparts later (by simp [hlater])
  | case7 before segment rest hne habove hhere ih =>
    have hencode := isSettled_encode (hparts segment (by simp)) (by simpa using habove) (by simpa using hhere)
    exact ih (isSettled_of_mem_concat hbefore hencode) fun later hlater => hparts later (by simp [hlater])

/-- In settled segments there is nothing left to resolve. -/
theorem resolve_eq_append {before parts : List Text} (hparts : ∀ segment ∈ parts, IsSettled segment) :
    resolve before parts = before ++ parts := by
  fun_induction resolve before parts with
  | case1 before => rw [List.append_nil]
  | case2 before last habove => exact absurd habove (by simp [(hparts last (by simp)).notAbove])
  | case3 before last habove hhere => exact absurd hhere (by simp [(hparts last (by simp)).notHere])
  | case4 before last habove hhere => rw [encode_eq_self (hparts last (by simp)).kept]
  | case5 before segment rest hne habove => exact absurd habove (by simp [(hparts segment (by simp)).notAbove])
  | case6 before segment rest hne habove hhere => exact absurd hhere (by simp [(hparts segment (by simp)).notHere])
  | case7 before segment rest hne habove hhere ih =>
    rw [ih fun later hlater => hparts later (by simp [hlater]), encode_eq_self (hparts segment (by simp)).kept,
      List.append_assoc, List.singleton_append]

theorem toText_segments {parts : List Text} (hne : parts ≠ []) :
    (segments parts).toText = '/' :: ['/'].intercalate parts := by
  induction parts with
  | nil => exact absurd rfl hne
  | cons segment rest ih =>
    by_cases hlast : rest = []
    · subst rest
      simp [toText]
    · have hrest := ih hlast
      rw [toText] at hrest ⊢
      rw [List.flatMap_cons, hrest, List.intercalate_cons_of_ne_nil hlast]
      simp

/-- Settled segments are read back from their written form. -/
theorem rootPath_toText {parts : List Text} (hne : parts ≠ []) (hparts : ∀ segment ∈ parts, IsSettled segment) :
    rootPath true (segments parts).toText = segments parts := by
  have hbackslash : ∀ c ∈ ['/'].intercalate parts, c ≠ '\\' := by
    rintro c hc rfl
    have hmem : '\\' ∈ (segments parts).toText := by
      rw [toText_segments hne]
      exact List.mem_cons_of_mem _ hc
    obtain ⟨segment, hsegment, hmem⟩ := List.mem_flatMap.1 hmem
    obtain hmem | hmem := List.mem_cons.1 hmem
    · exact absurd hmem (by decide)
    · exact absurd ((hparts segment hsegment).inner _ hmem) (by decide)
  have hmap : (['/'].intercalate parts).map (fun c => if c = '\\' then '/' else c) = ['/'].intercalate parts :=
    (List.map_congr_left fun c hc => if_neg (hbackslash c hc)).trans (List.map_id _)
  have hslash : ∀ segment ∈ parts, '/' ∉ segment := fun segment hsegment hmem =>
    absurd ((hparts segment hsegment).inner _ hmem) (by decide)
  have hcut : cutSegments true (['/'].intercalate parts) = parts := by
    rw [cutSegments, if_pos rfl, hmap, Text.pieces_eq_splitOn, List.splitOn_intercalate _ hslash hne]
  rw [toText_segments hne, rootPath, hcut, resolve_eq_append hparts, List.nil_append]

theorem resolve_ne_nil {before parts : List Text} (hne : before ≠ [] ∨ parts ≠ []) : resolve before parts ≠ [] := by
  fun_induction resolve before parts with
  | case1 before => simpa using hne
  | case2 | case3 | case4 => simp
  | case5 before segment rest hrest habove ih => exact ih (.inr hrest)
  | case6 before segment rest hrest habove hhere ih => exact ih (.inr hrest)
  | case7 before segment rest hrest habove hhere ih => exact ih (.inr hrest)

theorem isSlash_of_mem_cutSegments (t : Text) :
    ∀ segment ∈ cutSegments true t, ∀ c ∈ segment, isSlash true c = false := by
  rw [cutSegments, if_pos rfl]
  induction t with
  | nil => simp [Text.pieces]
  | cons c rest ih =>
    rw [List.map_cons, Text.pieces]
    cases hinner : isSlash true c with
    | true =>
      have hslash : (if c = '\\' then '/' else c) = '/' := by
        simp only [isSlash, Bool.true_and, Bool.or_eq_true, decide_eq_true_eq] at hinner
        obtain rfl | rfl := hinner <;> rfl
      rw [if_pos hslash]
      simpa using ih
    | false =>
      have hother : c ≠ '/' ∧ c ≠ '\\' := by simpa [isSlash] using hinner
      obtain ⟨piece, more, hpieces⟩ := List.exists_cons_of_ne_nil (Text.pieces_ne_nil '/' (rest.map _))
      rw [if_neg hother.2, if_neg hother.1, hpieces]
      rw [hpieces] at ih
      simp only [Text.consFirst, List.mem_cons, forall_eq_or_imp] at ih ⊢
      exact ⟨⟨hinner, ih.1⟩, ih.2⟩

/-- A path that was read has settled segments only. -/
theorem exists_rootPath_eq (t : Text) :
    ∃ parts, rootPath true t = segments parts ∧ parts ≠ [] ∧ ∀ segment ∈ parts, IsSettled segment := by
  cases t with
  | nil => exact ⟨[[]], rfl, by simp, by simp [isSettled_nil]⟩
  | cons c rest =>
    refine ⟨resolve [] (cutSegments true rest), rfl, resolve_ne_nil (.inr (cutSegments_ne_nil true rest)), ?_⟩
    exact isSettled_of_mem_resolve (by simp) (isSlash_of_mem_cutSegments rest)

/-- The written form of settled segments ends in a slash exactly if the last one is empty. -/
theorem getLast?_toText_eq_iff {parts : List Text} (hne : parts ≠ []) (hparts : ∀ segment ∈ parts, IsSettled segment) :
    (segments parts).toText.getLast? = some '/' ↔ parts.getLast? = some [] := by
  obtain ⟨init, last, rfl⟩ := List.eq_nil_or_concat' parts |>.resolve_left hne
  have hwritten : (segments (init ++ [last])).toText = init.flatMap (fun part => '/' :: part) ++ '/' :: last := by
    simp [toText]
  rw [hwritten, List.getLast?_concat, List.getLast?_append_of_ne_nil _ (by simp)]
  obtain rfl | ⟨front, c, rfl⟩ := List.eq_nil_or_concat' last
  · simp
  · have hslash : c ≠ '/' := by
      rintro rfl
      have hlast : IsSettled (front ++ ['/']) := hparts _ (by simp)
      exact absurd (hlast.inner '/' (by simp)) (by decide)
    rw [← List.cons_append, List.getLast?_concat]
    simp [hslash]

/-- The directory of a path that was read is what its written form with a slash at its end, unless
    it has one, is read as. -/
theorem asDirectory_eq_rootPath (t : Text) :
    (rootPath true t).asDirectory =
      if (rootPath true t).toText.getLast? = some '/' then rootPath true t
      else rootPath true ((rootPath true t).toText ++ ['/']) := by
  obtain ⟨parts, hpath, hne, hparts⟩ := exists_rootPath_eq t
  have hslash : (segments parts).toText ++ ['/'] = (segments (parts ++ [[]])).toText := by
    simp [toText]
  rw [hpath, asDirectory, hslash, rootPath_toText (by simp) (isSettled_of_mem_concat hparts isSettled_nil)]
  simp only [getLast?_toText_eq_iff hne hparts]

end Path

/-- A slash at the end of an address, where there is none, changes nothing about its directory. -/
theorem ofAuthority_concat_slash [Idna] {scheme front : Text} (hspecial : isSpecial scheme = true)
    (hlast : ∀ c ∈ front.getLast?, isSlash true c = false) :
    (ofAuthority scheme (front ++ ['/'])).map asDirectory = (ofAuthority scheme front).map asDirectory := by
  obtain ⟨server, path, rfl, hserver, hpath⟩ := exists_server_append front
  have happended : ∀ c ∈ (path ++ ['/']).head?, isSlash true c = true := by
    cases path with
    | nil => simp [isSlash]
    | cons c rest => simpa using hpath
  have hdirectory : (rootPath true (path ++ ['/'])).asDirectory = (rootPath true path).asDirectory := by
    cases path with
    | nil => decide
    | cons c rest =>
      have hc : isSlash true c = true := hpath c (by simp)
      have hne : rest ≠ [] := by
        rintro rfl
        rw [hlast c (by simp)] at hc
        cases hc
      have hend : (server ++ c :: rest).getLast? = rest.getLast? := by
        rw [List.getLast?_append_of_ne_nil _ (by simp), List.getLast?_cons_of_ne_nil hne]
      rw [hend] at hlast
      rw [← Path.asDirectory_rootPath hne hlast, Path.asDirectory_asDirectory]
  rw [List.append_assoc, ofAuthority_append hspecial hserver happended, ofAuthority_append hspecial hserver hpath]
  cases readAuthority scheme server with
  | error cause => rfl
  | ok u => simp only [Except.map, asDirectory, hdirectory]

end ConfigWatch.Url
