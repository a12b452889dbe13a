import ConfigWatch.Proofs.Manager.Lookup
import ConfigWatch.Proofs.Url.Host
/-!
The scheme of an endpoint. It counts only in small letters: in any other spelling it is taken for
the host of an endpoint that has no scheme.
-/
namespace ConfigWatch.Manager

open Url (IsWeb)

/-- The address that has the word for a scheme as its host, and two slashes after it. -/
def wordAddress (scheme rest : Text) : Url :=
  let r := Url.Reference.ofText (Url.cleanEnd ('/' :: Text.trimEnd rest))
  Url.withTail
    ⟨"http".toList, [], [], some (.domain scheme), none, Url.rootPath true ('/' :: r.front), none, none⟩ r

section Spelled

variable {spelled scheme : Text} (hweb : IsWeb scheme) (hspelled : spelled.lower = scheme)

include hweb hspelled

theorem isBlankChar_of_mem_spelled : ∀ c ∈ spelled, isBlankChar c = false := by
  intro c hc
  have hbounds := Url.bounds_of_isAlpha (Url.isAlpha_of_mem_word hweb hspelled c hc)
  apply Text.isBlankChar_of_printable
  omega

theorem trim_spelled (rest : Text) :
    (spelled ++ "://".toList ++ rest).trim = spelled ++ "://".toList ++ Text.trimEnd rest := by
  have hmarks : ∀ c ∈ "://".toList, isBlankChar c = false := by
    rw [← List.forall_iff_forall_mem]
    decide
  apply Text.trim_append (by simp)
  intro c hc
  obtain hc | hc := List.mem_append.1 hc
  · exact isBlankChar_of_mem_spelled hweb hspelled c hc
  · exact hmarks c hc

/-- A scheme is recognised in small letters only. -/
theorem hasScheme_trim_spelled_iff (rest : Text) :
    HasScheme (spelled ++ "://".toList ++ rest).trim ↔ spelled = scheme := by
  rw [trim_spelled hweb hspelled]
  constructor
  · rintro ⟨own, more, hown, heq⟩
    have hcut : ∀ {word : Text} (tail : Text), (∀ c ∈ word, c.isAlpha = true) →
        Text.cutFirst? ':' (word ++ "://".toList ++ tail) = some (word, "//".toList ++ tail) := by
      intro word tail hword
      apply Text.cutFirst?_eq_some_iff.2
      exact ⟨List.append_assoc _ _ _, fun hmem => absurd (hword _ hmem) (by decide)⟩
    have hsame := hcut (Text.trimEnd rest) (Url.isAlpha_of_mem_word hweb hspelled)
    rw [heq, hcut more hown.isAlpha] at hsame
    cases hsame
    rw [← hspelled, hown.lower_eq]
  · rintro rfl
    exact ⟨spelled, Text.trimEnd rest, hweb, rfl⟩

/-- A scheme in other letters is taken for a host. -/
theorem ofText_endpointText_spelled [Url.Idna] (hne : spelled ≠ scheme) (rest : Text) :
    Url.ofText (endpointText (spelled ++ "://".toList ++ rest)) = .ok (wordAddress scheme rest) := by
  have hscheme := mt (hasScheme_trim_spelled_iff hweb hspelled rest).1 hne
  have hword := Url.ofText_word hweb hspelled (.inr rfl) (.inl rfl : IsWeb "http".toList) ('/' :: Text.trimEnd rest)
  rw [endpointText_of_not_hasScheme hscheme, trim_spelled hweb hspelled, wordAddress, ← hword]
  simp

omit hspelled in
theorem ofText_endpointText_word [Url.Idna] (rest : Text) :
    Url.ofText (endpointText ("http://".toList ++ scheme ++ "//".toList ++ rest)) = .ok (wordAddress scheme rest) := by
  have hmarks : ∀ c ∈ "http://".toList ++ "//".toList, isBlankChar c = false := by
    rw [← List.forall_iff_forall_mem]
    decide
  have htrim : Text.trim ("http://".toList ++ scheme ++ "//".toList ++ rest) =
      "http://".toList ++ scheme ++ "//".toList ++ Text.trimEnd rest := by
    apply Text.trim_append (by simp)
    intro c hc
    obtain hc | hc := List.mem_append.1 hc
    · obtain hc | hc := List.mem_append.1 hc
      · exact hmarks c (List.mem_append_left _ hc)
      · exact isBlankChar_of_mem_spelled hweb hweb.lower_eq c hc
    · exact hmarks c (List.mem_append_right _ hc)
  have hscheme : HasScheme (Text.trim ("http://".toList ++ scheme ++ "//".toList ++ rest)) := by
    rw [htrim]
    exact ⟨"http".toList, scheme ++ "//".toList ++ Text.trimEnd rest, .inl rfl, by simp⟩
  have hword := Url.ofText_word hweb hweb.lower_eq (.inl rfl) (.inl rfl : IsWeb "http".toList) ('/' :: Text.trimEnd rest)
  rw [endpointText_of_hasScheme hscheme, htrim, wordAddress, ← hword]
  simp

/-- A scheme counts as one exactly if it is written in small letters. In other letters it is taken
    for the host of an endpoint without a scheme, so that a lookup leads to where the small letters
    would only if that host is the manager. -/
theorem scheme_recognised_iff_small [Url.Idna] (rest path : Text) :
    (endpointText (spelled ++ "://".toList ++ rest) = (spelled ++ "://".toList ++ rest).trim ↔ spelled = scheme) ∧
    ((lookupUrl (spelled ++ "://".toList ++ rest) path).toOption =
        (lookupUrl (scheme ++ "://".toList ++ rest) path).toOption ↔
      spelled = scheme ∨
        (lookupUrl ("http://".toList ++ scheme ++ "//".toList ++ rest) path).toOption =
          (lookupUrl (scheme ++ "://".toList ++ rest) path).toOption) ∧
    (spelled ≠ scheme → Url.namesServer "http".toList path.dropSlashes = false →
      ∃ u, lookupUrl (spelled ++ "://".toList ++ rest) path = .ok u ∧
        u.origin = ("http".toList, some (.domain scheme), none)) := by
  have hword : spelled ≠ scheme → (lookupUrl (spelled ++ "://".toList ++ rest) path).toOption =
      (lookupUrl ("http://".toList ++ scheme ++ "//".toList ++ rest) path).toOption := fun hne =>
    toOption_lookupUrl_congr ((ofText_endpointText_spelled hweb hspelled hne rest).trans
      (ofText_endpointText_word hweb rest).symm) path
  refine ⟨⟨fun hendpoint => ?_, fun heq => ?_⟩, ⟨fun hsame => ?_, ?_⟩, fun hne hnames => ?_⟩
  · by_contra hne
    have hscheme := mt (hasScheme_trim_spelled_iff hweb hspelled rest).1 hne
    rw [endpointText_of_not_hasScheme hscheme] at hendpoint
    exact absurd (List.append_left_eq_self.1 hendpoint) (by decide)
  · exact endpointText_of_hasScheme ((hasScheme_trim_spelled_iff hweb hspelled rest).2 heq)
  · by_cases heq : spelled = scheme
    · exact .inl heq
    · exact .inr ((hword heq).symm.trans hsame)
  · rintro (rfl | hsame)
    · rfl
    · by_cases heq : spelled = scheme
      · rw [heq]
      · exact (hword heq).trans hsame
  · have hbase : directory (spelled ++ "://".toList ++ rest) = .ok (wordAddress scheme rest).asDirectory := by
      rw [directory, ofText_endpointText_spelled hweb hspelled hne]
      rfl
    obtain ⟨hown, parts, hpath⟩ := isWeb_of_directory hbase
    obtain ⟨inner, query, fragment, hjoin⟩ := Url.join_of_namesServer_eq_false hown hpath hnames
    refine ⟨{ (wordAddress scheme rest).asDirectory with path := inner, query, fragment }, ?_, rfl⟩
    rw [lookupUrl_eq, hbase]
    exact congrArg (Except.mapError _) hjoin

end Spelled

/-- A scheme in mixed letters is the host of the lookup, and the manager is part of the path. -/
theorem mixed_scheme_read_as_host :
    let mixed := "HttpS".toList ++ "://".toList ++ "manager:8443/base".toList
    let small := "https".toList ++ "://".toList ++ "manager:8443/base".toList
    IsWeb "https".toList ∧ Text.lower "HttpS".toList = "https".toList ∧ endpointText mixed ≠ Text.trim mixed ∧
      (lookupUrl mixed standardPath).toOption ≠ (lookupUrl small standardPath).toOption ∧
      ∃ u, lookupUrl mixed standardPath = .ok u ∧ u.origin = ("http".toList, some (.domain "https".toList), none) := by
  intro mixed small
  have hweb : IsWeb "https".toList := .inr rfl
  have hspelled : Text.lower "HttpS".toList = "https".toList := by decide
  obtain ⟨hendpoint, hsame, horigin⟩ :=
    scheme_recognised_iff_small hweb hspelled "manager:8443/base".toList standardPath
  have hne : "HttpS".toList ≠ "https".toList := by decide
  refine ⟨hweb, hspelled, mt hendpoint.1 hne, mt hsame.1 ?_, horigin hne (by decide)⟩
  rw [not_or]
  exact ⟨hne, by decide +kernel⟩

/-- The same endpoint leads to two places, one for each spelling of its scheme. -/
theorem capital_scheme_not_recognised :
    (lookupUrl "HTTP://manager".toList standardPath).map Url.toText =
        .ok "http://http//manager/v1/watchers".toList ∧
      (lookupUrl "http://manager".toList standardPath).map Url.toText = .ok "http://manager/v1/watchers".toList ∧
      (lookupUrl "HTTP://manager".toList standardPath).toOption ≠
        (lookupUrl "http://manager".toList standardPath).toOption := by
  decide +kernel

end ConfigWatch.Manager
