import ConfigWatch.Manager.Lookup
import ConfigWatch.Proofs.Url.Path
import ConfigWatch.Proofs.Url.Reference
/-!
Where lookups lead. The path of a lookup is read relative to the directory of the endpoint. It
leads to the manager unless it names a server itself, and slashes between the two do not matter.
-/
namespace ConfigWatch

namespace Url

/-- What says which server a URL leads to: scheme, host and port. -/
def origin (u : Url) : Text × Option Host × Option Nat := (u.scheme, u.host, u.port)

end Url

namespace Manager

open Url (IsWeb)

/-- Whether a text begins with the scheme of a web address, in small letters. -/
def HasScheme (t : Text) : Prop := ∃ scheme rest, IsWeb scheme ∧ t = scheme ++ "://".toList ++ rest

theorem endpointText_of_hasScheme {endpoint : Text} (hscheme : HasScheme endpoint.trim) :
    endpointText endpoint = endpoint.trim := by
  obtain ⟨scheme, rest, hweb, htrim⟩ := hscheme
  have hbegins : ((Text.after? "http://".toList endpoint.trim).isSome ||
      (Text.after? "https://".toList endpoint.trim).isSome) = true := by
    rw [Bool.or_eq_true, Text.isSome_after?_iff, Text.isSome_after?_iff]
    obtain rfl | rfl := hweb
    · exact .inl ⟨rest, htrim.symm⟩
    · exact .inr ⟨rest, htrim.symm⟩
  exact if_pos hbegins

theorem endpointText_of_not_hasScheme {endpoint : Text} (hscheme : ¬ HasScheme endpoint.trim) :
    endpointText endpoint = "http://".toList ++ endpoint.trim := by
  apply if_neg
  rw [Bool.or_eq_true, Text.isSome_after?_iff, Text.isSome_after?_iff]
  rintro (⟨rest, hrest⟩ | ⟨rest, hrest⟩)
  · exact hscheme ⟨_, rest, .inl rfl, hrest.symm⟩
  · exact hscheme ⟨_, rest, .inr rfl, hrest.symm⟩

/-- An endpoint is always read as a web address. -/
theorem exists_endpointText_eq (endpoint : Text) :
    ∃ scheme rest, IsWeb scheme ∧ endpointText endpoint = scheme ++ "://".toList ++ rest := by
  by_cases hscheme : HasScheme endpoint.trim
  · rw [endpointText_of_hasScheme hscheme]
    exact hscheme
  · exact ⟨_, endpoint.trim, .inl rfl, endpointText_of_not_hasScheme hscheme⟩

/-- The address relative to which the path of a lookup is read. -/
def directory [Url.Idna] (endpoint : Text) : Except Url.Error Url :=
  (Url.ofText (endpointText endpoint)).map Url.asDirectory

theorem lookupUrl_eq [Url.Idna] (endpoint path : Text) :
    lookupUrl endpoint path =
      (directory endpoint >>= (·.join path.dropSlashes)).mapError (.invalidEndpoint endpoint) := by
  rw [lookupUrl, directory]
  cases Url.ofText (endpointText endpoint) with
  | error cause => rfl
  | ok base => rfl

theorem directory_eq_ok_of_lookupUrl [Url.Idna] {endpoint path : Text} {u : Url}
    (hlookup : lookupUrl endpoint path = .ok u) :
    ∃ base, directory endpoint = .ok base ∧ base.join path.dropSlashes = .ok u := by
  rw [lookupUrl_eq] at hlookup
  cases hjoin : directory endpoint >>= (·.join path.dropSlashes) with
  | error cause =>
    rw [hjoin] at hlookup
    cases hlookup
  | ok v =>
    rw [hjoin] at hlookup
    cases hlookup
    exact Url.exists_of_bind_eq_ok hjoin

theorem toOption_lookupUrl_congr [Url.Idna] {one other : Text}
    (hread : Url.ofText (endpointText one) = Url.ofText (endpointText other)) (path : Text) :
    (lookupUrl one path).toOption = (lookupUrl other path).toOption := by
  rw [lookupUrl_eq, lookupUrl_eq, directory, directory, hread]
  cases (Url.ofText (endpointText other)).map Url.asDirectory >>= (·.join path.dropSlashes) with
  | error cause => rfl
  | ok u => rfl

/-- A manager is a web address. -/
theorem isWeb_of_ofText [Url.Idna] {endpoint : Text} {manager : Url}
    (hmanager : Url.ofText (endpointText endpoint) = .ok manager) :
    IsWeb manager.scheme ∧ ∃ written, manager.path = Url.rootPath true written := by
  obtain ⟨scheme, rest, hweb, hendpoint⟩ := exists_endpointText_eq endpoint
  have hread : Url.ofText (scheme ++ ':' :: ("//".toList ++ rest)) = .ok manager := by
    rw [← hmanager, hendpoint, List.append_assoc]
    rfl
  rw [Url.scheme_of_ofText hweb hread]
  exact ⟨hweb, Url.path_of_ofText hweb hread⟩

/-- What a path is relative to is the manager, with its path read once more from its written form
    and a slash unless it ends in one. -/
theorem directory_eq_map [Url.Idna] (endpoint : Text) :
    directory endpoint = (Url.ofText (endpointText endpoint)).map fun manager =>
      if manager.path.toText.getLast? = some '/' then manager
      else { manager with path := Url.rootPath true (manager.path.toText ++ ['/']) } := by
  rw [directory]
  cases hmanager : Url.ofText (endpointText endpoint) with
  | error cause => rfl
  | ok manager =>
    obtain ⟨-, written, hpath⟩ := isWeb_of_ofText hmanager
    rw [Except.map, Except.map, Url.asDirectory, hpath, Url.Path.asDirectory_eq_rootPath]
    split
    · rw [← hpath]
    · rfl

/-- What a path is relative to is a web address with a path of segments. -/
theorem isWeb_of_directory [Url.Idna] {endpoint : Text} {base : Url} (hbase : directory endpoint = .ok base) :
    IsWeb base.scheme ∧ ∃ parts, base.path = .segments parts := by
  obtain ⟨manager, hmanager, rfl⟩ := Url.exists_of_map_eq_ok hbase
  obtain ⟨hweb, written, hpath⟩ := isWeb_of_ofText hmanager
  obtain ⟨parts, hparts, -⟩ := Url.Path.exists_rootPath_eq written
  refine ⟨hweb, ?_⟩
  rw [Url.asDirectory, hpath, hparts, Url.Path.asDirectory]
  split
  · exact ⟨_, rfl⟩
  · exact ⟨_, rfl⟩

/-- A lookup leads to the manager exactly if its path names no server, or names the manager
    itself. A path that names a server is read on its own. The manager is the server that the text
    of the endpoint reads as: as a scheme counts in small letters only, `HTTP://manager` is the host
    `http`. -/
theorem leads_to_manager_iff [Url.Idna] {endpoint path : Text} {u : Url}
    (hlookup : lookupUrl endpoint path = .ok u) :
    ∃ manager, Url.ofText (endpointText endpoint) = .ok manager ∧
      (Url.namesServer manager.scheme path.dropSlashes = true →
        Url.ofText (Url.standalone manager.scheme path.dropSlashes) = .ok u) ∧
      (u.origin = manager.origin ↔
        Url.namesServer manager.scheme path.dropSlashes = false ∨
          (Url.ofText (Url.standalone manager.scheme path.dropSlashes)).map Url.origin = .ok manager.origin) := by
  obtain ⟨base, hbase, hjoin⟩ := directory_eq_ok_of_lookupUrl hlookup
  obtain ⟨hweb, parts, hpath⟩ := isWeb_of_directory hbase
  obtain ⟨manager, hmanager, rfl⟩ := Url.exists_of_map_eq_ok hbase
  refine ⟨manager, hmanager, ?_⟩
  cases hnames : Url.namesServer manager.scheme path.dropSlashes with
  | true =>
    have halone : Url.ofText (Url.standalone manager.scheme path.dropSlashes) = .ok u :=
      (Url.join_of_namesServer hweb hpath hnames).symm.trans hjoin
    refine ⟨fun _ => halone, ?_⟩
    rw [halone]
    simp [Except.map]
  | false =>
    obtain ⟨_, _, _, hkept⟩ := Url.join_of_namesServer_eq_false hweb hpath hnames
    rw [hkept] at hjoin
    cases hjoin
    simp [Url.origin, Url.asDirectory]

/-- A path with two backslashes in front names a server, but it may be the manager, written with
    other letters and with the port that it has anyway. -/
theorem manager_named_by_path :
    let u : Url := ⟨"http".toList, [], [], some (.domain "manager".toList), none, .segments [[]], none, none⟩
    lookupUrl "http://u@manager/base".toList "\\\\MANAGER:80".toList = .ok u ∧
      ∃ manager, Url.ofText (endpointText "http://u@manager/base".toList) = .ok manager ∧
        u.origin = manager.origin := by
  intro u
  have hlookup : lookupUrl "http://u@manager/base".toList "\\\\MANAGER:80".toList = .ok u := by decide +kernel
  have hread : Url.ofText (endpointText "http://u@manager/base".toList) = .ok
      ⟨"http".toList, "u".toList, [], some (.domain "manager".toList), none, .segments ["base".toList], none, none⟩ := by
    decide +kernel
  obtain ⟨manager, hmanager, -, hiff⟩ := leads_to_manager_iff hlookup
  cases hmanager.symm.trans hread
  refine ⟨hlookup, _, hread, hiff.2 (.inr ?_)⟩
  decide +kernel

/-- A path with a scheme of its own, or with two backslashes in front, leads to another server. -/
theorem path_leaves_manager :
    ∃ manager own named,
      Url.ofText (endpointText "http://manager:8080".toList) = .ok manager ∧
      lookupUrl "http://manager:8080".toList "https://other/v1/watchers".toList = .ok own ∧
      own.origin ≠ manager.origin ∧
      lookupUrl "http://manager:8080".toList "\\\\other/v1/watchers".toList = .ok named ∧
      named.origin ≠ manager.origin := by
  refine ⟨⟨"http".toList, [], [], some (.domain "manager".toList), some 8080, .segments [[]], none, none⟩,
    ⟨"https".toList, [], [], some (.domain "other".toList), none, .segments ["v1".toList, "watchers".toList], none, none⟩,
    ⟨"http".toList, [], [], some (.domain "other".toList), none, .segments ["v1".toList, "watchers".toList], none, none⟩,
    ?_, ?_, ?_, ?_, ?_⟩ <;> decide +kernel

/-- Whether a text consists of visible ASCII characters other than backslashes and the marks that a
    query and a fragment begin with. -/
def IsPlain (endpoint : Text) : Prop :=
  ∀ c ∈ endpoint, 0x20 < c.toNat ∧ c.toNat < 0x7F ∧ c ≠ '?' ∧ c ≠ '#' ∧ c ≠ '\\'

theorem IsPlain.trim_eq {endpoint : Text} (hplain : IsPlain endpoint) : endpoint.trim = endpoint := by
  apply Text.trim_eq_self
  intro c hc
  exact Text.isBlankChar_of_printable ⟨(hplain c hc).1, (hplain c hc).2.1⟩

theorem IsPlain.concat_slash {endpoint : Text} (hplain : IsPlain endpoint) : IsPlain (endpoint ++ ['/']) := by
  intro c hc
  obtain hc | hc := List.mem_append.1 hc
  · exact hplain c hc
  · rw [List.mem_singleton.1 hc]
    decide

theorem IsPlain.of_suffix {rest endpoint : Text} (hsuffix : rest <:+ endpoint) (hplain : IsPlain endpoint) :
    IsPlain rest :=
  fun c hc => hplain c (hsuffix.subset hc)

/-- A slash at the end completes no scheme, except after another slash. -/
theorem hasScheme_concat_slash_iff {endpoint : Text} (hlast : endpoint.getLast? ≠ some '/') :
    HasScheme (endpoint ++ ['/']) ↔ HasScheme endpoint := by
  constructor
  · rintro ⟨scheme, rest, hweb, heq⟩
    obtain rfl | ⟨init, last, rfl⟩ := List.eq_nil_or_concat' rest
    · have hend : endpoint = scheme ++ ":/".toList := by
        have hcut : endpoint ++ ['/'] = scheme ++ ":/".toList ++ ['/'] := by simpa using heq
        exact List.append_cancel_right hcut
      rw [hend] at hlast
      simp at hlast
    · rw [← List.append_assoc] at heq
      obtain ⟨hend, -⟩ := List.append_inj' heq rfl
      exact ⟨scheme, init, hweb, hend⟩
  · rintro ⟨scheme, rest, hweb, rfl⟩
    exact ⟨scheme, rest ++ ['/'], hweb, List.append_assoc _ _ _⟩

/-- With a slash at its end an endpoint is read with the same scheme and the same beginning. -/
theorem exists_endpointText_concat_slash {endpoint : Text} (hplain : IsPlain endpoint)
    (hlast : endpoint.getLast? ≠ some '/') :
    ∃ scheme rest, IsWeb scheme ∧ rest <:+ endpoint ∧ endpointText endpoint = scheme ++ "://".toList ++ rest ∧
      endpointText (endpoint ++ ['/']) = scheme ++ "://".toList ++ (rest ++ ['/']) := by
  have htrim := hplain.trim_eq
  have htrimSlash := hplain.concat_slash.trim_eq
  have hiff := hasScheme_concat_slash_iff hlast
  by_cases hscheme : HasScheme endpoint
  · have hboth := endpointText_of_hasScheme (htrim.symm ▸ hscheme)
    have hbothSlash := endpointText_of_hasScheme (htrimSlash.symm ▸ hiff.2 hscheme)
    obtain ⟨scheme, rest, hweb, heq⟩ := hscheme
    refine ⟨scheme, rest, hweb, ⟨_, heq.symm⟩, ?_, ?_⟩
    · rw [hboth, htrim, heq]
    · rw [hbothSlash, htrimSlash, heq, List.append_assoc]
  · have hneither := endpointText_of_not_hasScheme (htrim.symm ▸ hscheme)
    have hneitherSlash := endpointText_of_not_hasScheme (htrimSlash.symm ▸ mt hiff.1 hscheme)
    refine ⟨"http".toList, endpoint, .inl rfl, List.suffix_rfl, ?_, ?_⟩
    · rw [hneither, htrim]
      rfl
    · rw [hneitherSlash, htrimSlash]
      rfl

/-- A plain text is an address without query and fragment, which begins after the slashes. -/
theorem ofText_plain [Url.Idna] {scheme rest : Text} (hweb : IsWeb scheme) (hplain : IsPlain rest) :
    Url.ofText (scheme ++ "://".toList ++ rest) =
      (Url.ofAuthority scheme (rest.dropWhile (Url.isSlash true))).map (Url.withTail · ⟨[], none, none⟩) := by
  have hslashes : IsPlain ('/' :: '/' :: rest) := by
    simp only [IsPlain, List.mem_cons, forall_eq_or_imp]
    exact ⟨by decide, by decide, hplain⟩
  have hclean := Url.cleanEnd_eq_self fun c hc => (hslashes c hc).1
  have hreference := Url.Reference.ofText_eq (fun hc => (hslashes _ hc).2.2.2.1 rfl)
    (fun hc => (hslashes _ hc).2.2.1 rfl)
  have hdrop : ('/' :: '/' :: rest).dropWhile (Url.isSlash true) = rest.dropWhile (Url.isSlash true) := by
    simp [Url.isSlash_slash]
  have hread := Url.ofText_web hweb ('/' :: '/' :: rest)
  rw [hclean, hreference, hdrop] at hread
  rw [List.append_assoc]
  exact hread

/-- A slash at the end of an endpoint, where there is none, does not change its directory. -/
theorem directory_concat_slash [Url.Idna] {endpoint : Text} (hplain : IsPlain endpoint)
    (hlast : endpoint.getLast? ≠ some '/') :
    directory (endpoint ++ ['/']) = directory endpoint := by
  obtain ⟨scheme, rest, hweb, hsuffix, hwritten, hwrittenSlash⟩ := exists_endpointText_concat_slash hplain hlast
  have hrest : IsPlain rest := .of_suffix hsuffix hplain
  have hswap : ∀ x : Except Url.Error Url, (x.map (Url.withTail · ⟨[], none, none⟩)).map Url.asDirectory =
      (x.map Url.asDirectory).map (Url.withTail · ⟨[], none, none⟩) := by
    intro x
    cases x with
    | error cause => rfl
    | ok u => rfl
  have hread : (Url.ofAuthority scheme ((rest ++ ['/']).dropWhile (Url.isSlash true))).map Url.asDirectory =
      (Url.ofAuthority scheme (rest.dropWhile (Url.isSlash true))).map Url.asDirectory := by
    rw [List.dropWhile_append]
    split
    · rename_i hempty
      rw [List.isEmpty_iff.1 hempty, List.dropWhile_cons_of_pos (Url.isSlash_slash true), List.dropWhile_nil]
    · rename_i hfilled
      apply Url.ofAuthority_concat_slash hweb.isSpecial_eq
      intro c hc
      obtain ⟨before, hendpoint⟩ := (List.dropWhile_suffix (Url.isSlash true)).trans hsuffix
      have hend : endpoint.getLast? = some c := by
        rw [← hendpoint, List.getLast?_append, Option.mem_def.1 hc, Option.some_or]
      have hslash : c ≠ '/' := fun heq => hlast (heq ▸ hend)
      have hbackslash := (hplain c (List.mem_of_getLast? hend)).2.2.2.2
      simp [Url.isSlash, hslash, hbackslash]
  rw [directory, directory, hwritten, hwrittenSlash, ofText_plain hweb hrest, ofText_plain hweb hrest.concat_slash,
    hswap, hswap, hread]

/-- Slashes between an endpoint and a path do not matter: with one at the end of the endpoint, or
    any number in front of the path, a lookup leads to the same address or fails for the same
    cause. -/
theorem slashes_between_immaterial [Url.Idna] {endpoint : Text} (hplain : IsPlain endpoint)
    (hlast : endpoint.getLast? ≠ some '/') (path : Text) (k : Nat) :
    ∃ result : Except Url.Error Url,
      lookupUrl endpoint path = result.mapError (.invalidEndpoint endpoint) ∧
      lookupUrl (endpoint ++ ['/']) path = result.mapError (.invalidEndpoint (endpoint ++ ['/'])) ∧
      lookupUrl endpoint (List.replicate k '/' ++ path) = result.mapError (.invalidEndpoint endpoint) := by
  have hslashes : Text.dropSlashes (List.replicate k '/' ++ path) = path.dropSlashes := by
    apply List.dropWhile_append_of_pos
    intro c hc
    rw [List.eq_of_mem_replicate hc]
    rfl
  refine ⟨directory endpoint >>= (·.join path.dropSlashes), lookupUrl_eq endpoint path, ?_, ?_⟩
  · rw [lookupUrl_eq, directory_concat_slash hplain hlast]
  · rw [lookupUrl_eq, hslashes]

/-- The point may be escaped in an endpoint that leads to the directory above. -/
theorem encoded_parent_slash_immaterial :
    let endpoint := "https://u:p@[::1]:8443/a/b/%2E%2e".toList
    IsPlain endpoint ∧ endpoint.getLast? ≠ some '/' ∧
      ∃ result : Except Url.Error Url,
        lookupUrl endpoint "x".toList = result.mapError (.invalidEndpoint endpoint) ∧
        lookupUrl (endpoint ++ ['/']) "x".toList = result.mapError (.invalidEndpoint (endpoint ++ ['/'])) ∧
        lookupUrl endpoint (List.replicate 2 '/' ++ "x".toList) = result.mapError (.invalidEndpoint endpoint) ∧
        result.map Url.toText = .ok "https://u:p@[::1]:8443/a/x".toList := by
  intro endpoint
  have hplain : IsPlain endpoint := by
    rw [IsPlain, ← List.forall_iff_forall_mem]
    decide
  have hlast : endpoint.getLast? ≠ some '/' := by decide
  obtain ⟨result, hwritten, hslash, hslashes⟩ := slashes_between_immaterial hplain hlast "x".toList 2
  refine ⟨hplain, hlast, result, hwritten, hslash, hslashes, ?_⟩
  have hread : (lookupUrl endpoint "x".toList).map Url.toText = .ok "https://u:p@[::1]:8443/a/x".toList := by
    decide +kernel
  rw [hwritten] at hread
  cases result with
  | error cause => cases hread
  | ok u => exact congrArg Except.ok (Except.ok.inj hread)

end Manager

end ConfigWatch
