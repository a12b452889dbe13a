import ConfigWatch.Proofs.Text
import ConfigWatch.Url.Reference
/-!
Reading URLs, alone and relative to a web address. A reference leads away from the server of
the address that it is relative to only if it names a server itself: by a scheme of its own, or
by two slashes.
-/
namespace ConfigWatch.Url

/-- The schemes of web addresses. -/
def IsWeb (scheme : Text) : Prop := scheme = "http".toList ∨ scheme = "https".toList

section IsWeb

variable {scheme : Text} (hweb : IsWeb scheme)

include hweb

theorem IsWeb.isSome_defaultPort? : (defaultPort? scheme).isSome = true := by
  obtain rfl | rfl := hweb <;> decide

theorem IsWeb.isFile_eq : isFile scheme = false := by
  obtain rfl | rfl := hweb <;> decide

theorem IsWeb.isSpecial_eq : isSpecial scheme = true := by
  rw [isSpecial, hweb.isSome_defaultPort?, Bool.true_or]

theorem IsWeb.lower_eq : scheme.lower = scheme := by
  obtain rfl | rfl := hweb <;> decide

theorem IsWeb.ne_nil : scheme ≠ [] := by
  obtain rfl | rfl := hweb <;> decide

theorem IsWeb.isAlpha : ∀ c ∈ scheme, c.isAlpha = true := by
  rw [← List.all_eq_true]
  obtain rfl | rfl := hweb <;> decide

end IsWeb

theorem bounds_of_isAlpha {c : Char} (hc : c.isAlpha = true) : 0x40 < c.toNat ∧ c.toNat < 0x7B := by
  have hends : 'A'.toNat = 0x41 ∧ 'Z'.toNat = 0x5A ∧ 'a'.toNat = 0x61 ∧ 'z'.toNat = 0x7A := by decide
  obtain hupper | hlower := Bool.or_eq_true_iff.1 hc
  · have hbounds : 'A'.toNat ≤ c.toNat ∧ c.toNat ≤ 'Z'.toNat := of_decide_eq_true hupper
    omega
  · obtain ⟨hfirst, hlast⟩ := Bool.and_eq_true_iff.1 hlower
    have hbounds : 'a'.toNat ≤ c.toNat ∧ c.toNat ≤ 'z'.toNat := ⟨of_decide_eq_true hfirst, of_decide_eq_true hlast⟩
    omega

/-- Blanks and control characters, which do not count at the ends of a URL. -/
def isOuter (c : Char) : Bool := c.toNat ≤ 0x20

/-- All but tabs and line breaks, which do not count anywhere in a URL. -/
def isKept (c : Char) : Bool := c ≠ '\t' && c ≠ '\n' && c ≠ '\r'

/-- A text without the characters inside it and at its end that do not count. -/
def cleanEnd (t : Text) : Text := (t.rdropWhile isOuter).filter isKept

theorem clean_eq (t : Text) : clean t = cleanEnd (t.dropWhile isOuter) := rfl

theorem isOuter_eq_false_iff {c : Char} : isOuter c = false ↔ 0x20 < c.toNat := by simp [isOuter]

theorem isKept_of_visible {c : Char} (hc : 0x20 < c.toNat) : isKept c = true := by
  simp only [isKept, Bool.and_eq_true, decide_eq_true_eq]
  refine ⟨⟨?_, ?_⟩, ?_⟩ <;> rintro rfl <;> revert hc <;> decide

/-- Visible characters in front of a text stay. -/
theorem cleanEnd_append {front : Text} (hfront : ∀ c ∈ front, 0x20 < c.toNat) (t : Text) :
    cleanEnd (front ++ t) = front ++ cleanEnd t := by
  have hkept : front.filter isKept = front :=
    List.filter_eq_self.2 fun c hc => isKept_of_visible (hfront c hc)
  have hreverse : front.reverse.dropWhile isOuter = front.reverse := by
    rw [List.dropWhile_eq_self_iff]
    intro hpos
    simpa [isOuter] using hfront _ (List.mem_reverse.1 (List.getElem_mem hpos))
  have hend : (front ++ t).rdropWhile isOuter = front ++ t.rdropWhile isOuter := by
    rw [List.rdropWhile, List.reverse_append, List.dropWhile_append, hreverse, List.rdropWhile]
    split
    · rename_i hempty
      rw [List.isEmpty_iff.1 hempty, List.reverse_reverse, List.reverse_nil, List.append_nil]
    · rw [List.reverse_append, List.reverse_reverse]
  rw [cleanEnd, hend, List.filter_append, hkept, cleanEnd]

theorem cleanEnd_eq_self {t : Text} (ht : ∀ c ∈ t, 0x20 < c.toNat) : cleanEnd t = t := by
  have happend := cleanEnd_append ht []
  rwa [List.append_nil, show cleanEnd [] = [] from rfl, List.append_nil] at happend

theorem clean_append {front : Text} (hne : front ≠ []) (hfront : ∀ c ∈ front, 0x20 < c.toNat) (t : Text) :
    clean (front ++ t) = front ++ cleanEnd t := by
  obtain ⟨c, rest, rfl⟩ := List.exists_cons_of_ne_nil hne
  have hc : isOuter c = false := isOuter_eq_false_iff.2 (hfront c (by simp))
  rw [clean_eq, List.cons_append, List.dropWhile_cons_of_neg (by simp [hc]), ← List.cons_append,
    cleanEnd_append hfront]

/-- Cleaning leaves nothing to clean at the end. -/
theorem cleanEnd_clean (t : Text) : cleanEnd (clean t) = clean t := by
  rw [clean_eq]
  generalize t.dropWhile isOuter = rest
  rw [cleanEnd, cleanEnd]
  obtain hinner | ⟨init, last, hinner⟩ := List.eq_nil_or_concat' (rest.rdropWhile isOuter)
  · rw [hinner]
    rfl
  · have hlast : isOuter last = false := by
      have hnot := List.rdropWhile_last_not isOuter rest (by simp [hinner])
      simpa [hinner] using hnot
    have hkept := isKept_of_visible (isOuter_eq_false_iff.1 hlast)
    have hfilter : (init ++ [last]).filter isKept = init.filter isKept ++ [last] := by
      rw [List.filter_append, List.filter_cons_of_pos hkept, List.filter_nil]
    rw [hinner, hfilter, List.rdropWhile_concat_neg _ _ _ (by simp [hlast]), ← hfilter, List.filter_filter]
    simp only [Bool.and_self]

theorem cutTail_fst (separator : Char) (t : Text) : (cutTail separator t).1 = t.takeWhile (· ≠ separator) := by
  rw [cutTail, Text.cutFirst?_eq]
  by_cases hmem : separator ∈ t
  · rw [if_pos hmem]
  · rw [if_neg hmem, eq_comm, List.takeWhile_eq_self_iff]
    intro c hc
    simpa using ne_of_mem_of_not_mem hc hmem

theorem cutTail_append {separator : Char} {front : Text} (hfront : separator ∉ front) (t : Text) :
    cutTail separator (front ++ t) = (front ++ (cutTail separator t).1, (cutTail separator t).2) := by
  induction front with
  | nil => rfl
  | cons c rest ih =>
    simp only [List.mem_cons, not_or] at hfront
    have hrest := ih hfront.2
    rw [cutTail] at hrest ⊢
    rw [List.cons_append, Text.cutFirst?, if_neg (Ne.symm hfront.1)]
    cases hcut : Text.cutFirst? separator (rest ++ t) with
    | none =>
      rw [hcut] at hrest
      simp only [Option.map_none, Prod.mk.injEq] at hrest ⊢
      exact ⟨by rw [hrest.1, List.cons_append], hrest.2⟩
    | some parts =>
      rw [hcut] at hrest
      simp only [Option.map_some, Prod.mk.injEq] at hrest ⊢
      exact ⟨by rw [hrest.1, List.cons_append], hrest.2⟩

namespace Reference

theorem ofText_append {front : Text} (hfragment : '#' ∉ front) (hquery : '?' ∉ front) (t : Text) :
    ofText (front ++ t) = { ofText t with front := front ++ (ofText t).front } := by
  simp only [ofText, cutTail_append hfragment, cutTail_append hquery]

theorem ofText_eq {t : Text} (hfragment : '#' ∉ t) (hquery : '?' ∉ t) : ofText t = ⟨t, none, none⟩ := by
  have happend := ofText_append hfragment hquery []
  rwa [List.append_nil, show ofText [] = ⟨[], none, none⟩ from rfl, List.append_nil] at happend

/-- Query and fragment begin with no slash. -/
theorem takeWhile_front (special : Bool) (t : Text) :
    (ofText t).front.takeWhile (isSlash special) = t.takeWhile (isSlash special) := by
  have hfront : (ofText t).front = (t.takeWhile (· ≠ '#')).takeWhile (· ≠ '?') := by
    rw [← cutTail_fst, ← cutTail_fst]
    rfl
  rw [hfront, List.takeWhile_takeWhile, List.takeWhile_takeWhile]
  congr 1
  funext c
  by_cases hslash : isSlash special c = true
  · have hneither : c ≠ '?' ∧ c ≠ '#' := by
      rw [isSlash, Bool.or_eq_true, Bool.and_eq_true, decide_eq_true_eq, decide_eq_true_eq] at hslash
      obtain rfl | ⟨-, rfl⟩ := hslash <;> decide
    simp [hslash, hneither]
  · simp [hslash]

end Reference

theorem cutScheme?_append {scheme : Text} (hne : scheme ≠ []) (hletters : ∀ c ∈ scheme, c.isAlpha = true)
    (rest : Text) : cutScheme? (scheme ++ ':' :: rest) = some (scheme.lower, rest) := by
  have hcolon : ':' ∉ scheme := fun hmem => absurd (hletters ':' hmem) (by decide)
  rw [cutScheme?, Text.cutFirst?_eq_some_iff.2 ⟨rfl, hcolon⟩, Option.bind_some]
  obtain ⟨first, others, rfl⟩ := List.exists_cons_of_ne_nil hne
  have hothers : others.all schemeKeeps = true := by
    rw [List.all_eq_true]
    intro c hc
    simp [schemeKeeps, Char.isAlphanum, hletters c (by simp [hc])]
  simp only [hletters first (by simp), hothers, Bool.and_self, if_true]

theorem exists_of_bind_eq_ok {α β : Type} {x : Except Error α} {f : α → Except Error β} {b : β}
    (hbind : x >>= f = .ok b) : ∃ a, x = .ok a ∧ f a = .ok b := by
  cases x with
  | error cause => cases hbind
  | ok a => exact ⟨a, rfl, hbind⟩

theorem exists_of_map_eq_ok {α β : Type} {x : Except Error α} {f : α → β} {b : β}
    (hmap : x.map f = .ok b) : ∃ a, x = .ok a ∧ f a = b := by
  cases x with
  | error cause => cases hmap
  | ok a => exact ⟨a, rfl, Except.ok.inj hmap⟩

/-- The credentials in front of a server, and the server. -/
def cutLogin (t : Text) : Text × Text := (Text.cutLast? '@' t).getD ([], t)

/-- The authority of a web address: credentials, a host, which is needed, and a port. -/
theorem readAuthority_eq [Idna] {scheme : Text} (hspecial : isSpecial scheme = true) (t : Text) :
    readAuthority scheme t =
      let (login, server) := cutLogin t
      let (name, secret) := cutTail ':' login
      let (hostText, portText) := cutHost false server
      if hostText.isEmpty then .error .emptyHost
      else do
        let host ← Host.special hostText
        let port ← readPort scheme portText
        return {
          scheme, username := encode .userinfo name, password := encode .userinfo (secret.getD [])
          host := some host, port, path := .segments [], query := none, fragment := none } := by
  unfold readAuthority cutLogin
  cases hcut : Text.cutLast? '@' t with
  | none =>
    simp only [hspecial, Bool.true_or, Bool.and_true, if_true, Option.getD_none]
    split <;> rfl
  | some parts =>
    simp only [hspecial, Bool.true_or, Bool.and_true, if_true, Option.getD_some]
    split <;> rfl

theorem scheme_of_readAuthority [Idna] {scheme t : Text} (hspecial : isSpecial scheme = true) {u : Url}
    (hread : readAuthority scheme t = .ok u) : u.scheme = scheme := by
  rw [readAuthority_eq hspecial] at hread
  simp only at hread
  split at hread
  · cases hread
  · obtain ⟨host, -, hread⟩ := exists_of_bind_eq_ok hread
    obtain ⟨port, -, hread⟩ := exists_of_bind_eq_ok hread
    cases hread
    rfl

theorem isSlash_slash (special : Bool) : isSlash special '/' = true := by
  rw [isSlash, decide_eq_true rfl, Bool.true_or]

/-- The server goes up to the first slash. -/
theorem ofAuthority_append [Idna] {scheme server path : Text} (hspecial : isSpecial scheme = true)
    (hserver : ∀ c ∈ server, isSlash true c = false) (hpath : ∀ c ∈ path.head?, isSlash true c = true) :
    ofAuthority scheme (server ++ path) =
      (readAuthority scheme server).map fun u => { u with path := rootPath true path } := by
  have hkept : ∀ c ∈ server, (!isSlash true c) = true := fun c hc => by rw [hserver c hc]; rfl
  have hfront : path.takeWhile (fun c => !isSlash true c) = [] ∧ path.dropWhile (fun c => !isSlash true c) = path := by
    cases path with
    | nil => exact ⟨rfl, rfl⟩
    | cons c rest => simp [hpath c (by simp)]
  rw [ofAuthority, hspecial, List.takeWhile_append_of_pos hkept, List.dropWhile_append_of_pos hkept, hfront.1,
    hfront.2, List.append_nil]
  cases readAuthority scheme server with
  | error cause => rfl
  | ok u => rfl

theorem exists_server_append (front : Text) :
    ∃ server path, front = server ++ path ∧ (∀ c ∈ server, isSlash true c = false) ∧
      ∀ c ∈ path.head?, isSlash true c = true := by
  refine ⟨front.takeWhile fun c => !isSlash true c, front.dropWhile fun c => !isSlash true c,
    List.takeWhile_append_dropWhile.symm, fun c hc => ?_, fun c hc => ?_⟩
  · simpa using List.mem_takeWhile_imp hc
  · have hnot := List.head?_dropWhile_not (fun c => !isSlash true c) front
    rw [Option.mem_def.1 hc] at hnot
    simpa using hnot

theorem scheme_of_ofAuthority [Idna] {scheme front : Text} (hspecial : isSpecial scheme = true) {u : Url}
    (hread : ofAuthority scheme front = .ok u) : u.scheme = scheme := by
  obtain ⟨server, hserver, hread⟩ := exists_of_bind_eq_ok hread
  have hscheme := scheme_of_readAuthority hspecial hserver
  cases hread
  exact hscheme

theorem path_of_ofAuthority [Idna] {scheme front : Text} (hspecial : isSpecial scheme = true) {u : Url}
    (hread : ofAuthority scheme front = .ok u) : ∃ written, u.path = rootPath true written := by
  obtain ⟨server, -, hread⟩ := exists_of_bind_eq_ok hread
  cases hread
  exact ⟨_, by rw [hspecial]⟩

theorem absolute_of_isWeb [Idna] {scheme : Text} (hweb : IsWeb scheme) (front : Text) :
    absolute scheme front = ofAuthority scheme (front.dropWhile (isSlash true)) := by
  simp only [absolute, hweb.isFile_eq, hweb.isSome_defaultPort?, if_true, Bool.false_eq_true, if_false]

/-- A text with the scheme of a web address and a colon in front is read as such an address. -/
theorem ofText_web [Idna] {scheme : Text} (hweb : IsWeb scheme) (t : Text) :
    ofText (scheme ++ ':' :: t) =
      (ofAuthority scheme ((Reference.ofText (cleanEnd t)).front.dropWhile (isSlash true))).map
        (withTail · (Reference.ofText (cleanEnd t))) := by
  have hvisible : ∀ c ∈ scheme ++ [':'], 0x20 < c.toNat := by
    simp only [List.mem_append, List.mem_singleton]
    rintro c (hc | rfl)
    · exact Nat.lt_trans (by decide) (bounds_of_isAlpha (hweb.isAlpha c hc)).1
    · decide
  have hclean : clean (scheme ++ ':' :: t) = scheme ++ ':' :: cleanEnd t := by
    simpa using clean_append (by simp) hvisible t
  rw [ofText, read, hclean, cutScheme?_append hweb.ne_nil hweb.isAlpha, hweb.lower_eq]
  simp only [absolute_of_isWeb hweb]

/-- The characters that a server can be written with. -/
def IsServerChar (c : Char) : Prop := 0x20 < c.toNat ∧ c ≠ '#' ∧ c ≠ '?' ∧ isSlash true c = false

/-- An address goes on with its server, and with its path from the next slash on. -/
theorem ofText_server [Idna] {scheme : Text} (hweb : IsWeb scheme) {server : Text} (hne : server ≠ [])
    (hserver : ∀ c ∈ server, IsServerChar c) (t : Text) :
    ofText (scheme ++ ':' :: '/' :: '/' :: (server ++ '/' :: t)) =
      (readAuthority scheme server).map fun u =>
        withTail { u with path := rootPath true ('/' :: (Reference.ofText (cleanEnd t)).front) }
          (Reference.ofText (cleanEnd t)) := by
  have hfront : ∀ c ∈ '/' :: '/' :: (server ++ ['/']), 0x20 < c.toNat ∧ c ≠ '#' ∧ c ≠ '?' := by
    have hslash : 0x20 < '/'.toNat ∧ '/' ≠ '#' ∧ '/' ≠ '?' := by decide
    simp only [List.mem_cons, List.mem_append, List.not_mem_nil, or_false]
    rintro c (rfl | rfl | hc | rfl)
    · exact hslash
    · exact hslash
    · exact ⟨(hserver c hc).1, (hserver c hc).2.1, (hserver c hc).2.2.1⟩
    · exact hslash
  have happend : ∀ rest : Text, '/' :: '/' :: (server ++ '/' :: rest) = '/' :: '/' :: (server ++ ['/']) ++ rest := by simp
  have hreference := Reference.ofText_append (fun hc => (hfront _ hc).2.1 rfl) (fun hc => (hfront _ hc).2.2 rfl)
    (cleanEnd t)
  have hdrop : ∀ rest : Text, ('/' :: '/' :: (server ++ '/' :: rest)).dropWhile (isSlash true) = server ++ '/' :: rest := by
    intro rest
    obtain ⟨c, more, rfl⟩ := List.exists_cons_of_ne_nil hne
    have hc : isSlash true c = false := (hserver c (by simp)).2.2.2
    simp [hc, isSlash_slash]
  have hpath : ∀ rest : Text, ∀ c ∈ ('/' :: rest).head?, isSlash true c = true := by simp [isSlash_slash]
  rw [ofText_web hweb, happend t, cleanEnd_append (fun c hc => (hfront c hc).1), hreference, ← happend, hdrop,
    ofAuthority_append hweb.isSpecial_eq (fun c hc => (hserver c hc).2.2.2) (hpath _)]
  cases readAuthority scheme server with
  | error cause => rfl
  | ok u => rfl

theorem scheme_of_ofText [Idna] {scheme t : Text} (hweb : IsWeb scheme) {base : Url}
    (hbase : ofText (scheme ++ ':' :: t) = .ok base) : base.scheme = scheme := by
  rw [ofText_web hweb] at hbase
  obtain ⟨u, hu, hbase⟩ := exists_of_map_eq_ok hbase
  have hscheme := scheme_of_ofAuthority hweb.isSpecial_eq hu
  rw [← hbase]
  exact hscheme

/-- The path of a web address was read. -/
theorem path_of_ofText [Idna] {scheme t : Text} (hweb : IsWeb scheme) {base : Url}
    (hbase : ofText (scheme ++ ':' :: t) = .ok base) : ∃ written, base.path = rootPath true written := by
  rw [ofText_web hweb] at hbase
  obtain ⟨u, hu, hbase⟩ := exists_of_map_eq_ok hbase
  have hpath := path_of_ofAuthority hweb.isSpecial_eq hu
  rw [← hbase]
  exact hpath

/-- The number of slashes, or backslashes, that a text begins with. -/
def slashes (t : Text) : Nat := (t.takeWhile (isSlash true)).length

/-- Whether a reference names a server, seen from an address with the given scheme: it has
    another scheme, or it begins with two slashes, after the scheme if it has that one. -/
def namesServer (scheme t : Text) : Bool :=
  match cutScheme? (clean t) with
  | some (own, rest) => own ≠ scheme || 2 ≤ slashes rest
  | none => 2 ≤ slashes (clean t)

/-- A reference that names a server, as an address of its own. -/
def standalone (scheme t : Text) : Text :=
  if (cutScheme? (clean t)).isSome then t else scheme ++ ':' :: clean t

/-- A reference that does not begin with two slashes leaves everything before the path as it is. -/
theorem relative_of_slashes_lt [Idna] {base : Url} {parts : List Text} (hpath : base.path = .segments parts)
    (hspecial : isSpecial base.scheme = true) {r : Reference} (hslashes : slashes r.front < 2) :
    ∃ path query fragment, relative base r = .ok { base with path, query, fragment } := by
  obtain ⟨front, query, fragment⟩ := r
  cases front with
  | nil =>
    simp only [relative, hpath]
    split
    · exact ⟨_, _, _, rfl⟩
    · exact ⟨_, _, _, rfl⟩
  | cons a rest =>
    by_cases ha : isSlash true a = true
    · cases rest with
      | nil =>
        simp only [relative, hpath, hspecial, ha, if_true]
        exact ⟨_, _, _, rfl⟩
      | cons b more =>
        have hb : ¬ isSlash true b = true := by
          intro hb
          simp only [slashes, ha, hb, List.takeWhile_cons_of_pos, List.length_cons] at hslashes
          omega
        simp only [relative, hpath, hspecial, ha, hb, if_true]
        exact ⟨_, _, _, rfl⟩
    · simp only [relative, hpath, hspecial, ha]
      exact ⟨_, _, _, rfl⟩

/-- After two slashes comes an authority, which replaces the one that was there. -/
theorem relative_of_le_slashes [Idna] {base : Url} {parts : List Text} (hpath : base.path = .segments parts)
    (hspecial : isSpecial base.scheme = true) {r : Reference} (hslashes : 2 ≤ slashes r.front) :
    relative base r = (ofAuthority base.scheme (r.front.dropWhile (isSlash true))).map (withTail · r) := by
  obtain ⟨front, query, fragment⟩ := r
  cases front with
  | nil => simp [slashes] at hslashes
  | cons a rest =>
    by_cases ha : isSlash true a = true
    · cases rest with
      | nil => simp [slashes, ha] at hslashes
      | cons b more =>
        by_cases hb : isSlash true b = true
        · simp only [relative, hpath, hspecial, ha, hb, if_true, List.dropWhile_cons_of_pos]
        · simp [slashes, ha, hb] at hslashes
    · simp [slashes, ha] at hslashes

section Join

variable {base : Url} {parts : List Text} (hweb : IsWeb base.scheme) (hpath : base.path = .segments parts) {t : Text}

include hweb hpath

/-- A reference that names no server is read, and leads to the server of the base. -/
theorem join_of_namesServer_eq_false [Idna] (hnames : namesServer base.scheme t = false) :
    ∃ path query fragment, join base t = .ok { base with path, query, fragment } := by
  unfold namesServer at hnames
  rw [join, read]
  cases hcut : cutScheme? (clean t) with
  | none =>
    rw [hcut] at hnames
    apply relative_of_slashes_lt hpath hweb.isSpecial_eq
    rw [slashes, Reference.takeWhile_front]
    exact Nat.lt_of_not_le (of_decide_eq_false hnames)
  | some parts =>
    obtain ⟨own, rest⟩ := parts
    rw [hcut] at hnames
    simp only [Bool.or_eq_false_iff, decide_eq_false_iff_not, not_not, not_le] at hnames
    obtain ⟨rfl, hslashes⟩ := hnames
    rw [slashes, ← Reference.takeWhile_front] at hslashes
    have hrelative : isRelativeAfterScheme base base.scheme (Reference.ofText rest).front = true := by
      simp [isRelativeAfterScheme, hweb.isSome_defaultPort?, hslashes]
    simp only [hrelative, if_true]
    exact relative_of_slashes_lt hpath hweb.isSpecial_eq hslashes

/-- A reference that names a server is read as if it stood alone. -/
theorem join_of_namesServer [Idna] (hnames : namesServer base.scheme t = true) :
    join base t = ofText (standalone base.scheme t) := by
  unfold namesServer at hnames
  cases hcut : cutScheme? (clean t) with
  | none =>
    rw [hcut] at hnames
    have hslashes : 2 ≤ slashes (Reference.ofText (clean t)).front := by
      rw [slashes, Reference.takeWhile_front]
      exact of_decide_eq_true hnames
    have hstandalone : standalone base.scheme t = base.scheme ++ ':' :: clean t := by
      simp [standalone, hcut]
    rw [hstandalone, ofText_web hweb, cleanEnd_clean, join, read, hcut]
    exact relative_of_le_slashes hpath hweb.isSpecial_eq hslashes
  | some parts =>
    obtain ⟨own, rest⟩ := parts
    rw [hcut] at hnames
    have happart : isRelativeAfterScheme base own (Reference.ofText rest).front = false := by
      by_cases hown : own = base.scheme
      · have hslashes : 2 ≤ slashes rest := by simpa [hown] using hnames
        rw [slashes, ← Reference.takeWhile_front] at hslashes
        rw [isRelativeAfterScheme, decide_eq_false (Nat.not_lt.2 hslashes), Bool.and_false]
      · simp [isRelativeAfterScheme, Ne.symm hown]
    have hstandalone : standalone base.scheme t = t := by
      simp [standalone, hcut]
    rw [hstandalone, join, ofText, read, read, hcut]
    simp only [happart, Bool.false_eq_true, if_false]

end Join

end ConfigWatch.Url
