import ConfigWatch.Proofs.Url.Reference
/-!
Servers that are written as one word. A word is the same host in any letter case, and a colon
after it does not matter.
-/
namespace ConfigWatch

namespace Text

theorem isAlpha_of_isAlpha_lowerChar {c : Char} (hc : (lowerChar c).isAlpha = true) : c.isAlpha = true := by
  unfold lowerChar at hc
  split at hc
  · rename_i hbounds
    have hupper : c.isUpper = true := decide_eq_true hbounds
    exact Bool.or_eq_true_iff.2 (.inl hupper)
  · exact hc

/-- What consists of letters in its lower-case form consists of letters. -/
theorem isAlpha_of_mem_of_lower {t : Text} (ht : ∀ c ∈ t.lower, c.isAlpha = true) :
    ∀ c ∈ t, c.isAlpha = true := by
  intro c hc
  apply isAlpha_of_isAlpha_lowerChar
  exact ht _ (List.mem_map_of_mem hc)

end Text

namespace Url

/-- Without a percent sign a text stands for its own bytes. -/
theorem decodeBytes_eq_encode {t : Text} (ht : '%' ∉ t) : decodeBytes t = Utf8.encode t := by
  induction t with
  | nil => simp [decodeBytes, Utf8.encode]
  | cons c rest ih =>
    simp only [List.mem_cons, not_or] at ht
    rw [decodeBytes, ih ht.2, Utf8.encode, Utf8.encode, List.flatMap_cons]
    rintro a b more rfl
    exact absurd rfl ht.1

theorem isServerChar_of_isAlpha {c : Char} (hc : c.isAlpha = true) : IsServerChar c := by
  have hother : ∀ d, d.isAlpha = false → c ≠ d := by
    rintro d hd rfl
    rw [hd] at hc
    cases hc
  refine ⟨Nat.lt_trans (by decide) (bounds_of_isAlpha hc).1, hother _ (by decide), hother _ (by decide), ?_⟩
  simp [isSlash, hother '/' (by decide), hother '\\' (by decide)]

section Word

variable {word scheme : Text} (hweb : IsWeb scheme) (hword : word.lower = scheme)

include hweb hword

theorem isAlpha_of_mem_word : ∀ c ∈ word, c.isAlpha = true :=
  Text.isAlpha_of_mem_of_lower (hword ▸ hweb.isAlpha)

theorem word_ne_nil : word ≠ [] := by
  rintro rfl
  exact hweb.ne_nil hword.symm

/-- The word for a scheme, in any letter case, is the domain of that name. -/
theorem Host.special_word [Idna] : Host.special word = .ok (.domain scheme) := by
  have hletters := isAlpha_of_mem_word hweb hword
  have hascii : ∀ c ∈ word, c.toNat < 0x80 := fun c hc =>
    Nat.lt_trans (bounds_of_isAlpha (hletters c hc)).2 (by decide)
  have hpercent : '%' ∉ word := fun hmem => absurd (hletters _ hmem) (by decide)
  have hbracket : word.head? ≠ some '[' := by
    intro hhead
    exact absurd (hletters _ (List.mem_of_mem_head? hhead)) (by decide)
  have hform : Idna.form? scheme = some scheme := by
    rw [Idna.form?, if_pos]
    obtain rfl | rfl := hweb <;> decide
  have hdomain : domain? word = some scheme := by
    rw [domain?, decodeBytes_eq_encode hpercent, Utf8.decode?_encode hascii, Option.bind_some, hword, hform]
    obtain rfl | rfl := hweb <;> rfl
  rw [special, if_neg hbracket, hdomain]
  obtain rfl | rfl := hweb <;> rfl

theorem cutLogin_word {rest : Text} (hrest : '@' ∉ rest) : cutLogin (word ++ rest) = ([], word ++ rest) := by
  have hmem : '@' ∉ word ++ rest := by
    rw [List.mem_append]
    rintro (hmem | hmem)
    · exact absurd (isAlpha_of_mem_word hweb hword _ hmem) (by decide)
    · exact hrest hmem
  rw [cutLogin, Text.cutLast?_eq_none hmem, Option.getD_none]

omit hweb hword in
theorem cutHost_append {host : Text} (hcolon : ':' ∉ host) (hbracket : '[' ∉ host) (rest : Text) :
    cutHost false (host ++ rest) = (host ++ (cutHost false rest).1, (cutHost false rest).2) := by
  induction host with
  | nil => rfl
  | cons c host ih =>
    simp only [List.mem_cons, not_or] at hcolon hbracket
    have hc : ¬ (c = ':' && !false) = true := by simp [Ne.symm hcolon.1]
    have hopen : (decide (c = '[') || false && decide (c ≠ ']')) = false := by simp [Ne.symm hbracket.1]
    rw [List.cons_append, cutHost, if_neg hc, hopen, ih hcolon.2 hbracket.2]
    rfl

theorem readAuthority_word [Idna] {rest : Text} (hrest : rest = [] ∨ rest = [':']) {own : Text} (hown : IsWeb own) :
    readAuthority own (word ++ rest) =
      .ok ⟨own, [], [], some (.domain scheme), none, .segments [], none, none⟩ := by
  have hletters := isAlpha_of_mem_word hweb hword
  have hcolon : ':' ∉ word := fun hmem => absurd (hletters _ hmem) (by decide)
  have hbracket : '[' ∉ word := fun hmem => absurd (hletters _ hmem) (by decide)
  have hlogin : '@' ∉ rest := by
    obtain rfl | rfl := hrest <;> decide
  have hhost : cutHost false (word ++ rest) = (word, rest) := by
    rw [cutHost_append hcolon hbracket]
    obtain rfl | rfl := hrest <;> simp [cutHost]
  have hport : readPort own rest = .ok none := by
    obtain rfl | rfl := hrest <;> rfl
  have hfilled : word.isEmpty = false := by simpa using word_ne_nil hweb hword
  rw [readAuthority_eq hown.isSpecial_eq, cutLogin_word hweb hword hlogin]
  simp only [hhost, hport, hfilled, Host.special_word hweb hword]
  rfl

/-- The word is the host of an address that has it before a slash, also with the colon of an empty
    port after it. -/
theorem ofText_word [Idna] {rest : Text} (hrest : rest = [] ∨ rest = [':']) {own : Text} (hown : IsWeb own) (t : Text) :
    ofText (own ++ ':' :: '/' :: '/' :: (word ++ rest ++ '/' :: t)) =
      .ok (withTail
        ⟨own, [], [], some (.domain scheme), none,
          rootPath true ('/' :: (Reference.ofText (cleanEnd t)).front), none, none⟩
        (Reference.ofText (cleanEnd t))) := by
  have hserver : ∀ c ∈ word ++ rest, IsServerChar c := by
    intro c hc
    obtain hletter | hcolon := List.mem_append.1 hc
    · exact isServerChar_of_isAlpha (isAlpha_of_mem_word hweb hword c hletter)
    · obtain rfl | rfl := hrest
      · cases hcolon
      · rw [List.mem_singleton.1 hcolon, IsServerChar]
        decide
  have hne : word ++ rest ≠ [] := List.append_ne_nil_of_left_ne_nil (word_ne_nil hweb hword) rest
  rw [ofText_server hown hne hserver, readAuthority_word hweb hword hrest hown]
  rfl

end Word

end Url

end ConfigWatch
