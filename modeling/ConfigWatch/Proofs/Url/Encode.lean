import ConfigWatch.Proofs.Text
import ConfigWatch.Url.Encode
import Mathlib.Data.List.Infix
/-!
What percent-encoding leaves. An encoded text consists of characters that its part of a URL
keeps, and such characters stay as they are; no escape in it stands for a point.
-/
namespace ConfigWatch.Url

theorem encodeByte_ne_nil (b : UInt8) : encodeByte b ≠ [] := List.cons_ne_nil _ _

theorem encodeChar_ne_nil (part : Component) (c : Char) : encodeChar part c ≠ [] := by
  unfold encodeChar
  split
  · simp
  · intro hempty
    rw [List.flatMap_eq_nil_iff] at hempty
    obtain ⟨b, rest, hbytes⟩ := List.exists_cons_of_ne_nil (String.utf8EncodeChar_ne_nil (c := c))
    exact encodeByte_ne_nil b (hempty b (by simp [hbytes]))

theorem encode_ne_nil (part : Component) {t : Text} (hne : t ≠ []) : encode part t ≠ [] := by
  obtain ⟨c, rest, rfl⟩ := List.exists_cons_of_ne_nil hne
  rw [encode, List.flatMap_cons]
  exact List.append_ne_nil_of_left_ne_nil (encodeChar_ne_nil part c) _

/-- An escape is a percent sign and two hexadecimal digits. -/
theorem exists_of_mem_encodeByte {b : UInt8} {c : Char} (hc : c ∈ encodeByte b) :
    c = '%' ∨ ∃ d < 16, c = Numeral.upperHexDigit d := by
  have hb := b.toNat_lt
  simp only [encodeByte, Numeral.byteHex, List.mem_cons, List.not_mem_nil, or_false] at hc
  obtain rfl | rfl | rfl := hc
  · exact .inl rfl
  · exact .inr ⟨b.toNat / 16, by omega, rfl⟩
  · exact .inr ⟨b.toNat % 16, by omega, rfl⟩

theorem keeps_of_mem_encodeByte (part : Component) {b : UInt8} {c : Char} (hc : c ∈ encodeByte b) :
    part.keeps c = true := by
  have hdigit : ∀ d < 16, part.keeps (Numeral.upperHexDigit d) = true := by cases part <;> decide
  obtain rfl | ⟨d, hd, rfl⟩ := exists_of_mem_encodeByte hc
  · cases part <;> decide
  · exact hdigit d hd

theorem keeps_of_mem_encode {part : Component} {t : Text} : ∀ c ∈ encode part t, part.keeps c = true := by
  intro c hc
  obtain ⟨d, -, hc⟩ := List.mem_flatMap.1 hc
  unfold encodeChar at hc
  split at hc
  · rename_i hd
    rwa [List.mem_singleton.1 hc]
  · obtain ⟨b, -, hc⟩ := List.mem_flatMap.1 hc
    exact keeps_of_mem_encodeByte part hc

theorem encode_eq_self {part : Component} {t : Text} (ht : ∀ c ∈ t, part.keeps c = true) : encode part t = t := by
  induction t with
  | nil => rfl
  | cons c rest ih =>
    have hrest := ih fun later hlater => ht later (by simp [hlater])
    rw [encode] at hrest ⊢
    rw [List.flatMap_cons, hrest, encodeChar, if_pos (ht c (by simp))]
    rfl

/-- A character that is in no escape is in an encoded text only if it was there before. -/
theorem mem_of_mem_encode {part : Component} {t : Text} {c : Char} (hpercent : c ≠ '%')
    (hdigit : ∀ d < 16, c ≠ Numeral.upperHexDigit d) (hc : c ∈ encode part t) : c ∈ t := by
  obtain ⟨own, hown, hc⟩ := List.mem_flatMap.1 hc
  unfold encodeChar at hc
  split at hc
  · rwa [List.mem_singleton.1 hc]
  · obtain ⟨b, -, hc⟩ := List.mem_flatMap.1 hc
    obtain rfl | ⟨d, hd, rfl⟩ := exists_of_mem_encodeByte hc
    · exact absurd rfl hpercent
    · exact absurd rfl (hdigit d hd)

/-- Only the point begins with the byte of the point. -/
theorem head?_utf8EncodeChar_ne {c : Char} (hc : c ≠ '.') : (String.utf8EncodeChar c).head? ≠ some 0x2E := by
  have hval : c.val.toNat ≠ 0x2E := fun heq => hc (Char.ext (UInt32.toNat_inj.1 heq))
  have hmod : ∀ n : Nat, UInt8.ofNat n = 0x2E → n % 256 = 0x2E := by
    intro n hn
    simpa using congrArg UInt8.toNat hn
  unfold String.utf8EncodeChar
  dsimp only
  split_ifs
  all_goals
    intro heq
    have hbyte := hmod _ (Option.some.inj heq)
    omega

theorem eq_of_lower_byteHex {b : UInt8} (hb : Text.lower (Numeral.byteHex b) = "2e".toList) : b = 0x2E := by
  have hdigit : ∀ d < 16, Text.lowerChar (Numeral.upperHexDigit d) = '2' → d = 2 := by decide
  have hletter : ∀ d < 16, Text.lowerChar (Numeral.upperHexDigit d) = 'e' → d = 14 := by decide
  have hlt := b.toNat_lt
  have hpair : Text.lowerChar (Numeral.upperHexDigit (b.toNat / 16)) = '2' ∧
      Text.lowerChar (Numeral.upperHexDigit (b.toNat % 16)) = 'e' := by
    simpa [Text.lower, Numeral.byteHex] using hb
  have hhigh := hdigit _ (by omega) hpair.1
  have hlow := hletter _ (by omega) hpair.2
  apply UInt8.toNat_inj.1
  change b.toNat = 0x2E
  omega

/-- Whether every escape in a text stands for a point. -/
def EscapesPoints (t : Text) : Prop := ∀ tail ∈ t.tails, tail.head? = some '%' → tail.take 3 = "%2e".toList

/-- A text that reads as escaped points after it was encoded was written that way. -/
theorem encode_eq_self_of_escapesPoints {t : Text} (ht : EscapesPoints (encode .path t).lower) :
    encode .path t = t := by
  induction t with
  | nil => rfl
  | cons c rest ih =>
    have hsplit : encode .path (c :: rest) = encodeChar .path c ++ encode .path rest := List.flatMap_cons
    have hlower : (encode .path (c :: rest)).lower = (encodeChar .path c).lower ++ (encode .path rest).lower := by
      rw [hsplit, Text.lower, Text.lower, Text.lower, List.map_append]
    have hrest := ih fun tail htail => by
      apply ht
      rw [List.mem_tails] at htail ⊢
      exact htail.trans ⟨_, hlower.symm⟩
    cases hkeeps : Component.path.keeps c with
    | true =>
      rw [hsplit, hrest, encodeChar, if_pos hkeeps]
      rfl
    | false =>
      have hpoint : c ≠ '.' := by
        rintro rfl
        cases hkeeps
      obtain ⟨b, more, hbytes⟩ := List.exists_cons_of_ne_nil (String.utf8EncodeChar_ne_nil (c := c))
      have hwritten : encodeChar .path c = encodeByte b ++ more.flatMap encodeByte := by
        rw [encodeChar, hkeeps, hbytes, List.flatMap_cons]
        rfl
      have hbegins := ht _ ((List.mem_tails _ _).2 List.suffix_rfl)
      rw [hlower, hwritten] at hbegins
      have hhex : Text.lower (Numeral.byteHex b) = "2e".toList := by
        simpa [encodeByte, Numeral.byteHex, Text.lower, Text.lowerChar] using hbegins
      have hb := eq_of_lower_byteHex hhex
      have hhead := head?_utf8EncodeChar_ne hpoint
      rw [hbytes, hb] at hhead
      exact absurd rfl hhead

end ConfigWatch.Url
