import ConfigWatch.Numeral.Integer
/-!
What decimal numerals denote. A numeral is read exactly if it consists of ASCII digits, with
a plus in front of them at most, and what is read is their value; and a number is written in
the digits that are usual for it.
-/
namespace ConfigWatch.Numeral

/-- One or more ASCII digits with the given value. -/
structure Denotes (digits : Text) (n : Nat) : Prop where
  ne_nil : digits ≠ []
  isDigit : ∀ c ∈ digits, c.isDigit = true
  value_eq : Nat.ofDigitChars 10 digits 0 = n

theorem digit?_eq (c : Char) : digit? c = if c.isDigit then some (c.toNat - '0'.toNat) else none := by
  have hrange : ('0' ≤ c ∧ c ≤ '9') ↔ c.isDigit = true := by
    simp only [Char.isDigit, Bool.and_eq_true, decide_eq_true_eq]
    rfl
  unfold digit?
  simp only [hrange]

theorem digitsFrom?_eq_some_iff {value n : Nat} {t : Text} :
    digitsFrom? value t = some n ↔
      (∀ c ∈ t, c.isDigit = true) ∧ Nat.ofDigitChars 10 t value = n := by
  induction t generalizing value with
  | nil => simp [digitsFrom?]
  | cons c rest ih =>
    rw [digitsFrom?, digit?_eq, Nat.ofDigitChars_cons, List.forall_mem_cons]
    by_cases hc : c.isDigit = true
    · rw [if_pos hc, Option.bind_some, ih, and_assoc, and_iff_right hc]
    · rw [if_neg hc, Option.bind_none]
      constructor
      · intro hnone
        cases hnone
      · rintro ⟨⟨hdigit, -⟩, -⟩
        exact absurd hdigit hc

theorem digits?_eq_some_iff {t : Text} {n : Nat} : digits? t = some n ↔ Denotes t n := by
  have hempty : t.isEmpty = true ↔ t = [] := List.isEmpty_iff
  unfold digits?
  split
  · rename_i hnil
    constructor
    · intro hnone
      cases hnone
    · intro hdenotes
      exact absurd (hempty.1 hnil) hdenotes.ne_nil
  · rename_i hne
    rw [digitsFrom?_eq_some_iff]
    constructor
    · rintro ⟨hdigits, hvalue⟩
      exact ⟨mt hempty.2 hne, hdigits, hvalue⟩
    · intro hdenotes
      exact ⟨hdenotes.isDigit, hdenotes.value_eq⟩

/-- A plus may stand before the digits, and nothing else may. -/
theorem natural?_eq_some_iff {t : Text} {n : Nat} :
    natural? t = some n ↔
      ∃ sign digits : Text, t = sign ++ digits ∧ (sign = [] ∨ sign = ['+']) ∧ Denotes digits n := by
  have hplus : '+'.isDigit = false := rfl
  unfold natural?
  split
  · rename_i rest
    rw [digits?_eq_some_iff]
    constructor
    · intro hdenotes
      exact ⟨['+'], rest, rfl, .inr rfl, hdenotes⟩
    · rintro ⟨sign, digits, htext, rfl | rfl, hdenotes⟩
      · rw [List.nil_append] at htext
        have hdigit : '+'.isDigit = true := hdenotes.isDigit '+' (htext ▸ List.mem_cons_self)
        rw [hplus] at hdigit
        cases hdigit
      · rw [List.cons_append, List.nil_append, List.cons.injEq] at htext
        rwa [htext.2]
  · rename_i hunsigned
    rw [digits?_eq_some_iff]
    constructor
    · intro hdenotes
      exact ⟨[], t, rfl, .inl rfl, hdenotes⟩
    · rintro ⟨sign, digits, rfl, rfl | rfl, hdenotes⟩
      · exact hdenotes
      · exact absurd rfl (hunsigned digits)

/-- A sign, if there is one, and digits, which together stand for an integer. -/
def DenotesInteger (t : Text) (v : Int) : Prop :=
  ∃ (sign digits : Text) (n : Nat), t = sign ++ digits ∧ Denotes digits n ∧
    ((sign = [] ∨ sign = ['+']) ∧ v = n ∨ sign = ['-'] ∧ v = -n)

theorem cutSign_of_denotes {digits : Text} {n : Nat} (hdenotes : Denotes digits n) :
    cutSign digits = (false, digits) := by
  have hplus : '+'.isDigit = false := rfl
  have hminus : '-'.isDigit = false := rfl
  unfold cutSign
  split
  · have hdigit := hdenotes.isDigit '+' List.mem_cons_self
    rw [hplus] at hdigit
    cases hdigit
  · have hdigit := hdenotes.isDigit '-' List.mem_cons_self
    rw [hminus] at hdigit
    cases hdigit
  · rfl

theorem integer?_eq_map (t : Text) :
    integer? t = (digits? (cutSign t).2).map fun n : Nat => if (cutSign t).1 then -(n : Int) else n := by
  unfold integer?
  dsimp only
  cases digits? (cutSign t).2 <;> rfl

theorem integer?_eq_some_iff {t : Text} {v : Int} : integer? t = some v ↔ DenotesInteger t v := by
  simp only [integer?_eq_map, Option.map_eq_some_iff, digits?_eq_some_iff]
  constructor
  · rintro ⟨n, hdenotes, rfl⟩
    unfold cutSign at hdenotes ⊢
    split at hdenotes
    · rename_i rest
      exact ⟨['+'], rest, n, rfl, hdenotes, .inl ⟨.inr rfl, rfl⟩⟩
    · rename_i rest
      exact ⟨['-'], rest, n, rfl, hdenotes, .inr ⟨rfl, rfl⟩⟩
    · exact ⟨[], t, n, rfl, hdenotes, .inl ⟨.inl rfl, rfl⟩⟩
  · rintro ⟨sign, digits, n, rfl, hdenotes, ⟨rfl | rfl, rfl⟩ | ⟨rfl, rfl⟩⟩
    · rw [List.nil_append, cutSign_of_denotes hdenotes]
      exact ⟨n, hdenotes, rfl⟩
    · exact ⟨n, hdenotes, rfl⟩
    · exact ⟨n, hdenotes, rfl⟩

theorem DenotesInteger.unique {t : Text} {v w : Int} (hv : DenotesInteger t v) (hw : DenotesInteger t w) :
    v = w :=
  Option.some.inj ((integer?_eq_some_iff.2 hv).symm.trans (integer?_eq_some_iff.2 hw))

theorem not_denotesInteger_nil (v : Int) : ¬ DenotesInteger [] v := by
  intro hdenotes
  have hnone : integer? [] = some v := integer?_eq_some_iff.2 hdenotes
  cases hnone

/-- Signs and digits lie between the plus and the nine. -/
theorem DenotesInteger.char_bounds {t : Text} {v : Int} (hdenotes : DenotesInteger t v) :
    ∀ c ∈ t, 0x2B ≤ c.toNat ∧ c.toNat ≤ 0x39 := by
  obtain ⟨sign, digits, n, rfl, hdigits, hsign⟩ := hdenotes
  have hsignBounds : ∀ c ∈ sign, 0x2B ≤ c.toNat ∧ c.toNat ≤ 0x39 := by
    obtain ⟨rfl | rfl, -⟩ | ⟨rfl, -⟩ := hsign <;> simp
  have hdigitBounds : ∀ c ∈ digits, 0x2B ≤ c.toNat ∧ c.toNat ≤ 0x39 := by
    intro c hc
    have hdigit : 48 ≤ c.toNat ∧ c.toNat ≤ 57 := Char.isDigit_iff_toNat.1 (hdigits.isDigit c hc)
    omega
  exact List.forall_mem_append.2 ⟨hsignBounds, hdigitBounds⟩

theorem integerWithin?_eq_some_iff {least greatest v : Int} {t : Text} :
    integerWithin? least greatest t = some v ↔ DenotesInteger t v ∧ least ≤ v ∧ v ≤ greatest := by
  rw [integerWithin?, Option.filter_eq_some_iff, integer?_eq_some_iff, Bool.and_eq_true, decide_eq_true_eq,
    decide_eq_true_eq]

/-- The digits of a number are the usual ones. -/
theorem ofNat_eq_toDigits (n : Nat) : ofNat n = Nat.toDigits 10 n := by
  have hchar : ∀ d < 10, digitChar d = d.digitChar := by decide
  fun_induction ofNat n with
  | case1 n hn => rw [Nat.toDigits_eq_if (by decide), if_pos hn, hchar n hn]
  | case2 n hn ih =>
    have hremainder : n % 10 < 10 := Nat.mod_lt _ (by decide)
    rw [Nat.toDigits_eq_if (by decide), if_neg hn, ih, hchar (n % 10) hremainder]

/-- The usual decimal form of a number denotes it. -/
theorem denotes_repr (n : Nat) : Denotes n.repr.toList n := by
  rw [Nat.toList_repr]
  exact ⟨Nat.toDigits_ne_nil, fun c hc => Nat.isDigit_of_mem_toDigits (by decide) (by decide) hc,
    Nat.ofDigitChars_ten_toDigits⟩

/-- The usual decimal form of an integer denotes it. -/
theorem denotesInteger_repr (v : Int) : DenotesInteger v.repr.toList v := by
  cases v with
  | ofNat n => exact ⟨[], n.repr.toList, n, rfl, denotes_repr n, .inl ⟨.inl rfl, rfl⟩⟩
  | negSucc n =>
    refine ⟨['-'], (n + 1).repr.toList, n + 1, ?_, denotes_repr (n + 1), .inr ⟨rfl, rfl⟩⟩
    rw [Int.repr, String.toList_append]
    rfl

/-- An integer is written in its usual decimal form. -/
theorem ofInt_eq_toList_repr (n : Int) : ofInt n = n.repr.toList := by
  cases n with
  | ofNat n => rw [ofInt, ofNat_eq_toDigits, Int.repr, Nat.toList_repr]
  | negSucc n =>
    rw [ofInt, ofNat_eq_toDigits, Int.repr, String.toList_append, Nat.toList_repr]
    rfl

end ConfigWatch.Numeral
