import ConfigWatch.Proofs.Numeral
import ConfigWatch.Proofs.Text
import ConfigWatch.Rule
import Mathlib.Algebra.Group.Nat.Defs
/-!
Reading release rules. The text of a rule is read if the part before its first semicolon is
a word for a stance. Each item after that is read by itself: it lists a name, selects a
bucket or is void, and a set that would be empty is absent.
-/
namespace ConfigWatch

/-- A word names a stance in any case of its ASCII letters. -/
def Stance.IsNamedBy (stance : Stance) (word : Text) : Prop := word.map Char.toLower = stance.toText

instance (stance : Stance) (word : Text) : Decidable (stance.IsNamedBy word) :=
  inferInstanceAs (Decidable (_ = _))

theorem Stance.ofText?_eq_some_iff {word : Text} {stance : Stance} :
    ofText? word = some stance ↔ stance.IsNamedBy word := by
  have hletters : ∀ s : Stance, word.sameLetters s.toText = true ↔ s.IsNamedBy word := by
    intro s
    have hlower : s.toText.lower = s.toText := by cases s <;> rfl
    have hword : word.lower = word.map Char.toLower :=
      congrArg (word.map ·) (funext Text.lowerChar_eq_toLower)
    rw [Text.sameLetters, beq_iff_eq, hlower, hword, IsNamedBy]
  have hdistinct : ¬ (allow.IsNamedBy word ∧ deny.IsNamedBy word) := by
    rintro ⟨hallow, hdeny⟩
    rw [IsNamedBy] at hallow hdeny
    exact absurd (hallow.symm.trans hdeny) (by decide)
  unfold ofText?
  simp only [hletters]
  cases stance with
  | allow =>
    by_cases hallow : allow.IsNamedBy word
    · simp [hallow]
    · by_cases hdeny : deny.IsNamedBy word <;> simp [hallow, hdeny]
  | deny =>
    by_cases hallow : allow.IsNamedBy word
    · have hdeny : ¬ deny.IsNamedBy word := fun hdeny => hdistinct ⟨hallow, hdeny⟩
      simp [hallow, hdeny]
    · by_cases hdeny : deny.IsNamedBy word <;> simp [hallow, hdeny]

namespace Rule

/-- The word of a rule's text: what stands before its first semicolon, without blanks around
    the text and around the word. -/
def wordOf (raw : Text) : Text := Text.trim (raw.trim.takeWhile (· ≠ ';'))

/-- The items of a rule's text: what stands between the semicolons after the first one.
    Blanks count, except at the end of the text and before all items. -/
def itemsOf (raw : Text) : List Text := (Text.trim (raw.trim.dropWhile (· ≠ ';')).tail).splitOn ';'

/-- An item lists a name: it is the name, and it does not begin with a percent sign. -/
def Lists (item name : Text) : Prop := item = name ∧ name ≠ [] ∧ name.head? ≠ some '%'

/-- An item selects a bucket: after a percent sign, and perhaps a plus, it has the digits of a
    divisor. -/
def Selects (item : Text) (n : Nat) : Prop :=
  ∃ sign digits : Text, item = '%' :: (sign ++ digits) ∧ (sign = [] ∨ sign = ['+']) ∧
    Numeral.Denotes digits n ∧ 1 ≤ n ∧ n ≤ 2 ^ 63 - 1

/-- An item has a percent sign and no divisor that could be used. -/
def IsMalformed (item : Text) : Prop := item.head? = some '%' ∧ ∀ n, ¬ Selects item n

theorem cutStance_eq (t : Text) :
    cutStance t = (Text.trim (t.takeWhile (· ≠ ';')), Text.trim (t.dropWhile (· ≠ ';')).tail) := by
  unfold cutStance
  rw [Text.cutFirst?_eq]
  by_cases hsemicolon : ';' ∈ t
  · rw [if_pos hsemicolon]
  · have hall : ∀ c ∈ t, decide (c ≠ ';') = true := by
      intro c hc
      simpa using fun heq : c = ';' => hsemicolon (heq ▸ hc)
    rw [if_neg hsemicolon, List.takeWhile_eq_self_iff.2 hall, List.dropWhile_eq_nil_iff.2 hall]
    rfl

/-- A rule is read in two parts: the word for its stance, and its items one by one. -/
theorem ofText?_eq_map (name raw : Text) :
    ofText? name raw = (Stance.ofText? (wordOf raw)).map fun stance =>
      ofItems name stance ((itemsOf raw).map Item.ofText) := by
  simp only [ofText?, cutStance_eq, Text.pieces_eq_splitOn]
  rfl

theorem naturalBelow?_divisorBound_eq_some_iff {t : Text} {n : Nat} :
    Numeral.naturalBelow? divisorBound t = some n ↔ Numeral.natural? t = some n ∧ n ≤ 2 ^ 63 - 1 := by
  have hbound : n < divisorBound ↔ n ≤ 2 ^ 63 - 1 := Nat.lt_iff_le_pred (by decide)
  rw [Numeral.naturalBelow?, Option.filter_eq_some_iff, decide_eq_true_eq, hbound]

/-- Without a percent sign in front an item is a name, unless it is empty. -/
theorem Item.ofText_of_head?_ne {item : Text} (hpercent : item.head? ≠ some '%') :
    Item.ofText item = if item = [] then .void else .member item := by
  unfold Item.ofText
  split
  · rfl
  · exact absurd rfl hpercent
  · rename_i hne _
    rw [if_neg hne]

/-- After a percent sign an item is a divisor, or it is void. -/
theorem Item.ofText_percent (rest : Text) :
    Item.ofText ('%' :: rest) =
      match Numeral.naturalBelow? divisorBound rest with
      | some (n + 1) => .divisor (n + 1)
      | _ => .void := rfl

theorem Item.ofText_percent_eq_divisor_iff {rest : Text} {n : Nat} :
    Item.ofText ('%' :: rest) = .divisor n ↔
      Numeral.naturalBelow? divisorBound rest = some n ∧ 1 ≤ n := by
  rw [ofText_percent]
  split
  · rename_i m hm
    rw [hm, Item.divisor.injEq, Option.some.injEq]
    omega
  · rename_i hvoid
    constructor
    · intro hitem
      cases hitem
    · rintro ⟨hn, hpositive⟩
      obtain ⟨m, rfl⟩ := Nat.exists_eq_add_of_le' hpositive
      exact absurd hn (hvoid m)

theorem Item.ofText_eq_divisor_iff {item : Text} {n : Nat} :
    Item.ofText item = .divisor n ↔ Selects item n := by
  constructor
  · intro hitem
    by_cases hpercent : item.head? = some '%'
    · obtain ⟨rest, rfl⟩ := List.head?_eq_some_iff.1 hpercent
      obtain ⟨hrest, hpositive⟩ := ofText_percent_eq_divisor_iff.1 hitem
      obtain ⟨hnatural, hbound⟩ := naturalBelow?_divisorBound_eq_some_iff.1 hrest
      obtain ⟨sign, digits, rfl, hsign, hdenotes⟩ := Numeral.natural?_eq_some_iff.1 hnatural
      exact ⟨sign, digits, rfl, hsign, hdenotes, hpositive, hbound⟩
    · rw [ofText_of_head?_ne hpercent] at hitem
      split at hitem <;> cases hitem
  · rintro ⟨sign, digits, rfl, hsign, hdenotes, hpositive, hbound⟩
    have hnatural : Numeral.natural? (sign ++ digits) = some n :=
      Numeral.natural?_eq_some_iff.2 ⟨sign, digits, rfl, hsign, hdenotes⟩
    exact ofText_percent_eq_divisor_iff.2
      ⟨naturalBelow?_divisorBound_eq_some_iff.2 ⟨hnatural, hbound⟩, hpositive⟩

theorem Item.ofText_eq_member_iff {item name : Text} :
    Item.ofText item = .member name ↔ Lists item name := by
  by_cases hpercent : item.head? = some '%'
  · constructor
    · intro hitem
      obtain ⟨rest, rfl⟩ := List.head?_eq_some_iff.1 hpercent
      rw [ofText_percent] at hitem
      split at hitem <;> cases hitem
    · rintro ⟨rfl, -, hname⟩
      exact absurd hpercent hname
  · rw [ofText_of_head?_ne hpercent]
    constructor
    · intro hitem
      split at hitem
      · cases hitem
      · rename_i hne
        cases hitem
        exact ⟨rfl, hne, hpercent⟩
    · rintro ⟨rfl, hne, -⟩
      rw [if_neg hne]

/-- What a rule holds of a set: nothing if the set is empty, and else exactly its elements. -/
structure IsSetOf {α : Type} [Ord α] [Std.TransOrd α] (s : Option (Std.ExtTreeSet α)) (P : α → Prop) :
    Prop where
  absent_iff : s = none ↔ ∀ a, ¬ P a
  mem_iff : ∀ xs ∈ s, ∀ a, a ∈ xs ↔ P a

section

variable {α : Type} [Ord α] [Std.TransOrd α] {s t : Option (Std.ExtTreeSet α)} {P Q : α → Prop}

theorem IsSetOf.congr (hs : IsSetOf s P) (hiff : ∀ a, P a ↔ Q a) : IsSetOf s Q := by
  have heq : P = Q := funext fun a => propext (hiff a)
  rwa [heq] at hs

theorem isSetOf_iff : IsSetOf s P ↔ s ≠ some ∅ ∧ ∀ a, (∃ xs ∈ s, a ∈ xs) ↔ P a := by
  constructor
  · intro hs
    cases s with
    | none => exact ⟨by simp, fun a => ⟨by simp, fun ha => absurd ha (hs.absent_iff.1 rfl a)⟩⟩
    | some xs =>
      refine ⟨?_, fun a => by simp [hs.mem_iff xs rfl]⟩
      intro hempty
      rw [Option.some.injEq, Std.ExtTreeSet.eq_empty_iff_forall_not_mem] at hempty
      have hnone := hs.absent_iff.2 fun a ha => hempty a ((hs.mem_iff xs rfl a).2 ha)
      cases hnone
  · rintro ⟨hne, hmem⟩
    cases s with
    | none => exact ⟨by simp [← hmem], by simp⟩
    | some xs =>
      have hmem : ∀ a, a ∈ xs ↔ P a := by simpa using hmem
      refine ⟨⟨nofun, fun hnever => ?_⟩, by simpa using hmem⟩
      refine absurd ?_ hne
      rw [Option.some.injEq, Std.ExtTreeSet.eq_empty_iff_forall_not_mem]
      exact fun a ha => hnever a ((hmem a).1 ha)

variable [Std.LawfulEqOrd α]

theorem IsSetOf.unique (hs : IsSetOf s P) (ht : IsSetOf t P) : s = t := by
  cases s with
  | none => exact (ht.absent_iff.2 (hs.absent_iff.1 rfl)).symm
  | some xs =>
    cases t with
    | none => exact hs.absent_iff.2 (ht.absent_iff.1 rfl)
    | some ys =>
      have hmem : ∀ a, a ∈ xs ↔ a ∈ ys := fun a => (hs.mem_iff xs rfl a).trans (ht.mem_iff ys rfl a).symm
      rw [Std.ExtTreeSet.ext_mem hmem]

theorem isSetOf_setOf [BEq α] [LawfulBEq α] (xs : List α) : IsSetOf (setOf xs) (· ∈ xs) := by
  unfold setOf
  cases xs with
  | nil => exact ⟨by simp, by simp⟩
  | cons a rest =>
    refine ⟨?_, by simp⟩
    constructor
    · intro hnone
      cases hnone
    · intro hnever
      exact absurd List.mem_cons_self (hnever a)

end

theorem isSetOf_members_ofItems (name : Text) (stance : Stance) (items : List Text) :
    IsSetOf (ofItems name stance (items.map Item.ofText)).members fun n => ∃ item ∈ items, Lists item n := by
  have hmember : ∀ item n, Item.member? item = some n ↔ item = .member n := by
    intro item n
    cases item <;> simp [Item.member?]
  refine (isSetOf_setOf _).congr fun n => ?_
  simp only [List.mem_filterMap, List.mem_map, hmember, exists_exists_and_eq_and,
    Item.ofText_eq_member_iff]

theorem isSetOf_divisors_ofItems (name : Text) (stance : Stance) (items : List Text) :
    IsSetOf (ofItems name stance (items.map Item.ofText)).divisors fun n => ∃ item ∈ items, Selects item n := by
  have hdivisor : ∀ item n, Item.divisor? item = some n ↔ item = .divisor n := by
    intro item n
    cases item <;> simp [Item.divisor?]
  refine (isSetOf_setOf _).congr fun n => ?_
  simp only [List.mem_filterMap, List.mem_map, hdivisor, exists_exists_and_eq_and,
    Item.ofText_eq_divisor_iff]

/-- What a rule's text says, its name apart: a stance, and what its items list and select. -/
structure IsReadFrom (rule : Rule) (word : Text) (items : List Text) : Prop where
  stance : rule.stance.IsNamedBy word
  members : IsSetOf rule.members fun n => ∃ item ∈ items, Lists item n
  divisors : IsSetOf rule.divisors fun n => ∃ item ∈ items, Selects item n

theorem isReadFrom_ofItems {word : Text} {stance : Stance} (hstance : stance.IsNamedBy word)
    (name : Text) (items : List Text) :
    (ofItems name stance (items.map Item.ofText)).IsReadFrom word items where
  stance := hstance
  members := isSetOf_members_ofItems name stance items
  divisors := isSetOf_divisors_ofItems name stance items

theorem ofText?_eq_some_iff {name raw : Text} {rule : Rule} :
    ofText? name raw = some rule ↔ rule.name = name ∧ rule.IsReadFrom (wordOf raw) (itemsOf raw) := by
  rw [ofText?_eq_map, Option.map_eq_some_iff]
  constructor
  · rintro ⟨stance, hstance, rfl⟩
    exact ⟨rfl, isReadFrom_ofItems (Stance.ofText?_eq_some_iff.1 hstance) name (itemsOf raw)⟩
  · obtain ⟨name', stance, members, divisors⟩ := rule
    rintro ⟨rfl, hread⟩
    refine ⟨stance, Stance.ofText?_eq_some_iff.2 hread.stance, ?_⟩
    have hmembers := hread.members.unique (isSetOf_members_ofItems name' stance (itemsOf raw))
    have hdivisors := hread.divisors.unique (isSetOf_divisors_ofItems name' stance (itemsOf raw))
    dsimp only at hmembers hdivisors
    rw [hmembers, hdivisors]
    rfl

/-- A text is read exactly if its word names a stance. -/
theorem isSome_ofText?_iff {name raw : Text} :
    (ofText? name raw).isSome = true ↔ ∃ stance : Stance, stance.IsNamedBy (wordOf raw) := by
  rw [ofText?_eq_map, Option.isSome_map, Option.isSome_iff_exists]
  simp only [Stance.ofText?_eq_some_iff]

/-- A malformed item says nothing, so the others say what they say without it. -/
theorem IsReadFrom.remove {rule : Rule} {word bad : Text} {earlier later : List Text}
    (hread : rule.IsReadFrom word (earlier ++ bad :: later)) (hbad : IsMalformed bad) :
    rule.IsReadFrom word (earlier ++ later) := by
  obtain ⟨hpercent, hselects⟩ := hbad
  have hlists : ∀ n, ¬ Lists bad n := by
    rintro n ⟨rfl, -, hname⟩
    exact hname hpercent
  refine ⟨hread.stance, hread.members.congr fun n => ?_, hread.divisors.congr fun n => ?_⟩
  · simp only [List.mem_append, List.mem_cons, or_and_right, exists_or, exists_eq_left, hlists n, false_or]
  · simp only [List.mem_append, List.mem_cons, or_and_right, exists_or, exists_eq_left, hselects n, false_or]

/-- A rule is read exactly from a text whose word names a stance. The rule bears the name that
    it is read under and has this stance; it lists the items that are names, and selects the
    buckets of the items that have a divisor, each set being absent if it is empty. An item
    with a percent sign and no divisor could as well not be there. -/
theorem read_exactly_from_word_and_items (name raw : Text) :
    ((ofText? name raw).isSome = true ↔ ∃ stance : Stance, stance.IsNamedBy (wordOf raw)) ∧
    (∀ rule, ofText? name raw = some rule ↔
      rule.name = name ∧ rule.stance.IsNamedBy (wordOf raw) ∧
        IsSetOf rule.members (fun n => ∃ item ∈ itemsOf raw, Lists item n) ∧
        IsSetOf rule.divisors (fun n => ∃ item ∈ itemsOf raw, Selects item n)) ∧
    ∀ rule earlier bad later, ofText? name raw = some rule → itemsOf raw = earlier ++ bad :: later →
      IsMalformed bad → rule.IsReadFrom (wordOf raw) (earlier ++ later) := by
  refine ⟨isSome_ofText?_iff, fun rule => ?_, fun rule earlier bad later hrule hitems hbad => ?_⟩
  · rw [ofText?_eq_some_iff]
    constructor
    · rintro ⟨hname, hread⟩
      exact ⟨hname, hread.stance, hread.members, hread.divisors⟩
    · rintro ⟨hname, hstance, hmembers, hdivisors⟩
      exact ⟨hname, hstance, hmembers, hdivisors⟩
  · obtain ⟨-, hread⟩ := ofText?_eq_some_iff.1 hrule
    rw [hitems] at hread
    exact hread.remove hbad

/-- Blanks around the text and the word are dropped and blanks within the items are not, and an
    item without a divisor leaves the others as they are. -/
theorem items_read_past_malformed_one :
    let name : Text := "ns.key".toList
    let raw : Text := " Deny ; alice;%x;%+5; bob;;%007 ".toList
    let earlier : List Text := ["alice".toList]
    let later : List Text := ["%+5".toList, " bob".toList, [], "%007".toList]
    itemsOf raw = earlier ++ "%x".toList :: later ∧
    ∃ rule, ofText? name raw = some rule ∧ rule.stance = .deny ∧
      rule.IsReadFrom (wordOf raw) (earlier ++ later) ∧
      rule.members.map (·.toList) = some [" bob".toList, "alice".toList] ∧
      rule.divisors.map (·.toList) = some [5, 7] := by
  intro name raw earlier later
  obtain ⟨hread, -, hremove⟩ := read_exactly_from_word_and_items name raw
  obtain ⟨rule, hrule⟩ := Option.isSome_iff_exists.1 (hread.2 ⟨.deny, by decide⟩)
  have hbad : IsMalformed "%x".toList := by
    refine ⟨rfl, fun n hselects => ?_⟩
    have hvoid : Item.ofText "%x".toList = .divisor n := Item.ofText_eq_divisor_iff.2 hselects
    cases hvoid
  have hitems : itemsOf raw = earlier ++ "%x".toList :: later := by decide
  have hothers := hremove rule earlier "%x".toList later hrule hitems hbad
  refine ⟨hitems, rule, hrule, ?_⟩
  cases hrule
  exact ⟨rfl, hothers, by decide, by decide⟩

end Rule

end ConfigWatch
