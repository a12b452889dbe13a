import ConfigWatch.Proofs.Rule.Items
/-!
Writing rules. A rule that is written as its word and the items for its exceptions, with a
semicolon in front of the first item and another one after the last, is read back as it was, in
whatever order the items stand. This works for the rules that can be read from some text at
all, which are the well-formed ones.
-/
namespace ConfigWatch.Rule

/-- A name that an item of a text can list. -/
def IsName (name : Text) : Prop := name ≠ [] ∧ ';' ∉ name ∧ name.head? ≠ some '%'

instance (name : Text) : Decidable (IsName name) := inferInstanceAs (Decidable (_ ∧ _ ∧ _))

/-- No set of the rule is there without elements, its names can be written as items, and its
    divisors are positive 64-bit integers. -/
structure IsWellFormed (rule : Rule) : Prop where
  members_ne_empty : rule.members ≠ some ∅
  divisors_ne_empty : rule.divisors ≠ some ∅
  isName : ∀ name, rule.HasMember name → IsName name
  divisor_bounds : ∀ n, rule.HasDivisor n → 1 ≤ n ∧ n ≤ 2 ^ 63 - 1

/-- The item that selects a bucket by its divisor in decimal form. -/
def bucketItem (n : Nat) : Text := '%' :: n.repr.toList

/-- Items that are the exceptions of a rule, each in any place and any number of times. -/
def IsEnumeratedBy (rule : Rule) (items : List Text) : Prop :=
  ∀ item, item ∈ items ↔ rule.HasMember item ∨ ∃ n, rule.HasDivisor n ∧ item = bucketItem n

theorem selects_bucketItem {n : Nat} (hpositive : 1 ≤ n) (hbound : n ≤ 2 ^ 63 - 1) :
    Selects (bucketItem n) n :=
  ⟨[], n.repr.toList, rfl, .inl rfl, Numeral.denotes_repr n, hpositive, hbound⟩

theorem selects_bucketItem_iff {n m : Nat} (hpositive : 1 ≤ n) (hbound : n ≤ 2 ^ 63 - 1) :
    Selects (bucketItem n) m ↔ m = n := by
  have hitem := Item.ofText_eq_divisor_iff.2 (selects_bucketItem hpositive hbound)
  rw [← Item.ofText_eq_divisor_iff, hitem, Item.divisor.injEq, eq_comm]

/-- Every rule is enumerated by the items in the order of its sets. -/
theorem isEnumeratedBy_itemTexts (rule : Rule) : rule.IsEnumeratedBy rule.itemTexts := by
  have hmembers : ∀ name, name ∈ rule.members.elim [] Std.ExtTreeSet.toList ↔ rule.HasMember name := by
    intro name
    cases hset : rule.members <;> simp [HasMember, hset]
  have hdivisors : ∀ n, n ∈ rule.divisors.elim [] Std.ExtTreeSet.toList ↔ rule.HasDivisor n := by
    intro n
    cases hset : rule.divisors <;> simp [HasDivisor, hset]
  have hbucket : ∀ n, '%' :: Numeral.ofNat n = bucketItem n := by
    intro n
    rw [bucketItem, Nat.toList_repr, Numeral.ofNat_eq_toDigits]
  intro item
  simp only [itemTexts, List.mem_append, List.mem_map, hmembers, hdivisors, hbucket, eq_comm]

theorem cons_join_concat_nil (items : List Text) :
    ';' :: Text.join [';'] (items ++ [[]]) = items.flatMap (fun item => ';' :: item) ++ [';'] := by
  induction items with
  | nil => rfl
  | cons item rest ih =>
    rw [List.cons_append, Text.join_cons_of_ne_nil ';' item (by simp), ih, List.flatMap_cons,
      List.cons_append, List.cons_append, List.append_assoc]

/-- With its first and its last semicolon, a written rule has an empty item at each end, which
    has no blanks to lose. -/
theorem render_eq_written (stance : Stance) (items : List Text) :
    render stance items = written stance.toText ([] :: (items ++ [[]])) := by
  rw [render, written, Text.join_cons_of_ne_nil ';' [] (by simp), cons_join_concat_nil, List.nil_append,
    List.append_assoc, List.cons_append]

theorem itemsOf_render (stance : Stance) {items : List Text} (hitems : ∀ item ∈ items, ';' ∉ item) :
    itemsOf (render stance items) = [] :: (items ++ [[]]) := by
  have hall : ∀ item ∈ [] :: (items ++ [[]]), ';' ∉ item := by
    simpa [or_imp, forall_and] using hitems
  rw [render_eq_written, itemsOf_written stance.not_mem_toText hall (List.cons_ne_nil _ _)]
  exact trimLast_concat ([] :: items) []

theorem wordOf_render (stance : Stance) (items : List Text) :
    wordOf (render stance items) = stance.toText := by
  rw [render_eq_written, written, wordOf_append_cons stance.not_mem_toText]
  cases stance <;> decide

/-- A rule that was read is well-formed. -/
theorem isWellFormed_of_ofText? {name raw : Text} {rule : Rule} (hread : ofText? name raw = some rule) :
    rule.IsWellFormed := by
  obtain ⟨-, hread⟩ := ofText?_eq_some_iff.1 hread
  refine ⟨(isSetOf_iff.1 hread.members).1, (isSetOf_iff.1 hread.divisors).1, fun name hname => ?_,
    fun n => hread.divisor_bounds⟩
  obtain ⟨item, hitem, rfl, hne, hpercent⟩ := hread.hasMember_iff.1 hname
  exact ⟨hne, Text.not_mem_of_mem_splitOn item hitem, hpercent⟩

/-- The names that the items of a well-formed rule list are its members. -/
theorem IsWellFormed.lists_iff {rule : Rule} (hrule : rule.IsWellFormed) {items : List Text}
    (hitems : rule.IsEnumeratedBy items) (name : Text) :
    (∃ item ∈ items, Lists item name) ↔ rule.HasMember name := by
  constructor
  · rintro ⟨item, hitem, rfl, -, hpercent⟩
    obtain hmember | ⟨n, -, rfl⟩ := (hitems item).1 hitem
    · exact hmember
    · exact absurd rfl hpercent
  · intro hmember
    obtain ⟨hne, -, hpercent⟩ := hrule.isName name hmember
    exact ⟨name, (hitems name).2 (.inl hmember), rfl, hne, hpercent⟩

theorem IsWellFormed.selects_iff {rule : Rule} (hrule : rule.IsWellFormed) {items : List Text}
    (hitems : rule.IsEnumeratedBy items) (n : Nat) :
    (∃ item ∈ items, Selects item n) ↔ rule.HasDivisor n := by
  constructor
  · rintro ⟨item, hitem, hselects⟩
    obtain hmember | ⟨m, hdivisor, rfl⟩ := (hitems item).1 hitem
    · obtain ⟨-, -, hpercent⟩ := hrule.isName item hmember
      obtain ⟨sign, digits, rfl, -⟩ := hselects
      exact absurd rfl hpercent
    · obtain ⟨hpositive, hbound⟩ := hrule.divisor_bounds m hdivisor
      rwa [(selects_bucketItem_iff hpositive hbound).1 hselects]
  · intro hdivisor
    obtain ⟨hpositive, hbound⟩ := hrule.divisor_bounds n hdivisor
    exact ⟨bucketItem n, (hitems _).2 (.inr ⟨n, hdivisor, rfl⟩), selects_bucketItem hpositive hbound⟩

theorem IsWellFormed.not_mem_of_isEnumeratedBy {rule : Rule} (hrule : rule.IsWellFormed)
    {items : List Text} (hitems : rule.IsEnumeratedBy items) : ∀ item ∈ items, ';' ∉ item := by
  intro item hitem
  obtain hmember | ⟨n, -, rfl⟩ := (hitems item).1 hitem
  · exact (hrule.isName item hmember).2.1
  · intro hsemicolon
    obtain heq | hdigit := List.mem_cons.1 hsemicolon
    · cases heq
    · have hisDigit : ';'.isDigit = true := (Numeral.denotes_repr n).isDigit ';' hdigit
      cases hisDigit

/-- A well-formed rule is read from its stance and the items for its exceptions. -/
theorem IsWellFormed.ofText?_render {rule : Rule} (hrule : rule.IsWellFormed) {items : List Text}
    (hitems : rule.IsEnumeratedBy items) : ofText? rule.name (render rule.stance items) = some rule := by
  have hsame : SaySame items ([] :: (items ++ [[]])) := by
    constructor <;> simp [or_and_right, exists_or, not_lists_nil, not_selects_nil]
  have hread : rule.IsReadFrom rule.stance.toText items :=
    ⟨by cases rule.stance <;> decide,
      isSetOf_iff.2 ⟨hrule.members_ne_empty, fun name => (hrule.lists_iff hitems name).symm⟩,
      isSetOf_iff.2 ⟨hrule.divisors_ne_empty, fun n => (hrule.selects_iff hitems n).symm⟩⟩
  rw [ofText?_eq_some_iff, wordOf_render, itemsOf_render _ (hrule.not_mem_of_isEnumeratedBy hitems)]
  exact ⟨rfl, hread.congr hsame⟩

/-- A well-formed rule is read back from its stance and the items for its exceptions, whatever
    enumerates them; and exactly the well-formed rules are read from any text. -/
theorem read_back_and_wellFormed_iff_read :
    (∀ (rule : Rule) (items : List Text), rule.IsWellFormed → rule.IsEnumeratedBy items →
      ofText? rule.name (render rule.stance items) = some rule) ∧
    ∀ rule : Rule, rule.IsWellFormed ↔ ∃ name raw, ofText? name raw = some rule := by
  refine ⟨fun rule items hrule hitems => hrule.ofText?_render hitems, fun rule => ?_⟩
  constructor
  · intro hrule
    exact ⟨rule.name, _, hrule.ofText?_render rule.isEnumeratedBy_itemTexts⟩
  · rintro ⟨name, raw, hread⟩
    exact isWellFormed_of_ofText? hread

/-- Blanks and percent signs within names are kept, and so is the greatest divisor, with names
    and buckets in any order. -/
theorem mixed_items_read_back :
    let rule : Rule := ofItems "g.r".toList .deny
      [.member " a%".toList, .member "é \r".toList, .divisor 7, .divisor 9223372036854775807]
    let items : List Text :=
      ["%7".toList, "é \r".toList, "%9223372036854775807".toList, " a%".toList, "%7".toList]
    rule.IsWellFormed ∧ rule.IsEnumeratedBy items ∧
      render rule.stance items = "deny;;%7;é \r;%9223372036854775807; a%;%7;".toList ∧
      ofText? "g.r".toList (render rule.stance items) = some rule := by
  intro rule items
  have hmembers : rule.members = some (.ofList [" a%".toList, "é \r".toList]) := rfl
  have hdivisors : rule.divisors = some (.ofList [7, 9223372036854775807]) := rfl
  have hmember : ∀ name, rule.HasMember name ↔ name = " a%".toList ∨ name = "é \r".toList := by
    simp [HasMember, hmembers]
  have hdivisor : ∀ n, rule.HasDivisor n ↔ n = 7 ∨ n = 9223372036854775807 := by
    simp [HasDivisor, hdivisors]
  have hrule : rule.IsWellFormed := by
    refine ⟨by simp [hmembers], by simp [hdivisors], fun name hname => ?_, fun n hn => ?_⟩
    · obtain rfl | rfl := (hmember name).1 hname <;> decide
    · obtain rfl | rfl := (hdivisor n).1 hn <;> decide
  have hitems : rule.IsEnumeratedBy items := by
    have hseven : bucketItem 7 = "%7".toList := by decide
    have hgreatest : bucketItem 9223372036854775807 = "%9223372036854775807".toList := by decide
    intro item
    simp only [hmember, hdivisor, or_and_right, exists_or, exists_eq_left, hseven, hgreatest, items,
      List.mem_cons, List.not_mem_nil, or_false]
    grind
  exact ⟨hrule, hitems, by decide, read_back_and_wellFormed_iff_read.1 rule items hrule hitems⟩

end ConfigWatch.Rule
