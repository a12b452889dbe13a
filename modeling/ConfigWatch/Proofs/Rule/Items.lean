import ConfigWatch.Proofs.Rule.Decision
/-!
The items of a rule as a set. Items that are written with semicolons between them are read back
one by one, except that the blanks before the first and after the last of them are dropped. Once
these blanks are gone, neither the order of the items nor how often they stand there matters. An
item with a blank at an end is another item at that end of the text than elsewhere.
-/
namespace ConfigWatch

namespace Stance

theorem not_mem_toText (stance : Stance) : ';' ∉ stance.toText := by
  cases stance <;> decide

theorem isNamedBy_trim_toText (stance : Stance) : stance.IsNamedBy stance.toText.trim := by
  cases stance <;> decide

/-- A word names one stance at most. -/
theorem IsNamedBy.unique {stance other : Stance} {word : Text} (hstance : stance.IsNamedBy word)
    (hother : other.IsNamedBy word) : stance = other :=
  Option.some.inj ((ofText?_eq_some_iff.2 hstance).symm.trans (ofText?_eq_some_iff.2 hother))

/-- A word for a stance has no semicolon, whatever blanks stand around it. -/
theorem IsNamedBy.not_mem {stance : Stance} {word : Text} (hword : stance.IsNamedBy word.trim) :
    ';' ∉ word := by
  intro hsemicolon
  obtain ⟨left, right, rfl, -⟩ := List.eq_append_cons_of_mem hsemicolon
  have hmem : ';' ∈ (Text.trim (left ++ ';' :: right)).map Char.toLower := by
    rw [Text.trim_append_cons (by decide)]
    exact List.mem_map.2 ⟨';', by simp, by decide⟩
  rw [hword] at hmem
  exact stance.not_mem_toText hmem

end Stance

namespace Rule

/-- The text of a rule: a word, and items with semicolons between them. -/
def written (word : Text) (items : List Text) : Text := word ++ ';' :: Text.join [';'] items

def trimLast : List Text → List Text
  | [] => []
  | [last] => [last.trimEnd]
  | item :: next :: rest => item :: trimLast (next :: rest)

/-- Items without the blanks before the first and after the last of them. -/
def trimOuter (items : List Text) : List Text := trimLast (items.modifyHead Text.trimStart)

theorem trimLast_concat (items : List Text) (last : Text) :
    trimLast (items ++ [last]) = items ++ [last.trimEnd] := by
  induction items with
  | nil => rfl
  | cons item rest ih =>
    cases rest with
    | nil => rfl
    | cons next rest => exact congrArg (item :: ·) ih

theorem trimLast_ne_nil {items : List Text} (hne : items ≠ []) : trimLast items ≠ [] := by
  fun_cases trimLast items with
  | case1 => exact absurd rfl hne
  | case2 last => exact List.cons_ne_nil _ _
  | case3 item next rest => exact List.cons_ne_nil _ _

theorem trimStart_join (items : List Text) :
    Text.trimStart (Text.join [';'] items) = Text.join [';'] (items.modifyHead Text.trimStart) := by
  match items with
  | [] => rfl
  | [item] => rfl
  | item :: next :: rest =>
    have hne : next :: rest ≠ [] := List.cons_ne_nil next rest
    rw [List.modifyHead_cons, Text.join_cons_of_ne_nil ';' _ hne, Text.join_cons_of_ne_nil ';' _ hne]
    exact Text.trimStart_append_cons (by decide) item _

theorem trimEnd_join (items : List Text) :
    Text.trimEnd (Text.join [';'] items) = Text.join [';'] (trimLast items) := by
  fun_induction trimLast items with
  | case1 => rfl
  | case2 last => rfl
  | case3 item next rest ih =>
    have hne : next :: rest ≠ [] := List.cons_ne_nil next rest
    rw [Text.join_cons_of_ne_nil ';' _ hne, Text.join_cons_of_ne_nil ';' _ (trimLast_ne_nil hne), ← ih]
    exact Text.trimEnd_append_cons (by decide) item _

theorem trim_join (items : List Text) :
    Text.trim (Text.join [';'] items) = Text.join [';'] (trimOuter items) := by
  rw [Text.trim, trimStart_join, trimEnd_join, trimOuter]

theorem not_mem_of_mem_trimLast {items : List Text} (hitems : ∀ item ∈ items, ';' ∉ item) :
    ∀ item ∈ trimLast items, ';' ∉ item := by
  fun_induction trimLast items with
  | case1 => exact hitems
  | case2 last =>
    simp only [List.mem_singleton, forall_eq] at hitems ⊢
    exact mt Text.mem_of_mem_trimEnd hitems
  | case3 item next rest ih =>
    rw [List.forall_mem_cons] at hitems ⊢
    exact ⟨hitems.1, ih hitems.2⟩

theorem not_mem_of_mem_trimOuter {items : List Text} (hitems : ∀ item ∈ items, ';' ∉ item) :
    ∀ item ∈ trimOuter items, ';' ∉ item := by
  refine not_mem_of_mem_trimLast ?_
  cases items with
  | nil => exact hitems
  | cons item rest =>
    rw [List.forall_mem_cons] at hitems
    rw [List.modifyHead_cons, List.forall_mem_cons]
    exact ⟨mt Text.mem_of_mem_trimStart hitems.1, hitems.2⟩

theorem wordOf_eq (raw : Text) : wordOf raw = (cutStance raw.trim).1 := by
  rw [cutStance_eq, wordOf]

theorem itemsOf_eq (raw : Text) : itemsOf raw = (cutStance raw.trim).2.splitOn ';' := by
  rw [cutStance_eq, itemsOf]

/-- The word ends at the first semicolon, whatever follows. -/
theorem cutStance_append_cons {word : Text} (hword : ';' ∉ word) (rest : Text) :
    cutStance (Text.trim (word ++ ';' :: rest)) = (word.trim, Text.trim rest) := by
  have hcut : Text.cutFirst? ';' (word.trimStart ++ ';' :: Text.trimEnd rest) =
      some (word.trimStart, Text.trimEnd rest) :=
    Text.cutFirst?_eq_some_iff.2 ⟨rfl, mt Text.mem_of_mem_trimStart hword⟩
  rw [Text.trim_append_cons (by decide), cutStance, hcut]
  dsimp only
  rw [Text.trim_trimStart, Text.trim_trimEnd]

theorem wordOf_append_cons {word : Text} (hword : ';' ∉ word) (rest : Text) :
    wordOf (word ++ ';' :: rest) = word.trim := by
  rw [wordOf_eq, cutStance_append_cons hword]

theorem itemsOf_append_cons {word : Text} (hword : ';' ∉ word) (rest : Text) :
    itemsOf (word ++ ';' :: rest) = (Text.trim rest).splitOn ';' := by
  rw [itemsOf_eq, cutStance_append_cons hword]

theorem itemsOf_written {word : Text} (hword : ';' ∉ word) {items : List Text}
    (hitems : ∀ item ∈ items, ';' ∉ item) (hne : items ≠ []) :
    itemsOf (written word items) = trimOuter items := by
  have hhead : items.modifyHead Text.trimStart ≠ [] := by simpa using hne
  rw [written, itemsOf_append_cons hword, trim_join, Text.join_eq_intercalate,
    List.splitOn_intercalate ';' (not_mem_of_mem_trimOuter hitems) (trimLast_ne_nil hhead)]

/-- Two lists of items list the same names and select the same buckets. -/
structure SaySame (items others : List Text) : Prop where
  lists_iff : ∀ name, (∃ item ∈ items, Lists item name) ↔ ∃ item ∈ others, Lists item name
  selects_iff : ∀ n, (∃ item ∈ items, Selects item n) ↔ ∃ item ∈ others, Selects item n

theorem not_lists_nil (name : Text) : ¬ Lists [] name := by
  rintro ⟨rfl, hne, -⟩
  exact hne rfl

theorem not_selects_nil (n : Nat) : ¬ Selects [] n := by
  rintro ⟨sign, digits, hitem, -⟩
  cases hitem

theorem saySame_of_mem_iff {items others : List Text} (hsame : ∀ item, item ∈ items ↔ item ∈ others) :
    SaySame items others := by
  constructor <;> intro <;> simp only [hsame]

theorem saySame_singleton_nil : SaySame [[]] [] := by
  constructor <;> simp [not_lists_nil, not_selects_nil]

theorem SaySame.symm {items others : List Text} (hsame : SaySame items others) : SaySame others items :=
  ⟨fun name => (hsame.lists_iff name).symm, fun n => (hsame.selects_iff n).symm⟩

theorem IsReadFrom.congr {rule : Rule} {word : Text} {items others : List Text}
    (hread : rule.IsReadFrom word items) (hsame : SaySame items others) : rule.IsReadFrom word others where
  stance := hread.stance
  members := hread.members.congr hsame.lists_iff
  divisors := hread.divisors.congr hsame.selects_iff

/-- Rules of one name that are read from one word are equal exactly if their items say the same. -/
theorem IsReadFrom.eq_iff_saySame {rule other : Rule} {word : Text} {items others : List Text}
    (hread : rule.IsReadFrom word items) (hother : other.IsReadFrom word others)
    (hname : rule.name = other.name) : rule = other ↔ SaySame items others := by
  constructor
  · rintro rfl
    exact ⟨fun _ => hread.hasMember_iff.symm.trans hother.hasMember_iff,
      fun _ => hread.hasDivisor_iff.symm.trans hother.hasDivisor_iff⟩
  · intro hsame
    obtain ⟨hstance, hmembers, hdivisors⟩ := hread.congr hsame
    cases rule
    cases other
    simp only [mk.injEq]
    exact ⟨hname, hstance.unique hother.stance, hmembers.unique hother.members, hdivisors.unique hother.divisors⟩

/-- What is written is read back, without the outer blanks. -/
theorem ofText?_written_eq_some_iff {word : Text} (hword : ';' ∉ word) {items : List Text}
    (hitems : ∀ item ∈ items, ';' ∉ item) {name : Text} {rule : Rule} :
    ofText? name (written word items) = some rule ↔
      rule.name = name ∧ rule.IsReadFrom word.trim (trimOuter items) := by
  rw [ofText?_eq_some_iff, written, wordOf_append_cons hword, ← written]
  cases items with
  | nil =>
    rw [written, itemsOf_append_cons hword]
    exact and_congr_right fun _ =>
      ⟨fun hread => hread.congr saySame_singleton_nil, fun hread => hread.congr saySame_singleton_nil.symm⟩
  | cons item rest => rw [itemsOf_written hword hitems (List.cons_ne_nil item rest)]

/-- An item excepts an identity: it lists it, or it selects a bucket that it falls into. -/
def Catches (item : Text) (id : Identity) : Prop :=
  Lists item id.listedAs ∨ ∃ n, Selects item n ∧ n ∣ id.magnitude

/-- The exceptions of a rule are those of its items, one by one. -/
theorem IsReadFrom.excepts_iff_catches {rule : Rule} {word : Text} {items : List Text}
    (hread : rule.IsReadFrom word items) (id : Identity) :
    rule.Excepts id ↔ ∃ item ∈ items, Catches item id := by
  simp only [Excepts, hread.hasMember_iff, hread.hasDivisor_iff, Catches]
  constructor
  · rintro (⟨item, hitem, hlists⟩ | ⟨n, ⟨item, hitem, hselects⟩, hdvd⟩)
    · exact ⟨item, hitem, .inl hlists⟩
    · exact ⟨item, hitem, .inr ⟨n, hselects, hdvd⟩⟩
  · rintro ⟨item, hitem, hlists | ⟨n, hselects, hdvd⟩⟩
    · exact .inl ⟨item, hitem, hlists⟩
    · exact .inr ⟨n, ⟨item, hitem, hselects⟩, hdvd⟩

/-- Whatever items follow a word for a stance, a rule of this stance is read, and it decides
    against the stance for what some item catches, blanks before the first and after the last item
    aside. Two lists of items give the same rule exactly if they then list the same names and
    select the same buckets; so they do if they hold the same items, in any order and number. -/
theorem order_and_repetition_immaterial {word : Text} {stance : Stance}
    (hstance : stance.IsNamedBy word.trim) {items others : List Text}
    (hitems : ∀ item ∈ items, ';' ∉ item) (hothers : ∀ item ∈ others, ';' ∉ item) (name : Text) :
    ∃ rule other, ofText? name (written word items) = some rule ∧
      ofText? name (written word others) = some other ∧ rule.stance = stance ∧
      (∀ id, rule.allows id = true ↔ Xor (stance = .allow) (∃ item ∈ trimOuter items, Catches item id)) ∧
      (rule = other ↔ SaySame (trimOuter items) (trimOuter others)) ∧
      ((∀ item, item ∈ trimOuter items ↔ item ∈ trimOuter others) → rule = other) := by
  let rule := ofItems name stance ((trimOuter items).map Item.ofText)
  let other := ofItems name stance ((trimOuter others).map Item.ofText)
  have hread : rule.IsReadFrom word.trim (trimOuter items) := isReadFrom_ofItems hstance name _
  have hother : other.IsReadFrom word.trim (trimOuter others) := isReadFrom_ofItems hstance name _
  have hequal : rule = other ↔ SaySame (trimOuter items) (trimOuter others) :=
    hread.eq_iff_saySame hother rfl
  refine ⟨rule, other, (ofText?_written_eq_some_iff hstance.not_mem hitems).2 ⟨rfl, hread⟩,
    (ofText?_written_eq_some_iff hstance.not_mem hothers).2 ⟨rfl, hother⟩, rfl, fun id => ?_, hequal,
    fun hsame => hequal.2 (saySame_of_mem_iff hsame)⟩
  have hdecides := rule.allows_iff id
  rwa [hread.excepts_iff_catches] at hdecides

/-- Blanks at the ends of the text do not count, and blanks of inner items do. -/
theorem shuffled_items_give_same_rule :
    let word : Text := " Deny ".toList
    let items : List Text := ["a".toList, " b".toList, "%4".toList, "a".toList]
    let others : List Text := ["\t%4".toList, " b".toList, "a ".toList]
    ofText? "g.r".toList (written word items) = ofText? "g.r".toList (written word others) ∧
      Rule.admits (ofText? "g.r".toList (written word others)) (.text " b".toList) = true ∧
      Rule.admits (ofText? "g.r".toList (written word others)) (.text "b ".toList) = false := by
  intro word items others
  have hstance : Stance.deny.IsNamedBy word.trim := by decide
  have hitems : ∀ item ∈ items, ';' ∉ item := by decide
  have hothers : ∀ item ∈ others, ';' ∉ item := by decide
  obtain ⟨rule, other, hrule, hother, -, -, -, hequal⟩ :=
    order_and_repetition_immaterial hstance hitems hothers "g.r".toList
  have hforth : ∀ item ∈ trimOuter items, item ∈ trimOuter others := by decide
  have hback : ∀ item ∈ trimOuter others, item ∈ trimOuter items := by decide
  have hsame : rule = other := hequal fun item => ⟨hforth item, hback item⟩
  refine ⟨?_, by decide, by decide⟩
  rw [hrule, hother, hsame]

/-- An item with a blank in front lists another name where it comes first, so the order of items
    counts as long as the outer blanks are there. -/
theorem blank_dropped_before_first_item_only :
    let items : List Text := [" a".toList, "b".toList]
    let others : List Text := ["b".toList, " a".toList]
    (∀ item, item ∈ items ↔ item ∈ others) ∧ (∀ item ∈ items, ';' ∉ item) ∧
      ofText? "g.r".toList (written "deny".toList items) ≠ ofText? "g.r".toList (written "deny".toList others) ∧
      admits (ofText? "g.r".toList (written "deny".toList items)) (.text "a".toList) = true ∧
      admits (ofText? "g.r".toList (written "deny".toList others)) (.text "a".toList) = false := by
  intro items others
  have hadmitted : admits (ofText? "g.r".toList (written "deny".toList items)) (.text "a".toList) = true := by
    decide
  have hrejected : admits (ofText? "g.r".toList (written "deny".toList others)) (.text "a".toList) = false := by
    decide
  refine ⟨fun item => ?_, by decide, fun hequal => ?_, hadmitted, hrejected⟩
  · simp only [items, others, List.mem_cons, List.not_mem_nil, or_false]
    exact or_comm
  · rw [hequal, hrejected] at hadmitted
    cases hadmitted

end Rule

end ConfigWatch
