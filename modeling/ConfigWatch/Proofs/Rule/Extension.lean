import ConfigWatch.Proofs.Rule.Items
/-!
Extending rules. What is appended to the text of a rule after a semicolon can add exceptions
and takes none away, so a rule that was extended decides differently only where it now decides
against its stance. Another stance turns every decision around.
-/
namespace ConfigWatch.Rule

theorem cutStance_of_not_mem {t : Text} (hsemicolon : ';' ∉ t) : cutStance t.trim = (t.trim, []) := by
  rw [cutStance, Text.cutFirst?_eq, if_neg (mt Text.mem_of_mem_trim hsemicolon)]
  dsimp only
  rw [Text.trim_trim]

/-- What follows a semicolon does not change the word. -/
theorem wordOf_extended (t s : Text) : wordOf (t ++ ';' :: s) = wordOf t := by
  by_cases hsemicolon : ';' ∈ t
  · obtain ⟨word, rest, rfl, hword⟩ := List.eq_append_cons_of_mem hsemicolon
    rw [List.append_assoc, List.cons_append, wordOf_append_cons hword, wordOf_append_cons hword]
  · rw [wordOf_append_cons hsemicolon, wordOf_eq, cutStance_of_not_mem hsemicolon]

theorem itemsOf_of_not_mem {t : Text} (hsemicolon : ';' ∉ t) : itemsOf t = [[]] := by
  rw [itemsOf_eq, cutStance_of_not_mem hsemicolon, List.splitOn_nil]

/-- A text that does not end in blanks keeps its items, the last one included, whatever follows
    after a semicolon. -/
theorem itemsOf_extended {t : Text} (ht : t.trim = t) (hsemicolon : ';' ∈ t) (s : Text) :
    itemsOf (t ++ ';' :: s) = itemsOf t ++ (Text.trimEnd s).splitOn ';' := by
  obtain ⟨word, rest, rfl, hword⟩ := List.eq_append_cons_of_mem hsemicolon
  have hrest : Text.trimEnd rest = rest := by
    have hend := Text.trimEnd_of_trim_eq ht
    rw [Text.trimEnd_append_cons (by decide)] at hend
    exact (List.cons.inj (List.append_cancel_left hend)).2
  have hstart : Text.trimStart rest = Text.trim rest := by rw [← Text.trimStart_trimEnd, hrest]
  rw [List.append_assoc, List.cons_append, itemsOf_append_cons hword, itemsOf_append_cons hword,
    Text.trim_append_cons (by decide), List.splitOn_append_cons_self, hstart]

theorem mem_itemsOf_extended {t : Text} (ht : t.trim = t) (s : Text) {item : Text}
    (hitem : item ∈ itemsOf t) (hne : item ≠ []) : item ∈ itemsOf (t ++ ';' :: s) := by
  by_cases hsemicolon : ';' ∈ t
  · rw [itemsOf_extended ht hsemicolon]
    exact List.mem_append_left _ hitem
  · rw [itemsOf_of_not_mem hsemicolon, List.mem_singleton] at hitem
    exact absurd hitem hne

/-- A rule has the stance of another one and makes all its exceptions, and perhaps more. -/
structure Extends (extended rule : Rule) : Prop where
  stance_eq : extended.stance = rule.stance
  hasMember : ∀ name, rule.HasMember name → extended.HasMember name
  hasDivisor : ∀ n, rule.HasDivisor n → extended.HasDivisor n

theorem Extends.excepts {extended rule : Rule} (hextends : extended.Extends rule) {id : Identity}
    (hexcepts : rule.Excepts id) : extended.Excepts id := by
  obtain hlisted | ⟨n, hdivisor, hdvd⟩ := hexcepts
  · exact .inl (hextends.hasMember _ hlisted)
  · exact .inr ⟨n, hextends.hasDivisor n hdivisor, hdvd⟩

/-- A rule extends another one with the same word if it is read from at least its items. -/
theorem IsReadFrom.extends_of_subset {rule extended : Rule} {word : Text} {items others : List Text}
    (hread : rule.IsReadFrom word items) (hextended : extended.IsReadFrom word others)
    (hsubset : ∀ item ∈ items, item ≠ [] → item ∈ others) : extended.Extends rule where
  stance_eq := hextended.stance.unique hread.stance
  hasMember name hname := by
    obtain ⟨item, hitem, hlists⟩ := hread.hasMember_iff.1 hname
    have hne : item ≠ [] := fun heq => not_lists_nil name (heq ▸ hlists)
    exact hextended.hasMember_iff.2 ⟨item, hsubset item hitem hne, hlists⟩
  hasDivisor n hdivisor := by
    obtain ⟨item, hitem, hselects⟩ := hread.hasDivisor_iff.1 hdivisor
    have hne : item ≠ [] := fun heq => not_selects_nil n (heq ▸ hselects)
    exact hextended.hasDivisor_iff.2 ⟨item, hsubset item hitem hne, hselects⟩

/-- A text that is read and has no blanks at its ends is read with more after a semicolon, and
    makes no fewer exceptions then. -/
theorem exists_extends {name t : Text} {rule : Rule} (ht : t.trim = t) (hread : ofText? name t = some rule)
    (s : Text) : ∃ extended, ofText? name (t ++ ';' :: s) = some extended ∧ extended.Extends rule := by
  obtain ⟨-, hrule⟩ := ofText?_eq_some_iff.1 hread
  let extended := ofItems name rule.stance ((itemsOf (t ++ ';' :: s)).map Item.ofText)
  have hextended : extended.IsReadFrom (wordOf t) (itemsOf (t ++ ';' :: s)) :=
    isReadFrom_ofItems hrule.stance name _
  have hlonger : ofText? name (t ++ ';' :: s) = some extended :=
    ofText?_eq_some_iff.2 ⟨rfl, (wordOf_extended t s).symm ▸ hextended⟩
  exact ⟨extended, hlonger, hrule.extends_of_subset hextended fun _ => mem_itemsOf_extended ht s⟩

theorem ofText?_stance (name : Text) (stance : Stance) (r : Text) :
    ofText? name (stance.toText ++ ';' :: r) =
      some (ofItems name stance (((Text.trim r).splitOn ';').map Item.ofText)) := by
  have hword : ';' ∉ stance.toText := stance.not_mem_toText
  have hstance := Stance.ofText?_eq_some_iff.2 stance.isNamedBy_trim_toText
  rw [ofText?_eq_map, wordOf_append_cons hword, itemsOf_append_cons hword, hstance]
  rfl

/-- Whatever is appended after a semicolon to a text without blanks at its ends that is read as a
    rule, the result is read as a rule of the same stance with all members and divisors of the
    first one; so it rejects what a rule that allows rejected, and admits what a rule that denies
    admitted. The two rules with the same text after the stance decide against each other on
    every identity. -/
theorem extension_only_adds_exceptions (name : Text) :
    (∀ t rule, Text.trim t = t → ofText? name t = some rule → ∀ s, ∃ extended,
      ofText? name (t ++ ';' :: s) = some extended ∧ extended.Extends rule ∧
        ∀ id, (rule.stance = .allow → rule.allows id = false → extended.allows id = false) ∧
          (rule.stance = .deny → rule.allows id = true → extended.allows id = true)) ∧
    ∀ r, ∃ allowing denying, ofText? name (Stance.allow.toText ++ ';' :: r) = some allowing ∧
      ofText? name (Stance.deny.toText ++ ';' :: r) = some denying ∧
        ∀ id, denying.allows id = !allowing.allows id := by
  refine ⟨fun t rule ht hread s => ?_, fun r => ?_⟩
  · obtain ⟨extended, hextended, hextends⟩ := exists_extends ht hread s
    refine ⟨extended, hextended, hextends, fun id => ⟨fun hallow hrejects => ?_, fun hdeny hadmits => ?_⟩⟩
    · rw [← Bool.not_eq_true, allows_iff_of_allow hallow, not_not] at hrejects
      rw [← Bool.not_eq_true, allows_iff_of_allow (hextends.stance_eq.trans hallow), not_not]
      exact hextends.excepts hrejects
    · rw [allows_iff_of_deny hdeny] at hadmits
      rw [allows_iff_of_deny (hextends.stance_eq.trans hdeny)]
      exact hextends.excepts hadmits
  · refine ⟨_, _, ofText?_stance name .allow r, ofText?_stance name .deny r, fun id => ?_⟩
    exact (Bool.not_not _).symm

/-- Appended text with blanks at its ends and a malformed item adds a bucket, and still rejects
    the member that stood behind a blank. -/
theorem appended_bucket_rejects :
    let name : Text := "g.r".toList
    let t : Text := "Allow; a;%5".toList
    let s : Text := " ;%x;b ;%3 ".toList
    let rule : Rule := ofItems name .allow [.member "a".toList, .divisor 5]
    t.trim = t ∧ ofText? name t = some rule ∧ rule.allows (.text "c".toList) = true ∧
      ∃ extended, ofText? name (t ++ ';' :: s) = some extended ∧ extended.Extends rule ∧
        extended.allows (.text "c".toList) = false ∧ extended.allows (.text "a".toList) = false := by
  intro name t s rule
  have htrim : t.trim = t := by decide
  have hread : ofText? name t = some rule := by decide
  have hmember : rule.allows (.text "a".toList) = false := by decide
  obtain ⟨extended, hextended, hextends, hdecides⟩ := (extension_only_adds_exceptions name).1 t rule htrim hread s
  have hbucket : admits (ofText? name (t ++ ';' :: s)) (.text "c".toList) = false := by decide
  rw [hextended] at hbucket
  exact ⟨htrim, hread, by decide, extended, hextended, hextends, hbucket, (hdecides _).1 rfl hmember⟩

end ConfigWatch.Rule
