import ConfigWatch.CommandLine.Report
import ConfigWatch.Proofs.Replica.Transparency
import ConfigWatch.Proofs.Rule.Decision
/-!
Decisions in reports. Every check in a report is decided by the rule that the store has, for
the integer that the identity reads as, or else for its text. An integer is compared with the
names of a rule in decimal form, so a name that a rule lists is recognised in any spelling only
if its text reads as no integer.
-/
namespace ConfigWatch

namespace Identity

/-- A text that reads as an integer stands for it. -/
theorem ofText_of_denotes {t : Text} {n : Int64} (hdenotes : Numeral.DenotesInteger t n.toInt) :
    ofText t = .number n := by
  have hread : Numeral.integerWithin? Int64.minValue.toInt Int64.maxValue.toInt t = some n.toInt :=
    Numeral.integerWithin?_eq_some_iff.2 ⟨hdenotes, n.minValue_le_toInt, n.toInt_le⟩
  rw [ofText, hread]
  exact congrArg number n.ofInt_toInt

/-- A text that reads as no 64-bit integer stands for itself. -/
theorem ofText_of_not_denotes {t : Text} (hnone : ∀ n : Int64, ¬ Numeral.DenotesInteger t n.toInt) :
    ofText t = .text t := by
  have hread : Numeral.integerWithin? Int64.minValue.toInt Int64.maxValue.toInt t = none := by
    refine Option.eq_none_iff_forall_ne_some.2 fun v hv => ?_
    obtain ⟨hdenotes, hleast, hgreatest⟩ := Numeral.integerWithin?_eq_some_iff.1 hv
    have hvalue : (Int64.ofInt v).toInt = v := by
      rw [Int64.toInt_maxValue] at hgreatest
      exact Int64.toInt_ofInt_of_le hleast (by omega)
    exact hnone (.ofInt v) (hvalue.symm ▸ hdenotes)
  rw [ofText, hread]

end Identity

namespace CommandLine

/-- The decision about a check that the store alone leads to. -/
def Check.decision (check : Check) (s : Store) : Bool :=
  Rule.admits (s.ruleNamed? check.name) (.ofText check.id)

theorem Check.ofText?_append_cons (name : Text) {id : Text} (hcolon : ':' ∉ id) :
    Check.ofText? (name ++ ':' :: id) = some ⟨name, id⟩ := by
  rw [Check.ofText?, Text.cutLast?_append_cons name hcolon]
  rfl

theorem Check.decide_fst {r : Replica} (hcurrent : r.IsCurrent) (check : Check) :
    (check.decide r).1 = check.decision r.store := by
  rw [Check.decide, Replica.checkNamed_fst, hcurrent.ruleNamed_fst, Check.decision]

theorem Check.store_decide (check : Check) (r : Replica) : (check.decide r).2.store = r.store :=
  Replica.store_ruleNamed r check.name

theorem Check.isCurrent_decide {r : Replica} (hcurrent : r.IsCurrent) (check : Check) :
    (check.decide r).2.IsCurrent := by
  have hnamed : (Request.checkNamed check.name (.ofText check.id)).isByName = true := rfl
  exact hcurrent.answer hnamed

/-- Rules that earlier checks have kept change nothing about later ones. -/
theorem checkLines_fst {r : Replica} (hcurrent : r.IsCurrent) (checks : List Check) :
    (checkLines r checks).1 = checks.map fun check => checkLine check (check.decision r.store) := by
  induction checks generalizing r with
  | nil => rfl
  | cons check rest ih =>
    have hrest := ih (check.isCurrent_decide hcurrent)
    rw [check.store_decide] at hrest
    rw [checkLines, List.map_cons, ← hrest, ← check.decide_fst hcurrent]

/-- The line about a check comes after the lines about the earlier ones. -/
theorem reportWith_append_cons {c : Client} (hcurrent : c.replica.IsCurrent) (showsState : Bool)
    (shown : List Text) {t : Text} {check : Check} (hcheck : Check.ofText? t = some check)
    (earlier later : List Text) :
    ∃ rest, (reportWith showsState c shown (earlier ++ t :: later)).1 =
      (reportWith showsState c shown earlier).1 ++
        checkLine check (check.decision c.replica.store) :: rest := by
  have hlines : ∀ ts, (reportWith showsState c shown ts).1 =
      statusLine c showsState :: shown.map (valueLine c.replica.store) ++
        (ts.filterMap Check.ofText?).map fun check => checkLine check (check.decision c.replica.store) := by
    intro ts
    rw [← checkLines_fst hcurrent]
    rfl
  refine ⟨(later.filterMap Check.ofText?).map fun check => checkLine check (check.decision c.replica.store), ?_⟩
  rw [hlines, hlines, List.filterMap_append, List.filterMap_cons_some hcheck, List.map_append, List.map_cons,
    List.append_assoc]

/-- A report that is asked for the check that `t` writes says whether it is allowed, in the line
    after those about the earlier checks. -/
def Says (showsState : Bool) (c : Client) (shown earlier later : List Text) (t : Text) (check : Check)
    (allowed : Bool) : Prop :=
  ∃ rest, (reportWith showsState c shown (earlier ++ t :: later)).1 =
    (reportWith showsState c shown earlier).1 ++ checkLine check allowed :: rest

/-- A report says one thing of a check, which is the decision that the store leads to. -/
theorem says_iff {c : Client} (hcurrent : c.replica.IsCurrent) {t : Text} {check : Check}
    (hcheck : Check.ofText? t = some check) (showsState : Bool) (shown earlier later : List Text) (allowed : Bool) :
    Says showsState c shown earlier later t check allowed ↔ allowed = check.decision c.replica.store := by
  obtain ⟨rest, hreport⟩ := reportWith_append_cons hcurrent showsState shown hcheck earlier later
  constructor
  · rintro ⟨more, hsays⟩
    rw [hreport, List.append_cancel_left_eq, List.cons.injEq] at hsays
    exact (checkLine_inj.1 hsays.1).symm
  · rintro rfl
    exact ⟨rest, hreport⟩

/-- A rule that lists a text makes an exception for what the text stands for, unless that is an
    integer for which it makes none. -/
theorem excepts_ofText_iff {rule : Rule} {id : Text} (hlisted : rule.HasMember id) :
    rule.Excepts (.ofText id) ↔ ∀ n : Int64, Numeral.DenotesInteger id n.toInt → rule.Excepts (.number n) := by
  by_cases hnumber : ∃ n : Int64, Numeral.DenotesInteger id n.toInt
  · obtain ⟨n, hn⟩ := hnumber
    rw [Identity.ofText_of_denotes hn]
    constructor
    · intro hexcepts m hm
      rwa [Int64.toInt_inj.1 (hm.unique hn)]
    · intro hall
      exact hall n hn
  · have hnone : ∀ n : Int64, ¬ Numeral.DenotesInteger id n.toInt := fun n hn => hnumber ⟨n, hn⟩
    rw [Identity.ofText_of_not_denotes hnone]
    exact ⟨fun _ n hn => absurd hn (hnone n), fun _ => .inl hlisted⟩

/-- A rule that lists an integer in decimal form makes an exception for it. -/
theorem excepts_number_of_repr {rule : Rule} {id : Text} (hlisted : rule.HasMember id) {n : Int64}
    (hid : id = n.toInt.repr.toList) : ∀ m : Int64, Numeral.DenotesInteger id m.toInt → rule.Excepts (.number m) := by
  subst hid
  intro m hm
  have hvalue : m = n := Int64.toInt_inj.1 (hm.unique (Numeral.denotesInteger_repr n.toInt))
  rw [hvalue]
  exact .inl hlisted

/-- Where a rule lists the text of an identity, asking for the text is always decided as an
    exception. A report, which asks for an integer where the text reads as one, says so, and nothing
    else, exactly if the text reads as no 64-bit integer, or the rule makes an exception for that
    integer; so it does if the text is the decimal form of an integer. -/
theorem listed_id_honoured_iff {c : Client} (hcurrent : c.replica.IsCurrent) {name id : Text} {rule : Rule}
    (hrule : c.replica.store.ruleNamed? name = some rule) (hcolon : ':' ∉ id) (hlisted : rule.HasMember id) :
    (c.replica.checkNamed name (.text id)).1 = decide (rule.stance = .deny) ∧
    ∃ decision,
      (∀ showsState shown earlier later allowed,
        Says showsState c shown earlier later (name ++ ':' :: id) ⟨name, id⟩ allowed ↔ allowed = decision) ∧
      (decision = decide (rule.stance = .deny) ↔
        ∀ n : Int64, Numeral.DenotesInteger id n.toInt → rule.Excepts (.number n)) ∧
      ∀ n : Int64, id = n.toInt.repr.toList → decision = decide (rule.stance = .deny) := by
  have hexcepts : rule.Excepts (.text id) := .inl hlisted
  have hdecision : rule.allows (.ofText id) = decide (rule.stance = .deny) ↔
      ∀ n : Int64, Numeral.DenotesInteger id n.toInt → rule.Excepts (.number n) := by
    rw [Rule.allows_eq_exceptional_iff, excepts_ofText_iff hlisted]
  have hcheck : Check.decision ⟨name, id⟩ c.replica.store = rule.allows (.ofText id) := by
    rw [Check.decision, hrule]
    rfl
  refine ⟨?_, rule.allows (.ofText id), fun showsState shown earlier later allowed => ?_, hdecision,
    fun n hid => hdecision.2 (excepts_number_of_repr hlisted hid)⟩
  · rw [Replica.checkNamed_fst, hcurrent.ruleNamed_fst, hrule]
    exact (rule.allows_eq_exceptional_iff _).2 hexcepts
  · rw [← hcheck]
    exact says_iff hcurrent (Check.ofText?_append_cons name hcolon) showsState shown earlier later allowed

/-- A client whose store holds a document that its feed has brought. -/
def documented (content : Text) : Client :=
  { Client.fresh with replica := Replica.fresh.after [.deliver ⟨.put, "/app".toList, some content⟩] }

theorem isCurrent_documented (content : Text) : (documented content).replica.IsCurrent := by
  refine Replica.isCurrent_fresh.after fun request hmem => ?_
  rw [List.mem_singleton] at hmem
  rw [hmem]
  rfl

/-- A listed text with a plus in front is honoured if its integer falls into a bucket of the
    rule, also where the name of the rule has a colon itself. -/
theorem signed_id_honoured_by_bucket :
    let c := documented "[g]\nr:s=allow;+6;%3".toList
    let rule := Rule.ofItems "g.r:s".toList .allow [.member "+6".toList, .divisor 3]
    c.replica.IsCurrent ∧ c.replica.store.ruleNamed? "g.r:s".toList = some rule ∧
      rule.HasMember "+6".toList ∧ ∃ rest, (report c [] ["g.r:s:+6".toList]).1 =
        (report c [] []).1 ++ checkLine ⟨"g.r:s".toList, "+6".toList⟩ false :: rest := by
  intro c rule
  have hcurrent : c.replica.IsCurrent := isCurrent_documented _
  have hrule : c.replica.store.ruleNamed? "g.r:s".toList = some rule := by decide
  have hmembers : rule.members = some (.ofList ["+6".toList]) := rfl
  have hdivisors : rule.divisors = some (.ofList [3]) := rfl
  have hlisted : rule.HasMember "+6".toList := by simp [Rule.HasMember, hmembers]
  obtain ⟨-, decision, hreport, hdecision, -⟩ :=
    listed_id_honoured_iff hcurrent hrule (by decide : ':' ∉ "+6".toList) hlisted
  have hhonoured : decision = false := by
    refine hdecision.2 fun n hn => .inr ⟨3, by simp [Rule.HasDivisor, hdivisors], ?_⟩
    have hsix : n.toInt = 6 := hn.unique (Numeral.integer?_eq_some_iff.1 (by decide))
    rw [Identity.magnitude, hsix]
    decide
  exact ⟨hcurrent, hrule, hlisted, (hreport false [] [] [] false).2 hhonoured.symm⟩

/-- A listed text with a plus in front is not honoured by a rule without buckets, although the
    rule makes an exception for the text. -/
theorem signed_id_not_honoured :
    let c := documented "[g]\nr=deny;+5".toList
    let rule := Rule.ofItems "g.r".toList .deny [.member "+5".toList]
    c.replica.store.ruleNamed? "g.r".toList = some rule ∧ rule.HasMember "+5".toList ∧
      (c.replica.checkNamed "g.r".toList (.text "+5".toList)).1 = true ∧
      ∃ rest, (report c [] ["g.r:+5".toList]).1 =
        (report c [] []).1 ++ checkLine ⟨"g.r".toList, "+5".toList⟩ false :: rest := by
  intro c rule
  have hcurrent : c.replica.IsCurrent := isCurrent_documented _
  have hrule : c.replica.store.ruleNamed? "g.r".toList = some rule := by decide
  have hmembers : rule.members = some (.ofList ["+5".toList]) := rfl
  have hdivisors : rule.divisors = none := rfl
  have hlisted : rule.HasMember "+5".toList := by simp [Rule.HasMember, hmembers]
  have hdecision : Check.decision ⟨"g.r".toList, "+5".toList⟩ c.replica.store = false := by
    have hfive : Identity.ofText "+5".toList = .number 5 := by decide
    have hallows : ¬ rule.allows (.number 5) = true := by
      rw [Rule.allows_iff_of_deny rfl]
      rintro (hmember | ⟨n, hdivisor, -⟩)
      · have heq : "+5".toList = Identity.listedAs (.number 5) := by
          simpa [Rule.HasMember, hmembers] using hmember
        exact absurd heq (by decide)
      · simp [Rule.HasDivisor, hdivisors] at hdivisor
    rw [Check.decision, hrule, hfive]
    simpa [Rule.admits] using hallows
  have hsays := says_iff hcurrent (Check.ofText?_append_cons "g.r".toList (by decide : ':' ∉ "+5".toList))
    false [] [] [] false
  exact ⟨hrule, hlisted, by decide, hsays.2 hdecision.symm⟩

end CommandLine

end ConfigWatch
