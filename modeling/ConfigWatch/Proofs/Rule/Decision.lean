import ConfigWatch.Proofs.Rule
import Mathlib.Logic.Basic
/-!
Decisions of rules that were read. A rule decides against its stance for the identities that
it lists and for those of which one of its divisors divides the bucket. Its divisors are
positive 64-bit integers, so machine arithmetic has a remainder for each of them, and the
decision does not depend on the order in which they are tried.
-/
namespace ConfigWatch

/-- The least integer of 64 bits, whose absolute value would not fit, is not reached. -/
theorem Text.toInt64_polynomial_ne_minValue (t : Text) : t.polynomial.toInt64 ≠ Int64.minValue := by
  intro heq
  have hleast := t.polynomial.le_toInt
  have hvalue : t.polynomial.toInt64.toInt = -2 ^ 63 := congrArg Int64.toInt heq
  rw [Int32.toInt_toInt64] at hvalue
  omega

namespace Identity

/-- What the names of a rule are compared with: a text as it is, and an integer in decimal
    form. -/
def listedAs : Identity → Text
  | .text t => t
  | .number n => n.toInt.repr.toList

/-- What the divisors of a rule are tried on: the absolute value of the polynomial of a text,
    or of an integer. -/
def magnitude : Identity → Nat
  | .text t => t.polynomial.toInt.natAbs
  | .number n => n.toInt.natAbs

/-- The bucket in 64 bits. -/
def bucketWord : Identity → Int64
  | .text t => t.polynomial.toInt64.abs
  | .number n => n

theorem membership_eq_listedAs (id : Identity) : id.membership = id.listedAs := by
  cases id with
  | text t => rfl
  | number n => exact Numeral.ofInt_eq_toList_repr n.toInt

theorem natAbs_bucket (id : Identity) : id.bucket.natAbs = id.magnitude := by
  cases id with
  | text t => rfl
  | number n => rfl

/-- The absolute value of a 32-bit integer is always one of 64 bits. -/
theorem toInt_bucketWord (id : Identity) : id.bucketWord.toInt = id.bucket := by
  cases id with
  | number n => rfl
  | text t =>
    have hwiden : t.polynomial.toInt64.toInt = t.polynomial.toInt := Int32.toInt_toInt64 t.polynomial
    have hleast : t.polynomial.toInt64.toBitVec ≠ BitVec.intMin 64 := by
      intro heq
      exact t.toInt64_polynomial_ne_minValue (Int64.toBitVec_inj.1 heq)
    have habs := BitVec.toInt_abs_eq_natAbs_of_ne_intMin hleast
    change t.polynomial.toInt64.toBitVec.abs.toInt = (t.polynomial.toInt.natAbs : Int)
    rw [habs, ← hwiden]
    rfl

end Identity

/-- The remainder of a division of 64-bit integers, with the sign of the dividend. There is
    none if the divisor is zero, or if the quotient does not fit. -/
def remainder? (a b : Int64) : Option Int64 :=
  if b = 0 ∨ a = Int64.minValue ∧ b = -1 then none else some (a % b)

theorem remainder?_ofNat (a : Int64) {n : Nat} (hpositive : 1 ≤ n) (hbound : n ≤ 2 ^ 63 - 1) :
    ∃ r, remainder? a (.ofNat n) = some r ∧ (r = 0 ↔ n ∣ a.toInt.natAbs) := by
  have hvalue : (Int64.ofNat n).toInt = n := Int64.toInt_ofNat_of_lt (by omega)
  have hzero : Int64.ofNat n ≠ 0 := by
    intro heq
    rw [heq, Int64.toInt_zero] at hvalue
    omega
  have hminus : Int64.ofNat n ≠ -1 := by
    intro heq
    have hone : (-1 : Int64).toInt = -1 := rfl
    rw [heq, hone] at hvalue
    omega
  have hdefined : ¬ (Int64.ofNat n = 0 ∨ a = Int64.minValue ∧ Int64.ofNat n = -1) := by
    rintro (heq | ⟨-, heq⟩)
    · exact hzero heq
    · exact hminus heq
  refine ⟨a % Int64.ofNat n, ?_, ?_⟩
  · rw [remainder?, if_neg hdefined]
  · rw [← Int64.toInt_inj, Int64.toInt_mod, hvalue, Int64.toInt_zero, ← Int.dvd_iff_tmod_eq_zero,
      Int.ofNat_dvd_left]

namespace Rule

def HasMember (r : Rule) (name : Text) : Prop := ∃ names ∈ r.members, name ∈ names

def HasDivisor (r : Rule) (n : Nat) : Prop := ∃ divisors ∈ r.divisors, n ∈ divisors

/-- An identity is an exception to a rule that lists it, or of which a divisor divides it. -/
def Excepts (r : Rule) (id : Identity) : Prop :=
  r.HasMember id.listedAs ∨ ∃ n, r.HasDivisor n ∧ n ∣ id.magnitude

/-- Tries divisors one after the other, up to the first that leaves no remainder. -/
def anyDivides? (bucket : Int64) : List Int64 → Option Bool
  | [] => some false
  | n :: rest => (remainder? bucket n).bind fun r =>
    if r = 0 then some true else anyDivides? bucket rest

/-- The decision of a rule in 64-bit arithmetic, with its divisors tried in a given order. The
    names are looked through first. There is no decision if a remainder is missing. -/
def decision? (r : Rule) (order : List Int64) (id : Identity) : Option Bool :=
  let listed := r.members.any fun names => decide (id.membership ∈ names)
  let excepted := if listed then some true else anyDivides? id.bucketWord order
  excepted.map fun excepted => if excepted then r.stance ≠ .allow else r.stance = .allow

theorem excepts_eq (r : Rule) (id : Identity) :
    r.excepts id =
      (r.members.any (fun names => decide (id.membership ∈ names)) ||
        r.divisors.any fun divisors => divisors.toList.any fun n => id.bucket.tmod n == 0) := by
  unfold excepts
  cases r.members <;> cases r.divisors <;> rfl

theorem any_members_iff (r : Rule) (id : Identity) :
    (r.members.any fun names => decide (id.membership ∈ names)) = true ↔ r.HasMember id.listedAs := by
  rw [← id.membership_eq_listedAs, HasMember]
  cases r.members <;> simp

theorem excepts_iff (r : Rule) (id : Identity) : r.excepts id = true ↔ r.Excepts id := by
  have hdivides (n : Nat) : (id.bucket.tmod n == 0) = true ↔ n ∣ id.magnitude := by
    rw [beq_iff_eq, ← Int.dvd_iff_tmod_eq_zero, Int.ofNat_dvd_left, id.natAbs_bucket]
  have hdivisors : (r.divisors.any fun divisors => divisors.toList.any fun n => id.bucket.tmod n == 0) = true ↔
      ∃ n, r.HasDivisor n ∧ n ∣ id.magnitude := by
    rw [Option.any_eq_true]
    simp only [List.any_eq_true, Std.ExtTreeSet.mem_toList, hdivides, HasDivisor]
    constructor
    · rintro ⟨divisors, hsome, n, hn, hdvd⟩
      exact ⟨n, ⟨divisors, hsome, hn⟩, hdvd⟩
    · rintro ⟨n, ⟨divisors, hsome, hn⟩, hdvd⟩
      exact ⟨divisors, hsome, n, hn, hdvd⟩
  rw [excepts_eq, Bool.or_eq_true, any_members_iff, hdivisors, Excepts]

/-- A rule decides against its stance exactly for its exceptions. -/
theorem allows_iff (r : Rule) (id : Identity) :
    r.allows id = true ↔ Xor (r.stance = .allow) (r.Excepts id) := by
  rw [← excepts_iff, allows, xor_def]
  cases r.stance <;> cases r.excepts id <;> simp

theorem allows_iff_of_allow {rule : Rule} (hstance : rule.stance = .allow) (id : Identity) :
    rule.allows id = true ↔ ¬ rule.Excepts id := by
  rw [allows_iff, hstance, xor_def]
  simp

theorem allows_iff_of_deny {rule : Rule} (hstance : rule.stance = .deny) (id : Identity) :
    rule.allows id = true ↔ rule.Excepts id := by
  rw [allows_iff, hstance, xor_def]
  simp

theorem IsReadFrom.hasMember_iff {rule : Rule} {word : Text} {items : List Text}
    (hread : rule.IsReadFrom word items) {name : Text} :
    rule.HasMember name ↔ ∃ item ∈ items, Lists item name :=
  (isSetOf_iff.1 hread.members).2 name

theorem IsReadFrom.hasDivisor_iff {rule : Rule} {word : Text} {items : List Text}
    (hread : rule.IsReadFrom word items) {n : Nat} :
    rule.HasDivisor n ↔ ∃ item ∈ items, Selects item n :=
  (isSetOf_iff.1 hread.divisors).2 n

/-- The divisors of a rule that was read are positive and fit into 64 bits with a sign. -/
theorem IsReadFrom.divisor_bounds {rule : Rule} {word : Text} {items : List Text}
    (hread : rule.IsReadFrom word items) {n : Nat} (hn : rule.HasDivisor n) : 1 ≤ n ∧ n ≤ 2 ^ 63 - 1 := by
  obtain ⟨divisors, hdivisors, hmem⟩ := hn
  obtain ⟨item, -, -, -, -, -, -, hpositive, hbound⟩ := (hread.divisors.mem_iff divisors hdivisors n).1 hmem
  exact ⟨hpositive, hbound⟩

theorem anyDivides?_map_ofNat (bucket : Int64) {order : List Nat}
    (hbounds : ∀ n ∈ order, 1 ≤ n ∧ n ≤ 2 ^ 63 - 1) :
    anyDivides? bucket (order.map .ofNat) = some (order.any fun n => n ∣ bucket.toInt.natAbs) := by
  induction order with
  | nil => rfl
  | cons n rest ih =>
    simp only [List.mem_cons, forall_eq_or_imp] at hbounds
    obtain ⟨r, hremainder, hzero⟩ := remainder?_ofNat bucket hbounds.1.1 hbounds.1.2
    rw [List.map_cons, anyDivides?, hremainder, Option.bind_some, ih hbounds.2, List.any_cons]
    by_cases hdivides : n ∣ bucket.toInt.natAbs
    · rw [if_pos (hzero.2 hdivides), decide_eq_true hdivides, Bool.true_or]
    · rw [if_neg (mt hzero.1 hdivides), decide_eq_false hdivides, Bool.false_or]

theorem allows_eq (r : Rule) (id : Identity) :
    r.allows id = if r.excepts id then decide (r.stance ≠ .allow) else decide (r.stance = .allow) := by
  unfold allows
  cases r.stance <;> cases r.excepts id <;> rfl

/-- Only what is an exception is decided as an exception. -/
theorem allows_eq_exceptional_iff (r : Rule) (id : Identity) :
    r.allows id = decide (r.stance = .deny) ↔ r.Excepts id := by
  rw [← excepts_iff, allows_eq]
  cases r.stance <;> cases r.excepts id <;> decide

/-- In whatever order its divisors are tried, a rule that was read comes to its decision. -/
theorem IsReadFrom.decision?_eq {rule : Rule} {word : Text} {items : List Text}
    (hread : rule.IsReadFrom word items) (id : Identity) {order : List Nat}
    (horder : ∀ n, n ∈ order ↔ rule.HasDivisor n) :
    rule.decision? (order.map .ofNat) id = some (rule.allows id) := by
  have hbounds : ∀ n ∈ order, 1 ≤ n ∧ n ≤ 2 ^ 63 - 1 :=
    fun n hn => hread.divisor_bounds ((horder n).1 hn)
  have hdivides : (order.any fun n => decide (n ∣ id.bucketWord.toInt.natAbs)) = true ↔
      ∃ n, rule.HasDivisor n ∧ n ∣ id.magnitude := by
    simp only [List.any_eq_true, decide_eq_true_eq, horder, id.toInt_bucketWord, id.natAbs_bucket]
  have hexcepts : rule.excepts id =
      ((rule.members.any fun names => decide (id.membership ∈ names)) ||
        order.any fun n => decide (n ∣ id.bucketWord.toInt.natAbs)) := by
    rw [Bool.eq_iff_iff, excepts_iff, Bool.or_eq_true, any_members_iff, hdivides, Excepts]
  rw [decision?, allows_eq, hexcepts, anyDivides?_map_ofNat id.bucketWord hbounds]
  cases rule.members.any fun names => decide (id.membership ∈ names) <;> rfl

/-- A rule that was read decides on every identity, and does so against its stance exactly if
    it lists the identity or if one of its divisors divides it. All remainders that 64-bit
    arithmetic needs for this are there, and the decision is the same in whatever order the
    divisors are tried. -/
theorem decides_by_exceptions {name raw : Text} {rule : Rule} (hread : ofText? name raw = some rule)
    (id : Identity) :
    (rule.allows id = true ↔ Xor (rule.stance = .allow) (rule.Excepts id)) ∧
      ∀ order : List Nat, (∀ n, n ∈ order ↔ rule.HasDivisor n) →
        rule.decision? (order.map .ofNat) id = some (rule.allows id) := by
  obtain ⟨-, hitems⟩ := ofText?_eq_some_iff.1 hread
  exact ⟨rule.allows_iff id, fun order horder => hitems.decision?_eq id horder⟩

/-- The least integer is admitted by a bucket of an even divisor, in both orders of two
    divisors, although its absolute value does not fit into 64 bits. -/
theorem least_integer_decided :
    let rule : Rule := ofItems "g.r".toList .deny [.divisor 3, .divisor 1024]
    let id : Identity := .number Int64.minValue
    ofText? "g.r".toList "deny;%3;%1024".toList = some rule ∧ rule.allows id = true ∧
      rule.decision? [3, 1024] id = some true ∧ rule.decision? [1024, 3] id = some true := by
  intro rule id
  have hread : ofText? "g.r".toList "deny;%3;%1024".toList = some rule := by decide
  obtain ⟨hallows, horders⟩ := decides_by_exceptions hread id
  have hdivisor : ∀ n, rule.HasDivisor n ↔ n = 3 ∨ n = 1024 := by
    have hset : rule.divisors = some (.ofList [3, 1024]) := rfl
    simp [HasDivisor, hset]
  have hdivides : 1024 ∣ id.magnitude := by decide
  have hadmitted : rule.allows id = true :=
    hallows.2 (.inr ⟨.inr ⟨1024, (hdivisor 1024).2 (.inr rfl), hdivides⟩, by decide⟩)
  have hfirst := horders [3, 1024] (by simp [hdivisor])
  have hsecond := horders [1024, 3] (by simp [hdivisor, or_comm])
  rw [hadmitted] at hfirst hsecond
  exact ⟨hread, hadmitted, hfirst, hsecond⟩

end Rule

end ConfigWatch
