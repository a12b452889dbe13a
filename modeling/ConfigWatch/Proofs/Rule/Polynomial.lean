import ConfigWatch.Proofs.Rule.Decision
import Mathlib.Algebra.BigOperators.Fin
import Mathlib.Tactic.Ring
/-!
The polynomial of a text in closed form. It is computed in arithmetic that wraps at every step,
and is the exact sum over all code units, reduced to 32 bits once; so the polynomial of two texts
that follow each other is told by those of the two. A bucket never exceeds `2 ^ 31`, so 64 bits
hold it.
-/
namespace ConfigWatch.Text

/-- The units that stand for a character: its code point, or the surrogates of what its code
    point has beyond the basic plane. -/
inductive UnitsOf (c : Char) : List Nat → Prop where
  | basic : c.toNat < 0x10000 → UnitsOf c [c.toNat]
  | surrogates (high low : Nat) : high < 0x400 → low < 0x400 →
      c.toNat = 0x10000 + high * 0x400 + low → UnitsOf c [0xD800 + high, 0xDC00 + low]

/-- The units of all characters of a text, in order. -/
def IsWrittenIn (t : Text) (units : List Nat) : Prop :=
  ∃ parts : List (List Nat), List.Forall₂ UnitsOf t parts ∧ units = parts.flatten

/-- The sum of the units, each times 31 to the number of units after it. -/
def powerSum (units : List Nat) : Nat :=
  ∑ i : Fin units.length, units[i] * 31 ^ (units.length - 1 - i)

theorem unitsOf_charUnits (c : Char) : UnitsOf c ((charUnits c).map UInt16.toNat) := by
  have hpoint : c.toNat < 0x110000 := by
    have hvalid : c.toNat < 0xD800 ∨ 0xDFFF < c.toNat ∧ c.toNat < 0x110000 := c.valid
    omega
  have hword (n : Nat) (hn : n < 0x10000) : n.toUInt16.toNat = n := UInt16.toNat_ofNat_of_lt' hn
  unfold charUnits
  dsimp only
  split
  · rename_i hbasic
    rw [List.map_singleton, hword c.toNat hbasic]
    exact .basic hbasic
  · rename_i hbeyond
    rw [List.map_cons, List.map_singleton, hword _ (by omega), hword _ (by omega)]
    apply UnitsOf.surrogates
    · omega
    · omega
    · omega

theorem isWrittenIn_codeUnits (t : Text) : t.IsWrittenIn (t.codeUnits.map UInt16.toNat) := by
  refine ⟨t.map fun c => (charUnits c).map UInt16.toNat, ?_, ?_⟩
  · rw [List.forall₂_map_right_iff]
    exact List.forall₂_same.2 fun c _ => unitsOf_charUnits c
  · rw [codeUnits, List.map_flatMap, List.flatMap_def]

@[simp] theorem powerSum_nil : powerSum [] = 0 := rfl

theorem powerSum_cons (unit : Nat) (rest : List Nat) :
    powerSum (unit :: rest) = unit * 31 ^ rest.length + powerSum rest := by
  rw [powerSum]
  simp only [List.length_cons]
  rw [Fin.sum_univ_succ]
  congr 1
  refine Finset.sum_congr rfl fun i _ => ?_
  have hafter : rest.length - (i + 1) = rest.length - 1 - i := by omega
  simp [hafter]

/-- The value that the polynomial goes on to over more units. -/
def continued (start : Int32) (units : List UInt16) : Int32 :=
  units.foldl (fun sum unit => sum * 31 + Int32.ofNat unit.toNat) start

theorem polynomial_append (s t : Text) : (s ++ t).polynomial = continued s.polynomial t.codeUnits := by
  rw [polynomial, codeUnits, List.flatMap_append, List.foldl_append]
  rfl

theorem toInt_mul_add (sum : Int32) (unit : UInt16) :
    (sum * 31 + Int32.ofNat unit.toNat).toInt = (sum.toInt * 31 + unit.toNat).bmod (2 ^ 32) := by
  have hunit : (Int32.ofNat unit.toNat).toInt = unit.toNat := by
    apply Int32.toInt_ofNat_of_lt
    have hsmall := unit.toNat_lt
    omega
  have hbase : (31 : Int32).toInt = 31 := rfl
  rw [Int32.toInt_add, Int32.toInt_mul, hunit, hbase, Int.bmod_add_bmod]

/-- Wrapping at every step comes to wrapping once, at the end. -/
theorem toInt_continued (start : Int32) (units : List UInt16) :
    (continued start units).toInt =
      (start.toInt * 31 ^ units.length + powerSum (units.map UInt16.toNat)).bmod (2 ^ 32) := by
  induction units generalizing start with
  | nil =>
    simp [continued]
  | cons unit rest ih =>
    rw [show continued start (unit :: rest) = continued (start * 31 + Int32.ofNat unit.toNat) rest from rfl,
      ih, toInt_mul_add, List.map_cons, powerSum_cons, List.length_map, List.length_cons]
    rw [← Int.bmod_add_bmod, Int.bmod_mul_bmod, Int.bmod_add_bmod]
    congr 1
    push_cast
    ring

theorem toInt_polynomial (t : Text) :
    t.polynomial.toInt = (powerSum (t.codeUnits.map UInt16.toNat) : Int).bmod (2 ^ 32) := by
  have hsum := toInt_continued 0 t.codeUnits
  rwa [Int32.toInt_zero, Int.zero_mul, Int.zero_add] at hsum

theorem toInt_polynomial_append (s t : Text) :
    (s ++ t).polynomial.toInt =
      (s.polynomial.toInt * 31 ^ t.codeUnits.length + t.polynomial.toInt).bmod (2 ^ 32) := by
  rw [polynomial_append, toInt_continued, toInt_polynomial t, Int.add_bmod_bmod]

theorem bucket_nonneg (t : Text) : 0 ≤ t.bucket := Int.natCast_nonneg _

theorem bucket_le (t : Text) : t.bucket ≤ 2 ^ 31 := by
  have hleast := t.polynomial.le_toInt
  have hgreatest := t.polynomial.toInt_lt
  rw [bucket]
  omega

/-- The polynomial of a text is the sum of its code units, each times 31 to the number of units
    after it, reduced to a signed integer of 32 bits. The bucket is the absolute value of that, is
    at most `2 ^ 31`, and is the same when the absolute value is taken in 64 bits, where it never
    overflows. The polynomial of two texts that follow each other is that of the first, times 31
    to the number of units of the second, plus that of the second. -/
theorem polynomial_of_power_sum :
    (∀ t : Text,
      let units := t.codeUnits.map UInt16.toNat
      let reduced := (powerSum units : Int).bmod (2 ^ 32)
      t.IsWrittenIn units ∧ t.polynomial.toInt = reduced ∧
        t.bucket = reduced.natAbs ∧ 0 ≤ t.bucket ∧ t.bucket ≤ 2 ^ 31 ∧
        t.polynomial.toInt64 ≠ Int64.minValue ∧ t.polynomial.toInt64.abs.toInt = t.bucket) ∧
    ∀ s t : Text,
      (s ++ t).polynomial.toInt =
        (s.polynomial.toInt * 31 ^ t.codeUnits.length + t.polynomial.toInt).bmod (2 ^ 32) := by
  refine ⟨fun t => ⟨t.isWrittenIn_codeUnits, t.toInt_polynomial, ?_, t.bucket_nonneg, t.bucket_le,
    t.toInt64_polynomial_ne_minValue, ?_⟩, toInt_polynomial_append⟩
  · rw [bucket, toInt_polynomial]
  · exact (Identity.text t).toInt_bucketWord

-- Only the least polynomial has the greatest bucket.
example : bucket "polygenelubricants".toList = 2 ^ 31 := by decide

end ConfigWatch.Text
