import ConfigWatch.Backoff
import Mathlib.Algebra.Group.Nat.Defs
/-!
Delays in exact numbers. Powers, products and sums that are cut off at 64 bits give, under
a cap of 64 bits, what unbounded numbers would give; and the random part stays below a
tenth of the delay that it is added to.
-/
namespace ConfigWatch.Backoff

theorem toNat_ofNatClamp (n : Nat) : (UInt64.ofNatClamp n).toNat = min n (UInt64.size - 1) := by
  unfold UInt64.ofNatClamp
  split
  · simp only [UInt64.toNat_ofNatLT]
    omega
  · simp only [UInt64.toNat_ofNatLT]
    omega

theorem toNat_clampedMul (a b : UInt64) :
    (clampedMul a b).toNat = min (a.toNat * b.toNat) (UInt64.size - 1) :=
  toNat_ofNatClamp _

theorem toNat_clampedAdd (a b : UInt64) :
    (clampedAdd a b).toNat = min (a.toNat + b.toNat) (UInt64.size - 1) :=
  toNat_ofNatClamp _

theorem size_le_two_pow {n : Nat} (hn : 64 ≤ n) : UInt64.size ≤ 2 ^ n :=
  Nat.pow_le_pow_right Nat.zero_lt_two hn

theorem toNat_powerOfTwo (n : Nat) : (powerOfTwo n).toNat = min (2 ^ n) (UInt64.size - 1) := by
  unfold powerOfTwo
  split
  · rename_i hn
    have hsize : 2 ^ n < UInt64.size := Nat.pow_lt_pow_right Nat.one_lt_two hn
    rw [show Nat.pow 2 n = 2 ^ n from rfl, UInt64.toNat_ofNat_of_lt' hsize]
    omega
  · rename_i hn
    have hpow := size_le_two_pow (Nat.le_of_not_lt hn)
    rw [toNat_ofNatClamp]
    omega

namespace Policy

/-- The delay before an attempt without its random part, in exact numbers. -/
def exactDelay (p : Policy) (attempt : Nat) : Nat :=
  min (p.base.toNat * 2 ^ (attempt - 1)) p.cap.toNat

theorem exactDelay_lt_size (p : Policy) (attempt : Nat) : p.exactDelay attempt < UInt64.size :=
  Nat.lt_of_le_of_lt (Nat.min_le_right _ _) p.cap.toNat_lt_size

/-- With 64 doublings the first delay has reached any cap, unless it is zero. -/
theorem exactDelay_of_le {p : Policy} {attempt : Nat} (hattempt : 65 ≤ attempt) :
    p.exactDelay attempt = if p.base.toNat = 0 then 0 else p.cap.toNat := by
  unfold exactDelay
  split
  · rename_i hbase
    rw [hbase, Nat.zero_mul, Nat.zero_min]
  · rename_i hbase
    have hpow : UInt64.size ≤ 2 ^ (attempt - 1) := size_le_two_pow (by omega)
    have hproduct : 2 ^ (attempt - 1) ≤ p.base.toNat * 2 ^ (attempt - 1) :=
      Nat.le_mul_of_pos_left _ (Nat.pos_of_ne_zero hbase)
    have hcap := p.cap.toNat_lt_size
    omega

/-- A count of attempts that stays at its greatest value gives the delays of one that does not. -/
theorem exactDelay_min (p : Policy) (attempt : Nat) :
    p.exactDelay (min attempt (UInt32.size - 1)) = p.exactDelay attempt := by
  obtain hle | hlt := Nat.le_total attempt (UInt32.size - 1)
  · rw [Nat.min_eq_left hle]
  · rw [Nat.min_eq_right hlt, exactDelay_of_le (by decide), exactDelay_of_le (by
      have hsize : 65 ≤ UInt32.size - 1 := by decide
      omega)]

theorem toNat_plainDelay (p : Policy) {attempt : UInt32} (hattempt : attempt ≠ 0) :
    (p.plainDelay attempt).toNat = p.exactDelay attempt.toNat := by
  have hmin (a b : UInt64) : (min a b).toNat = min a.toNat b.toNat := by
    rw [show min a b = if a ≤ b then a else b from rfl, Nat.min_def, apply_ite UInt64.toNat]
    simp only [UInt64.le_iff_toNat_le]
  have hcap := p.cap.toNat_lt_size
  rw [plainDelay, if_neg hattempt, hmin, toNat_clampedMul, toNat_powerOfTwo, exactDelay]
  generalize attempt.toNat - 1 = doublings
  obtain hpow | hpow := Nat.lt_or_ge (2 ^ doublings) UInt64.size
  · rw [Nat.min_eq_left (a := 2 ^ doublings) (by omega)]
    omega
  · -- The power is cut off, but then both products exceed the cap or vanish.
    rw [Nat.min_eq_right (a := 2 ^ doublings) (by omega)]
    obtain hbase | hbase := Nat.eq_zero_or_pos p.base.toNat
    · simp only [hbase, Nat.zero_mul, Nat.zero_min]
    · have hproduct := Nat.le_mul_of_pos_left (2 ^ doublings) hbase
      have hclamped := Nat.le_mul_of_pos_left (UInt64.size - 1) hbase
      omega

theorem toNat_spread (plain : UInt64) : (spread plain).toNat = plain.toNat / 10 :=
  UInt64.toNat_div plain 10

/-- The random part is a part of the range, which is empty for the shortest delays. -/
theorem toNat_jitter (plain : UInt64) (draw : Nat) :
    (jitter plain draw).toNat = if plain.toNat < 10 then 0 else draw % (plain.toNat / 10) := by
  have hzero : spread plain = 0 ↔ plain.toNat < 10 := by
    rw [← UInt64.toNat_inj, toNat_spread, UInt64.toNat_zero]
    omega
  unfold jitter
  split
  · rename_i hspread
    rw [if_pos (hzero.1 hspread), UInt64.toNat_zero]
  · rename_i hspread
    have hlong := mt hzero.2 hspread
    have hrange : draw % (plain.toNat / 10) < plain.toNat / 10 := Nat.mod_lt _ (by omega)
    have hbound := plain.toNat_lt_size
    rw [if_neg hlong, toNat_spread, UInt64.toNat_ofNat_of_lt' (by omega)]

/-- A delay is the exact one and a random part of it, as far as 64 bits go. -/
theorem toNat_delay (p : Policy) {attempt : UInt32} (hattempt : attempt ≠ 0) (draw : Nat) :
    (p.delay attempt draw).toNat =
      min (p.exactDelay attempt.toNat + (jitter (p.plainDelay attempt) draw).toNat) (UInt64.size - 1) := by
  rw [delay, toNat_clampedAdd, toNat_plainDelay p hattempt]

/-- The numbers from a delay on that are less than a tenth above it and fit into 64 bits. -/
def InWindow (plain delay : Nat) : Prop :=
  plain ≤ delay ∧ delay ≤ min (plain + (plain / 10 - 1)) (UInt64.size - 1)

/-- Whatever the draw, a delay lies in the window of the exact one. -/
theorem inWindow_delay (p : Policy) {attempt : UInt32} (hattempt : attempt ≠ 0) (draw : Nat) :
    InWindow (p.exactDelay attempt.toNat) (p.delay attempt draw).toNat := by
  have hplain := p.exactDelay_lt_size attempt.toNat
  generalize hexact : p.exactDelay attempt.toNat = plain at hplain
  have hjitter : (jitter (p.plainDelay attempt) draw).toNat ≤ plain / 10 - 1 := by
    rw [toNat_jitter, toNat_plainDelay p hattempt, hexact]
    split
    · exact Nat.zero_le _
    · rename_i hlong
      exact Nat.le_sub_one_of_lt (Nat.mod_lt _ (by omega))
  rw [InWindow, toNat_delay p hattempt, hexact]
  omega

/-- The random parts that a delay can have: none if it is short, or else what is less than a
    tenth of it. -/
def IsJitter (plain extra : Nat) : Prop :=
  if plain < 10 then extra = 0 else extra < plain / 10

theorem isJitter_zero (plain : Nat) : IsJitter plain 0 := by
  unfold IsJitter
  split
  · rfl
  · omega

theorem IsJitter.le {plain extra : Nat} (hextra : IsJitter plain extra) : extra ≤ plain / 10 := by
  unfold IsJitter at hextra
  split at hextra
  · omega
  · exact Nat.le_of_lt hextra

/-- The random parts that draws give are those that a delay can have. -/
theorem exists_jitter_iff (plain : UInt64) (extra : Nat) :
    (∃ draw, (jitter plain draw).toNat = extra) ↔ IsJitter plain.toNat extra := by
  simp only [toNat_jitter, IsJitter]
  split
  · exact ⟨fun ⟨_, hdraw⟩ => hdraw.symm, fun hextra => ⟨0, hextra.symm⟩⟩
  · rename_i hlong
    constructor
    · rintro ⟨draw, rfl⟩
      apply Nat.mod_lt
      omega
    · intro hextra
      exact ⟨extra, Nat.mod_eq_of_lt hextra⟩

/-- One attempt less, unless there is none. -/
def previous? (attempt : UInt32) : Option UInt32 := if attempt = 0 then none else some (attempt - 1)

/-- The number below a bound that a draw gives, unless no number is below it. -/
def drawBelow? (bound : UInt64) (draw : Nat) : Option UInt64 :=
  if bound = 0 then none else some (.ofNat (draw % bound.toNat))

/-- A delay computed in words, step by step. Of the steps that are not cut off, going back one
    attempt and drawing a number can fail. -/
def stepwise? (p : Policy) (attempt : UInt32) (draw : Nat) : Option UInt64 := do
  if attempt = 0 then return 0
  let doublings ← previous? attempt
  let plain := min (clampedMul p.base (powerOfTwo doublings.toNat)) p.cap
  let extra ← if spread plain = 0 then pure 0 else drawBelow? (spread plain) draw
  return clampedAdd plain extra

theorem toNat_previous {attempt : UInt32} (hattempt : attempt ≠ 0) :
    (attempt - 1).toNat = attempt.toNat - 1 := by
  apply UInt32.toNat_sub_of_le
  rw [UInt32.le_iff_toNat_le]
  have hpositive : attempt.toNat ≠ 0 := fun hzero => hattempt (UInt32.toNat_inj.1 hzero)
  change 1 ≤ attempt.toNat
  omega

theorem delay_zero (p : Policy) (draw : Nat) : p.delay 0 draw = 0 := by
  have hplain : p.plainDelay 0 = 0 := if_pos rfl
  have hjitter : jitter 0 draw = 0 := if_pos (by decide)
  rw [delay, hplain, hjitter]
  decide

/-- No step of a delay fails. -/
theorem stepwise?_eq (p : Policy) (attempt : UInt32) (draw : Nat) :
    p.stepwise? attempt draw = some (p.delay attempt draw) := by
  unfold stepwise?
  by_cases hattempt : attempt = 0
  · subst attempt
    rw [if_pos rfl, delay_zero]
    rfl
  · have hplain : min (clampedMul p.base (powerOfTwo (attempt - 1).toNat)) p.cap = p.plainDelay attempt := by
      rw [plainDelay, if_neg hattempt, toNat_previous hattempt]
    rw [if_neg hattempt, previous?, if_neg hattempt]
    simp only [pure_bind, Option.bind_eq_bind, Option.bind_some, hplain, delay]
    by_cases hspread : spread (p.plainDelay attempt) = 0
    · simp [jitter, hspread]
    · simp [jitter, drawBelow?, hspread]

/-- A delay is more than the cap by at most a tenth. -/
theorem delay_le (p : Policy) (attempt : UInt32) (draw : Nat) :
    (p.delay attempt draw).toNat ≤ p.cap.toNat + p.cap.toNat / 10 := by
  by_cases hattempt : attempt = 0
  · rw [hattempt, delay_zero]
    exact Nat.zero_le _
  · have hcap : p.exactDelay attempt.toNat ≤ p.cap.toNat := Nat.min_le_right _ _
    have hjitter := ((exists_jitter_iff (p.plainDelay attempt) _).1 ⟨draw, rfl⟩).le
    rw [toNat_plainDelay p hattempt] at hjitter
    rw [toNat_delay p hattempt]
    omega

/-- The delays before an attempt are the exact one and a random part of it, as far as 64 bits go,
    and none before attempt zero. They come about without a step that fails, and none is more than
    a tenth above the cap. -/
theorem delays_exact (p : Policy) (attempt : UInt32) :
    (∀ draw, p.stepwise? attempt draw = some (p.delay attempt draw) ∧
      (p.delay attempt draw).toNat ≤ p.cap.toNat + p.cap.toNat / 10) ∧
    ∀ ms, (∃ draw, (p.delay attempt draw).toNat = ms) ↔
      ∃ extra, IsJitter (p.exactDelay attempt.toNat) extra ∧
        ms = if attempt = 0 then 0 else min (p.exactDelay attempt.toNat + extra) (UInt64.size - 1) := by
  refine ⟨fun draw => ⟨p.stepwise?_eq attempt draw, p.delay_le attempt draw⟩, fun ms => ?_⟩
  by_cases hattempt : attempt = 0
  · simp only [if_pos hattempt]
    subst attempt
    constructor
    · rintro ⟨draw, rfl⟩
      exact ⟨0, isJitter_zero _, by rw [delay_zero, UInt64.toNat_zero]⟩
    · rintro ⟨-, -, rfl⟩
      exact ⟨0, by rw [delay_zero, UInt64.toNat_zero]⟩
  · simp only [if_neg hattempt, toNat_delay p hattempt]
    have hexact := toNat_plainDelay p hattempt
    constructor
    · rintro ⟨draw, rfl⟩
      have hextra := (exists_jitter_iff (p.plainDelay attempt) _).1 ⟨draw, rfl⟩
      rw [hexact] at hextra
      exact ⟨_, hextra, rfl⟩
    · rintro ⟨extra, hextra, rfl⟩
      rw [← hexact] at hextra
      obtain ⟨draw, hdraw⟩ := (exists_jitter_iff (p.plainDelay attempt) extra).2 hextra
      exact ⟨draw, by rw [hdraw]⟩

end Policy

namespace Counter

/-- One more failed attempt is counted, up to the greatest count there is. -/
theorem toNat_attempts_failed (c : Counter) :
    c.failed.attempts.toNat = min (c.attempts.toNat + 1) (UInt32.size - 1) := by
  have hbound := c.attempts.toNat_lt_size
  unfold failed UInt32.ofNatClamp
  split
  · simp only [UInt32.toNat_ofNatLT]
    omega
  · simp only [UInt32.toNat_ofNatLT]
    omega

theorem attempts_failed_ne_zero (c : Counter) : c.failed.attempts ≠ 0 := by
  intro hzero
  have hcount := c.toNat_attempts_failed
  rw [hzero, UInt32.toNat_zero] at hcount
  simp only [UInt32.size] at hcount
  omega

end Counter

end ConfigWatch.Backoff
