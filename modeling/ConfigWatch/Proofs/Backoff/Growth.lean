import ConfigWatch.Proofs.Backoff
import Mathlib.Data.List.DropRight
/-!
How delays grow while a counter is used. What is counted is how many delays have been asked for
since the counter was started over, and the next delay lies in the window of that number.
Below the cap the exact delay doubles each time, and its window is narrower than that; at the
cap it stays.
-/
namespace ConfigWatch.Backoff

namespace Policy

theorem exactDelay_succ {p : Policy} {doublings : Nat} (hcap : p.base.toNat * 2 ^ doublings ≤ p.cap.toNat) :
    p.exactDelay (doublings + 1) = p.base.toNat * 2 ^ doublings :=
  Nat.min_eq_left hcap

/-- Until the cap is reached, a delay is twice as long as the one before it. -/
theorem exactDelay_eq_double {p : Policy} {doublings : Nat}
    (hcap : p.base.toNat * 2 ^ (doublings + 1) ≤ p.cap.toNat) :
    p.exactDelay (doublings + 2) = 2 * p.exactDelay (doublings + 1) := by
  have hdouble : p.base.toNat * 2 ^ (doublings + 1) = 2 * (p.base.toNat * 2 ^ doublings) := by
    rw [Nat.pow_succ, ← Nat.mul_assoc, Nat.mul_comm]
  have hbefore : p.base.toNat * 2 ^ doublings ≤ p.cap.toNat := by omega
  rw [exactDelay_succ hcap, exactDelay_succ hbefore, hdouble]

/-- Once the cap is reached, no later delay is below it. -/
theorem exactDelay_of_cap_le {p : Policy} {attempt later : Nat} (hlater : attempt ≤ later)
    (hcap : p.cap.toNat ≤ p.base.toNat * 2 ^ (attempt - 1)) : p.exactDelay later = p.cap.toNat := by
  have hpow : 2 ^ (attempt - 1) ≤ 2 ^ (later - 1) := Nat.pow_le_pow_right Nat.zero_lt_two (by omega)
  have hproduct := Nat.mul_le_mul_left p.base.toNat hpow
  exact Nat.min_eq_right (Nat.le_trans hcap hproduct)

theorem exactDelay_pos {p : Policy} (hbase : 0 < p.base.toNat) (hcap : 0 < p.cap.toNat)
    (attempt : Nat) : 0 < p.exactDelay attempt :=
  Nat.lt_min.2 ⟨Nat.mul_pos hbase (Nat.two_pow_pos _), hcap⟩

/-- Under a cap that is no shorter than the first delay, no delay is shorter than the first one. -/
theorem base_le_exactDelay {p : Policy} (hrange : p.base.toNat ≤ p.cap.toNat) (attempt : Nat) :
    p.base.toNat ≤ p.exactDelay attempt :=
  Nat.le_min.2 ⟨Nat.le_mul_of_pos_right _ (Nat.two_pow_pos _), hrange⟩

/-- The random part of a delay is too short to reach the double of the delay. -/
theorem InWindow.lt_of_double {plain earlier later : Nat} (hpositive : 0 < plain)
    (hearlier : InWindow plain earlier) (hlater : InWindow (2 * plain) later) : earlier < later := by
  obtain ⟨-, hmost⟩ := hearlier
  obtain ⟨hleast, -⟩ := hlater
  omega

theorem InWindow.le_add_tenth {plain delay : Nat} (hwindow : InWindow plain delay) :
    delay ≤ plain + plain / 10 := by
  obtain ⟨-, hmost⟩ := hwindow
  omega

end Policy

namespace Counter

/-- What a counter is used for: to ask for the next delay, whose random part is drawn, or to
    start over. -/
inductive Use where
  | next (draw : Nat)
  | reset

def Use.asksDelay : Use → Bool
  | .next _ => true
  | .reset => false

/-- The counter after one use. -/
def use (c : Counter) : Use → Counter
  | .next draw => (c.next draw).2
  | .reset => c.reset

/-- The counter after uses, one after the other. -/
def after (c : Counter) (uses : List Use) : Counter := uses.foldl use c

/-- The number of delays asked for since the counter was started over. -/
def sinceReset (uses : List Use) : Nat := (uses.rtakeWhile Use.asksDelay).length

theorem after_append (c : Counter) (earlier later : List Use) :
    c.after (earlier ++ later) = (c.after earlier).after later :=
  List.foldl_append

theorem after_concat (c : Counter) (uses : List Use) (last : Use) :
    c.after (uses ++ [last]) = (c.after uses).use last :=
  c.after_append uses [last]

theorem sinceReset_concat (uses : List Use) (last : Use) :
    sinceReset (uses ++ [last]) = if last.asksDelay then sinceReset uses + 1 else 0 := by
  rw [sinceReset, List.rtakeWhile_concat]
  cases last with
  | next draw => simp [Use.asksDelay, sinceReset]
  | reset => simp [Use.asksDelay]

theorem sinceReset_append_next (uses : List Use) (draws : List Nat) :
    sinceReset (uses ++ draws.map .next) = sinceReset uses + draws.length := by
  induction draws using List.reverseRecOn with
  | nil => simp
  | append_singleton draws draw ih =>
    rw [List.map_append, ← List.append_assoc, List.map_singleton, sinceReset_concat, ih,
      List.length_append]
    rfl

theorem policy_after (c : Counter) (uses : List Use) : (c.after uses).policy = c.policy := by
  induction uses using List.reverseRecOn with
  | nil => rfl
  | append_singleton uses last ih =>
    rw [after_concat, ← ih]
    cases last <;> rfl

/-- What is counted is the delays since the last reset, as far as 32 bits go. -/
theorem toNat_attempts_after (p : Policy) (uses : List Use) :
    ((start p).after uses).attempts.toNat = min (sinceReset uses) (UInt32.size - 1) := by
  induction uses using List.reverseRecOn with
  | nil => rfl
  | append_singleton uses last ih =>
    rw [after_concat, sinceReset_concat]
    cases last with
    | next draw =>
      have hcount := ((start p).after uses).toNat_attempts_failed
      rw [ih] at hcount
      change ((start p).after uses).failed.attempts.toNat = min (sinceReset uses + 1) _
      omega
    | reset => rfl

/-- The next delay lies in the window of the delays asked for since the last reset, however
    many there were. -/
theorem inWindow_next (p : Policy) (uses : List Use) (draw : Nat) :
    Policy.InWindow (p.exactDelay (sinceReset uses + 1)) (((start p).after uses).next draw).1.toNat := by
  have hwindow := p.inWindow_delay ((start p).after uses).attempts_failed_ne_zero draw
  have hcount : ((start p).after uses).failed.attempts.toNat = min (sinceReset uses + 1) (UInt32.size - 1) := by
    rw [toNat_attempts_failed, toNat_attempts_after]
    omega
  have hpolicy : ((start p).after uses).failed.policy = p := policy_after (start p) uses
  rw [hcount, Policy.exactDelay_min] at hwindow
  rwa [next, hpolicy]

/-- However a counter has been used, it counts the delays asked for since it was started over,
    as far as 32 bits go. As long as the delay after the next one is not cut off at the cap, it is
    longer than the next one, whatever is drawn for the two; and once the next one reaches the cap,
    it and all that follow it are at least the cap, and more than the cap by at most a tenth, until
    the counter is started over. -/
theorem delays_grow_to_cap {p : Policy} (hbase : 1 ≤ p.base) (uses : List Use) :
    let c := (start p).after uses
    let k := sinceReset uses + 1
    c.attempts.toNat = min (sinceReset uses) (UInt32.size - 1) ∧
    (p.base.toNat * 2 ^ k ≤ p.cap.toNat → ∀ draw draw',
      (c.next draw).1 < ((c.next draw).2.next draw').1) ∧
    (p.cap.toNat ≤ p.base.toNat * 2 ^ (k - 1) → ∀ (draws : List Nat) (draw : Nat),
      let delay := ((c.after (draws.map .next)).next draw).1.toNat
      p.cap.toNat ≤ delay ∧ delay ≤ p.cap.toNat + p.cap.toNat / 10) := by
  intro c k
  refine ⟨toNat_attempts_after p uses, fun hcap draw draw' => ?_, fun hcap draws draw => ?_⟩
  · have hpositive : 0 < p.base.toNat := UInt64.le_iff_toNat_le.1 hbase
    have hdouble := Policy.exactDelay_eq_double hcap
    have hearlier := inWindow_next p uses draw
    have hlater := inWindow_next p (uses ++ [.next draw]) draw'
    have hcount : sinceReset (uses ++ [.next draw]) = k := sinceReset_append_next uses [draw]
    rw [hcount, hdouble, after_concat] at hlater
    have hcapPositive : 0 < p.cap.toNat :=
      Nat.lt_of_lt_of_le (Nat.mul_pos hpositive (Nat.two_pow_pos k)) hcap
    rw [UInt64.lt_iff_toNat_lt]
    exact hearlier.lt_of_double (Policy.exactDelay_pos hpositive hcapPositive k) hlater
  · have hwindow := inWindow_next p (uses ++ draws.map .next) draw
    have hlater : k ≤ sinceReset uses + draws.length + 1 := by omega
    rw [sinceReset_append_next, Policy.exactDelay_of_cap_le hlater hcap, after_append] at hwindow
    exact ⟨hwindow.1, hwindow.le_add_tenth⟩

/-- With a first delay of 10 and a cap of 50, the second delay is longer than the first one after
    a reset, and the fourth is the first that is cut off. -/
theorem second_delay_longer_fourth_capped :
    let p : Policy := ⟨10, 50⟩
    let restarted := (start p).after [.next 4, .next 0, .reset]
    let third := (start p).after [.next 0, .next 1, .next 3]
    1 ≤ p.base ∧ third.attempts.toNat = 3 ∧
      (∀ draw draw', (restarted.next draw).1 < ((restarted.next draw).2.next draw').1) ∧
      ∀ (draws : List Nat) (draw : Nat), 50 ≤ ((third.after (draws.map .next)).next draw).1.toNat ∧
        ((third.after (draws.map .next)).next draw).1.toNat ≤ 55 := by
  intro p restarted third
  have hbase : 1 ≤ p.base := by decide
  obtain ⟨-, hgrows, -⟩ := delays_grow_to_cap hbase [.next 4, .next 0, .reset]
  obtain ⟨hcount, -, hstays⟩ := delays_grow_to_cap hbase [.next 0, .next 1, .next 3]
  refine ⟨hbase, hcount, hgrows (by decide), fun draws draw => ?_⟩
  have hcap : p.cap.toNat = 50 := rfl
  obtain ⟨hleast, hmost⟩ := hstays (by decide) draws draw
  rw [hcap] at hleast hmost
  exact ⟨hleast, hmost⟩

end Counter

end ConfigWatch.Backoff
