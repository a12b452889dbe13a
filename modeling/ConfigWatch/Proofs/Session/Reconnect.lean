import ConfigWatch.Proofs.Backoff
import ConfigWatch.Proofs.Session.Tally
import ConfigWatch.Session.Script
/-!
When a session subscribes again. Between two subscribe calls lies exactly one rest, and its
delay follows from the failures since the last batch, whichever subscription brought it:
it grows with them up to the cap, and a batch starts it over. A failure is never the last
thing that a session does.
-/
namespace ConfigWatch.Session

open Backoff (Policy)

/-- The time that has passed when a session has heard signals. Calls on the feed take none,
    and a rest takes its delay. -/
def elapsed (s : Session) : List Signal → Nat
  | [] => 0
  | signal :: rest => s.restTime + (s.hear signal).elapsed rest

theorem elapsed_concat (s : Session) (signals : List Signal) (signal : Signal) :
    s.elapsed (signals ++ [signal]) = s.elapsed signals + (s.after signals).restTime := by
  induction signals generalizing s with
  | nil => simp [elapsed, after]
  | cons first rest ih => rw [List.cons_append, elapsed, ih, elapsed, after_cons, Nat.add_assoc]

theorem subscribeCalls_le_append (s : Session) (earlier later : List Signal) :
    s.subscribeCalls earlier ≤ s.subscribeCalls (earlier ++ later) := by
  induction later using List.reverseRecOn with
  | nil => rw [List.append_nil]
  | append_singleton later signal ih =>
    rw [← List.append_assoc, subscribeCalls_concat]
    exact Nat.le_add_right_of_le ih

section Step

variable {s t : Session} {signal : Signal}

theorem Step.policy_eq (hstep : Step s signal t) : t.backoff.policy = s.backoff.policy := by
  cases hstep with
  | received =>
    rw [backoff_applyBatch]
    rfl
  | _ => rfl

theorem Step.toNat_attempts_eq (hstep : Step s signal t) :
    t.backoff.attempts.toNat =
      if signal.isBatch then 0
      else min (s.backoff.attempts.toNat + s.handled signal) (UInt32.size - 1) := by
  obtain ⟨hhandled, hbatch, rfl⟩ | ⟨-, hbatch, -, -, hcleared⟩ | ⟨hhandled, hbatch, -, -, hkept⟩ :=
    hstep.fails_or_receives_or_keeps
  · rw [hhandled, hbatch]
    exact s.backoff.toNat_attempts_failed
  · rw [hbatch, hcleared]
    rfl
  · have hbound := s.backoff.attempts.toNat_lt_size
    simp only [hhandled, hbatch, hkept, Bool.false_eq_true, ↓reduceIte]
    omega

/-- A session rests because it has failed, and for the delay that its count of failures calls for. -/
theorem Step.exists_draw_of_resting (hstep : Step s signal t) {delay : UInt64}
    (hpoint : t.point = .resting delay) :
    t.backoff.attempts ≠ 0 ∧ ∃ draw, delay = t.backoff.policy.delay t.backoff.attempts draw := by
  have hfail (hpoint : s.fail.point = .resting delay) : s.fail.backoff.attempts ≠ 0 ∧
      ∃ draw, delay = s.fail.backoff.policy.delay s.fail.backoff.attempts draw := by
    exact ⟨s.backoff.attempts_failed_ne_zero, s.draws s.status.failures, (Point.resting.inj hpoint).symm⟩
  cases hstep with
  | refused => exact hfail hpoint
  | released => exact hfail hpoint
  | received hlistening =>
    rw [point_applyBatch] at hpoint
    exact Point.noConfusion (hlistening.symm.trans hpoint)
  | interrupted hlistening => exact Point.noConfusion (hlistening.symm.trans hpoint)
  | opened => cases hpoint
  | lost => cases hpoint
  | rested => cases hpoint

/-- A session subscribes only when it has rested. -/
theorem Step.rested_of_subscribing (hstep : Step s signal t) (hpoint : t.point = .subscribing) :
    signal = .rested ∧ ∃ delay, s.point = .resting delay := by
  cases hstep with
  | @rested delay hresting => exact ⟨rfl, delay, hresting⟩
  | received hlistening =>
    rw [point_applyBatch] at hpoint
    exact Point.noConfusion (hlistening.symm.trans hpoint)
  | interrupted hlistening => exact Point.noConfusion (hlistening.symm.trans hpoint)
  | opened => cases hpoint
  | refused => cases hpoint
  | lost => cases hpoint
  | released => cases hpoint

theorem Step.subscribing_of_rested (hstep : Step s .rested t) : t.point = .subscribing := by
  cases hstep
  rfl

/-- A batch comes while the last subscribe call has not failed. -/
theorem Step.pendingCalls_of_isBatch (hstep : Step s signal t) (hbatch : signal.isBatch = true) :
    t.point.pendingCalls = 1 := by
  cases hstep with
  | received hpoint => simp [hpoint, Point.pendingCalls]
  | _ => cases hbatch

/-- A session that has handled one more failure rests. -/
theorem Step.resting_of_handled (hstep : Step s signal t) (hhandled : s.handled signal = 1) :
    ∃ delay, t.point = .resting delay := by
  obtain ⟨-, -, rfl⟩ | ⟨hnone, -⟩ | ⟨hnone, -⟩ := hstep.fails_or_receives_or_keeps
  · exact ⟨_, rfl⟩
  · omega
  · omega

end Step

theorem awaits_resting_iff {delay : UInt64} {signal : Signal} :
    (Point.resting delay).awaits signal = true ↔ signal = .rested := by
  cases signal <;> simp [Point.awaits]

/-- The failures since the last batch after one more signal. -/
theorem failures_sinceBatch_concat {s : Session} {signals : List Signal}
    (hlost : endsLost signals = decide (s.point = .releasing)) (signal : Signal) :
    failures (sinceBatch (signals ++ [signal])) =
      if signal.isBatch then 0 else failures (sinceBatch signals) + s.handled signal := by
  rw [sinceBatch_concat]
  cases signal.isBatch with
  | true => rfl
  | false =>
    simp only [Bool.false_eq_true, ↓reduceIte]
    rw [failures_concat, endsLost_sinceBatch, hlost, handled, Nat.add_assoc]

/-- The backoff of a session, as it follows from the signals heard. -/
structure Paced (s : Session) (policy : Policy) (signals : List Signal) : Prop where
  policy_eq : s.backoff.policy = policy
  attempts_eq : s.backoff.attempts.toNat = min (failures (sinceBatch signals)) (UInt32.size - 1)
  resting_eq : ∀ delay, s.point = .resting delay →
    s.backoff.attempts ≠ 0 ∧ ∃ draw, delay = policy.delay s.backoff.attempts draw
  endsLost_eq : endsLost signals = decide (s.point = .releasing)

theorem paced_start (target : Target) (policy : Policy) (draws : Nat → Nat) (status : Status)
    (replica : Replica) : (start target policy draws status replica).Paced policy [] where
  policy_eq := rfl
  attempts_eq := rfl
  resting_eq _ hpoint := Point.noConfusion hpoint
  endsLost_eq := rfl

theorem Paced.step {s t : Session} {policy : Policy} {signals : List Signal} {signal : Signal}
    (hpaced : s.Paced policy signals) (hstep : Step s signal t) :
    t.Paced policy (signals ++ [signal]) where
  policy_eq := hstep.policy_eq.trans hpaced.policy_eq
  attempts_eq := by
    have hbefore := hpaced.attempts_eq
    rw [hstep.toNat_attempts_eq, failures_sinceBatch_concat hpaced.endsLost_eq]
    cases signal.isBatch with
    | true => rfl
    | false =>
      simp only [Bool.false_eq_true, ↓reduceIte]
      omega
  resting_eq delay hpoint := by
    rw [← hpaced.policy_eq, ← hstep.policy_eq]
    exact hstep.exists_draw_of_resting hpoint
  endsLost_eq := by rw [endsLost_concat, hstep.isLoss_eq]

theorem Course.paced {s : Session} {policy : Policy} (hpaced : s.Paced policy []) {signals : List Signal}
    (hcourse : s.Course signals) : (s.after signals).Paced policy signals := by
  induction hcourse using Course.induction with
  | nil => exact hpaced
  | concat signals signal _ _ hstep ih => exact ih.step hstep

/-- The delay of a resting session lies in the window of its count of failures, however
    large that is. -/
theorem Paced.inWindow {s : Session} {policy : Policy} {signals : List Signal}
    (hpaced : s.Paced policy signals) {delay : UInt64} (hpoint : s.point = .resting delay) :
    Policy.InWindow (policy.exactDelay (failures (sinceBatch signals))) delay.toNat := by
  obtain ⟨hattempts, draw, rfl⟩ := hpaced.resting_eq delay hpoint
  have hwindow := policy.inWindow_delay hattempts draw
  rwa [hpaced.attempts_eq, Policy.exactDelay_min] at hwindow

/-- While a session has made no other subscribe call, no time has passed, and it has failed
    once at most: not before the call has. -/
theorem Course.of_subscribeCalls_eq {s : Session} {policy : Policy} (hpaced : s.Paced policy [])
    {earlier later : List Signal} (hcourse : s.Course (earlier ++ later))
    (hcall : (s.after earlier).point = .subscribing)
    (hsame : s.subscribeCalls (earlier ++ later) = s.subscribeCalls earlier) :
    s.elapsed (earlier ++ later) = s.elapsed earlier ∧
      failures (sinceBatch (earlier ++ later)) + (s.after (earlier ++ later)).point.pendingCalls =
        (if later.any Signal.isBatch then 0 else failures (sinceBatch earlier)) + 1 := by
  induction later using List.reverseRecOn with
  | nil => simp [hcall, Point.pendingCalls]
  | append_singleton later signal ih =>
    rw [← List.append_assoc] at hcourse hsame ⊢
    obtain ⟨hbefore, hawaits⟩ := course_concat.1 hcourse
    have hstep := step_hear hawaits
    have hcalls := s.subscribeCalls_le_append earlier later
    rw [subscribeCalls_concat, after_concat] at hsame
    have hnocall : ((s.after (earlier ++ later)).hear signal).point ≠ .subscribing := by
      intro hpoint
      rw [if_pos hpoint] at hsame
      omega
    rw [if_neg hnocall, Nat.add_zero] at hsame
    obtain ⟨helapsed, hfailures⟩ := ih hbefore hsame
    have hpending := hstep.pendingCalls_eq
    rw [if_neg hnocall, Nat.add_zero] at hpending
    constructor
    · -- A rest would end with another call, so there has been none.
      have hrest : (s.after (earlier ++ later)).restTime = 0 := by
        unfold restTime
        split
        · rename_i delay hresting
          rw [hresting, awaits_resting_iff] at hawaits
          subst hawaits
          exact absurd hstep.subscribing_of_rested hnocall
        · rfl
      rw [elapsed_concat, hrest, Nat.add_zero, helapsed]
    · rw [failures_sinceBatch_concat (hbefore.paced hpaced).endsLost_eq, after_concat, List.any_append]
      cases hbatch : signal.isBatch with
      | true => simp [hbatch, hstep.pendingCalls_of_isBatch hbatch]
      | false =>
        simp only [List.any_cons, List.any_nil, hbatch, Bool.or_false, Bool.false_eq_true, ↓reduceIte]
        omega

/-- The signals from one subscribe call to the next end with a rest, which takes all the
    time between the calls and is made for the only failure between them. -/
theorem Course.exists_rest_of_nextCall {s : Session} {policy : Policy} (hpaced : s.Paced policy [])
    {earlier later : List Signal} (hcourse : s.Course (earlier ++ later))
    (hcall : (s.after earlier).point = .subscribing)
    (hnext : (s.after (earlier ++ later)).point = .subscribing)
    (hcalls : s.subscribeCalls (earlier ++ later) = s.subscribeCalls earlier + 1) :
    ∃ delay : UInt64, s.elapsed (earlier ++ later) = s.elapsed earlier + delay.toNat ∧
      failures (sinceBatch (earlier ++ later)) =
        (if later.any Signal.isBatch then 1 else failures (sinceBatch earlier) + 1) ∧
      Policy.InWindow (policy.exactDelay (failures (sinceBatch (earlier ++ later)))) delay.toNat := by
  obtain rfl | ⟨later, signal, rfl⟩ := later.eq_nil_or_concat'
  · rw [List.append_nil] at hcalls
    omega
  · rw [← List.append_assoc] at hcourse hnext hcalls ⊢
    obtain ⟨hbefore, hawaits⟩ := course_concat.1 hcourse
    rw [after_concat] at hnext
    obtain ⟨rfl, delay, hresting⟩ := (step_hear hawaits).rested_of_subscribing hnext
    rw [subscribeCalls_concat, after_concat, if_pos hnext] at hcalls
    obtain ⟨helapsed, hfailures⟩ := hbefore.of_subscribeCalls_eq hpaced hcall (by omega)
    have hresttime : (s.after (earlier ++ later)).restTime = delay.toNat := by
      rw [restTime, hresting]
    have hrested : failures (sinceBatch (earlier ++ later ++ [.rested])) =
        failures (sinceBatch (earlier ++ later)) := by
      rw [failures_sinceBatch_concat (hbefore.paced hpaced).endsLost_eq, handled, hresting]
      rfl
    rw [hrested]
    refine ⟨delay, by rw [elapsed_concat, hresttime, helapsed], ?_,
      (hbefore.paced hpaced).inWindow hresting⟩
    have hany : (later ++ [Signal.rested]).any Signal.isBatch = later.any Signal.isBatch := by
      simp [Signal.isBatch]
    rw [hresting] at hfailures
    refine hfailures.trans ?_
    rw [hany]
    split <;> rfl

/-- Whatever the feed does, and whatever the draws are, as long as its calls take no time:
    the time from one subscribe call to the next lies in the window of the delay that the
    failures since the last batch call for. A round without a batch adds one failure to
    them, and any batch, be it empty, makes the next failure the first. However many
    failures there were, after each of them the session rests, and what follows the rest
    is a subscribe call. -/
theorem reconnect_delay_in_window (target : Target) (policy : Policy) (draws : Nat → Nat)
    (status : Status) (replica : Replica) {signals : List Signal}
    (hcourse : (start target policy draws status replica).Course signals) :
    let first := start target policy draws status replica
    (∀ earlier later, earlier ++ later = signals →
      (first.after earlier).point = .subscribing → (first.after signals).point = .subscribing →
      first.subscribeCalls signals = first.subscribeCalls earlier + 1 →
        let k := failures (sinceBatch signals)
        let c := min (policy.base.toNat * 2 ^ (k - 1)) policy.cap.toNat
        let waited := first.elapsed signals - first.elapsed earlier
        (k = if later.any Signal.isBatch then 1 else failures (sinceBatch earlier) + 1) ∧
          c ≤ waited ∧ waited ≤ min (c + (c / 10 - 1)) (UInt64.size - 1)) ∧
    (∀ signal, first.Course (signals ++ [signal]) →
      failures (signals ++ [signal]) = failures signals + 1 →
        ∃ delay, (first.after (signals ++ [signal])).point = .resting delay ∧
          (∀ next, first.Course (signals ++ [signal, next]) ↔ next = .rested) ∧
          (first.after (signals ++ [signal, .rested])).point = .subscribing) := by
  intro first
  have hstart := paced_start target policy draws status replica
  refine ⟨?_, ?_⟩
  · rintro earlier later rfl hcall hnext hcalls k c waited
    obtain ⟨delay, helapsed, hk, hwindow⟩ :=
      hcourse.exists_rest_of_nextCall hstart hcall hnext hcalls
    have hwaited : waited = delay.toNat := Nat.sub_eq_of_eq_add' helapsed
    rw [hwaited]
    exact ⟨hk, hwindow⟩
  · intro signal hmore hfailed
    have hsplit (next : Signal) : signals ++ [signal, next] = signals ++ [signal] ++ [next] := by simp
    have hawaits := (course_concat.1 hmore).2
    rw [failures_concat, (hcourse.paced hstart).endsLost_eq, Nat.add_assoc] at hfailed
    obtain ⟨delay, hresting⟩ := (step_hear hawaits).resting_of_handled (Nat.add_left_cancel hfailed)
    rw [← after_concat] at hresting
    have hnext (next : Signal) : first.Course (signals ++ [signal, next]) ↔ next = .rested := by
      rw [hsplit, course_concat, hresting, awaits_resting_iff, and_iff_right hmore]
    refine ⟨delay, hresting, hnext, ?_⟩
    have hrested := (hnext .rested).2 rfl
    rw [hsplit] at hrested ⊢
    rw [after_concat]
    exact (step_hear (course_concat.1 hrested).2).subscribing_of_rested

/-- A subscription without a batch makes the next delay twice as long, and an empty batch
    makes it the first one again. -/
theorem delay_doubles_until_batch :
    let refused : List Signal := [.refused (.interrupted []), .rested]
    let silent : List Signal := [.opened, .disturbed (.interrupted []), .disturbed .closed, .released, .rested]
    let heard : List Signal := [.opened, .received [], .disturbed (.transport []), .released, .rested]
    let first := start ⟨["feed".toList], "/app".toList⟩ .standard (fun _ => 7) .initial .fresh
    let waited (earlier later : List Signal) := first.elapsed (earlier ++ later) - first.elapsed earlier
    first.Course (refused ++ silent ++ heard) ∧
      (200 ≤ waited refused silent ∧ waited refused silent < 220) ∧
      (100 ≤ waited (refused ++ silent) heard ∧ waited (refused ++ silent) heard < 110) := by
  intro refused silent heard first waited
  have hsilent : first.Course (refused ++ silent) := by decide
  have hheard : first.Course (refused ++ silent ++ heard) := by decide
  obtain ⟨hsecond, -⟩ := reconnect_delay_in_window _ _ _ _ _ hsilent
  obtain ⟨hthird, -⟩ := reconnect_delay_in_window _ _ _ _ _ hheard
  obtain ⟨-, hleast, hmost⟩ := hsecond refused silent rfl (by decide) (by decide) (by decide)
  obtain ⟨-, hleast', hmost'⟩ := hthird (refused ++ silent) heard rfl (by decide) (by decide) (by decide)
  refine ⟨hheard, ⟨Nat.le_trans ?_ hleast, Nat.lt_of_le_of_lt hmost ?_⟩,
    ⟨Nat.le_trans ?_ hleast', Nat.lt_of_le_of_lt hmost' ?_⟩⟩
  all_goals decide

end ConfigWatch.Session
