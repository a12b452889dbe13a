import ConfigWatch.Proofs.Backoff
import ConfigWatch.Proofs.Session.Course
import Mathlib.Data.List.DropRight
/-!
What the status of a session counts. At every call, subscriptions and failures are
those that were heard so far, attempts are the failures since the last batch, and the
state and the number of subscribe calls follow from the call. A failure is counted when
it is handled: a lost subscription is given back first.
-/
namespace ConfigWatch

namespace Session

open Feed (Event Failure)

/-- A subscribe call failed, whatever the failure. -/
def Signal.isRefusal : Signal → Bool
  | .refused _ => true
  | _ => false

/-- A subscription was lost, in transport or because the feed closed it. -/
def Signal.isLoss : Signal → Bool
  | .disturbed (.transport _) | .disturbed .closed => true
  | _ => false

/-- A batch was received, be it empty. -/
def Signal.isBatch : Signal → Bool
  | .received _ => true
  | _ => false

/-- Whether a subscription was lost last, so that it is still to be given back. -/
def endsLost (signals : List Signal) : Bool := signals.getLast?.any Signal.isLoss

/-- The failures that have been handled: every failed subscribe call, and every lost
    subscription but one that is still to be given back. -/
def failures (signals : List Signal) : Nat :=
  signals.countP Signal.isRefusal + signals.dropLast.countP Signal.isLoss

/-- The signals after the last batch. -/
def sinceBatch (signals : List Signal) : List Signal := signals.rtakeWhile fun signal => !signal.isBatch

/-- The number of subscribe calls that a session has made when it has heard signals. -/
def subscribeCalls (s : Session) (signals : List Signal) : Nat :=
  (signals.scanl hear s).countP fun t => t.point = .subscribing

@[simp] def Point.state : Point → State
  | .subscribing => .subscribing
  | .listening | .releasing => .active
  | .resting _ => .failed

theorem Signal.isLoss_disturbed (failure : Failure) :
    (Signal.disturbed failure).isLoss = failure.losesSubscription := by
  cases failure <;> rfl

theorem endsLost_concat (signals : List Signal) (signal : Signal) :
    endsLost (signals ++ [signal]) = signal.isLoss := by
  simp [endsLost]

theorem countP_isLoss (signals : List Signal) :
    signals.countP Signal.isLoss = signals.dropLast.countP Signal.isLoss + (endsLost signals).toNat := by
  induction signals using List.reverseRecOn with
  | nil => rfl
  | append_singleton signals signal ih =>
    rw [List.countP_append, List.dropLast_concat, endsLost_concat]
    cases hloss : signal.isLoss <;> simp [hloss]

/-- A signal adds a failure if it is a refusal, or if it comes after a lost subscription. -/
theorem failures_concat (signals : List Signal) (signal : Signal) :
    failures (signals ++ [signal]) =
      failures signals + signal.isRefusal.toNat + (endsLost signals).toNat := by
  have hloss := countP_isLoss signals
  have hrefusal : [signal].countP Signal.isRefusal = signal.isRefusal.toNat := by
    cases hsignal : signal.isRefusal <;> simp [hsignal]
  rw [failures, failures, List.countP_append, List.dropLast_concat, hrefusal]
  omega

theorem sinceBatch_concat (signals : List Signal) (signal : Signal) :
    sinceBatch (signals ++ [signal]) = if signal.isBatch then [] else sinceBatch signals ++ [signal] := by
  rw [sinceBatch, List.rtakeWhile_concat]
  cases signal.isBatch <;> rfl

/-- A batch is no loss, so it makes no difference to look only at what came after it. -/
theorem endsLost_sinceBatch (signals : List Signal) : endsLost (sinceBatch signals) = endsLost signals := by
  induction signals using List.reverseRecOn with
  | nil => rfl
  | append_singleton signals signal ih =>
    rw [sinceBatch_concat, endsLost_concat]
    cases hbatch : signal.isBatch with
    | false => exact endsLost_concat _ _
    | true =>
      cases signal with
      | received events => rfl
      | _ => cases hbatch

theorem subscribeCalls_concat (s : Session) (signals : List Signal) (signal : Signal) :
    s.subscribeCalls (signals ++ [signal]) =
      s.subscribeCalls signals + if (s.after (signals ++ [signal])).point = .subscribing then 1 else 0 := by
  have hlast : (signals ++ [signal]).foldl hear s = (signals.foldl hear s).hear signal :=
    after_concat s signals signal
  rw [subscribeCalls, List.scanl_append, List.countP_append, after, hlast]
  simp [subscribeCalls, List.countP_singleton]

/-- Applying events changes nothing but the replica and the count of documents. -/
theorem exists_foldl_applyEvent_eq (s : Session) (events : List Event) :
    ∃ replica reloads, events.foldl applyEvent s =
      { s with replica, status := { s.status with reloads } } := by
  induction events generalizing s with
  | nil => exact ⟨s.replica, s.status.reloads, rfl⟩
  | cons e rest ih =>
    obtain ⟨replica, reloads, hrest⟩ := ih (s.applyEvent e)
    exact ⟨replica, reloads, hrest⟩

theorem exists_applyBatch_eq (s : Session) (events : List Event) :
    ∃ replica reloads, s.applyBatch events =
      { s with backoff := s.backoff.reset, replica, status := { s.status with reloads, attempts := 0 } } :=
  exists_foldl_applyEvent_eq _ events

@[simp] theorem point_applyBatch (s : Session) (events : List Event) : (s.applyBatch events).point = s.point := by
  obtain ⟨replica, reloads, hbatch⟩ := exists_applyBatch_eq s events
  rw [hbatch]

@[simp] theorem target_applyBatch (s : Session) (events : List Event) : (s.applyBatch events).target = s.target := by
  obtain ⟨replica, reloads, hbatch⟩ := exists_applyBatch_eq s events
  rw [hbatch]

@[simp] theorem backoff_applyBatch (s : Session) (events : List Event) :
    (s.applyBatch events).backoff = s.backoff.reset := by
  obtain ⟨replica, reloads, hbatch⟩ := exists_applyBatch_eq s events
  rw [hbatch]

@[simp] theorem state_applyBatch (s : Session) (events : List Event) :
    (s.applyBatch events).status.state = s.status.state := by
  obtain ⟨replica, reloads, hbatch⟩ := exists_applyBatch_eq s events
  rw [hbatch]

@[simp] theorem subscriptions_applyBatch (s : Session) (events : List Event) :
    (s.applyBatch events).status.subscriptions = s.status.subscriptions := by
  obtain ⟨replica, reloads, hbatch⟩ := exists_applyBatch_eq s events
  rw [hbatch]

section Step

variable {s t : Session} {signal : Signal}

/-- The failures that a step handles: a refusal at once, a loss when it is given back. -/
def handled (s : Session) (signal : Signal) : Nat :=
  signal.isRefusal.toNat + (decide (s.point = .releasing)).toNat

theorem Step.state_eq (hstep : Step s signal t) (hstate : s.status.state = s.point.state) :
    t.status.state = t.point.state := by
  cases hstep with
  | received =>
    rw [state_applyBatch, point_applyBatch]
    exact hstate
  | interrupted => exact hstate
  | lost hpoint => rwa [hpoint] at hstate
  | opened => rfl
  | refused => rfl
  | released => rfl
  | rested => rfl

theorem Step.subscriptions_eq (hstep : Step s signal t) :
    t.status.subscriptions = s.status.subscriptions + [signal].count .opened := by
  cases hstep with
  | received =>
    rw [subscriptions_applyBatch]
    rfl
  | opened => rfl
  | refused => rfl
  | interrupted => rfl
  | lost => rfl
  | released => rfl
  | rested => rfl

/-- A step is a failure, or brings a batch, or is neither and leaves the failures alone. -/
theorem Step.fails_or_receives_or_keeps (hstep : Step s signal t) :
    (s.handled signal = 1 ∧ signal.isBatch = false ∧ t = s.fail) ∨
    (s.handled signal = 0 ∧ signal.isBatch = true ∧ t.status.failures = s.status.failures ∧
      t.status.attempts = 0 ∧ t.backoff.attempts = 0) ∨
    (s.handled signal = 0 ∧ signal.isBatch = false ∧ t.status.failures = s.status.failures ∧
      t.status.attempts = s.status.attempts ∧ t.backoff = s.backoff) := by
  cases hstep with
  | refused hpoint => exact .inl ⟨by simp [handled, hpoint, Signal.isRefusal], rfl, rfl⟩
  | released hpoint => exact .inl ⟨by simp [handled, hpoint, Signal.isRefusal], rfl, rfl⟩
  | @received events hpoint =>
    obtain ⟨replica, reloads, hbatch⟩ := exists_applyBatch_eq s events
    refine .inr (.inl ⟨by simp [handled, hpoint, Signal.isRefusal], rfl, ?_⟩)
    rw [hbatch]
    exact ⟨rfl, rfl, rfl⟩
  | opened hpoint => exact .inr (.inr ⟨by simp [handled, hpoint, Signal.isRefusal], rfl, rfl, rfl, rfl⟩)
  | interrupted hpoint => exact .inr (.inr ⟨by simp [handled, hpoint, Signal.isRefusal], rfl, rfl, rfl, rfl⟩)
  | lost hpoint => exact .inr (.inr ⟨by simp [handled, hpoint, Signal.isRefusal], rfl, rfl, rfl, rfl⟩)
  | rested hpoint => exact .inr (.inr ⟨by simp [handled, hpoint, Signal.isRefusal], rfl, rfl, rfl, rfl⟩)

theorem Step.failures_eq (hstep : Step s signal t) :
    t.status.failures = s.status.failures + s.handled signal := by
  obtain ⟨hhandled, -, rfl⟩ | ⟨hhandled, -, hfailures, -⟩ | ⟨hhandled, -, hfailures, -⟩ :=
    hstep.fails_or_receives_or_keeps
  · rw [hhandled]
    rfl
  · rw [hhandled, hfailures, Nat.add_zero]
  · rw [hhandled, hfailures, Nat.add_zero]

/-- The status shows the count of the backoff, which a batch clears. -/
theorem Step.attempts_eq (hstep : Step s signal t) (hbackoff : s.backoff.attempts = s.status.attempts) :
    t.backoff.attempts = t.status.attempts ∧
      t.status.attempts.toNat =
        if signal.isBatch then 0
        else min (s.status.attempts.toNat + s.handled signal) (UInt32.size - 1) := by
  obtain ⟨hhandled, hbatch, rfl⟩ | ⟨-, hbatch, -, hattempts, hcleared⟩ |
      ⟨hhandled, hbatch, -, hattempts, hkept⟩ := hstep.fails_or_receives_or_keeps
  · refine ⟨rfl, ?_⟩
    rw [hhandled, hbatch, ← hbackoff]
    exact s.backoff.toNat_attempts_failed
  · refine ⟨hcleared.trans hattempts.symm, ?_⟩
    rw [hattempts, hbatch]
    rfl
  · refine ⟨by rw [hkept, hattempts, hbackoff], ?_⟩
    have hbound := s.status.attempts.toNat_lt_size
    simp only [hhandled, hbatch, hattempts, Bool.false_eq_true, ↓reduceIte]
    omega

/-- A session gives a subscription back right after it was lost, and never else. -/
theorem Step.isLoss_eq (hstep : Step s signal t) : signal.isLoss = decide (t.point = .releasing) := by
  cases hstep with
  | received hpoint => simp [hpoint, Signal.isLoss]
  | interrupted hpoint hkept => simp [Signal.isLoss_disturbed, hkept, hpoint]
  | lost hpoint hlost => rw [Signal.isLoss_disturbed, hlost, decide_eq_true rfl]
  | opened => rfl
  | refused => rfl
  | released => rfl
  | rested => rfl

/-- The subscribe calls that have not failed yet: the one that is made, or the one that
    brought the present subscription. -/
def Point.pendingCalls (point : Point) : Nat := if point.state = .failed then 0 else 1

/-- Either a failure uses a subscribe call up, or nothing changes, or another one is made. -/
theorem Step.pendingCalls_eq (hstep : Step s signal t) :
    s.handled signal + t.point.pendingCalls =
      s.point.pendingCalls + if t.point = .subscribing then 1 else 0 := by
  cases hstep with
  | received hpoint => simp [handled, hpoint, Signal.isRefusal]
  | opened hpoint => simp [handled, hpoint, Signal.isRefusal, listen, Point.pendingCalls]
  | refused hpoint => simp [handled, hpoint, Signal.isRefusal, fail, Point.pendingCalls]
  | interrupted hpoint => simp [handled, hpoint, Signal.isRefusal]
  | lost hpoint => simp [handled, hpoint, Signal.isRefusal, Point.pendingCalls]
  | released hpoint => simp [handled, hpoint, Signal.isRefusal, fail, Point.pendingCalls]
  | rested hpoint => simp [handled, hpoint, Signal.isRefusal, subscribe, Point.pendingCalls]

end Step

/-- The status of a session and its backoff, as they follow from the call at which it is,
    the subscribe calls made and the signals heard. -/
structure Tallied (s : Session) (calls : Nat) (signals : List Signal) : Prop where
  state_eq : s.status.state = s.point.state
  subscriptions_eq : s.status.subscriptions = signals.count .opened
  failures_eq : s.status.failures = failures signals
  attempts_eq : s.status.attempts.toNat = min (failures (sinceBatch signals)) (UInt32.size - 1)
  calls_eq : calls = s.status.failures + s.point.pendingCalls
  backoff_eq : s.backoff.attempts = s.status.attempts
  endsLost_eq : endsLost signals = decide (s.point = .releasing)

theorem tallied_start (target : Target) (policy : Backoff.Policy) (draws : Nat → Nat) (replica : Replica) :
    (start target policy draws .initial replica).Tallied 1 [] where
  state_eq := rfl
  subscriptions_eq := rfl
  failures_eq := rfl
  attempts_eq := rfl
  calls_eq := rfl
  backoff_eq := rfl
  endsLost_eq := rfl

theorem Tallied.step {s t : Session} {calls : Nat} {signals : List Signal} {signal : Signal}
    (htally : s.Tallied calls signals) (hstep : Step s signal t) :
    t.Tallied (calls + if t.point = .subscribing then 1 else 0) (signals ++ [signal]) := by
  have hfailures (more : List Signal) (hmore : endsLost more = endsLost signals) :
      failures (more ++ [signal]) = failures more + s.handled signal := by
    rw [failures_concat, hmore, htally.endsLost_eq, handled, Nat.add_assoc]
  obtain ⟨hbackoff, hattempts⟩ := hstep.attempts_eq htally.backoff_eq
  exact {
    state_eq := hstep.state_eq htally.state_eq
    subscriptions_eq := by rw [hstep.subscriptions_eq, htally.subscriptions_eq, List.count_append]
    failures_eq := by rw [hstep.failures_eq, htally.failures_eq, hfailures signals rfl]
    attempts_eq := by
      rw [hattempts, sinceBatch_concat]
      cases signal.isBatch with
      | true => rfl
      | false =>
        have hrecent := hfailures (sinceBatch signals) (endsLost_sinceBatch signals)
        have hbefore := htally.attempts_eq
        simp only [Bool.false_eq_true, ↓reduceIte, hrecent]
        omega
    calls_eq := by
      have hcalls := htally.calls_eq
      have hpending := hstep.pendingCalls_eq
      have hfailed := hstep.failures_eq
      omega
    backoff_eq := hbackoff
    endsLost_eq := by rw [endsLost_concat, hstep.isLoss_eq] }

theorem Course.tallied {s : Session} (htally : s.Tallied 1 []) (hpoint : s.point = .subscribing)
    {signals : List Signal} (hcourse : s.Course signals) :
    (s.after signals).Tallied (s.subscribeCalls signals) signals := by
  induction hcourse using Course.induction with
  | nil => simpa [subscribeCalls, hpoint, after] using htally
  | concat signals signal _ _ hstep ih =>
    rw [subscribeCalls_concat]
    exact ih.step hstep

/-- Whatever the feed does, at every call of a session its status counts the subscribe
    calls that were answered, the failures that were handled, and those of them since the
    last batch, up to the greatest count there is. The state follows from the call, and
    every subscribe call so far has failed but the one that is pending or has brought the
    present subscription. -/
theorem status_tallies_course (target : Target) (policy : Backoff.Policy) (draws : Nat → Nat)
    (replica : Replica) {signals : List Signal}
    (hcourse : (start target policy draws .initial replica).Course signals) :
    let first := start target policy draws .initial replica
    let s := first.after signals
    s.status.subscriptions = signals.count .opened ∧
      s.status.failures = failures signals ∧
      s.status.attempts.toNat = min (failures (sinceBatch signals)) (UInt32.size - 1) ∧
      s.status.state = s.point.state ∧
      first.subscribeCalls signals = s.status.failures + if s.status.state = .failed then 0 else 1 := by
  intro first s
  have htally := Course.tallied (tallied_start target policy draws replica) rfl hcourse
  refine ⟨htally.subscriptions_eq, htally.failures_eq, htally.attempts_eq, htally.state_eq, ?_⟩
  rw [htally.state_eq]
  exact htally.calls_eq

/-- An interrupted subscribe call counts as a failure and an interrupted wait does not; an
    empty batch clears the attempts; and a lost subscription is counted only when it has
    been given back. -/
theorem failures_counted_when_handled :
    let signals : List Signal :=
      [.refused (.interrupted []), .rested, .opened, .disturbed (.interrupted []), .received [],
        .disturbed .closed]
    let first := start ⟨["feed".toList], "/app".toList⟩ .standard (fun _ => 7) .initial .fresh
    let given := first.after signals
    let rested := first.after (signals ++ [.released])
    first.Course (signals ++ [.released]) ∧
      given.status = ⟨.active, 1, 1, 0, 0⟩ ∧ rested.status = ⟨.failed, 1, 2, 0, 1⟩ ∧
      first.subscribeCalls (signals ++ [.released]) = 2 := by
  intro signals first given rested
  have hcourse : first.Course (signals ++ [.released]) := by decide
  obtain ⟨-, -, -, -, hcalls⟩ := status_tallies_course _ _ _ _ hcourse
  refine ⟨hcourse, by decide, by decide, hcalls.trans (by decide)⟩

end Session

end ConfigWatch
