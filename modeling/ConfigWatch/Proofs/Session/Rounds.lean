import ConfigWatch.Proofs.Session.Tally
import Mathlib.Data.List.Chain
/-!
The rounds of a session. A round begins with a subscribe call; where that succeeds, the
subscription is asked for batches until it is lost, and given back; and the round ends with
a rest. A session goes through one round after the other and does nothing else, so it holds
one subscription at most and never uses one that it has lost or given back.
-/
namespace ConfigWatch.Session

open Feed (Event Failure)

/-- A call on the feed, or a rest. A subscription is told by its number: the first one that
    a session opens, the second one, and so on. -/
inductive Action where
  | subscribe (target : Target)
  | nextBatch (subscription : Nat)
  | drop (subscription : Nat)
  | sleep (delay : UInt64)
deriving DecidableEq

/-- The call at which a session is suspended. -/
def action (s : Session) : Action :=
  match s.point with
  | .subscribing => .subscribe s.target
  | .listening => .nextBatch s.status.subscriptions
  | .releasing => .drop s.status.subscriptions
  | .resting delay => .sleep delay

/-- A call, the state that the status shows meanwhile, and what the call returns. -/
structure Exchange where
  state : State
  action : Action
  result : Signal
deriving DecidableEq

def exchange (s : Session) (result : Signal) : Exchange := ⟨s.status.state, s.action, result⟩

/-- The calls that have returned when a session has heard signals. -/
def exchanges (s : Session) : List Signal → List Exchange
  | [] => []
  | signal :: rest => s.exchange signal :: (s.hear signal).exchanges rest

/-- Whether a wait leaves the subscription usable. -/
def Signal.isKept : Signal → Bool
  | .received _ | .disturbed (.interrupted _) => true
  | _ => false

/-- A subscription is opened on a target. -/
def Exchange.opening (target : Target) : Exchange := ⟨.subscribing, .subscribe target, .opened⟩

/-- A subscription is asked for its next batch. -/
def Exchange.wait (subscription : Nat) (result : Signal) : Exchange :=
  ⟨.active, .nextBatch subscription, result⟩

def Exchange.rest (delay : UInt64) : Exchange := ⟨.failed, .sleep delay, .rested⟩

/-- The exchanges of a whole round, with the numbers of subscriptions that were opened before
    it and after it: the subscribe call fails, or the subscription that it opens is asked for
    batches once or more, the last time to be lost, and is given back; then comes a rest. -/
inductive IsRound (target : Target) (opened : Nat) : Nat → List Exchange → Prop
  | refused (failure : Failure) (delay : UInt64) :
      IsRound target opened opened [⟨.subscribing, .subscribe target, .refused failure⟩, .rest delay]
  | subscribed {waits : List Signal} (hwaits : ∀ wait ∈ waits, wait.isKept = true)
      {loss : Signal} (hloss : loss.isLoss = true) (delay : UInt64) :
      IsRound target opened (opened + 1) (.opening target :: (waits ++ [loss]).map (.wait (opened + 1)) ++
        [⟨.active, .drop (opened + 1), .released⟩, .rest delay])

/-- The exchanges of rounds, one after the other. -/
inductive Rounds (target : Target) (opened : Nat) : Nat → List Exchange → Prop
  | none : Rounds target opened opened []
  | more {before after : Nat} {calls round : List Exchange} (hcalls : Rounds target opened before calls)
      (hround : IsRound target before after round) : Rounds target opened after (calls ++ round)

/-- The state may be followed by another one: opening a subscription succeeds or fails, the
    session goes on or fails, and after a failure it starts anew. -/
def State.leadsTo : State → State → Bool
  | .subscribing, .active | .subscribing, .failed | .active, .active | .active, .failed
  | .failed, .subscribing => true
  | _, _ => false

namespace Exchange

/-- The subscription is not to be used after the exchange. -/
def Ends (e : Exchange) (subscription : Nat) : Prop :=
  e.action = .drop subscription ∨ (e.action = .nextBatch subscription ∧ e.result.isLoss = true)

/-- The subscription that an exchange ends is not asked for a batch again. -/
def Spares (e later : Exchange) : Prop :=
  ∀ subscription, e.Ends subscription → later.action ≠ .nextBatch subscription

/-- What an exchange demands of the next one. -/
structure Precedes (e next : Exchange) : Prop where
  leadsTo : e.state.leadsTo next.state = true
  dropped : ∀ subscription, e.action = .nextBatch subscription → e.result.isLoss = true →
    next.action = .drop subscription ∧ next.state = .active

end Exchange

theorem exchanges_concat (s : Session) (signals : List Signal) (signal : Signal) :
    s.exchanges (signals ++ [signal]) = s.exchanges signals ++ [(s.after signals).exchange signal] := by
  induction signals generalizing s with
  | nil => rfl
  | cons first rest ih => rw [List.cons_append, exchanges, ih, exchanges, after_cons, List.cons_append]

theorem action_eq_nextBatch_iff {s : Session} {subscription : Nat} :
    s.action = .nextBatch subscription ↔ s.point = .listening ∧ s.status.subscriptions = subscription := by
  cases hpoint : s.point <;> simp [action, hpoint]

theorem action_eq_drop_iff {s : Session} {subscription : Nat} :
    s.action = .drop subscription ↔ s.point = .releasing ∧ s.status.subscriptions = subscription := by
  cases hpoint : s.point <;> simp [action, hpoint]

section Step

variable {s t : Session} {signal : Signal}

theorem Step.target_eq (hstep : Step s signal t) : t.target = s.target := by
  cases hstep with
  | received => rw [target_applyBatch]
  | _ => rfl

theorem Step.leadsTo (hstep : Step s signal t) : s.point.state.leadsTo t.point.state = true := by
  cases hstep with
  | opened hpoint => rw [hpoint]; rfl
  | refused hpoint => rw [hpoint]; rfl
  | received hpoint => rw [point_applyBatch, hpoint]; rfl
  | interrupted hpoint => rw [hpoint]; rfl
  | lost hpoint => rw [hpoint]; rfl
  | released hpoint => rw [hpoint]; rfl
  | rested hpoint => rw [hpoint]; rfl

theorem Step.eq_releasing_of_isLoss (hstep : Step s signal t) (hloss : signal.isLoss = true) :
    t = { s with point := .releasing } := by
  cases hstep with
  | lost => rfl
  | interrupted hpoint hkept =>
    rw [Signal.isLoss_disturbed, hkept] at hloss
    cases hloss
  | _ => cases hloss

/-- A session listens on a subscription that it has just opened, or it still does on the
    one that it had, which then has not been lost. -/
theorem Step.listening_cases (hstep : Step s signal t) (hpoint : t.point = .listening) :
    (s.point = .subscribing ∧ t.status.subscriptions = s.status.subscriptions + 1) ∨
      (s.point = .listening ∧ signal.isLoss = false ∧
        t.status.subscriptions = s.status.subscriptions) := by
  cases hstep with
  | opened hsubscribing => exact .inl ⟨hsubscribing, rfl⟩
  | received hlistening => exact .inr ⟨hlistening, rfl, subscriptions_applyBatch _ _⟩
  | interrupted hlistening hkept =>
    exact .inr ⟨hlistening, by rw [Signal.isLoss_disturbed, hkept], rfl⟩
  | _ => cases hpoint

theorem Step.subscriptions_le (hstep : Step s signal t) :
    s.status.subscriptions ≤ t.status.subscriptions := by
  rw [hstep.subscriptions_eq]
  exact Nat.le_add_right _ _

/-- A lost subscription is given back next. -/
theorem Step.precedes (hstep : Step s signal t) (hs : s.status.state = s.point.state)
    (ht : t.status.state = t.point.state) (result : Signal) :
    (s.exchange signal).Precedes (t.exchange result) where
  leadsTo := by
    have hleads := hstep.leadsTo
    rwa [← hs, ← ht] at hleads
  dropped subscription haction hloss := by
    obtain ⟨-, rfl⟩ := action_eq_nextBatch_iff.1 haction
    obtain rfl := hstep.eq_releasing_of_isLoss hloss
    exact ⟨rfl, ht⟩

/-- A subscription that a call ends is not the one on which the session listens afterwards. -/
theorem Step.ne_subscriptions_of_ends (hstep : Step s signal t) {subscription : Nat}
    (hends : (s.exchange signal).Ends subscription) :
    subscription = s.status.subscriptions ∧ t.point ≠ .listening := by
  obtain haction | ⟨haction, hloss⟩ := hends
  · obtain ⟨hpoint, rfl⟩ := action_eq_drop_iff.1 haction
    refine ⟨rfl, fun hlistening => ?_⟩
    obtain ⟨hother, -⟩ | ⟨hother, -⟩ := hstep.listening_cases hlistening
    · exact Point.noConfusion (hpoint.symm.trans hother)
    · exact Point.noConfusion (hpoint.symm.trans hother)
  · obtain ⟨-, rfl⟩ := action_eq_nextBatch_iff.1 haction
    obtain rfl := hstep.eq_releasing_of_isLoss hloss
    exact ⟨rfl, fun hlistening => Point.noConfusion hlistening⟩

/-- A subscription is held from its opening until it has been given back. -/
theorem Step.held_eq (hstep : Step s signal t) :
    [signal].count .opened + (if s.point.state = .active then 1 else 0) =
      [signal].count .released + if t.point.state = .active then 1 else 0 := by
  cases hstep with
  | opened hpoint => simp [hpoint, listen]
  | refused hpoint => simp [hpoint, fail]
  | received hpoint => simp [hpoint]
  | interrupted hpoint => simp [hpoint]
  | lost hpoint => simp [hpoint]
  | released hpoint => simp [hpoint, fail]
  | rested hpoint => simp [hpoint, subscribe]

end Step

section Course

variable {s : Session} {signals : List Signal}

theorem Course.target_eq (hcourse : s.Course signals) : (s.after signals).target = s.target := by
  induction hcourse using Course.induction with
  | nil => rfl
  | concat signals signal _ _ hstep ih => exact hstep.target_eq.trans ih

theorem Course.state_eq (hstate : s.status.state = s.point.state) (hcourse : s.Course signals) :
    (s.after signals).status.state = (s.after signals).point.state := by
  induction hcourse using Course.induction with
  | nil => exact hstate
  | concat signals signal _ _ hstep ih => exact hstep.state_eq ih

theorem Course.count_opened_eq (hpoint : s.point = .subscribing) (hcourse : s.Course signals) :
    signals.count .opened =
      signals.count .released + if (s.after signals).point.state = .active then 1 else 0 := by
  induction hcourse using Course.induction with
  | nil => simp [after, hpoint]
  | concat signals signal _ _ hstep ih =>
    have hheld := hstep.held_eq
    rw [List.count_append, List.count_append]
    omega

/-- The subscriptions that have been ended are older than the one on which the session listens. -/
theorem Course.ended_subscriptions (hcourse : s.Course signals) {subscription : Nat} :
    ∀ e ∈ s.exchanges signals, e.Ends subscription →
      subscription ≤ (s.after signals).status.subscriptions ∧
        ((s.after signals).point = .listening → subscription ≠ (s.after signals).status.subscriptions) := by
  induction hcourse using Course.induction with
  | nil => simp [exchanges]
  | concat signals signal _ _ hstep ih =>
    intro e he hends
    have hle := hstep.subscriptions_le
    rw [exchanges_concat, List.mem_append, List.mem_singleton] at he
    obtain he | rfl := he
    · obtain ⟨hbefore, hother⟩ := ih e he hends
      refine ⟨Nat.le_trans hbefore hle, fun hpoint => ?_⟩
      obtain ⟨-, hnew⟩ | ⟨hlistening, -, hsame⟩ := hstep.listening_cases hpoint
      · omega
      · rw [hsame]
        exact hother hlistening
    · obtain ⟨rfl, hpoint⟩ := hstep.ne_subscriptions_of_ends hends
      exact ⟨hle, fun hlistening => absurd hlistening hpoint⟩

/-- A subscription that has been lost or given back is never asked for a batch again. -/
theorem Course.pairwise_spares (hcourse : s.Course signals) (result : Signal) :
    (s.exchanges signals ++ [(s.after signals).exchange result]).Pairwise Exchange.Spares := by
  induction hcourse using Course.induction generalizing result with
  | nil => exact List.pairwise_singleton _ _
  | concat signals signal _ hcourse _ ih =>
    rw [List.pairwise_append, exchanges_concat]
    refine ⟨ih signal, List.pairwise_singleton _ _, fun e he later hlater subscription hends haction => ?_⟩
    obtain rfl := List.mem_singleton.1 hlater
    obtain ⟨hpoint, hsubscription⟩ := action_eq_nextBatch_iff.1 haction
    rw [← exchanges_concat] at he
    exact (hcourse.ended_subscriptions e he hends).2 hpoint hsubscription.symm

theorem Course.isChain_precedes (hstate : s.status.state = s.point.state) (hcourse : s.Course signals)
    (result : Signal) :
    (s.exchanges signals ++ [(s.after signals).exchange result]).IsChain Exchange.Precedes := by
  induction hcourse using Course.induction generalizing result with
  | nil => exact List.isChain_singleton _
  | concat signals signal hbefore hcourse hstep ih =>
    rw [List.isChain_append, exchanges_concat]
    refine ⟨ih signal, List.isChain_singleton _, fun e he next hnext => ?_⟩
    have hlast : (s.after signals).exchange signal = e := by simpa using he
    have hfirst : (s.after (signals ++ [signal])).exchange result = next := by simpa using hnext
    rw [← hlast, ← hfirst]
    exact hstep.precedes (hbefore.state_eq hstate) (hcourse.state_eq hstate) result

end Course

/-- The exchanges of the round in which a session is, up to the call at which it is, with the
    number of subscriptions that were opened before the round. -/
def Begun (target : Target) (opened : Nat) (s : Session) (part : List Exchange) : Prop :=
  match s.point with
  | .subscribing => s.status.subscriptions = opened ∧ part = []
  | .listening => s.status.subscriptions = opened + 1 ∧ ∃ waits : List Signal,
      (∀ wait ∈ waits, wait.isKept = true) ∧ part = .opening target :: waits.map (.wait (opened + 1))
  | .releasing => s.status.subscriptions = opened + 1 ∧ ∃ (waits : List Signal) (loss : Signal),
      (∀ wait ∈ waits, wait.isKept = true) ∧ loss.isLoss = true ∧
        part = .opening target :: (waits ++ [loss]).map (.wait (opened + 1))
  | .resting delay => IsRound target opened s.status.subscriptions (part ++ [.rest delay])

section Begun

variable {target : Target} {opened : Nat} {s t : Session} {part : List Exchange} {signal : Signal}

theorem begun_subscribing (hpoint : s.point = .subscribing) :
    Begun target opened s part ↔ s.status.subscriptions = opened ∧ part = [] := by
  rw [Begun, hpoint]

theorem begun_listening (hpoint : s.point = .listening) :
    Begun target opened s part ↔ s.status.subscriptions = opened + 1 ∧ ∃ waits : List Signal,
      (∀ wait ∈ waits, wait.isKept = true) ∧ part = .opening target :: waits.map (.wait (opened + 1)) := by
  rw [Begun, hpoint]

theorem begun_releasing (hpoint : s.point = .releasing) :
    Begun target opened s part ↔ s.status.subscriptions = opened + 1 ∧
      ∃ (waits : List Signal) (loss : Signal), (∀ wait ∈ waits, wait.isKept = true) ∧
        loss.isLoss = true ∧ part = .opening target :: (waits ++ [loss]).map (.wait (opened + 1)) := by
  rw [Begun, hpoint]

theorem begun_resting {delay : UInt64} (hpoint : s.point = .resting delay) :
    Begun target opened s part ↔
      IsRound target opened s.status.subscriptions (part ++ [.rest delay]) := by
  rw [Begun, hpoint]

/-- The next exchange of a session, told by its call. -/
theorem exchange_eq (htarget : s.target = target) (hstate : s.status.state = s.point.state)
    (result : Signal) :
    s.exchange result = match s.point with
      | .subscribing => ⟨.subscribing, .subscribe target, result⟩
      | .listening => .wait s.status.subscriptions result
      | .releasing => ⟨.active, .drop s.status.subscriptions, result⟩
      | .resting delay => ⟨.failed, .sleep delay, result⟩ := by
  cases hpoint : s.point <;> simp [exchange, action, hstate, htarget, hpoint, Exchange.wait]

/-- A kept wait goes on with the waits of a round. -/
theorem Begun.wait (hbegun : Begun target opened s part) (hpoint : s.point = .listening)
    (hkept : signal.isKept = true) (hlistening : t.point = .listening)
    (hsame : t.status.subscriptions = s.status.subscriptions) :
    Begun target opened t (part ++ [.wait s.status.subscriptions signal]) := by
  obtain ⟨hopened, waits, hwaits, rfl⟩ := (begun_listening hpoint).1 hbegun
  refine (begun_listening hlistening).2 ⟨hsame.trans hopened, waits ++ [signal], ?_, by simp [hopened]⟩
  simpa [or_imp, forall_and] using ⟨hwaits, hkept⟩

/-- A step goes on with the round, or ends it. -/
theorem Begun.step (hbegun : Begun target opened s part) (htarget : s.target = target)
    (hstate : s.status.state = s.point.state) (hstep : Step s signal t) :
    Begun target opened t (part ++ [s.exchange signal]) ∨
      (IsRound target opened t.status.subscriptions (part ++ [s.exchange signal]) ∧
        Begun target t.status.subscriptions t []) := by
  have hexchange := exchange_eq htarget hstate signal
  cases hstep with
  | opened hpoint =>
    rw [hpoint] at hexchange
    obtain ⟨rfl, rfl⟩ := (begun_subscribing hpoint).1 hbegun
    refine .inl ((begun_listening rfl).2 ⟨rfl, [], by simp, ?_⟩)
    rw [hexchange]
    rfl
  | @refused failure hpoint =>
    rw [hpoint] at hexchange
    obtain ⟨rfl, rfl⟩ := (begun_subscribing hpoint).1 hbegun
    refine .inl ((begun_resting rfl).2 ?_)
    rw [hexchange]
    exact .refused failure _
  | received hpoint =>
    rw [hpoint] at hexchange
    rw [hexchange]
    exact .inl (hbegun.wait hpoint rfl ((point_applyBatch _ _).trans hpoint) (subscriptions_applyBatch _ _))
  | @interrupted failure hpoint hkept =>
    rw [hpoint] at hexchange
    rw [hexchange]
    cases failure with
    | interrupted reason => exact .inl (hbegun.wait hpoint rfl hpoint rfl)
    | transport reason => cases hkept
    | closed => cases hkept
  | @lost failure hpoint hlost =>
    rw [hpoint] at hexchange
    obtain ⟨hopened, waits, hwaits, rfl⟩ := (begun_listening hpoint).1 hbegun
    refine .inl ((begun_releasing rfl).2 ⟨hopened, waits, .disturbed failure, hwaits, ?_, ?_⟩)
    · rw [Signal.isLoss_disturbed, hlost]
    · rw [hexchange, hopened]
      simp
  | released hpoint =>
    rw [hpoint] at hexchange
    obtain ⟨hopened, waits, loss, hwaits, hloss, rfl⟩ := (begun_releasing hpoint).1 hbegun
    refine .inl ((begun_resting rfl).2 ?_)
    rw [hexchange, List.append_assoc, hopened, show s.fail.status.subscriptions = opened + 1 from hopened]
    exact .subscribed hwaits hloss _
  | rested hpoint =>
    rw [hpoint] at hexchange
    refine .inr ⟨?_, (begun_subscribing rfl).2 ⟨rfl, rfl⟩⟩
    rw [hexchange]
    exact (begun_resting hpoint).1 hbegun

/-- With some return of its present call and some further calls a session ends its round. -/
theorem Begun.exists_isRound (hbegun : Begun target opened s part) (htarget : s.target = target)
    (hstate : s.status.state = s.point.state) :
    ∃ result rest after, IsRound target opened after (part ++ s.exchange result :: rest) := by
  have hexchange := exchange_eq htarget hstate
  cases hpoint : s.point with
  | subscribing =>
    obtain ⟨-, rfl⟩ := (begun_subscribing hpoint).1 hbegun
    refine ⟨.refused .closed, [.rest 0], opened, ?_⟩
    rw [hexchange, hpoint]
    exact .refused .closed 0
  | listening =>
    obtain ⟨hopened, waits, hwaits, rfl⟩ := (begun_listening hpoint).1 hbegun
    refine ⟨.disturbed .closed, [⟨.active, .drop (opened + 1), .released⟩, .rest 0], opened + 1, ?_⟩
    rw [hexchange, hpoint, hopened]
    have hclosed : (Signal.disturbed .closed).isLoss = true := rfl
    have hround := @IsRound.subscribed target opened waits hwaits _ hclosed 0
    simpa using hround
  | releasing =>
    obtain ⟨hopened, waits, loss, hwaits, hloss, rfl⟩ := (begun_releasing hpoint).1 hbegun
    refine ⟨.released, [.rest 0], opened + 1, ?_⟩
    rw [hexchange, hpoint, hopened]
    exact .subscribed hwaits hloss 0
  | resting delay =>
    refine ⟨.rested, [], s.status.subscriptions, ?_⟩
    rw [hexchange, hpoint]
    exact (begun_resting hpoint).1 hbegun

end Begun

/-- The exchanges of a course are whole rounds and the round that has begun. -/
theorem Course.exists_rounds {s : Session} (hpoint : s.point = .subscribing)
    (hstate : s.status.state = s.point.state) {signals : List Signal} (hcourse : s.Course signals) :
    ∃ opened calls part, s.exchanges signals = calls ++ part ∧
      Rounds s.target s.status.subscriptions opened calls ∧ Begun s.target opened (s.after signals) part := by
  induction hcourse using Course.induction with
  | nil => exact ⟨_, [], [], rfl, .none, (begun_subscribing hpoint).2 ⟨rfl, rfl⟩⟩
  | concat signals signal hbefore _ hstep ih =>
    obtain ⟨opened, calls, part, hexchanges, hcalls, hbegun⟩ := ih
    rw [exchanges_concat, hexchanges, List.append_assoc]
    obtain hmore | ⟨hround, hfresh⟩ := hbegun.step hbefore.target_eq (hbefore.state_eq hstate) hstep
    · exact ⟨opened, calls, _, rfl, hcalls, hmore⟩
    · exact ⟨_, _, [], (List.append_nil _).symm, hcalls.more hround, hfresh⟩

/-- Whatever the feed does, the calls of a session so far, with the present one and some
    return of it, are the beginning of a repetition of rounds on its target. So it holds one
    subscription at most; it never asks one for a batch that was lost or given back; it gives
    a lost one back before it shows a failure or subscribes again; and its state changes only
    as states may follow each other. -/
theorem calls_follow_rounds (target : Target) (policy : Backoff.Policy) (draws : Nat → Nat)
    (status : Status) (replica : Replica) {signals : List Signal}
    (hcourse : (start target policy draws status replica).Course signals) :
    let first := start target policy draws status replica
    ∃ result, let calls := first.exchanges signals ++ [(first.after signals).exchange result]
      (∃ opened rounds, Rounds target status.subscriptions opened rounds ∧ calls <+: rounds) ∧
      (signals.count .released ≤ signals.count .opened ∧
        signals.count .opened ≤ signals.count .released + 1) ∧
      calls.Pairwise Exchange.Spares ∧ calls.IsChain Exchange.Precedes := by
  intro first
  have hpoint : first.point = .subscribing := rfl
  have hstate : first.status.state = first.point.state := rfl
  obtain ⟨opened, earlier, part, hexchanges, hearlier, hbegun⟩ := hcourse.exists_rounds hpoint hstate
  obtain ⟨result, rest, after, hround⟩ := hbegun.exists_isRound hcourse.target_eq (hcourse.state_eq hstate)
  refine ⟨result, ⟨after, _, hearlier.more hround, rest, ?_⟩, ?_, hcourse.pairwise_spares result,
    hcourse.isChain_precedes hstate result⟩
  · have hcalls : first.exchanges signals = earlier ++ part := hexchanges
    simp [hcalls, first]
  · have hheld := hcourse.count_opened_eq hpoint
    split at hheld <;> omega

/-- A refused call makes a round of its own, and an interrupted wait stays in its round. -/
theorem rounds_of_refused_and_lost :
    let target : Target := ⟨["feed".toList], "/app".toList⟩
    let signals : List Signal :=
      [.refused (.interrupted []), .rested, .opened, .received [], .disturbed (.interrupted []),
        .disturbed .closed]
    let first := start target .standard (fun _ => 7) .initial .fresh
    first.Course signals ∧
      (first.exchanges signals).map Exchange.action = [.subscribe target, .sleep 107, .subscribe target,
        .nextBatch 1, .nextBatch 1, .nextBatch 1] ∧
      (first.after signals).action = .drop 1 ∧
      ∃ result opened rounds, Rounds target 0 opened rounds ∧
        first.exchanges signals ++ [(first.after signals).exchange result] <+: rounds := by
  intro target signals first
  have hcourse : first.Course signals := by decide
  obtain ⟨result, ⟨opened, rounds, hrounds⟩, -⟩ := calls_follow_rounds _ _ _ _ _ hcourse
  exact ⟨hcourse, by decide, by decide, result, opened, rounds, hrounds⟩

end ConfigWatch.Session
