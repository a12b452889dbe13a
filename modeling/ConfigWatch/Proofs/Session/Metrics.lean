import ConfigWatch.Proofs.Replica.Run
import ConfigWatch.Proofs.Session.Tally
import Mathlib.Algebra.Ring.Nat
/-!
What the metrics say of a run. A replica is used by many, and watched by one session at
most; each of them records what it does at the moment when it does it. Whenever the session
is suspended, the samples agree with the store, with the status, and with the reloads so far.
-/
namespace ConfigWatch

open Feed (Event Failure)

namespace Metrics

/-- The sample that is shown under a name. -/
def sample? (m : Metrics) (name : String) : Option Nat := m.samples.lookup name

/-- What a counter shows that was increased by one so many times. -/
def counted (times : Nat) : Option Nat := if times = 0 then none else some times

theorem increased_counted (times : Nat) : increased (counted times) 1 = counted (times + 1) := by
  unfold increased counted
  split
  · rename_i hzero
    simp [hzero]
  · simp

theorem getD_counted (times : Nat) : (counted times).getD 0 = times := by
  unfold counted
  split
  · rename_i hzero
    exact hzero.symm
  · rfl

/-- A value that is shown under a name of its own is found under it. -/
theorem lookup_filterMap {fields : List (String × Option Nat)} {name : String} {value : Option Nat}
    (hnames : (fields.map Prod.fst).Nodup) (hmem : (name, value) ∈ fields) :
    (fields.filterMap fun (name, value) => value.map (name, ·)).lookup name = value := by
  induction fields with
  | nil => cases hmem
  | cons field rest ih =>
    obtain ⟨other, shown⟩ := field
    rw [List.map_cons, List.nodup_cons] at hnames
    obtain ⟨hfresh, hnames⟩ := hnames
    have hother : ∀ later ∈ rest, later.1 ≠ other := by
      rintro later hlater rfl
      exact hfresh (List.mem_map.2 ⟨later, hlater, rfl⟩)
    obtain heq | hrest := List.mem_cons.1 hmem
    · obtain ⟨rfl, rfl⟩ := Prod.mk.inj heq
      cases value with
      | none =>
        -- No later field has the name, so a value that is not shown is not found.
        rw [List.filterMap_cons_none rfl, List.lookup_eq_none_iff]
        intro entry hentry
        obtain ⟨later, hlater, hshown⟩ := List.mem_filterMap.1 hentry
        obtain ⟨number, -, rfl⟩ := Option.map_eq_some_iff.1 hshown
        simpa using (hother later hlater).symm
      | some number => simp
    · have hlookup := ih hnames hrest
      have hname : (name == other) = false := by simpa using hother _ hrest
      cases shown with
      | none => rwa [List.filterMap_cons_none rfl]
      | some number =>
        simpa only [List.filterMap_cons, Option.map_some, List.lookup_cons, hname] using hlookup

/-- Every value is found under the name that it is shown under. -/
theorem sample?_eq (m : Metrics) :
    m.sample? "gray_config_reloads_total" = m.reloads ∧
      m.sample? "gray_config_entries_applied_total" = m.entriesApplied ∧
      m.sample? "gray_config_store_entries" = m.storeEntries ∧
      m.sample? "gray_config_rule_cache_total\x7bresult=\"hit\"\x7d" = m.ruleHits ∧
      m.sample? "gray_config_rule_cache_total\x7bresult=\"miss\"\x7d" = m.ruleMisses ∧
      m.sample? "gray_config_resubscribes_total" = m.resubscribes ∧
      m.sample? "gray_config_session_state" = m.sessionState := by
  refine ⟨?_, ?_, ?_, ?_, ?_, ?_, ?_⟩
  all_goals exact lookup_filterMap (by simp) (by simp)

end Metrics

/-- A reload, and the number of entries that it returned. -/
structure Reload where
  content : Text
  applied : Nat
deriving DecidableEq

/-- Whether some reload was of a text that is not empty. -/
def Reload.AnyText (reloads : List Reload) : Prop := ∃ reload ∈ reloads, reload.content ≠ []

instance (reloads : List Reload) : Decidable (Reload.AnyText reloads) :=
  inferInstanceAs (Decidable (∃ reload ∈ reloads, reload.content ≠ []))

theorem Reload.anyText_append {reloads more : List Reload} :
    AnyText (reloads ++ more) ↔ AnyText reloads ∨ AnyText more := by
  simp only [AnyText, List.mem_append, or_and_right, exists_or]

theorem Reload.anyText_singleton {reload : Reload} : AnyText [reload] ↔ reload.content ≠ [] := by
  simp [AnyText]

namespace Replica

/-- What a reload of a text is when it has returned. -/
def reloading (r : Replica) (content : Text) : Reload := ⟨content, (r.reload content).1⟩

/-- The reloads that events bring about when they are delivered one after the other. -/
def reloads (r : Replica) : List Event → List Reload
  | [] => []
  | e :: rest => e.payload?.toList.map r.reloading ++ (r.deliver e).2.reloads rest

theorem reloads_singleton (r : Replica) (e : Event) :
    r.reloads [e] = e.payload?.toList.map r.reloading := by
  simp [reloads]

/-- The samples about the store agree with it and with the reloads so far, and those of the
    events that brought a document. -/
structure Mirrors (r : Replica) (log : List Reload) (events : Nat) : Prop where
  getD_entriesApplied : r.metrics.entriesApplied.getD 0 = (log.map Reload.applied).sum
  storeEntries_eq : r.metrics.storeEntries = if Reload.AnyText log then some r.store.size else none
  reloads_eq : r.metrics.reloads = Metrics.counted events

variable {r : Replica} {log : List Reload} {events : Nat}

theorem Mirrors.reload (h : r.Mirrors log events) (content : Text) :
    (r.reload content).2.Mirrors (log ++ [r.reloading content]) events := by
  cases content with
  | nil =>
    have hany : Reload.AnyText (log ++ [r.reloading []]) ↔ Reload.AnyText log := by
      rw [Reload.anyText_append, Reload.anyText_singleton]
      simp [reloading]
    refine ⟨?_, ?_, h.reloads_eq⟩
    · rw [List.map_append, List.sum_append]
      exact h.getD_entriesApplied
    · rw [if_congr hany rfl rfl]
      exact h.storeEntries_eq
  | cons c rest =>
    have hany : Reload.AnyText (log ++ [r.reloading (c :: rest)]) := by
      rw [Reload.anyText_append, Reload.anyText_singleton]
      exact .inr (List.cons_ne_nil c rest)
    refine ⟨?_, ?_, h.reloads_eq⟩
    · rw [List.map_append, List.sum_append, ← h.getD_entriesApplied]
      rfl
    · rw [if_pos hany]
      rfl

theorem Mirrors.deliver (h : r.Mirrors log events) (e : Event) :
    (r.deliver e).2.Mirrors (log ++ r.reloads [e]) (events + (r.deliver e).1.toNat) := by
  rw [reloads_singleton]
  cases hpayload : e.payload? with
  | none =>
    have hdeliver : r.deliver e = (false, r) := by simp [Replica.deliver, hpayload]
    rw [hdeliver]
    simpa using h
  | some content =>
    have hreload := h.reload content
    have happlied : (r.deliver e).1 = true := by simp [Replica.deliver, hpayload]
    have hstore : (r.deliver e).2.store = (r.reload content).2.store := by
      simp [Replica.deliver, hpayload, resetRules]
    have hmetrics : (r.deliver e).2.metrics = (r.reload content).2.metrics.recordReload := by
      simp [Replica.deliver, hpayload, resetRules]
    refine ⟨?_, ?_, ?_⟩
    · rw [hmetrics]
      exact hreload.getD_entriesApplied
    · rw [hmetrics, hstore]
      exact hreload.storeEntries_eq
    · rw [hmetrics, happlied, Bool.toNat_true, ← Metrics.increased_counted, ← hreload.reloads_eq]
      rfl

/-- One for a direct delivery that is answered by true, and nothing for all other requests. -/
def direct (r : Replica) : Request → Nat
  | .deliver event => (r.deliver event).1.toNat
  | _ => 0

/-- A lookup of a rule is counted as a hit or as a miss, and in no other sample. -/
theorem exists_metrics_rule_eq (r : Replica) (name : Name) :
    ∃ ruleHits ruleMisses, (r.rule name).2.metrics = { r.metrics with ruleHits, ruleMisses } := by
  rw [metrics_rule]
  split
  · split
    · exact ⟨_, _, rfl⟩
    · exact ⟨_, _, rfl⟩
  · exact ⟨_, _, rfl⟩

theorem exists_metrics_ruleNamed_eq (r : Replica) (fullName : Text) :
    ∃ ruleHits ruleMisses, (r.ruleNamed fullName).2.metrics = { r.metrics with ruleHits, ruleMisses } := by
  unfold ruleNamed
  split
  · exact exists_metrics_rule_eq r _
  · exact ⟨_, _, rfl⟩

/-- A request without a document is counted as a lookup of a rule, or not at all. -/
theorem exists_metrics_answer_eq (r : Replica) {request : Request} (hcontent : request.content? = none) :
    ∃ ruleHits ruleMisses, (r.answer request).2.metrics = { r.metrics with ruleHits, ruleMisses } := by
  cases request with
  | reload content => cases hcontent
  | deliver event =>
    have hpayload : event.payload? = none := hcontent
    simp only [answer, deliver, hpayload]
    exact ⟨_, _, rfl⟩
  | rule name => exact exists_metrics_rule_eq r name
  | ruleNamed fullName => exact exists_metrics_ruleNamed_eq r fullName
  | check name id => exact exists_metrics_rule_eq r name
  | checkNamed fullName id => exact exists_metrics_ruleNamed_eq r fullName
  | _ => exact ⟨_, _, rfl⟩

theorem direct_eq_zero (r : Replica) {request : Request} (hcontent : request.content? = none) :
    r.direct request = 0 := by
  cases request with
  | deliver event =>
    have hpayload : event.payload? = none := hcontent
    simp [direct, deliver, hpayload]
  | _ => rfl

theorem Mirrors.answer (h : r.Mirrors log events) (request : Request) :
    (r.answer request).2.Mirrors (log ++ request.content?.toList.map r.reloading)
      (events + r.direct request) := by
  cases hcontent : request.content? with
  | none =>
    obtain ⟨ruleHits, ruleMisses, hmetrics⟩ := exists_metrics_answer_eq r hcontent
    have hstore := store_answer r request
    rw [hcontent] at hstore
    rw [direct_eq_zero r hcontent, Option.toList_none, List.map_nil, List.append_nil]
    refine ⟨?_, ?_, ?_⟩
    · rw [hmetrics]
      exact h.getD_entriesApplied
    · rw [hmetrics, hstore]
      exact h.storeEntries_eq
    · rw [hmetrics]
      exact h.reloads_eq
  | some content =>
    cases request with
    | reload content =>
      cases hcontent
      exact h.reload content
    | deliver event =>
      have hdeliver := h.deliver event
      have hpayload : event.payload? = some content := hcontent
      rwa [reloads_singleton, hpayload] at hdeliver
    | _ => cases hcontent

/-- Requests leave the samples about the session as they are. -/
theorem metrics_answer_session (r : Replica) (request : Request) :
    (r.answer request).2.metrics.resubscribes = r.metrics.resubscribes ∧
      (r.answer request).2.metrics.sessionState = r.metrics.sessionState := by
  cases hcontent : request.content? with
  | none =>
    obtain ⟨ruleHits, ruleMisses, hmetrics⟩ := exists_metrics_answer_eq r hcontent
    rw [hmetrics]
    exact ⟨rfl, rfl⟩
  | some content =>
    cases request with
    | reload content => cases content <;> exact ⟨rfl, rfl⟩
    | deliver event =>
      have hpayload : event.payload? = some content := hcontent
      simp only [answer, deliver, hpayload]
      cases content <;> exact ⟨rfl, rfl⟩
    | _ => cases hcontent

end Replica

namespace Session

/-- The samples about a session agree with its status, and those about its replica with the
    reloads so far; `direct` events were delivered past the session. -/
structure Mirrors (s : Session) (log : List Reload) (direct : Nat) : Prop where
  replica : s.replica.Mirrors log (s.status.reloads + direct)
  resubscribes_eq : s.replica.metrics.resubscribes = Metrics.counted s.status.failures
  sessionState_eq : s.replica.metrics.sessionState = some s.status.state.number

/-- The reloads that a signal brings about. -/
def reloads (s : Session) : Signal → List Reload
  | .received events => if s.point = .listening then s.replica.reloads events else []
  | _ => []

variable {s : Session} {log : List Reload} {direct : Nat}

theorem Mirrors.answer (h : s.Mirrors log direct) (request : Request) :
    { s with replica := (s.replica.answer request).2 }.Mirrors
      (log ++ request.content?.toList.map s.replica.reloading) (direct + s.replica.direct request) := by
  obtain ⟨hresubscribes, hstate⟩ := s.replica.metrics_answer_session request
  refine ⟨?_, ?_, ?_⟩
  · rw [← Nat.add_assoc]
    exact h.replica.answer request
  · rw [hresubscribes]
    exact h.resubscribes_eq
  · rw [hstate]
    exact h.sessionState_eq

theorem Mirrors.of_eq {t : Session} (h : s.Mirrors log direct) (hreplica : t.replica = s.replica)
    (hstatus : t.status = s.status) : t.Mirrors log direct := by
  refine ⟨?_, ?_, ?_⟩
  · rw [hreplica, hstatus]
    exact h.replica
  · rw [hreplica, hstatus]
    exact h.resubscribes_eq
  · rw [hreplica, hstatus]
    exact h.sessionState_eq

/-- A session that sets its state records it, whether or not one was recorded before. -/
theorem mirrors_enter (hreplica : s.replica.Mirrors log (s.status.reloads + direct))
    (hresubscribes : s.replica.metrics.resubscribes = Metrics.counted s.status.failures) (state : State) :
    (s.enter state).Mirrors log direct :=
  ⟨⟨hreplica.getD_entriesApplied, hreplica.storeEntries_eq, hreplica.reloads_eq⟩, hresubscribes, rfl⟩

theorem Mirrors.fail (h : s.Mirrors log direct) : s.fail.Mirrors log direct := by
  have hfailed := mirrors_enter h.replica h.resubscribes_eq .failed
  refine ⟨⟨?_, ?_, ?_⟩, ?_, ?_⟩
  · exact hfailed.replica.getD_entriesApplied
  · exact hfailed.replica.storeEntries_eq
  · exact hfailed.replica.reloads_eq
  · exact (congrArg (Metrics.increased · 1) h.resubscribes_eq).trans (Metrics.increased_counted _)
  · exact hfailed.sessionState_eq

theorem Mirrors.applyEvent (h : s.Mirrors log direct) (e : Event) :
    (s.applyEvent e).Mirrors (log ++ s.replica.reloads [e]) direct := by
  obtain ⟨hresubscribes, hstate⟩ := s.replica.metrics_answer_session (.deliver e)
  have hdeliver := h.replica.deliver e
  refine ⟨?_, ?_, ?_⟩
  · have hcount : (s.applyEvent e).status.reloads = s.status.reloads + (s.replica.deliver e).1.toNat := by
      cases hdelivered : (s.replica.deliver e).1 <;> simp [Session.applyEvent, hdelivered]
    rw [hcount, Nat.add_right_comm]
    exact hdeliver
  · exact hresubscribes.trans h.resubscribes_eq
  · exact hstate.trans h.sessionState_eq

theorem Mirrors.foldl_applyEvent (h : s.Mirrors log direct) (events : List Event) :
    (events.foldl Session.applyEvent s).Mirrors (log ++ s.replica.reloads events) direct := by
  induction events generalizing s log with
  | nil => simpa [Replica.reloads] using h
  | cons e rest ih =>
    have hrest := ih (h.applyEvent e)
    rw [Replica.reloads_singleton, List.append_assoc] at hrest
    exact hrest

theorem Step.mirrors {t : Session} {signal : Signal} (hstep : Step s signal t) (h : s.Mirrors log direct) :
    t.Mirrors (log ++ s.reloads signal) direct := by
  -- All steps but one reload nothing.
  have hnone {t : Session} (ht : t.Mirrors log direct) : t.Mirrors (log ++ []) direct := by
    rwa [List.append_nil]
  cases hstep with
  | @received events hpoint =>
    have hcleared : { s with backoff := s.backoff.reset, status := { s.status with attempts := 0 } }.Mirrors
        log direct := ⟨h.replica, h.resubscribes_eq, h.sessionState_eq⟩
    have hreloads : s.reloads (.received events) = s.replica.reloads events := if_pos hpoint
    rw [hreloads]
    exact hcleared.foldl_applyEvent events
  | opened =>
    let opened := { s with status := { s.status with subscriptions := s.status.subscriptions + 1 } }
    have hactive : (opened.enter .active).Mirrors log direct :=
      mirrors_enter (s := opened) h.replica h.resubscribes_eq .active
    exact hnone (hactive.of_eq rfl rfl)
  | rested =>
    have hsubscribing := mirrors_enter h.replica h.resubscribes_eq .subscribing
    exact hnone (hsubscribing.of_eq rfl rfl)
  | lost => exact hnone (h.of_eq rfl rfl)
  | refused => exact hnone h.fail
  | released => exact hnone h.fail
  | interrupted => exact hnone h

theorem hear_eq_self {signal : Signal} (hawaits : s.point.awaits signal = false) : s.hear signal = s := by
  unfold hear
  split <;> simp_all [Point.awaits]

theorem Mirrors.hear (h : s.Mirrors log direct) (signal : Signal) :
    (s.hear signal).Mirrors (log ++ s.reloads signal) direct := by
  cases hawaits : s.point.awaits signal with
  | true => exact (step_hear hawaits).mirrors h
  | false =>
    have hnone : s.reloads signal = [] := by
      cases signal with
      | received events =>
        have hpoint : s.point ≠ .listening := by
          intro hpoint
          simp [hpoint, Point.awaits] at hawaits
        exact if_neg hpoint
      | _ => rfl
    rw [hear_eq_self hawaits, hnone, List.append_nil]
    exact h

end Session

/-- What is done to a replica in a run: requests of its users, the start of the session that
    watches its target, and the signals that this session hears. -/
inductive Operation where
  | request (request : Request)
  | start (target : Target) (policy : Backoff.Policy) (draws : Nat → Nat)
  | signal (signal : Session.Signal)

/-- A replica in use: without a session, or with the one that watches its target. -/
inductive Service where
  | unwatched (replica : Replica)
  | watched (session : Session)

namespace Service

def replica : Service → Replica
  | .unwatched replica => replica
  | .watched session => session.replica

/-- The status that observers see, also before the session starts. -/
def status : Service → Session.Status
  | .unwatched _ => .initial
  | .watched session => session.status

def isWatched : Service → Bool
  | .unwatched _ => false
  | .watched _ => true

/-- The service after an operation. A session is started once, and hears nothing before. -/
def perform : Service → Operation → Service
  | .unwatched replica, .request request => .unwatched (replica.answer request).2
  | .watched session, .request request =>
    .watched { session with replica := (session.replica.answer request).2 }
  | .unwatched replica, .start target policy draws =>
    .watched (.start target policy draws .initial replica)
  | .watched session, .signal signal => .watched (session.hear signal)
  | x, _ => x

/-- The reloads of an operation, and what they return. -/
def reloads : Service → Operation → List Reload
  | x, .request request => request.content?.toList.map x.replica.reloading
  | .watched session, .signal signal => session.reloads signal
  | _, _ => []

/-- The direct deliveries of an operation that are answered by true. -/
def direct : Service → Operation → Nat
  | x, .request request => x.replica.direct request
  | _, _ => 0

/-- The samples agree with the replica, with the status, and with the reloads so far. -/
structure Mirrors (x : Service) (log : List Reload) (direct : Nat) : Prop where
  replica : x.replica.Mirrors log (x.status.reloads + direct)
  resubscribes_eq : x.replica.metrics.resubscribes = Metrics.counted x.status.failures
  sessionState_eq :
    x.replica.metrics.sessionState = if x.isWatched then some x.status.state.number else none

variable {log : List Reload} {direct : Nat}

theorem mirrors_watched {session : Session} (h : session.Mirrors log direct) :
    (watched session).Mirrors log direct :=
  ⟨h.replica, h.resubscribes_eq, h.sessionState_eq⟩

theorem Mirrors.session {session : Session} (h : (watched session).Mirrors log direct) :
    session.Mirrors log direct :=
  ⟨h.replica, h.resubscribes_eq, h.sessionState_eq⟩

theorem Mirrors.perform {x : Service} (h : x.Mirrors log direct) (operation : Operation) :
    (x.perform operation).Mirrors (log ++ x.reloads operation) (direct + x.direct operation) := by
  have hnone {y : Service} (hy : y.Mirrors log direct) : y.Mirrors (log ++ []) direct := by
    rwa [List.append_nil]
  cases x with
  | unwatched replica =>
    cases operation with
    | request request =>
      obtain ⟨hresubscribes, hstate⟩ := replica.metrics_answer_session request
      have hreplica := h.replica.answer request
      rw [Nat.add_assoc] at hreplica
      exact ⟨hreplica, hresubscribes.trans h.resubscribes_eq, hstate.trans h.sessionState_eq⟩
    | start target policy draws =>
      let first : Session := ⟨target, draws, .start policy, .initial, replica, .subscribing⟩
      have hsubscribing : (first.enter .subscribing).Mirrors log direct :=
        Session.mirrors_enter (s := first) h.replica h.resubscribes_eq .subscribing
      exact hnone (mirrors_watched (hsubscribing.of_eq rfl rfl))
    | signal signal => exact hnone h
  | watched session =>
    cases operation with
    | request request => exact mirrors_watched (h.session.answer request)
    | start target policy draws => exact hnone h
    | signal signal => exact mirrors_watched (h.session.hear signal)

end Service

/-- A service, with the reloads so far and the number of direct deliveries among them. -/
structure Ledger where
  service : Service
  reloads : List Reload
  direct : Nat

namespace Ledger

/-- The ledger of a replica whose metrics are installed now. -/
def fresh (replica : Replica) : Ledger := ⟨.unwatched { replica with metrics := .empty }, [], 0⟩

def perform (x : Ledger) (operation : Operation) : Ledger where
  service := x.service.perform operation
  reloads := x.reloads ++ x.service.reloads operation
  direct := x.direct + x.service.direct operation

/-- The ledger after operations. -/
def after (x : Ledger) (operations : List Operation) : Ledger := operations.foldl perform x

theorem mirrors_after {x : Ledger} (h : x.service.Mirrors x.reloads x.direct) (operations : List Operation) :
    (x.after operations).service.Mirrors (x.after operations).reloads (x.after operations).direct := by
  induction operations generalizing x with
  | nil => exact h
  | cons operation rest ih => exact ih (h.perform operation)

/-- Whatever the users of a replica ask of it, and whatever the session hears that watches its
    target: between any two operations the samples agree with what they are about. A counter
    that is not shown counts as zero. The state of the session can be told from its number. -/
theorem samples_mirror_run (replica : Replica) (operations : List Operation) :
    let x := (fresh replica).after operations
    let sample? := x.service.replica.metrics.sample?
    (sample? "gray_config_entries_applied_total").getD 0 = (x.reloads.map Reload.applied).sum ∧
      sample? "gray_config_store_entries" =
        (if ∃ reload ∈ x.reloads, reload.content ≠ [] then some x.service.replica.store.size else none) ∧
      (sample? "gray_config_reloads_total").getD 0 = x.service.status.reloads + x.direct ∧
      (sample? "gray_config_resubscribes_total").getD 0 = x.service.status.failures ∧
      sample? "gray_config_session_state" =
        (if x.service.isWatched then some x.service.status.state.number else none) ∧
      ∀ number, sample? "gray_config_session_state" = some number →
        Session.State.ofNumber number = x.service.status.state := by
  intro x sample?
  have hfresh : (fresh replica).service.Mirrors [] 0 := ⟨⟨rfl, rfl, rfl⟩, rfl, rfl⟩
  have hmirrors : x.service.Mirrors x.reloads x.direct := mirrors_after hfresh operations
  obtain ⟨hreloads, hentries, hheld, -, -, hresubscribes, hstate⟩ := x.service.replica.metrics.sample?_eq
  have hshown : sample? "gray_config_session_state" =
      if x.service.isWatched then some x.service.status.state.number else none :=
    hstate.trans hmirrors.sessionState_eq
  refine ⟨?_, ?_, ?_, ?_, hshown, fun number hnumber => ?_⟩
  · exact (congrArg (Option.getD · 0) hentries).trans hmirrors.replica.getD_entriesApplied
  · exact hheld.trans hmirrors.replica.storeEntries_eq
  · have hcounted := hreloads.trans hmirrors.replica.reloads_eq
    exact (congrArg (Option.getD · 0) hcounted).trans (Metrics.getD_counted _)
  · have hcounted := hresubscribes.trans hmirrors.resubscribes_eq
    exact (congrArg (Option.getD · 0) hcounted).trans (Metrics.getD_counted _)
  · rw [hshown, Option.ite_none_right_eq_some, Option.some.injEq] at hnumber
    rw [← hnumber.2, Session.State.ofNumber_number]

end Ledger

end ConfigWatch
