import ConfigWatch.Proofs.Backoff.Growth
import ConfigWatch.Settings.File
/-!
What accepted settings promise. Settings break up to six constraints, of which each is reported
as a problem of its own, and they are accepted if they break none. Then every reconnect delay is
at least the first one and not much more than an hour, the address of the lookup can be built,
and what is needed of the timeout and of the metrics is there.
-/
namespace ConfigWatch

open Backoff (Counter)

namespace Settings

/-- The constraints that settings break, by the problem that each one is reported as. -/
inductive Violates [Url.Idna] (s : Settings) : Problem → Prop where
  | timeout (hzero : s.lookup.timeoutSeconds = 0) : Violates s .zeroTimeout
  | base (hzero : s.backoff.base = 0) : Violates s .zeroBackoffBase
  | range (hlt : s.backoff.cap < s.backoff.base) :
      Violates s (.backoffRange s.backoff.base s.backoff.cap)
  | cap (hlt : greatestCap < s.backoff.cap) : Violates s (.backoffTooLarge s.backoff.cap)
  | manager {endpoint : Text} {error : Manager.Error} (hset : s.managerEndpoint = some endpoint)
      (hfails : Manager.lookupUrl endpoint s.lookup.path = .error error) :
      Violates s (.invalidManagerEndpoint endpoint)
  | metrics (henabled : s.observability.metricsEnabled = true)
      (haddress : Socket.isAddress s.observability.metricsAddress = false) :
      Violates s (.invalidMetricsAddress s.observability.metricsAddress)

/-- What a client needs of its settings while it runs: reconnect delays of at least a millisecond
    and at most an hour and a tenth, an address for the lookup, time for its answer, and an address
    for the metrics if there are any. -/
structure CanRun [Url.Idna] (s : Settings) : Prop where
  base_pos : 1 ≤ s.backoff.base
  delay_bounds : ∀ uses draw, let delay := (((Counter.start s.backoff).after uses).next draw).1
    s.backoff.base ≤ delay ∧ delay ≤ 3959999
  exists_lookupUrl : ∀ endpoint ∈ s.managerEndpoint, ∃ url, Manager.lookupUrl endpoint s.lookup.path = .ok url
  timeout_pos : 0 < s.lookup.timeout
  isAddress : s.observability.metricsEnabled = true → Socket.isAddress s.observability.metricsAddress = true

theorem hasLookupUrl_eq_false_iff [Url.Idna] {s : Settings} {endpoint : Text} :
    s.hasLookupUrl endpoint = false ↔ ∃ error, Manager.lookupUrl endpoint s.lookup.path = .error error := by
  unfold hasLookupUrl
  cases Manager.lookupUrl endpoint s.lookup.path <;> simp

theorem managerProblem_eq_some_iff [Url.Idna] {s : Settings} {problem : Problem} :
    s.managerProblem = some problem ↔ ∃ endpoint, s.managerEndpoint = some endpoint ∧
      s.hasLookupUrl endpoint = false ∧ problem = .invalidManagerEndpoint endpoint := by
  unfold managerProblem
  cases s.managerEndpoint with
  | none => simp
  | some endpoint => cases hurl : s.hasLookupUrl endpoint <;> simp [hurl, @eq_comm _ problem]

theorem metricsProblem_eq_some_iff {s : Settings} {problem : Problem} :
    s.metricsProblem = some problem ↔ s.observability.metricsEnabled = true ∧
      Socket.isAddress s.observability.metricsAddress = false ∧
      problem = .invalidMetricsAddress s.observability.metricsAddress := by
  unfold metricsProblem
  cases henabled : s.observability.metricsEnabled <;>
    cases haddress : Socket.isAddress s.observability.metricsAddress <;>
    simp [henabled, haddress, @eq_comm _ problem]

/-- The problems with settings are the constraints that they break. -/
theorem mem_problems_iff [Url.Idna] {s : Settings} {problem : Problem} :
    problem ∈ s.problems ↔ s.Violates problem := by
  simp only [problems, List.mem_append, List.mem_ite_nil_right, List.mem_singleton, Option.mem_toList,
    managerProblem_eq_some_iff, metricsProblem_eq_some_iff, or_assoc]
  constructor
  · rintro (⟨hzero, rfl⟩ | ⟨hzero, rfl⟩ | ⟨hlt, rfl⟩ | ⟨hlt, rfl⟩ | ⟨endpoint, hset, hurl, rfl⟩ |
      ⟨henabled, haddress, rfl⟩)
    · exact .timeout hzero
    · exact .base hzero
    · exact .range hlt
    · exact .cap hlt
    · obtain ⟨error, hfails⟩ := hasLookupUrl_eq_false_iff.1 hurl
      exact .manager hset hfails
    · exact .metrics henabled haddress
  · intro hviolates
    cases hviolates with
    | timeout hzero => simp [hzero]
    | base hzero => simp [hzero]
    | range hlt => simp [hlt]
    | cap hlt => simp [hlt]
    | manager hset hfails => simp [hset, hasLookupUrl_eq_false_iff.2 ⟨_, hfails⟩]
    | metrics henabled haddress => simp [henabled, haddress]

/-- No problem is reported twice: each check reports one at most, of a kind of its own. -/
theorem nodup_problems [Url.Idna] (s : Settings) : s.problems.Nodup := by
  have hcheck (c : Prop) [Decidable c] (problem : Problem) :
      List.Sublist (if c then [problem] else []) [problem] := by
    split
    · exact List.Sublist.refl _
    · exact List.nil_sublist _
  have hmanager : s.managerProblem.toList.Sublist (s.managerEndpoint.map .invalidManagerEndpoint).toList := by
    unfold managerProblem
    cases s.managerEndpoint with
    | none => exact List.nil_sublist _
    | some endpoint => cases hurl : s.hasLookupUrl endpoint <;> simp [hurl]
  have hmetrics : s.metricsProblem.toList.Sublist
      [.invalidMetricsAddress s.observability.metricsAddress] := by
    unfold metricsProblem
    dsimp only
    split
    · exact List.Sublist.refl _
    · exact List.nil_sublist _
  have hall := (((((hcheck (s.lookup.timeoutSeconds = 0) .zeroTimeout).append
    (hcheck (s.backoff.base = 0) .zeroBackoffBase)).append
    (hcheck (s.backoff.cap < s.backoff.base) (.backoffRange s.backoff.base s.backoff.cap))).append
    (hcheck (greatestCap < s.backoff.cap) (.backoffTooLarge s.backoff.cap))).append
    hmanager).append hmetrics
  refine List.Sublist.nodup hall ?_
  cases s.managerEndpoint <;> simp

theorem validate_eq_ok_iff [Url.Idna] {s : Settings} : s.validate = .ok () ↔ s.problems = [] := by
  unfold validate
  cases s.problems <;> simp

theorem eq_problems_of_validate [Url.Idna] {s : Settings} {found : List Problem}
    (hfound : s.validate = .error found) : found = s.problems := by
  unfold validate at hfound
  split at hfound
  · cases hfound
  · exact (Except.error.inj hfound).symm

/-- The delays of a counter with a first delay of at least a millisecond and a cap between that
    and an hour. -/
theorem delay_bounds_of_cap_le {p : Backoff.Policy} (hrange : p.base ≤ p.cap) (hcap : p.cap ≤ greatestCap)
    (uses : List Counter.Use) (draw : Nat) :
    let delay := (((Counter.start p).after uses).next draw).1
    p.base ≤ delay ∧ delay ≤ 3959999 := by
  intro delay
  have hwindow : Backoff.Policy.InWindow (p.exactDelay (Counter.sinceReset uses + 1)) delay.toNat :=
    Counter.inWindow_next p uses draw
  have hleast := p.base_le_exactDelay (UInt64.le_iff_toNat_le.1 hrange) (Counter.sinceReset uses + 1)
  have hmost : p.exactDelay (Counter.sinceReset uses + 1) ≤ 3600000 :=
    Nat.le_trans (Nat.min_le_right _ _) (UInt64.le_iff_toNat_le.1 hcap)
  obtain ⟨hlower, hupper⟩ := hwindow
  rw [UInt64.le_iff_toNat_le, UInt64.le_iff_toNat_le]
  refine ⟨Nat.le_trans hleast hlower, ?_⟩
  change delay.toNat ≤ 3959999
  omega

/-- The time for a lookup is exact, unless its milliseconds do not fit into 64 bits. -/
theorem toNat_timeout (s : LookupSettings) :
    s.timeout.toNat = min (s.timeoutSeconds.toNat * 1000) (2 ^ 64 - 1) := by
  rw [LookupSettings.timeout, Backoff.toNat_ofNatClamp]
  rfl

theorem timeout_pos {s : LookupSettings} (htimeout : s.timeoutSeconds ≠ 0) : 0 < s.timeout := by
  have hseconds : s.timeoutSeconds.toNat ≠ 0 := fun hzero => htimeout (UInt64.toNat_inj.1 hzero)
  rw [UInt64.lt_iff_toNat_lt, toNat_timeout, UInt64.toNat_zero]
  omega

theorem canRun_of_not_violates [Url.Idna] {s : Settings} (hnone : ∀ problem, ¬ s.Violates problem) : s.CanRun where
  base_pos := by
    have hbase : s.backoff.base.toNat ≠ 0 := fun hzero => hnone _ (.base (UInt64.toNat_inj.1 hzero))
    rw [UInt64.le_iff_toNat_le]
    change 1 ≤ s.backoff.base.toNat
    omega
  delay_bounds := by
    have hrange : s.backoff.base ≤ s.backoff.cap := UInt64.not_lt.1 fun hlt => hnone _ (.range hlt)
    have hcap : s.backoff.cap ≤ greatestCap := UInt64.not_lt.1 fun hlt => hnone _ (.cap hlt)
    exact delay_bounds_of_cap_le hrange hcap
  exists_lookupUrl endpoint hset := by
    cases hurl : Manager.lookupUrl endpoint s.lookup.path with
    | ok url => exact ⟨url, rfl⟩
    | error error => exact absurd (.manager hset hurl) (hnone _)
  timeout_pos := timeout_pos fun hzero => hnone _ (.timeout hzero)
  isAddress henabled := by
    by_contra haddress
    exact hnone _ (.metrics henabled (Bool.eq_false_iff.2 haddress))

/-- Settings are accepted exactly if they break no constraint, and otherwise each constraint that
    they break is reported, and reported once. A client can run with settings that are accepted. -/
theorem accepted_settings_can_run [Url.Idna] (s : Settings) :
    (s.validate = .ok () ↔ ∀ problem, ¬ s.Violates problem) ∧
    (∀ found, s.validate = .error found →
      found.Nodup ∧ ∀ problem, problem ∈ found ↔ s.Violates problem) ∧
    (s.validate = .ok () → s.CanRun) := by
  have haccepted : s.validate = .ok () ↔ ∀ problem, ¬ s.Violates problem := by
    simp only [validate_eq_ok_iff, List.eq_nil_iff_forall_not_mem, mem_problems_iff]
  refine ⟨haccepted, fun found hfound => ?_, fun hok => canRun_of_not_violates (haccepted.1 hok)⟩
  rw [eq_problems_of_validate hfound]
  exact ⟨s.nodup_problems, fun problem => mem_problems_iff⟩

/-- Settings on the edge of what is accepted, and settings that break all but one of the
    constraints. -/
theorem greatest_cap_accepted_and_problems_reported :
    let edge : Settings :=
      ⟨none, some " manager:8080".toList, ⟨"/custom/path".toList, 3⟩, ⟨3600000, 3600000⟩,
        ⟨[], true, "[::1]:9100".toList⟩⟩
    let broken : Settings :=
      ⟨none, some "http://bad host".toList, ⟨"v1/watchers".toList, 0⟩, ⟨3600002, 3600001⟩,
        ⟨[], true, "nowhere".toList⟩⟩
    edge.validate = .ok () ∧ edge.CanRun ∧
      broken.validate = .error [.zeroTimeout, .backoffRange 3600002 3600001, .backoffTooLarge 3600001,
        .invalidManagerEndpoint "http://bad host".toList, .invalidMetricsAddress "nowhere".toList] ∧
      broken.Violates (.backoffTooLarge 3600001) ∧ ¬ broken.Violates .zeroBackoffBase := by
  intro edge broken
  have hedge : edge.validate = .ok () := by decide +kernel
  have hbroken : broken.validate = .error [.zeroTimeout, .backoffRange 3600002 3600001,
      .backoffTooLarge 3600001, .invalidManagerEndpoint "http://bad host".toList,
      .invalidMetricsAddress "nowhere".toList] := by decide +kernel
  obtain ⟨-, -, hruns⟩ := accepted_settings_can_run edge
  obtain ⟨-, hreports, -⟩ := accepted_settings_can_run broken
  obtain ⟨-, hmem⟩ := hreports _ hbroken
  exact ⟨hedge, hruns hedge, hbroken, (hmem _).1 (by simp), mt (hmem _).2 (by simp)⟩

end Settings

end ConfigWatch
