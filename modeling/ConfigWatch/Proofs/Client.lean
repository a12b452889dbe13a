import ConfigWatch.Client
/-!
What calls of a client start. A call reaches the start of a session if it has a target that
can be used; the first such call starts the only session that the client ever has. All other
calls leave the client as it is.
-/
namespace ConfigWatch

theorem Target.fault?_eq_none_iff {t : Target} :
    t.fault? = none ↔
      (∃ endpoint ∈ t.endpoints, endpoint.isBlank = false) ∧ t.key.isBlank = false := by
  have hendpoints : t.endpoints.all Text.isBlank = false ↔
      ∃ endpoint ∈ t.endpoints, endpoint.isBlank = false := by simp
  rw [fault?, ← hendpoints]
  cases t.endpoints.all Text.isBlank <;> cases t.key.isBlank <;> simp

namespace Client

/-- A call that is to start a session. -/
inductive Call where
  | startWatch (target : Target) (policy : Backoff.Policy) (draws : Nat → Nat)
  | init (app : Text) (lookup : Text → Except Manager.Error Target) (policy : Backoff.Policy)
      (draws : Nat → Nat)

/-- What a call returns: an error, or the session if it has started one. -/
abbrev Outcome := Except StartError (Option Session)

def Outcome.isSession (outcome : Outcome) : Bool := outcome.toOption.join.isSome

@[simp] theorem Outcome.isSession_ok (session : Option Session) :
    isSession (.ok session) = session.isSome := rfl

def perform (c : Client) : Call → Outcome × Client
  | .startWatch target policy draws =>
    let (session, after) := c.startWatch target policy draws
    (.ok session, after)
  | .init app lookup policy draws => c.init app lookup policy draws

/-- What happens to a client. Between calls, its session and the users of its store may
    leave any replica and any status behind. -/
inductive Event where
  | called (call : Call)
  | observed (s : Session)

def after (c : Client) : List Event → Client
  | [] => c
  | .called call :: rest => (c.perform call).2.after rest
  | .observed s :: rest => (c.observe s).after rest

/-- What the calls among events return, in order. -/
def outcomes (c : Client) : List Event → List Outcome
  | [] => []
  | .called call :: rest => (c.perform call).1 :: (c.perform call).2.outcomes rest
  | .observed s :: rest => (c.observe s).outcomes rest

/-- The names for which a call asks a lookup. -/
def Call.asks : Call → List Text
  | .startWatch .. => []
  | .init app .. => asked app

/-- The session that a call starts if it is the first to reach a target. -/
def Call.session (call : Call) (target : Target) (c : Client) : Session :=
  match call with
  | .startWatch _ policy draws | .init _ _ policy draws => .start target policy draws c.status c.replica

/-- A call reaches the start of a session on a target: it is given the target, or it looks
    the target of an application up that is not blank, and finds one with an endpoint and a
    key that are not blank. -/
inductive Call.Reaches : Call → Target → Prop
  | startWatch (target : Target) (policy : Backoff.Policy) (draws : Nat → Nat) :
      Reaches (.startWatch target policy draws) target
  | init {app : Text} {lookup : Text → Except Manager.Error Target} {target : Target}
      (policy : Backoff.Policy) (draws : Nat → Nat) (happ : app.isBlank = false)
      (hlookup : lookup app = .ok target)
      (hendpoint : ∃ endpoint ∈ target.endpoints, endpoint.isBlank = false)
      (hkey : target.key.isBlank = false) : Reaches (.init app lookup policy draws) target

/-- A call fails: the application is blank, whatever a lookup would say, or the lookup fails,
    or the target that it finds has a fault. -/
inductive Call.Fails : Call → StartError → Prop
  | missingApp {app : Text} (lookup : Text → Except Manager.Error Target) (policy : Backoff.Policy)
      (draws : Nat → Nat) (happ : app.isBlank = true) : Fails (.init app lookup policy draws) .missingApp
  | lookup {app : Text} {lookup : Text → Except Manager.Error Target} {error : Manager.Error}
      (policy : Backoff.Policy) (draws : Nat → Nat) (happ : app.isBlank = false)
      (hlookup : lookup app = .error error) : Fails (.init app lookup policy draws) (.lookup error)
  | target {app : Text} {lookup : Text → Except Manager.Error Target} {target : Target}
      {fault : Target.Fault} (policy : Backoff.Policy) (draws : Nat → Nat) (happ : app.isBlank = false)
      (hlookup : lookup app = .ok target) (hfault : target.fault? = some fault) :
      Fails (.init app lookup policy draws) (.lookup (.invalidTarget fault.message.toList))

theorem Call.reaches_or_fails (call : Call) :
    (∃ target, call.Reaches target) ∨ ∃ error, call.Fails error := by
  cases call with
  | startWatch target policy draws => exact .inl ⟨target, .startWatch target policy draws⟩
  | init app lookup policy draws =>
    cases happ : app.isBlank with
    | true => exact .inr ⟨_, .missingApp lookup policy draws happ⟩
    | false =>
      cases hlookup : lookup app with
      | error error => exact .inr ⟨_, .lookup policy draws happ hlookup⟩
      | ok target =>
        cases hfault : target.fault? with
        | some fault => exact .inr ⟨_, .target policy draws happ hlookup hfault⟩
        | none =>
          obtain ⟨hendpoint, hkey⟩ := Target.fault?_eq_none_iff.1 hfault
          exact .inl ⟨target, .init policy draws happ hlookup hendpoint hkey⟩

theorem Call.Fails.asks_eq_nil {call : Call} (hfails : call.Fails .missingApp) : call.asks = [] := by
  cases hfails with
  | missingApp lookup policy draws happ => exact if_pos happ

theorem perform_of_fails (c : Client) {call : Call} {error : StartError} (hfails : call.Fails error) :
    c.perform call = (.error error, c) := by
  cases hfails with
  | missingApp lookup policy draws happ => simp [perform, init, asked, happ]
  | lookup policy draws happ hlookup => simp [perform, init, asked, happ, hlookup]
  | target policy draws happ hlookup hfault => simp [perform, init, asked, happ, hlookup, hfault]

/-- Of the calls that reach a target only the first finds the client not started. -/
theorem perform_of_reaches (c : Client) {call : Call} {target : Target} (hreaches : call.Reaches target) :
    c.perform call =
      if c.started then (.ok none, c)
      else (.ok (some (call.session target c)), { c with started := true }) := by
  cases hreaches with
  | startWatch target policy draws =>
    cases hstarted : c.started <;> simp [perform, startWatch, hstarted, Call.session]
  | init policy draws happ hlookup hendpoint hkey =>
    have hfault := Target.fault?_eq_none_iff.2 ⟨hendpoint, hkey⟩
    cases hstarted : c.started <;>
      simp [perform, init, asked, happ, hlookup, hfault, startWatch, hstarted, Call.session]

/-- Some call among events reaches a target. -/
def Reached (events : List Event) : Prop := ∃ call target, .called call ∈ events ∧ call.Reaches target

theorem reached_called {call : Call} {rest : List Event} :
    Reached (.called call :: rest) ↔ (∃ target, call.Reaches target) ∨ Reached rest := by
  constructor
  · rintro ⟨call', target, hmem, hreaches⟩
    obtain hcall | hmem := List.mem_cons.1 hmem
    · cases hcall
      exact .inl ⟨target, hreaches⟩
    · exact .inr ⟨call', target, hmem, hreaches⟩
  · rintro (⟨target, hreaches⟩ | ⟨call', target, hmem, hreaches⟩)
    · exact ⟨call, target, List.mem_cons_self, hreaches⟩
    · exact ⟨call', target, List.mem_cons_of_mem _ hmem, hreaches⟩

theorem reached_observed {s : Session} {rest : List Event} : Reached (.observed s :: rest) ↔ Reached rest := by
  simp [Reached]

/-- A client has started once a call has reached a target, and not before. -/
theorem started_after_iff (c : Client) (events : List Event) :
    (c.after events).started = true ↔ c.started = true ∨ Reached events := by
  induction events generalizing c with
  | nil => simp [after, Reached]
  | cons event rest ih =>
    cases event with
    | observed s => rw [after, ih, reached_observed, observe]
    | called call =>
      rw [after, ih, reached_called]
      obtain ⟨target, hreaches⟩ | ⟨error, hfails⟩ := call.reaches_or_fails
      · have hstarted : (c.perform call).2.started = true := by
          rw [perform_of_reaches c hreaches]
          cases hc : c.started <;> simp [hc]
        exact ⟨fun _ => .inr (.inl ⟨target, hreaches⟩), fun _ => .inl hstarted⟩
      · have hnone : ¬ ∃ target, call.Reaches target := by
          rintro ⟨target, hreaches⟩
          have hcall := perform_of_fails fresh hfails
          rw [perform_of_reaches fresh hreaches] at hcall
          cases hcall
        rw [perform_of_fails c hfails, or_iff_right hnone]

/-- A client that has started gives no other session, and one that has not gives one at most. -/
theorem countP_isSession_outcomes (c : Client) (events : List Event) :
    (c.outcomes events).countP Outcome.isSession ≤ if c.started then 0 else 1 := by
  induction events generalizing c with
  | nil => exact Nat.zero_le _
  | cons event rest ih =>
    cases event with
    | observed s => exact ih (c.observe s)
    | called call =>
      have hrest := ih (c.perform call).2
      rw [outcomes, List.countP_cons]
      obtain ⟨target, hreaches⟩ | ⟨error, hfails⟩ := call.reaches_or_fails
      · rw [perform_of_reaches c hreaches] at hrest ⊢
        cases hstarted : c.started with
        | true => simpa [hstarted] using hrest
        | false => simpa [hstarted] using hrest
      · rw [perform_of_fails c hfails] at hrest ⊢
        exact hrest

/-- Whatever calls are made on a fresh client, and whatever its session and the users of its
    store do between them, one of them at most gives a session: the first that reaches a
    target. A call that fails changes nothing, before that and afterwards, and leaves it to
    a later call to be the first; for a blank application no lookup is asked. Of the calls
    that reach a target, those after the first give no session and change nothing. -/
theorem first_call_to_reach_starts_session :
    (∀ events, (fresh.outcomes events).countP Outcome.isSession ≤ 1) ∧
      ∀ (earlier : List Event) (call : Call), let client := fresh.after earlier
        (client.started = true ↔ Reached earlier) ∧
        (∀ target, call.Reaches target → ¬ Reached earlier →
          client.perform call = (.ok (some (call.session target client)), { client with started := true })) ∧
        (∀ target, call.Reaches target → Reached earlier → client.perform call = (.ok none, client)) ∧
        ((¬ ∃ target, call.Reaches target) → ∃ error, call.Fails error ∧
          (error = .missingApp → call.asks = []) ∧ client.perform call = (.error error, client)) := by
  refine ⟨fun events => countP_isSession_outcomes fresh events, fun earlier call => ?_⟩
  intro client
  have hstarted : client.started = true ↔ Reached earlier := by
    rw [started_after_iff fresh earlier, or_iff_right]
    exact Bool.false_ne_true
  refine ⟨hstarted, fun target hreaches hfirst => ?_, fun target hreaches hlater => ?_, fun hnone => ?_⟩
  · rw [perform_of_reaches client hreaches, if_neg (mt hstarted.1 hfirst)]
  · rw [perform_of_reaches client hreaches, if_pos (hstarted.2 hlater)]
  · obtain ⟨error, hfails⟩ := call.reaches_or_fails.resolve_left hnone
    refine ⟨error, hfails, ?_, perform_of_fails client hfails⟩
    rintro rfl
    exact hfails.asks_eq_nil

/-- After calls that failed in each way, one starts the session and the next one does not. -/
theorem session_started_after_failures :
    let target : Target := ⟨["feed".toList], "/app".toList⟩
    let init (app : String) (found : Except Manager.Error Target) : Call :=
      .init app.toList (fun _ => found) .standard fun _ => 7
    let failed : List Event := [.called (init " " (.ok target)), .called (init "app" (.error .missingTarget)),
      .called (init "app" (.ok ⟨[" ".toList], "/app".toList⟩))]
    let started := failed ++ [.called (init "app" (.ok target))]
    (fresh.after failed).perform (init "app" (.ok target)) =
        (.ok (some (.start target .standard (fun _ => 7) .initial .fresh)), { fresh with started := true }) ∧
      (fresh.after started).perform (.startWatch target .standard fun _ => 7) =
        (.ok none, fresh.after started) ∧
      ∃ error, (fresh.after started).perform (init " " (.ok target)) = (.error error, fresh.after started) := by
  intro target init failed started
  obtain ⟨-, hcalls⟩ := first_call_to_reach_starts_session
  have hreaches : (init "app" (.ok target)).Reaches target :=
    .init _ _ (by decide) rfl ⟨"feed".toList, by decide, by decide⟩ (by decide)
  have hblank : ¬ ∃ found, (init " " (.ok target)).Reaches found := by
    rintro ⟨found, hfound⟩
    cases hfound with
    | init _ _ happ => cases happ
  have hnone : ¬ Reached failed := mt (hcalls failed (init " " (.ok target))).1.2 (by decide)
  have hsome : Reached started := ⟨_, target, by simp [started], hreaches⟩
  obtain ⟨-, hfirst, -, -⟩ := hcalls failed (init "app" (.ok target))
  obtain ⟨-, -, hlater, -⟩ := hcalls started (.startWatch target .standard fun _ => 7)
  obtain ⟨-, -, -, hfails⟩ := hcalls started (init " " (.ok target))
  obtain ⟨error, -, -, hkept⟩ := hfails hblank
  exact ⟨hfirst target hreaches hnone, hlater target (.startWatch _ _ _) hsome, error, hkept⟩

end Client

end ConfigWatch
