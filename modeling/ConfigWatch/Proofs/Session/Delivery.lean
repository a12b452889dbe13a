import ConfigWatch.Proofs.Replica.Run
import ConfigWatch.Proofs.Session.Course
/-!
What a session delivers. Its replica takes the documents of all batches received so
far, each of them once and in the order of the feed, however often the subscription
was lost between them; and the session counts exactly these documents.
-/
namespace ConfigWatch

open Feed (Event Failure)

/-- The documents that events bring: the values of the puts, unless they are empty. -/
def Feed.Event.documents (events : List Event) : List Text :=
  ((events.filter fun e => e.change = .put).filterMap Event.value).filter fun value => !value.isEmpty

theorem Feed.Event.documents_cons (e : Event) (rest : List Event) :
    documents (e :: rest) = e.payload?.toList ++ documents rest := by
  obtain ⟨change, key, value⟩ := e
  cases change with
  | delete => rfl
  | put =>
    cases value with
    | none => rfl
    | some value => cases value <;> rfl

theorem Feed.Event.documents_append (events more : List Event) :
    documents (events ++ more) = documents events ++ documents more := by
  simp [documents]

namespace Session

/-- The events of the batches among signals, in order. -/
def delivered (signals : List Signal) : List Event :=
  signals.flatMap fun
    | .received events => events
    | _ => []

/-- A session has taken documents: they are merged into its replica and counted. -/
structure Takes (s t : Session) (contents : List Text) : Prop where
  store_eq : t.replica.store = contents.foldl Store.merge s.replica.store
  reloads_eq : t.status.reloads = s.status.reloads + contents.length

theorem Takes.append {s t u : Session} {contents more : List Text}
    (hfirst : s.Takes t contents) (hsecond : t.Takes u more) : s.Takes u (contents ++ more) where
  store_eq := by rw [hsecond.store_eq, hfirst.store_eq, List.foldl_append]
  reloads_eq := by rw [hsecond.reloads_eq, hfirst.reloads_eq, List.length_append, Nat.add_assoc]

theorem takes_applyEvent (s : Session) (e : Event) : s.Takes (s.applyEvent e) e.payload?.toList := by
  cases hpayload : e.payload? with
  | none =>
    have hunchanged : s.applyEvent e = s := by simp [applyEvent, Replica.deliver, hpayload]
    rw [hunchanged]
    exact ⟨rfl, rfl⟩
  | some content =>
    have hstore : (s.applyEvent e).replica.store = s.replica.store.merge content := by
      have hdeliver := Replica.store_deliver s.replica e
      rwa [hpayload] at hdeliver
    have hreloads : (s.applyEvent e).status.reloads = s.status.reloads + 1 := by
      simp [applyEvent, Replica.deliver, hpayload]
    exact ⟨hstore, hreloads⟩

theorem takes_foldl_applyEvent (s : Session) (events : List Event) :
    s.Takes (events.foldl applyEvent s) (Event.documents events) := by
  induction events generalizing s with
  | nil => exact ⟨rfl, rfl⟩
  | cons e rest ih =>
    rw [Event.documents_cons, List.foldl_cons]
    exact (takes_applyEvent s e).append (ih (s.applyEvent e))

theorem takes_applyBatch (s : Session) (events : List Event) :
    s.Takes (s.applyBatch events) (Event.documents events) := by
  have hfold := takes_foldl_applyEvent
    { s with backoff := s.backoff.reset, status := { s.status with attempts := 0 } } events
  exact ⟨hfold.store_eq, hfold.reloads_eq⟩

/-- A step takes the documents of the batch that it brings, and no others. -/
theorem Step.takes {s t : Session} {signal : Signal} (hstep : Step s signal t) :
    s.Takes t (Event.documents (delivered [signal])) := by
  cases hstep with
  | @received events hpoint => simpa [delivered] using takes_applyBatch s events
  -- Every other step leaves the store and the count alone.
  | opened => exact ⟨rfl, rfl⟩
  | refused => exact ⟨rfl, rfl⟩
  | interrupted => exact ⟨rfl, rfl⟩
  | lost => exact ⟨rfl, rfl⟩
  | released => exact ⟨rfl, rfl⟩
  | rested => exact ⟨rfl, rfl⟩

theorem Course.takes {s : Session} {signals : List Signal} (hcourse : s.Course signals) :
    s.Takes (s.after signals) (Event.documents (delivered signals)) := by
  induction signals generalizing s with
  | nil => exact ⟨rfl, rfl⟩
  | cons signal rest ih =>
    obtain ⟨hawaits, hrest⟩ := hcourse
    have hbatches : delivered (signal :: rest) = delivered [signal] ++ delivered rest := by
      simp [delivered]
    rw [hbatches, Event.documents_append, after_cons]
    exact (step_hear hawaits).takes.append (ih hrest)

/-- Whatever the feed does, at every call of a session the store of its replica is the
    one it began with after a reload of each document received so far, over all
    subscriptions and in their order; and these are the reloads that it has counted. -/
theorem documents_applied_once_in_order (target : Target) (policy : Backoff.Policy) (draws : Nat → Nat)
    (status : Status) (replica : Replica) {signals : List Signal}
    (hcourse : (start target policy draws status replica).Course signals) :
    let s := (start target policy draws status replica).after signals
    let documents := Event.documents (delivered signals)
    s.replica.store = (replica.after (documents.map .reload)).store ∧
      s.status.reloads = status.reloads + documents.length := by
  have htakes := hcourse.takes
  refine ⟨?_, htakes.reloads_eq⟩
  rw [htakes.store_eq, Replica.store_after, List.filterMap_map]
  simp [start, subscribe, enter, Function.comp_def, Request.content?]

/-- Two documents, received before and after a subscription was lost and another one
    refused, are both applied to what the replica held before, and in this order. -/
theorem documents_applied_across_subscriptions :
    let put (content : String) : Event := ⟨.put, "/app".toList, some content.toList⟩
    let signals : List Signal :=
      [.opened, .received [put "[g]\nq=1\nr=1", ⟨.delete, "/app".toList, none⟩],
        .disturbed (.transport []), .released, .rested, .refused .closed, .rested, .opened,
        .disturbed (.interrupted []), .received [put "", put "[g]\nr=2"]]
    let replica := (Replica.fresh.reload "[g]\np=0\nq=0".toList).2
    let s := start ⟨["feed".toList], "/app".toList⟩ .standard (fun _ => 7) .initial replica
    s.Course signals ∧ (s.after signals).status.reloads = 2 ∧
      ["p", "q", "r"].map (fun key => (s.after signals).replica.store.get? ⟨"g".toList, key.toList⟩) =
        ["0", "1", "2"].map fun value => some value.toList := by
  intro put signals replica s
  have hcourse : s.Course signals := by decide
  obtain ⟨hstore, hreloads⟩ := documents_applied_once_in_order _ _ _ _ _ hcourse
  refine ⟨hcourse, hreloads.trans (by decide), ?_⟩
  rw [hstore]
  decide

end Session

end ConfigWatch
