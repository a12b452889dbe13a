import ConfigWatch.Proofs.Session.Delivery
import ConfigWatch.Proofs.Session.Tally
import ConfigWatch.Session.Script
/-!
What a session can tell of a feed. Of each subscribe call it is whether it succeeds, and of
a subscription the documents that it delivers, whether it delivers a batch at all, and
whether it is lost. Feeds that agree on these are subscribed to at the same times, and leave
the same session behind.
-/
namespace ConfigWatch.Session

open Feed (Event Failure)

/-- The results of the waits on a subscription, one after the other. -/
abbrev Waits := List (Except Failure (List Event))

/-- How a feed answers subscribe calls, one after the other. -/
abbrev Behaviour := List (Except Failure Waits)

/-- An answer as a script has it, with nobody else using the replica. -/
def offer : Except Failure Waits → Offer
  | .error failure => .refusal failure
  | .ok waits => .subscription (waits.map fun result => ⟨[], result⟩)

/-- What matters of a subscription. -/
structure Essence where
  documents : List Text
  receives : Bool
  lost : Bool
deriving DecidableEq

/-- Whether a wait loses the subscription. -/
def losesSubscription : Except Failure (List Event) → Bool
  | .ok _ => false
  | .error failure => failure.losesSubscription

/-- The batches that come before a subscription is lost. -/
def batches (waits : Waits) : List (List Event) :=
  (waits.takeWhile fun wait => !losesSubscription wait).filterMap Except.toOption

def Waits.essence (waits : Waits) : Essence where
  documents := Event.documents (batches waits).flatten
  receives := !(batches waits).isEmpty
  lost := waits.any losesSubscription

/-- What matters of an answer to a subscribe call; nothing if it is a failure. -/
def essence? (answer : Except Failure Waits) : Option Essence := answer.toOption.map Waits.essence

/-- Changes of an answer that do not matter: another interruption, another grouping of
    events, an event without a document, another failure. -/
inductive Immaterial : Except Failure Waits → Except Failure Waits → Prop
  | interruption (before after : Waits) (reason : Text) :
      Immaterial (.ok (before ++ after)) (.ok (before ++ .error (.interrupted reason) :: after))
  | grouping (before after : Waits) (events more : List Event) :
      Immaterial (.ok (before ++ .ok (events ++ more) :: after))
        (.ok (before ++ .ok events :: .ok more :: after))
  | idle (before after : Waits) (events more : List Event) {e : Event} (he : e.payload? = none) :
      Immaterial (.ok (before ++ .ok (events ++ more) :: after))
        (.ok (before ++ .ok (events ++ e :: more) :: after))
  | loss (before after : Waits) {failure failure' : Failure} (hlost : failure.losesSubscription = true)
      (hlost' : failure'.losesSubscription = true) :
      Immaterial (.ok (before ++ .error failure :: after)) (.ok (before ++ .error failure' :: after))
  | refusal (failure failure' : Failure) : Immaterial (.error failure) (.error failure')

def Moment.isSubscribe (m : Moment) : Bool :=
  match m.call with
  | .subscribe _ => true
  | _ => false

/-- Two runs of a session make the same subscribe calls, each at the same time and by the
    same session, and end with the same session. -/
def RunsAlike (s : Session) (feed feed' : Behaviour) : Prop :=
  (s.run (feed.map offer)).1.filter Moment.isSubscribe =
      (s.run (feed'.map offer)).1.filter Moment.isSubscribe ∧
    (s.run (feed.map offer)).2 = (s.run (feed'.map offer)).2

section Waits

variable (waits : Waits)

theorem essence_cons_ok (events : List Event) :
    Waits.essence (.ok events :: waits) =
      ⟨Event.documents events ++ waits.essence.documents, true, waits.essence.lost⟩ := by
  have hbatches : batches (.ok events :: waits) = events :: batches waits := rfl
  rw [Waits.essence, hbatches, List.flatten_cons, Event.documents_append]
  rfl

theorem essence_cons_kept {failure : Failure} (hkept : failure.losesSubscription = false) :
    Waits.essence (.error failure :: waits) = waits.essence := by
  have hbatches : batches (.error failure :: waits) = batches waits := by
    rw [batches, List.takeWhile_cons_of_pos (by simp [losesSubscription, hkept]),
      List.filterMap_cons_none rfl, batches]
  have hlost : (Except.error failure :: waits).any losesSubscription = waits.any losesSubscription := by
    simp [losesSubscription, hkept]
  rw [Waits.essence, hbatches, hlost, Waits.essence]

theorem essence_cons_lost {failure : Failure} (hlost : failure.losesSubscription = true) :
    Waits.essence (.error failure :: waits) = ⟨[], false, true⟩ := by
  have hbatches : batches (.error failure :: waits) = [] := by
    simp [batches, losesSubscription, hlost]
  have hany : (Except.error failure :: waits).any losesSubscription = true := by
    simp [losesSubscription, hlost]
  rw [Waits.essence, hbatches, hany]
  rfl

/-- Waits with the same essence have it also after others. -/
theorem essence_append_congr (before : Waits) {waits waits' : Waits}
    (hessence : waits.essence = waits'.essence) :
    Waits.essence (before ++ waits) = Waits.essence (before ++ waits') := by
  induction before with
  | nil => exact hessence
  | cons first before ih =>
    cases first with
    | ok events => rw [List.cons_append, List.cons_append, essence_cons_ok, essence_cons_ok, ih]
    | error failure =>
      rw [List.cons_append, List.cons_append]
      cases hloses : failure.losesSubscription with
      | false => rw [essence_cons_kept _ hloses, essence_cons_kept _ hloses, ih]
      | true => rw [essence_cons_lost _ hloses, essence_cons_lost _ hloses]

end Waits

theorem Immaterial.essence?_eq {answer answer' : Except Failure Waits} (hchange : Immaterial answer answer') :
    essence? answer = essence? answer' := by
  cases hchange with
  | interruption before after reason =>
    refine congrArg some (essence_append_congr before ?_)
    rw [essence_cons_kept after rfl]
  | grouping before after events more =>
    refine congrArg some (essence_append_congr before ?_)
    rw [essence_cons_ok, essence_cons_ok, essence_cons_ok, Event.documents_append, List.append_assoc]
  | idle before after events more he =>
    refine congrArg some (essence_append_congr before ?_)
    rw [essence_cons_ok, essence_cons_ok, Event.documents_append, Event.documents_append,
      Event.documents_cons, he]
    rfl
  | loss before after hlost hlost' =>
    refine congrArg some (essence_append_congr before ?_)
    rw [essence_cons_lost after hlost, essence_cons_lost after hlost']
  | refusal => rfl

/-- The session with its row of failures ended. -/
def recovered (s : Session) : Session :=
  { s with backoff := s.backoff.reset, status := { s.status with attempts := 0 } }

/-- The session with one more document applied. -/
def applyDocument (s : Session) (content : Text) : Session := s.applyEvent ⟨.put, [], some content⟩

/-- The session after a subscription of which only the essence is known. -/
def absorb (s : Session) (e : Essence) : Session :=
  let heard := e.documents.foldl applyDocument (if e.receives then s.recovered else s)
  if e.lost then heard.fail else heard

/-- The session after a subscribe call of which only the essence is known. -/
def resume (s : Session) : Option Essence → Session
  | none => s.fail
  | some e => s.listen.absorb e

/-- Only the document of an event matters. -/
theorem applyEvent_eq (s : Session) (e : Event) :
    s.applyEvent e = e.payload?.toList.foldl applyDocument s := by
  cases hpayload : e.payload? with
  | none => simp [applyEvent, Replica.deliver, hpayload]
  | some content =>
    -- The document of an event is not empty, so a put with it has it too.
    have hsame : (⟨.put, [], some content⟩ : Event).payload? = some content := by
      obtain ⟨change, key, value⟩ := e
      cases change with
      | delete => cases hpayload
      | put =>
        cases value with
        | none => cases hpayload
        | some value =>
          obtain ⟨hnonempty, hvalue⟩ := Option.ite_none_left_eq_some.1 hpayload
          cases hvalue
          exact if_neg hnonempty
    simp [applyDocument, applyEvent, Replica.deliver, hpayload, hsame]

theorem foldl_applyEvent_eq (s : Session) (events : List Event) :
    events.foldl applyEvent s = (Event.documents events).foldl applyDocument s := by
  induction events generalizing s with
  | nil => rfl
  | cons e rest ih => rw [List.foldl_cons, ih, Event.documents_cons, List.foldl_append, applyEvent_eq]

theorem recovered_foldl_applyDocument (s : Session) (contents : List Text) :
    (contents.foldl applyDocument s).recovered = contents.foldl applyDocument s.recovered := by
  induction contents generalizing s with
  | nil => rfl
  | cons content rest ih => exact ih (s.applyDocument content)

/-- A batch and what comes after it are absorbed together. -/
theorem absorb_applyBatch (s : Session) (events : List Event) (e : Essence) :
    (s.applyBatch events).absorb e = s.absorb ⟨Event.documents events ++ e.documents, true, e.lost⟩ := by
  have hbatch : s.applyBatch events = (Event.documents events).foldl applyDocument s.recovered :=
    foldl_applyEvent_eq s.recovered events
  have hrecovered : (s.applyBatch events).recovered = s.applyBatch events := by
    rw [hbatch, recovered_foldl_applyDocument]
    rfl
  rw [absorb, absorb, hrecovered, ite_self, hbatch, List.foldl_append]
  rfl

section Run

variable {s : Session}

/-- Asking for batches is no subscribing. -/
theorem filter_runSubscription (s : Session) (deliveries : List Delivery) :
    (s.runSubscription deliveries).1.filter Moment.isSubscribe = [] := by
  induction deliveries generalizing s with
  | nil => rfl
  | cons delivery rest ih =>
    unfold runSubscription
    dsimp only
    split
    · rfl
    · simp [Moment.isSubscribe, ih]

/-- With nobody else using the replica, a wait is heard by the session as it is. -/
theorem runSubscription_cons_snd (s : Session) (result : Except Failure (List Event)) (rest : List Delivery) :
    (s.runSubscription (⟨[], result⟩ :: rest)).2 =
      let heard := s.hear (Delivery.signal ⟨[], result⟩)
      if heard.point = .releasing then heard.hear .released else (heard.runSubscription rest).2 := by
  rw [runSubscription]
  dsimp only [Replica.answerAll]
  split
  · rename_i hpoint
    rw [if_pos hpoint]
  · rename_i hpoint
    rw [if_neg hpoint]

/-- Of a subscription a session keeps the essence. -/
theorem runSubscription_snd (hpoint : s.point = .listening) (waits : Waits) :
    (s.runSubscription (waits.map fun result => ⟨[], result⟩)).2 = s.absorb waits.essence := by
  induction waits generalizing s with
  | nil => rfl
  | cons wait waits ih =>
    rw [List.map_cons, runSubscription_cons_snd]
    cases wait with
    | ok events =>
      have hheard : s.hear (.received events) = s.applyBatch events := by simp [hear, hpoint]
      have hlistening : (s.applyBatch events).point = .listening := by rw [point_applyBatch, hpoint]
      simp only [Delivery.signal, hheard, hlistening, reduceCtorEq, ↓reduceIte]
      rw [ih hlistening, essence_cons_ok, absorb_applyBatch]
    | error failure =>
      cases hloses : failure.losesSubscription with
      | false =>
        have hheard : s.hear (.disturbed failure) = s := by simp [hear, hpoint, hloses]
        simp only [Delivery.signal, hheard, hpoint, reduceCtorEq, ↓reduceIte]
        rw [ih hpoint, essence_cons_kept waits hloses]
      | true =>
        have hheard : s.hear (.disturbed failure) = { s with point := .releasing } := by
          simp [hear, hpoint, hloses]
        simp only [Delivery.signal, hheard, ↓reduceIte]
        rw [essence_cons_lost waits hloses]
        rfl

/-- The subscribe calls of a run, and the session in the end. -/
def observed (run : List Moment × Session) : List Moment × Session :=
  (run.1.filter Moment.isSubscribe, run.2)

/-- Of an answer to a subscribe call a run goes on with the essence. -/
theorem observed_runFrom_cons (hpoint : s.point = .subscribing) (waited : Nat)
    (answer : Except Failure Waits) (rest : List Offer) :
    observed (s.runFrom waited (offer answer :: rest)) =
      let resumed := s.resume (essence? answer)
      match resumed.point with
      | .resting delay =>
        let later := observed ((resumed.hear .rested).runFrom delay.toNat rest)
        (⟨.subscribe waited, s⟩ :: later.1, later.2)
      | _ => ([⟨.subscribe waited, s⟩], resumed) := by
  cases answer with
  | error failure =>
    have hheard : s.hear (.refused failure) = s.fail := by simp [hear, hpoint]
    rw [offer, runFrom, hheard]
    rfl
  | ok waits =>
    have hheard : s.hear .opened = s.listen := by simp [hear, hpoint]
    have hcalls := filter_runSubscription s.listen (waits.map fun result => ⟨[], result⟩)
    have hleft : (s.listen.runSubscription _).2 = s.resume (essence? (.ok waits)) :=
      runSubscription_snd rfl waits
    have hfilter (moments : List Moment) : (⟨.subscribe waited, s⟩ :: moments).filter Moment.isSubscribe =
        ⟨.subscribe waited, s⟩ :: moments.filter Moment.isSubscribe := rfl
    rw [offer, runFrom, hheard, ← hleft]
    dsimp only
    cases (s.listen.runSubscription (waits.map fun result => ⟨[], result⟩)).2.point with
    | resting delay =>
      simp only [observed, List.cons_append, hfilter, List.filter_append, hcalls, List.nil_append]
    | _ => simp only [observed, hfilter, hcalls]

/-- Runs on the same essences make the same subscribe calls and end with the same session. -/
theorem observed_runFrom_congr (hpoint : s.point = .subscribing) (waited : Nat) {feed feed' : Behaviour}
    (hessence : feed.map essence? = feed'.map essence?) :
    observed (s.runFrom waited (feed.map offer)) = observed (s.runFrom waited (feed'.map offer)) := by
  induction feed generalizing s waited feed' with
  | nil =>
    obtain rfl := List.map_eq_nil_iff.1 hessence.symm
    rfl
  | cons answer feed ih =>
    obtain ⟨answer', feed', rfl, hanswer, hrest⟩ := List.map_eq_cons_iff.1 hessence.symm
    rw [List.map_cons, List.map_cons, observed_runFrom_cons hpoint, observed_runFrom_cons hpoint, hanswer]
    dsimp only
    split
    · rename_i delay hresting
      have hnext : ((s.resume (essence? answer)).hear .rested).point = .subscribing := by
        simp [hear, hresting, subscribe]
      rw [ih hnext delay.toNat hrest.symm]
    · rfl

end Run

/-- Feeds that agree, subscribe call by subscribe call, on what matters of the answers, make
    the same sessions subscribe at the same times and with the same status, and leave the
    same status, store and kept rules. So interruptions, the grouping of events, events
    without a document, and the kinds and texts of failures make no difference. -/
theorem runsAlike_of_essences (target : Target) (policy : Backoff.Policy) (draws : Nat → Nat)
    (status : Status) (replica : Replica) :
    let first := start target policy draws status replica
    (∀ feed feed' : Behaviour, feed.map essence? = feed'.map essence? → first.RunsAlike feed feed') ∧
      ∀ (before after : Behaviour) {answer answer'}, Immaterial answer answer' →
        first.RunsAlike (before ++ answer :: after) (before ++ answer' :: after) := by
  intro first
  have hfeeds (feed feed' : Behaviour) (hessence : feed.map essence? = feed'.map essence?) :
      first.RunsAlike feed feed' := by
    have hruns := observed_runFrom_congr (s := first) rfl 0 hessence
    exact Prod.ext_iff.1 hruns
  refine ⟨hfeeds, fun before after answer answer' hchange => hfeeds _ _ ?_⟩
  rw [List.map_append, List.map_append, List.map_cons, List.map_cons, hchange.essence?_eq]

/-- Two feeds with the same two documents, one with interruptions, other batches, a delete,
    an empty put and other failures; and two that refuse their first call differently. -/
theorem interruptions_and_grouping_unnoticed :
    let put (content : String) : Event := ⟨.put, "/app".toList, some content.toList⟩
    let feed : Behaviour := [.error .closed, .ok [.ok [put "[g]\nr=1", put "[g]\nr=2"], .error .closed]]
    let feed' : Behaviour := [.error (.interrupted []),
      .ok [.error (.interrupted []), .ok [put "[g]\nr=1", ⟨.delete, "/app".toList, none⟩], .ok [],
        .ok [put "", put "[g]\nr=2"], .error (.transport []), .ok [put "[g]\nr=3"]]]
    let first := start ⟨["feed".toList], "/app".toList⟩ .standard (fun _ => 7) .initial .fresh
    feed.map essence? = feed'.map essence? ∧ first.RunsAlike feed feed' ∧
      first.RunsAlike (.error (.transport []) :: feed) (.error .closed :: feed) ∧
      (first.run (feed'.map offer)).2.status = ⟨.subscribing, 1, 2, 2, 1⟩ := by
  intro put feed feed' first
  obtain ⟨hfeeds, hchanges⟩ :=
    runsAlike_of_essences ⟨["feed".toList], "/app".toList⟩ .standard (fun _ => 7) .initial .fresh
  have hessence : feed.map essence? = feed'.map essence? := by decide
  exact ⟨hessence, hfeeds feed feed' hessence, hchanges [] feed (.refusal (.transport []) .closed), by decide⟩

end ConfigWatch.Session
