import ConfigWatch.Feed.File
import ConfigWatch.Proofs.Session.Delivery
import ConfigWatch.Proofs.Session.Tally
/-!
File subscriptions as sessions use them. The one that opens a subscription and the watcher
both read the file and send what they read as two steps, so what is sent last need not be
what was read last. The batch that is received last is what the file holds in the end,
unless the opening sends what it read after the watcher has told of a newer content.
-/
namespace ConfigWatch

namespace Feed

theorem Tree.get?_putDeep (t : Tree) {place : Place} (hplace : place ≠ []) (node : Node) :
    (t.putDeep place node).get? place = some node := by
  simp [putDeep, put, get?, hplace]

namespace Watched

/-- The batch that brings a text as the content of the file. -/
def showing (w : Watched) (text : Text) : Batch := .ok [⟨.put, w.key, some text⟩]

theorem showing_inj {w : Watched} {text text' : Text} : w.showing text = w.showing text' ↔ text = text' := by
  simp [showing]

theorem read_eq_showing {w : Watched} {t : Tree} {content : List UInt8}
    (hfile : t.get? w.place = some (.file content)) : w.read t = w.showing (Utf8.decodeLossy content) := by
  simp [read, hfile, showing]

end Watched

namespace FileSubscription

/-- Whether a step changes the tree, be it at the place of the file or elsewhere. -/
def Step.isChange : Step → Bool
  | .change _ _ => true
  | _ => false

/-- If a step is a change, it puts a complete file where the file of the place is. -/
def Step.KeepsFile (place : Place) : Step → Prop
  | .change changed new => changed = place ∧ ∃ content, new = .replace content
  | _ => True

/-- What a step can do. A step that cannot be taken does nothing. -/
inductive Move : FileSubscription → Step → FileSubscription → Prop
  | change {s : FileSubscription} {place : Place} {change : TreeChange} :
      Move s (.change place change)
        { s with
          tree := change.apply s.tree place
          pending := if place = s.watched.place then s.pending ++ [change] else s.pending }
  | handle {s : FileSubscription} {change : TreeChange} {rest : List TreeChange}
      (hhandling : s.handling = none) (hpending : s.pending = change :: rest) :
      Move s .handle { s with pending := rest, handling := some (s.watched.batch s.tree change) }
  | send {s : FileSubscription} {batch : Batch} (hhandling : s.handling = some batch) :
      Move s .send { s with handling := none, queue := s.queue ++ [batch] }
  | readFirst {s : FileSubscription} (hopening : s.opening = .watching) :
      Move s .readFirst { s with opening := .read (s.watched.read s.tree) }
  | sendFirst {s : FileSubscription} {batch : Batch} (hopening : s.opening = .read batch) :
      Move s .sendFirst { s with opening := .done, queue := s.queue ++ [batch] }
  | receive {s : FileSubscription} {batch : Batch} {rest : List Batch} (hqueue : s.queue = batch :: rest) :
      Move s .receive { s with queue := rest, received := s.received ++ [batch] }
  | idle {s : FileSubscription} {step : Step} (hchange : step.isChange = false) : Move s step s

theorem move_step (s : FileSubscription) (step : Step) : Move s step (s.step step) := by
  cases step with
  | change place change => exact .change
  | handle =>
    simp only [FileSubscription.step]
    split
    · rename_i change rest hhandling hpending
      exact .handle hhandling hpending
    · exact .idle rfl
  | send =>
    simp only [FileSubscription.step]
    split
    · rename_i batch hhandling
      exact .send hhandling
    · exact .idle rfl
  | readFirst =>
    simp only [FileSubscription.step]
    split
    · rename_i hopening
      exact .readFirst hopening
    · exact .idle rfl
  | sendFirst =>
    simp only [FileSubscription.step]
    split
    · rename_i batch hopening
      exact .sendFirst hopening
    · exact .idle rfl
  | receive =>
    simp only [FileSubscription.step]
    split
    · rename_i batch rest hqueue
      exact .receive hqueue
    · exact .idle rfl

/-- What holds of the subscription to a file that is only ever replaced. -/
structure Sound (w : Watched) (s : FileSubscription) : Prop where
  watched_eq : s.watched = w
  isFile : ∃ content, s.tree.get? w.place = some (.file content)
  pending_replaces : ∀ change ∈ s.pending, ∃ content, change = .replace content
  /-- What is read for the last change is what the file holds until the next one. -/
  handling_current : ∀ batch, s.handling = some batch → s.pending = [] → batch = w.read s.tree
  handling_shows : ∀ batch, s.handling = some batch → ∃ text, batch = w.showing text
  opening_shows : ∀ batch, s.opening = .read batch → ∃ text, batch = w.showing text
  queue_shows : ∀ batch ∈ s.queue, ∃ text, batch = w.showing text

variable {w : Watched} {s t : FileSubscription} {step : Step}

theorem sound_start {t : Tree} {content : List UInt8} (hfile : t.get? w.place = some (.file content)) :
    (start w t).Sound w where
  watched_eq := rfl
  isFile := ⟨content, hfile⟩
  pending_replaces := by simp [start]
  handling_current := by simp [start]
  handling_shows := by simp [start]
  opening_shows := by simp [start]
  queue_shows := by simp [start]

theorem Sound.place_ne_nil (h : s.Sound w) : w.place ≠ [] := by
  obtain ⟨content, hfile⟩ := h.isFile
  intro hplace
  simp [hplace, Tree.get?] at hfile

theorem Sound.read_shows (h : s.Sound w) : ∃ text, w.read s.tree = w.showing text := by
  obtain ⟨content, hfile⟩ := h.isFile
  exact ⟨_, Watched.read_eq_showing hfile⟩

theorem Sound.move (h : s.Sound w) (hmove : Move s step t) (hstep : step.KeepsFile w.place) : t.Sound w := by
  obtain ⟨text, hread⟩ := h.read_shows
  cases hmove with
  | change =>
    obtain ⟨rfl, content, rfl⟩ := hstep
    rw [if_pos (congrArg Watched.place h.watched_eq).symm]
    refine { h with
      isFile := ⟨content, Tree.get?_putDeep _ h.place_ne_nil _⟩
      pending_replaces := ?_
      handling_current := ?_ }
    · exact List.forall_mem_append.2 ⟨h.pending_replaces, List.forall_mem_singleton.2 ⟨content, rfl⟩⟩
    · intro batch _ hnone
      simp at hnone
  | @handle change rest hhandling hpending =>
    obtain ⟨content, rfl⟩ := h.pending_replaces change (by simp [hpending])
    have hbatch : s.watched.batch s.tree (.replace content) = w.read s.tree :=
      congrArg (Watched.read · s.tree) h.watched_eq
    rw [hbatch]
    refine { h with
      pending_replaces := ?_
      handling_current := ?_
      handling_shows := ?_ }
    · intro later hlater
      exact h.pending_replaces later (by simp [hpending, hlater])
    · rintro batch ⟨rfl⟩ -
      rfl
    · rintro batch ⟨rfl⟩
      exact ⟨text, hread⟩
  | send hhandling =>
    refine { h with handling_current := ?_, handling_shows := ?_, queue_shows := ?_ }
    · rintro batch ⟨⟩
    · rintro batch ⟨⟩
    · have hbatch := h.handling_shows _ hhandling
      exact List.forall_mem_append.2 ⟨h.queue_shows, List.forall_mem_singleton.2 hbatch⟩
  | readFirst hopening =>
    refine { h with opening_shows := ?_ }
    rintro batch ⟨rfl⟩
    exact ⟨text, h.watched_eq ▸ hread⟩
  | sendFirst hopening =>
    refine { h with opening_shows := ?_, queue_shows := ?_ }
    · rintro batch ⟨⟩
    · have hbatch := h.opening_shows _ hopening
      exact List.forall_mem_append.2 ⟨h.queue_shows, List.forall_mem_singleton.2 hbatch⟩
  | receive hqueue =>
    refine { h with queue_shows := ?_ }
    intro batch hbatch
    exact h.queue_shows batch (by simp [hqueue, hbatch])
  | idle => exact h

/-- Everything that was sent, whether or not it was received. -/
def sent (s : FileSubscription) : List Batch := s.received ++ s.queue

/-- The opening has returned, and the watcher has told every change. -/
structure Settled (s : FileSubscription) : Prop where
  opening_eq : s.opening = .done
  pending_eq : s.pending = []
  handling_eq : s.handling = none

/-- What was sent last is what the file holds. -/
def IsCurrent (s : FileSubscription) : Prop := s.sent.getLast? = some (s.watched.read s.tree)

/-- The opening is about to send what the file does not hold any more, and the watcher has
    nothing left to tell. -/
structure SendsStale (s : FileSubscription) : Prop where
  opening_stale : ∃ batch, s.opening = .read batch ∧ batch ≠ s.watched.read s.tree
  pending_eq : s.pending = []
  handling_eq : s.handling = none

/-- When everything has been told, what was sent last is what the file holds, or else the
    step did not change that it is not, or it was the stale content that was sent just now. -/
theorem Move.isCurrent_or (hmove : Move s step t) (h : s.Sound w) (hstep : step.KeepsFile w.place)
    (hsettled : t.Settled) :
    t.IsCurrent ∨ (s.Settled ∧ ¬ s.IsCurrent ∧ step.isChange = false) ∨
      (step = .sendFirst ∧ s.SendsStale) := by
  obtain ⟨hopening', hpending', hhandling'⟩ := hsettled
  cases hmove with
  | change =>
    obtain ⟨rfl, content, rfl⟩ := hstep
    simp [h.watched_eq] at hpending'
  | handle => cases hhandling'
  | send hhandling =>
    -- No change is left, so what is sent was read after the last one.
    have hbatch := h.handling_current _ hhandling hpending'
    left
    simp [IsCurrent, sent, hbatch, h.watched_eq]
  | readFirst => cases hopening'
  | @sendFirst batch hopening =>
    by_cases hbatch : batch = s.watched.read s.tree
    · left
      simp [IsCurrent, sent, hbatch]
    · exact .inr (.inr ⟨rfl, ⟨batch, hopening, hbatch⟩, hpending', hhandling'⟩)
  | @receive batch rest hqueue =>
    by_cases hcurrent : s.IsCurrent
    · left
      simpa [IsCurrent, sent, hqueue] using hcurrent
    · exact .inr (.inl ⟨⟨hopening', hpending', hhandling'⟩, hcurrent, rfl⟩)
  | idle hchange =>
    by_cases hcurrent : s.IsCurrent
    · exact .inl hcurrent
    · exact .inr (.inl ⟨⟨hopening', hpending', hhandling'⟩, hcurrent, hchange⟩)

/-- Everything has been told, and what was sent last is not what the file holds. -/
structure IsStale (s : FileSubscription) (last : Batch) : Prop extends s.Settled where
  sent_eq : s.sent.getLast? = some last
  last_ne : last ≠ s.watched.read s.tree

/-- When everything has been told, nothing is sent any more without a change. -/
theorem Move.isStale {last : Batch} (hmove : Move s step t) (hchange : step.isChange = false)
    (h : s.IsStale last) : t.IsStale last := by
  cases hmove with
  | change => cases hchange
  | handle _ hpending => simp [h.pending_eq] at hpending
  | send hhandling => simp [h.handling_eq] at hhandling
  | readFirst hopening => simp [h.opening_eq] at hopening
  | sendFirst hopening => simp [h.opening_eq] at hopening
  | receive hqueue =>
    have hsent := h.sent_eq
    refine { h with sent_eq := ?_ }
    simpa [sent, hqueue] using hsent
  | idle => exact h

theorem SendsStale.isStale (h : s.SendsStale) :
    ∃ last, s.opening = .read last ∧ (s.step .sendFirst).IsStale last := by
  obtain ⟨last, hopening, hlast⟩ := h.opening_stale
  refine ⟨last, hopening, ?_⟩
  simp only [FileSubscription.step, hopening]
  exact ⟨⟨rfl, h.pending_eq, h.handling_eq⟩, by simp [sent], hlast⟩

theorem Move.opening_eq_done_iff (hmove : Move s step t) (hstep : step ≠ .sendFirst) :
    t.opening = .done ↔ s.opening = .done := by
  cases hmove with
  | readFirst hopening => simp [hopening]
  | sendFirst => exact absurd rfl hstep
  | change => rfl
  | handle => rfl
  | send => rfl
  | receive => rfl
  | idle => rfl

theorem Move.received_eq (hmove : Move s step t) (hstep : step ≠ .receive) : t.received = s.received := by
  cases hmove with
  | receive => exact absurd rfl hstep
  | change => rfl
  | handle => rfl
  | send => rfl
  | readFirst => rfl
  | sendFirst => rfl
  | idle => rfl

end FileSubscription

end Feed

open Feed (Event Watched FileSubscription Batch Tree)

/-- The return of a call for the next batch. -/
def Session.Signal.ofBatch : Batch → Session.Signal
  | .ok events => .received events
  | .error failure => .disturbed failure

/-- A listening session merges the document that a batch shows. -/
theorem Session.hear_showing {s : Session} (hpoint : s.point = .listening) (w : Watched) (text : Text) :
    (s.hear (.ofBatch (w.showing text))).point = .listening ∧
      (s.hear (.ofBatch (w.showing text))).replica.store = s.replica.store.merge text := by
  have hhear : s.hear (.ofBatch (w.showing text)) = s.applyBatch [⟨.put, w.key, some text⟩] := by
    simp [hear, hpoint, Signal.ofBatch, Watched.showing]
  rw [hhear, point_applyBatch]
  refine ⟨hpoint, ?_⟩
  rw [(takes_applyBatch s _).store_eq]
  cases text with
  | nil => rfl
  | cons c rest => simp [Event.documents]

/-- A subscription to a file, and the session that opens it and receives its batches. -/
structure FileWatch where
  subscription : FileSubscription
  session : Session

namespace FileWatch

/-- A session that asks for a subscription, when the watcher has just been put in place. -/
def start (w : Watched) (t : Tree) (s : Session) : FileWatch := ⟨.start w t, s⟩

/-- The session is told that the subscription is open when the opening has sent what it
    read, and receives batches while it listens. -/
def step (x : FileWatch) : FileSubscription.Step → FileWatch
  | .sendFirst =>
    match x.subscription.opening with
    | .read _ => ⟨x.subscription.step .sendFirst, x.session.hear .opened⟩
    | _ => x
  | .receive =>
    match x.session.point, x.subscription.queue with
    | .listening, batch :: _ => ⟨x.subscription.step .receive, x.session.hear (.ofBatch batch)⟩
    | _, _ => x
  | step => { x with subscription := x.subscription.step step }

def after (x : FileWatch) (steps : List FileSubscription.Step) : FileWatch := steps.foldl step x

theorem after_concat (x : FileWatch) (steps : List FileSubscription.Step) (step : FileSubscription.Step) :
    x.after (steps ++ [step]) = (x.after steps).step step :=
  List.foldl_append

variable {w : Watched} {x : FileWatch}

theorem move_subscription (x : FileWatch) (step : FileSubscription.Step) :
    x.subscription.Move step (x.step step).subscription := by
  cases step with
  | sendFirst =>
    simp only [FileWatch.step]
    split
    · exact x.subscription.move_step .sendFirst
    · exact .idle rfl
  | receive =>
    simp only [FileWatch.step]
    split
    · exact x.subscription.move_step .receive
    · exact .idle rfl
  | change place change => exact x.subscription.move_step _
  | handle => exact x.subscription.move_step _
  | send => exact x.subscription.move_step _
  | readFirst => exact x.subscription.move_step _

/-- The session listens as soon as the subscription is open, and its store holds what the
    batch shows that was received last. -/
structure Sound (w : Watched) (x : FileWatch) : Prop where
  subscription : x.subscription.Sound w
  subscribing : x.subscription.opening ≠ .done → x.session.point = .subscribing
  listening : x.subscription.opening = .done → x.session.point = .listening
  store_shows : ∀ text, x.subscription.received.getLast? = some (w.showing text) →
    ∀ name value, lastValue? (Document.entries text) name = some value →
      x.session.replica.store.get? name = some value

theorem sound_start {t : Tree} {session : Session} {content : List UInt8}
    (hfile : t.get? w.place = some (.file content)) (hsession : session.point = .subscribing) :
    (start w t session).Sound w where
  subscription := FileSubscription.sound_start hfile
  subscribing _ := hsession
  listening := nofun
  store_shows := nofun

theorem Sound.step (h : x.Sound w) {step : FileSubscription.Step} (hstep : step.KeepsFile w.place) :
    (x.step step).Sound w := by
  have hmove := x.move_subscription step
  have hsubscription := h.subscription.move hmove hstep
  -- Only the end of the opening and the receipt of a batch concern the session.
  have hkeeps (hsend : step ≠ .sendFirst) (hreceive : step ≠ .receive)
      (hsession : (x.step step).session = x.session) : (x.step step).Sound w := by
    have hdone := hmove.opening_eq_done_iff hsend
    have hreceived := hmove.received_eq hreceive
    refine ⟨hsubscription, ?_, ?_, ?_⟩
    · rw [hsession, Ne, hdone]
      exact h.subscribing
    · rw [hsession, hdone]
      exact h.listening
    · rw [hsession, hreceived]
      exact h.store_shows
  cases step with
  | change place change => exact hkeeps (by simp) (by simp) rfl
  | handle => exact hkeeps (by simp) (by simp) rfl
  | send => exact hkeeps (by simp) (by simp) rfl
  | readFirst => exact hkeeps (by simp) (by simp) rfl
  | sendFirst =>
    cases hopening : x.subscription.opening with
    | read batch =>
      have hpoint : x.session.point = .subscribing := h.subscribing (by simp [hopening])
      have hreceived := hmove.received_eq (by simp)
      have hhear : x.session.hear .opened = x.session.listen := by simp [Session.hear, hpoint]
      have hx : x.step .sendFirst = ⟨x.subscription.step .sendFirst, x.session.listen⟩ := by
        simp only [FileWatch.step, hopening, hhear]
      have hdone : (x.subscription.step .sendFirst).opening = .done := by
        simp only [FileSubscription.step, hopening]
      rw [hx] at hsubscription hreceived ⊢
      refine ⟨hsubscription, fun hnot => absurd hdone hnot, fun _ => rfl, ?_⟩
      rw [hreceived]
      exact h.store_shows
    | _ =>
      have hx : x.step .sendFirst = x := by simp only [FileWatch.step, hopening]
      rwa [hx]
  | receive =>
    by_cases hready : x.session.point = .listening ∧ x.subscription.queue ≠ []
    · obtain ⟨hpoint, hqueue⟩ := hready
      obtain ⟨batch, rest, hqueue⟩ := List.exists_cons_of_ne_nil hqueue
      obtain ⟨text, rfl⟩ := h.subscription.queue_shows batch (by simp [hqueue])
      obtain ⟨hlistening, hstore⟩ := Session.hear_showing hpoint w text
      have hopening : x.subscription.opening = .done := by
        by_contra hnot
        have hsubscribing := h.subscribing hnot
        simp [hpoint] at hsubscribing
      have hx : x.step .receive =
          ⟨x.subscription.step .receive, x.session.hear (.ofBatch (w.showing text))⟩ := by
        simp only [FileWatch.step, hpoint, hqueue]
      have hdone : (x.step .receive).subscription.opening = .done :=
        (hmove.opening_eq_done_iff (by simp)).2 hopening
      have hreceived : (x.step .receive).subscription.received =
          x.subscription.received ++ [w.showing text] := by
        simp only [hx, FileSubscription.step, hqueue]
      refine ⟨hsubscription, fun hnot => absurd hdone hnot, fun _ => ?_, ?_⟩
      · rw [hx]
        exact hlistening
      · intro text' hlast name value hvalue
        rw [hreceived, List.getLast?_concat, Option.some_inj, Watched.showing_inj] at hlast
        rw [hx, hstore]
        exact Store.get?_merge_of_lastValue? _ (hlast ▸ hvalue)
    · have hx : x.step .receive = x := by
        simp only [FileWatch.step]
        split
        · rename_i hpoint hqueue
          exact absurd ⟨hpoint, by simp [hqueue]⟩ hready
        · rfl
      rwa [hx]

theorem Sound.after (h : x.Sound w) {steps : List FileSubscription.Step}
    (hsteps : ∀ step ∈ steps, step.KeepsFile w.place) : (x.after steps).Sound w := by
  induction steps generalizing x with
  | nil => exact h
  | cons step rest ih =>
    have hstep := h.step (hsteps step (by simp))
    exact ih hstep fun later hlater => hsteps later (by simp [hlater])

/-- The opening sent what the file did not hold any more, after the watcher had told all that
    there was to tell, and nothing has changed since. -/
def Overtaken (x : FileWatch) (steps : List FileSubscription.Step) : Prop :=
  ∃ before later, steps = before ++ .sendFirst :: later ∧
    (x.after before).subscription.SendsStale ∧ ∀ step ∈ later, step.isChange = false

theorem Overtaken.concat {steps : List FileSubscription.Step} {step : FileSubscription.Step}
    (h : x.Overtaken steps) (hstep : step.isChange = false) : x.Overtaken (steps ++ [step]) := by
  obtain ⟨before, later, rfl, hstale, hlater⟩ := h
  have hlater' := List.forall_mem_append.2 ⟨hlater, List.forall_mem_singleton.2 hstep⟩
  exact ⟨before, later ++ [step], by simp, hstale, hlater'⟩

/-- What the opening sent is the last that was sent, as long as nothing changes. -/
theorem Sound.isStale_of_overtaken (h : x.Sound w) {steps : List FileSubscription.Step}
    (hsteps : ∀ step ∈ steps, step.KeepsFile w.place) (hovertaken : x.Overtaken steps) :
    ∃ text, (x.after steps).subscription.IsStale (w.showing text) := by
  obtain ⟨before, later, rfl, hsends, hlater⟩ := hovertaken
  obtain ⟨last, hopening, hstale⟩ := hsends.isStale
  have hbefore := h.after fun step hstep => hsteps step (List.mem_append_left _ hstep)
  obtain ⟨text, rfl⟩ := hbefore.subscription.opening_shows last hopening
  refine ⟨text, ?_⟩
  clear hsteps
  induction later using List.reverseRecOn with
  | nil =>
    have hsent : ((x.after before).step .sendFirst).subscription =
        (x.after before).subscription.step .sendFirst := by
      simp only [FileWatch.step, hopening]
    rwa [after_concat, hsent]
  | append_singleton later step ih =>
    have hlast := ih fun other hother => hlater other (List.mem_append_left _ hother)
    rw [← List.cons_append, ← List.append_assoc, after_concat]
    exact (move_subscription _ step).isStale (hlater step (by simp)) hlast

/-- When everything has been told and it is not what the file holds that was sent last, it
    was overtaken. -/
theorem Sound.isCurrent_or_overtaken (h : x.Sound w) {steps : List FileSubscription.Step}
    (hunsent : x.subscription.opening ≠ .done)
    (hsteps : ∀ step ∈ steps, step.KeepsFile w.place)
    (hsettled : (x.after steps).subscription.Settled) :
    (x.after steps).subscription.IsCurrent ∨ x.Overtaken steps := by
  induction steps using List.reverseRecOn with
  | nil => exact absurd hsettled.opening_eq hunsent
  | append_singleton steps step ih =>
    have hbefore : ∀ earlier ∈ steps, earlier.KeepsFile w.place :=
      fun earlier hearlier => hsteps earlier (by simp [hearlier])
    rw [after_concat] at hsettled ⊢
    obtain hcurrent | ⟨hearlier, hnot, hchange⟩ | ⟨rfl, hstale⟩ :=
      (move_subscription (x.after steps) step).isCurrent_or (h.after hbefore).subscription
        (hsteps step (by simp)) hsettled
    · exact .inl hcurrent
    · have hovertaken := (ih hbefore hearlier).resolve_left hnot
      exact .inr (hovertaken.concat hchange)
    · exact .inr ⟨steps, [], rfl, hstale, nofun⟩

/-- The batch that was received last shows a text as the content of the file, and the store
    holds the values that this text gives. -/
def Shows (w : Watched) (x : FileWatch) (text : Text) : Prop :=
  x.subscription.received.getLast? = some (w.showing text) ∧
    ∀ name value, lastValue? (Document.entries text) name = some value →
      x.session.replica.store.get? name = some value

/-- A file is opened and replaced any number of times, the steps of all parties mix in any
    order, and then the opening has returned, every change has been told and everything was
    received. The session has what the file holds in the end, unless it was overtaken by what
    the opening had read before; and then it has that. -/
theorem shows_final_unless_overtaken (w : Watched) (t : Tree) (session : Session)
    (steps : List FileSubscription.Step) {first : List UInt8}
    (hfile : t.get? w.place = some (.file first)) (hsession : session.point = .subscribing)
    (hsteps : ∀ step ∈ steps, step.KeepsFile w.place)
    (hsettled : ((start w t session).after steps).subscription.Settled)
    (hqueue : ((start w t session).after steps).subscription.queue = []) :
    let x := (start w t session).after steps
    ∃ final, x.subscription.tree.get? w.place = some (.file final) ∧
      (¬ (start w t session).Overtaken steps → x.Shows w (Utf8.decodeLossy final)) ∧
      ((start w t session).Overtaken steps → ∃ text ≠ Utf8.decodeLossy final, x.Shows w text) := by
  intro x
  have hstart := sound_start hfile hsession
  have hx : x.Sound w := hstart.after hsteps
  have hreceived : x.subscription.sent = x.subscription.received := by
    rw [FileSubscription.sent, hqueue, List.append_nil]
  obtain ⟨final, hfinal⟩ := hx.subscription.isFile
  have hread := Watched.read_eq_showing hfinal
  refine ⟨final, hfinal, ?_, ?_⟩
  · intro hnot
    have hcurrent := (hstart.isCurrent_or_overtaken nofun hsteps hsettled).resolve_right hnot
    rw [FileSubscription.IsCurrent, hreceived, hx.subscription.watched_eq, hread] at hcurrent
    exact ⟨hcurrent, hx.store_shows _ hcurrent⟩
  · intro hovertaken
    obtain ⟨text, hstale⟩ := hstart.isStale_of_overtaken hsteps hovertaken
    have hlast := hstale.sent_eq
    have hne := hstale.last_ne
    rw [hreceived] at hlast
    rw [hx.subscription.watched_eq, hread, Ne, Watched.showing_inj] at hne
    exact ⟨text, hne, hlast, hx.store_shows _ hlast⟩

/-- The file is replaced between the two steps of the opening, but the watcher tells of it
    afterwards, so the session ends up with the new content. -/
theorem newer_content_told_after_opening :
    let w : Watched := ⟨"app.conf".toList, "./app.conf".toList, ["app.conf".toList]⟩
    let old := "[a]\nk=old".toList
    let new := "[a]\nk=new".toList
    let session := Session.start ⟨[".".toList], w.key⟩ .standard (fun _ => 7) .initial .fresh
    let first := start w (Tree.empty.put w.place (.file (Utf8.encode old))) session
    let steps : List FileSubscription.Step :=
      [.readFirst, .change w.place (.replace (Utf8.encode new)), .sendFirst, .handle, .send, .receive, .receive]
    let x := first.after steps
    (∀ step ∈ steps, step.KeepsFile w.place) ∧ x.subscription.Settled ∧ x.subscription.queue = [] ∧
      x.subscription.received = [w.showing old, w.showing new] ∧ ¬ first.Overtaken steps ∧
      x.session.replica.store.get? ⟨"a".toList, "k".toList⟩ = some "new".toList := by
  intro w old new session first steps x
  have hold : Utf8.decodeLossy (Utf8.encode old) = old := Utf8.decodeLossy_encode (by simp [old])
  have hnew : Utf8.decodeLossy (Utf8.encode new) = new := Utf8.decodeLossy_encode (by simp [new])
  have hsteps : ∀ step ∈ steps, step.KeepsFile w.place := by
    simp [steps, FileSubscription.Step.KeepsFile]
  have hreceived : x.subscription.received = [w.showing old, w.showing new] := by
    rw [← hold, ← hnew]
    rfl
  have htree : x.subscription.tree.get? w.place = some (.file (Utf8.encode new)) := by decide
  have hfile : (Tree.empty.put w.place (.file (Utf8.encode old))).get? w.place =
      some (.file (Utf8.encode old)) := by decide
  obtain ⟨final, hfinal, hshows, hstale⟩ :=
    shows_final_unless_overtaken w _ session steps hfile rfl hsteps ⟨rfl, rfl, rfl⟩ rfl
  obtain rfl : Utf8.encode new = final := by simpa using htree.symm.trans hfinal
  rw [hnew] at hshows hstale
  have hnot : ¬ first.Overtaken steps := by
    intro hovertaken
    obtain ⟨text, hne, hlast, -⟩ := hstale hovertaken
    rw [hreceived] at hlast
    exact hne (Watched.showing_inj.1 (Option.some_inj.1 hlast)).symm
  refine ⟨hsteps, ⟨rfl, rfl, rfl⟩, rfl, hreceived, hnot, ?_⟩
  apply (hshows hnot).2
  decide

/-- The opening reads the file, the file is replaced, the watcher reads and sends the new
    content, and then the opening sends the old one. The session ends up with the old one. -/
theorem older_content_received_last :
    let w : Watched := ⟨"app.conf".toList, "./app.conf".toList, ["app.conf".toList]⟩
    let old := "[a]\nk=old".toList
    let new := "[a]\nk=new".toList
    let session := Session.start ⟨[".".toList], w.key⟩ .standard (fun _ => 7) .initial .fresh
    let steps : List FileSubscription.Step :=
      [.readFirst, .change w.place (.replace (Utf8.encode new)), .handle, .send, .sendFirst, .receive, .receive]
    let x := (start w (Tree.empty.put w.place (.file (Utf8.encode old))) session).after steps
    (∀ step ∈ steps, step.KeepsFile w.place) ∧ x.subscription.Settled ∧ x.subscription.queue = [] ∧
      x.subscription.tree.get? w.place = some (.file (Utf8.encode new)) ∧
      lastValue? (Document.entries (Utf8.decodeLossy (Utf8.encode new))) ⟨"a".toList, "k".toList⟩ =
        some "new".toList ∧
      x.subscription.received = [w.showing new, w.showing old] ∧
      x.session.replica.store.get? ⟨"a".toList, "k".toList⟩ = some "old".toList := by
  intro w old new session steps x
  have hold : Utf8.decodeLossy (Utf8.encode old) = old := Utf8.decodeLossy_encode (by simp [old])
  have hnew : Utf8.decodeLossy (Utf8.encode new) = new := Utf8.decodeLossy_encode (by simp [new])
  have hsteps : ∀ step ∈ steps, step.KeepsFile w.place := by
    simp [steps, FileSubscription.Step.KeepsFile]
  have hfile : (Tree.empty.put w.place (.file (Utf8.encode old))).get? w.place =
      some (.file (Utf8.encode old)) := by decide
  have hsound : x.Sound w := (sound_start hfile rfl).after hsteps
  have hreceived : x.subscription.received = [w.showing new, w.showing old] := by
    rw [← hold, ← hnew]
    rfl
  refine ⟨hsteps, ⟨rfl, rfl, rfl⟩, rfl, ?_, ?_, hreceived, ?_⟩
  · decide
  · rw [hnew]
    decide
  · apply hsound.store_shows old
    · rw [hreceived]
      rfl
    · decide

end FileWatch

end ConfigWatch
