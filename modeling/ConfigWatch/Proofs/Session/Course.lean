import ConfigWatch.Session
import Mathlib.Data.List.Induction
/-!
Courses of a session: the signals that the feed and the clock can send it, one after
the other. Each of them is the return of the call at which the session is suspended,
so a step of a course is one of seven, and what courses do is told by a case for each.
-/
namespace ConfigWatch.Session

open Feed (Event Failure)

/-- Whether a signal is a return of the call at a point. Any result of a call is. -/
def Point.awaits : Point → Signal → Bool
  | .subscribing, .opened | .subscribing, .refused _ => true
  | .listening, .received _ | .listening, .disturbed _ => true
  | .releasing, .released => true
  | .resting _, .rested => true
  | _, _ => false

/-- The session after signals. -/
def after (s : Session) (signals : List Signal) : Session := signals.foldl hear s

/-- Signals that can come one after the other: each is a return of the call at which
    the session is suspended then. -/
def Course (s : Session) : List Signal → Prop
  | [] => True
  | signal :: rest => s.point.awaits signal = true ∧ (s.hear signal).Course rest

instance decidableCourse (s : Session) : (signals : List Signal) → Decidable (s.Course signals)
  | [] => .isTrue trivial
  | signal :: rest =>
    have := decidableCourse (s.hear signal) rest
    inferInstanceAs (Decidable (s.point.awaits signal = true ∧ (s.hear signal).Course rest))

/-- What a session can hear, and what it does then. -/
inductive Step : Session → Signal → Session → Prop
  | opened {s : Session} (hpoint : s.point = .subscribing) : Step s .opened s.listen
  | refused {s : Session} {failure : Failure} (hpoint : s.point = .subscribing) :
      Step s (.refused failure) s.fail
  | received {s : Session} {events : List Event} (hpoint : s.point = .listening) :
      Step s (.received events) (s.applyBatch events)
  | interrupted {s : Session} {failure : Failure} (hpoint : s.point = .listening)
      (hkept : failure.losesSubscription = false) : Step s (.disturbed failure) s
  | lost {s : Session} {failure : Failure} (hpoint : s.point = .listening)
      (hlost : failure.losesSubscription = true) :
      Step s (.disturbed failure) { s with point := .releasing }
  | released {s : Session} (hpoint : s.point = .releasing) : Step s .released s.fail
  | rested {s : Session} {delay : UInt64} (hpoint : s.point = .resting delay) :
      Step s .rested s.subscribe

theorem step_hear {s : Session} {signal : Signal} (hawaits : s.point.awaits signal = true) :
    Step s signal (s.hear signal) := by
  cases hpoint : s.point with
  | subscribing =>
    cases signal with
    | opened => simpa [hear, hpoint] using Step.opened hpoint
    | refused failure => simpa [hear, hpoint] using Step.refused hpoint
    | _ => simp [hpoint, Point.awaits] at hawaits
  | listening =>
    cases signal with
    | received events => simpa [hear, hpoint] using Step.received hpoint
    | disturbed failure =>
      cases hloses : failure.losesSubscription with
      | false => simpa [hear, hpoint, hloses] using Step.interrupted hpoint hloses
      | true => simpa [hear, hpoint, hloses] using Step.lost hpoint hloses
    | _ => simp [hpoint, Point.awaits] at hawaits
  | releasing =>
    cases signal with
    | released => simpa [hear, hpoint] using Step.released hpoint
    | _ => simp [hpoint, Point.awaits] at hawaits
  | resting delay =>
    cases signal with
    | rested => simpa [hear, hpoint] using Step.rested hpoint
    | _ => simp [hpoint, Point.awaits] at hawaits

theorem after_cons (s : Session) (signal : Signal) (rest : List Signal) :
    s.after (signal :: rest) = (s.hear signal).after rest := rfl

theorem after_concat (s : Session) (signals : List Signal) (signal : Signal) :
    s.after (signals ++ [signal]) = (s.after signals).hear signal :=
  List.foldl_append

/-- A course goes on with a return of the call at which it has arrived. -/
theorem course_concat {s : Session} {signals : List Signal} {signal : Signal} :
    s.Course (signals ++ [signal]) ↔ s.Course signals ∧ (s.after signals).point.awaits signal = true := by
  induction signals generalizing s with
  | nil => simp [Course, after]
  | cons first rest ih => rw [List.cons_append, Course, Course, ih, after_cons, and_assoc]

/-- What holds of a session at first, and is kept by every step of its courses, holds along
    all of them. -/
@[elab_as_elim]
theorem Course.induction {s : Session} {motive : (signals : List Signal) → s.Course signals → Prop}
    (nil : motive [] trivial)
    (concat : ∀ signals signal (hbefore : s.Course signals) (hcourse : s.Course (signals ++ [signal])),
      Step (s.after signals) signal (s.after (signals ++ [signal])) → motive signals hbefore →
        motive (signals ++ [signal]) hcourse)
    {signals : List Signal} (hcourse : s.Course signals) : motive signals hcourse := by
  induction signals using List.reverseRecOn with
  | nil => exact nil
  | append_singleton signals signal ih =>
    obtain ⟨hbefore, hawaits⟩ := course_concat.1 hcourse
    have hstep := step_hear hawaits
    rw [← after_concat] at hstep
    exact concat signals signal hbefore hcourse hstep (ih hbefore)

end ConfigWatch.Session
