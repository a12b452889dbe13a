import ConfigWatch.Proofs.Replica.Run
import Mathlib.Data.List.Infix
/-!
Which values a rule can come from. Rules are kept by written names, values by names;
so a rule that is found for a name was read from a value of some name with the same
written form, though not always from one of its own. It is read from its own as long
as no other name of that form has been looked up since rules were dropped, and it
always is exactly if no other name of that form can have a value.
-/
namespace ConfigWatch

/-- Whether no other name that can have a value is written in the same way. -/
def Name.IsUnambiguous (name : Name) : Prop :=
  name.isComplete = true → ∀ other : Name, other.IsStorable → other.toText = name.toText → other = name

namespace Replica

/-- A name held a value at some moment of a run since the rules were last dropped. -/
def HeldSince (requests : List Request) (name : Name) (value : Text) : Prop :=
  ∃ earlier later, requests = earlier ++ later ∧
    (∀ request ∈ later, request.dropsRules = false) ∧
    (fresh.after earlier).store.get? name = some value

/-- A name was looked up in a run since the rules were last dropped. -/
def LookedUpSince (requests : List Request) (name : Name) : Prop :=
  ∃ earlier request later, requests = earlier ++ request :: later ∧
    request.lookup? = some name ∧ ∀ request ∈ later, request.dropsRules = false

/-- After a run, whatever rule is found for a name was read from a value that this
    name held since the rules were last dropped. -/
def Isolated (requests : List Request) (name : Name) : Prop :=
  ∀ rule, ((fresh.after requests).rule name).1 = some rule →
    ∃ value, HeldSince requests name value ∧ Rule.ofText? name.toText value = some rule

/-- A name that had no value at any moment of a run is denied to everyone after it. -/
def FailsClosed (requests : List Request) (name : Name) : Prop :=
  (∀ earlier later, requests = earlier ++ later → (fresh.after earlier).store.get? name = none) →
    ∀ request, request.lookup? = some name →
      ((fresh.after requests).answer request).1 = .rule none ∨
        ((fresh.after requests).answer request).1 = .flag false

theorem heldSince_of_get? {requests : List Request} {name : Name} {value : Text}
    (hvalue : (fresh.after requests).store.get? name = some value) : HeldSince requests name value :=
  ⟨requests, [], by simp, by simp, hvalue⟩

theorem HeldSince.concat {requests : List Request} {name : Name} {value : Text} {request : Request}
    (hheld : HeldSince requests name value) (hdrops : request.dropsRules = false) :
    HeldSince (requests ++ [request]) name value := by
  obtain ⟨earlier, later, rfl, hlater, hvalue⟩ := hheld
  refine ⟨earlier, later ++ [request], by simp, ?_, hvalue⟩
  simpa [or_imp, forall_and, hdrops] using hlater

theorem LookedUpSince.concat {requests : List Request} {name : Name} {request : Request}
    (hlooked : LookedUpSince requests name) (hdrops : request.dropsRules = false) :
    LookedUpSince (requests ++ [request]) name := by
  obtain ⟨earlier, lookup, later, rfl, hname, hlater⟩ := hlooked
  refine ⟨earlier, lookup, later ++ [request], by simp, hname, ?_⟩
  simpa [or_imp, forall_and, hdrops] using hlater

theorem exists_entry_of_heldSince {requests : List Request} {name : Name} {value : Text}
    (hheld : HeldSince requests name value) :
    ∃ content ∈ requests.filterMap Request.content?, ∃ e ∈ Document.entries content, e.name = name := by
  obtain ⟨earlier, later, rfl, -, hvalue⟩ := hheld
  obtain ⟨-, hstored⟩ := Option.ite_none_right_eq_some.1 hvalue
  obtain ⟨content, hcontent, e, he, hname, -⟩ := exists_entry_of_getElem?_drawer hstored
  exact ⟨content, by simp [List.filterMap_append, hcontent], e, he, hname⟩

theorem HeldSince.isStorable {requests : List Request} {name : Name} {value : Text}
    (hheld : HeldSince requests name value) : name.IsStorable := by
  obtain ⟨content, -, e, he, rfl⟩ := exists_entry_of_heldSince hheld
  exact (Document.isWellFormed_of_mem_entries he).1

/-- Every kept rule was read, since rules were last dropped, from a value that some
    name of that written form held when it was looked up. -/
theorem origin_of_kept {requests : List Request} {t : Text} {kept : Rule}
    (hkept : (fresh.after requests).rules[t]? = some kept) :
    ∃ name value, name.toText = t ∧ LookedUpSince requests name ∧ HeldSince requests name value ∧
      Rule.ofText? t value = some kept := by
  induction requests using List.reverseRecOn generalizing t kept with
  | nil => simp [after, answerAll, fresh] at hkept
  | append_singleton requests request ih =>
    rw [after_concat] at hkept
    cases hdrops : request.dropsRules with
    | true => simp [rules_answer_of_dropsRules _ hdrops] at hkept
    | false =>
      -- What was kept before has the same origin, as the request drops nothing.
      have hold : (fresh.after requests).rules[t]? = some kept →
          ∃ name value, name.toText = t ∧ LookedUpSince (requests ++ [request]) name ∧
            HeldSince (requests ++ [request]) name value ∧ Rule.ofText? t value = some kept := by
        intro hbefore
        obtain ⟨name, value, htext, hlooked, hheld, hread⟩ := ih hbefore
        exact ⟨name, value, htext, hlooked.concat hdrops, hheld.concat hdrops, hread⟩
      cases hlookup : request.lookup? with
      | none =>
        rw [rules_answer_of_lookup?_eq_none _ hdrops hlookup] at hkept
        exact hold hkept
      | some name =>
        rw [rules_answer_of_lookup? _ hlookup] at hkept
        obtain hbefore | ⟨rfl, hread⟩ := kept_of_kept_rule hkept
        · exact hold hbefore
        · obtain ⟨value, hvalue, hrule⟩ := Option.bind_eq_some_iff.1 hread
          exact ⟨name, value, rfl, ⟨requests, request, [], rfl, hlookup, by simp⟩,
            (heldSince_of_get? hvalue).concat hdrops, hrule⟩

/-- A rule that is found for a name was read from a value that the name itself holds,
    or that another name of the same written form held when it was looked up. -/
theorem origin_of_found {requests : List Request} {name : Name} {rule : Rule}
    (hfound : ((fresh.after requests).rule name).1 = some rule) :
    ∃ other value, other.toText = name.toText ∧ (other = name ∨ LookedUpSince requests other) ∧
      HeldSince requests other value ∧ Rule.ofText? name.toText value = some rule := by
  rw [rule_fst] at hfound
  split at hfound
  · cases hkept : (fresh.after requests).rules[name.toText]? with
    | some kept =>
      rw [hkept, Option.some_or, Option.some.injEq] at hfound
      subst hfound
      obtain ⟨other, value, htext, hlooked, hheld, hread⟩ := origin_of_kept hkept
      exact ⟨other, value, htext, .inr hlooked, hheld, hread⟩
    | none =>
      rw [hkept, Option.none_or] at hfound
      obtain ⟨value, hvalue, hread⟩ := Option.bind_eq_some_iff.1 hfound
      exact ⟨name, value, rfl, .inl rfl, heldSince_of_get? hvalue, hread⟩
  · cases hfound

/-- A name is isolated as long as no other name of its written form is looked up. -/
theorem isolated_of_lookedUpSince {requests : List Request} {name : Name}
    (halone : ∀ other, LookedUpSince requests other → other.toText = name.toText → other = name) :
    Isolated requests name := by
  intro rule hfound
  obtain ⟨other, value, htext, hlooked, hheld, hread⟩ := origin_of_found hfound
  have hname : other = name := hlooked.elim id fun hlooked => halone other hlooked htext
  exact ⟨value, hname ▸ hheld, hread⟩

theorem answer_of_lookup? (r : Replica) {request : Request} {name : Name}
    (hlookup : request.lookup? = some name) :
    (r.answer request).1 = .rule (r.rule name).1 ∨
      ∃ id, (r.answer request).1 = .flag (Rule.admits (r.rule name).1 id) := by
  cases request with
  | rule name => cases hlookup; exact .inl rfl
  | check name id => cases hlookup; exact .inr ⟨id, rfl⟩
  | ruleNamed fullName =>
    have hname : Name.ofText? fullName = some name := hlookup
    refine .inl ?_
    simp only [answer, ruleNamed, hname]
  | checkNamed fullName id =>
    have hname : Name.ofText? fullName = some name := hlookup
    refine .inr ⟨id, ?_⟩
    simp only [answer, checkNamed, ruleNamed, hname]
  | _ => cases hlookup

/-- The run in which a name is given a rule that admits everyone, and is looked up. -/
def aliasRun (other : Name) : List Request :=
  [.reload (Document.render [⟨other, Stance.allow.toText⟩]), .rule other]

theorem isWellFormed_allow {other : Name} (hother : other.IsStorable) :
    ∀ e ∈ [Entry.mk other Stance.allow.toText], e.IsWellFormed := by
  have hvalue : Stance.allow.toText.IsField := by decide
  have hentry : Entry.IsWellFormed ⟨other, Stance.allow.toText⟩ := ⟨hother, hvalue⟩
  simpa using hentry

theorem entries_aliasRun {other : Name} (hother : other.IsStorable) :
    Document.entries (Document.render [⟨other, Stance.allow.toText⟩]) =
      [⟨other, Stance.allow.toText⟩] :=
  Document.entries_render (isWellFormed_allow hother)

theorem eq_of_heldSince_aliasRun {name other : Name} {value : Text} (hother : other.IsStorable)
    (hheld : HeldSince (aliasRun other) name value) : name = other := by
  obtain ⟨content, hcontent, e, he, rfl⟩ := exists_entry_of_heldSince hheld
  have hrender : content = Document.render [⟨other, Stance.allow.toText⟩] := by
    simpa [aliasRun, Request.content?] using hcontent
  rw [hrender, entries_aliasRun hother, List.mem_singleton] at he
  rw [he]

/-- After that run the rule is found for every name of the same written form. -/
theorem rule_aliasRun {name other : Name} (hother : other.IsStorable) (hname : name.isComplete = true)
    (htext : other.toText = name.toText) :
    ((fresh.after (aliasRun other)).rule name).1 = some ⟨name.toText, .allow, none, none⟩ := by
  let merged := (fresh.reload (Document.render [⟨other, Stance.allow.toText⟩])).2
  have hget : merged.store.get? other = some Stance.allow.toText := by
    rw [store_reload, Store.merge, entries_aliasRun hother]
    exact (Store.get?_putAll (isWellFormed_allow hother) other).trans (by simp [lastValue?])
  have hfound : (merged.rule other).1 = some ⟨other.toText, .allow, none, none⟩ := by
    rw [rule_fst, if_pos hother.isComplete, rules_reload, Store.rule?, hget]
    rfl
  have hkept : (fresh.after (aliasRun other)).rules[name.toText]? = some ⟨name.toText, .allow, none, none⟩ := by
    rw [← htext]
    exact kept_of_found hfound
  rw [rule_fst, if_pos hname, hkept]
  rfl

theorem Isolated.failsClosed {requests : List Request} {name : Name}
    (hisolated : Isolated requests name) : FailsClosed requests name := by
  intro hnever request hlookup
  have hnone : ((fresh.after requests).rule name).1 = none := by
    refine Option.eq_none_iff_forall_ne_some.2 fun rule hfound => ?_
    obtain ⟨value, ⟨earlier, later, hsplit, -, hvalue⟩, -⟩ := hisolated rule hfound
    rw [hnever earlier later hsplit] at hvalue
    cases hvalue
  obtain hanswer | ⟨id, hanswer⟩ := answer_of_lookup? (fresh.after requests) hlookup
  · exact .inl (by rw [hanswer, hnone])
  · exact .inr (by rw [hanswer, hnone]; rfl)

theorem isolated_of_isUnambiguous {name : Name} (hname : name.IsUnambiguous) (requests : List Request) :
    Isolated requests name := by
  intro rule hfound
  obtain ⟨other, value, htext, -, hheld, hread⟩ := origin_of_found hfound
  have hcomplete : name.isComplete = true := by
    rw [rule_fst] at hfound
    split at hfound
    · assumption
    · cases hfound
  rw [hname hcomplete other hheld.isStorable htext] at hheld
  exact ⟨value, hheld, hread⟩

/-- If another name is written in the same way, a run that gives this one a rule for
    everyone, and looks it up, admits by the name that has no value. -/
theorem isUnambiguous_of_failsClosed {name : Name} (hclosed : ∀ requests, FailsClosed requests name) :
    name.IsUnambiguous := by
  intro hcomplete other hother htext
  by_contra hne
  have hnever : ∀ earlier later, aliasRun other = earlier ++ later →
      (fresh.after earlier).store.get? name = none := by
    intro earlier later hsplit
    refine Option.eq_none_iff_forall_ne_some.2 fun value hvalue => ?_
    have hkeeps : ∀ request ∈ later, request.dropsRules = false := by
      intro request hmem
      have hrun : request ∈ aliasRun other := by simp [hsplit, hmem]
      simp only [aliasRun, List.mem_cons, List.not_mem_nil, or_false] at hrun
      obtain rfl | rfl := hrun <;> rfl
    exact hne (eq_of_heldSince_aliasRun hother ⟨earlier, later, hsplit, hkeeps, hvalue⟩).symm
  obtain hanswer | hanswer := hclosed (aliasRun other) hnever (.rule name) rfl
  · have hfound := rule_aliasRun hother hcomplete htext
    simp only [answer, hfound] at hanswer
    cases hanswer
  · cases hanswer

/-- Rules are kept by written names. Whatever rule is found for a name was read from a
    value that a name of the same written form held. The name is isolated in a run in
    which no other name of that form has been looked up since rules were dropped, and a
    run in which it is isolated fails closed for it; and all runs isolate it, and all
    runs fail closed for it, exactly if no other name that can have a value is written
    in the same way. -/
theorem rules_isolated_iff_written_form_unique (name : Name) :
    (∀ requests rule, ((fresh.after requests).rule name).1 = some rule →
      ∃ other value, other.toText = name.toText ∧ HeldSince requests other value ∧
        Rule.ofText? name.toText value = some rule) ∧
    (∀ requests, (∀ other, LookedUpSince requests other → other.toText = name.toText → other = name) →
      Isolated requests name) ∧
    (∀ requests, Isolated requests name → FailsClosed requests name) ∧
    ((∀ requests, Isolated requests name) ↔ name.IsUnambiguous) ∧
    ((∀ requests, FailsClosed requests name) ↔ name.IsUnambiguous) := by
  refine ⟨?_, ?_, ?_, ⟨?_, ?_⟩, ?_, ?_⟩
  · intro requests rule hfound
    obtain ⟨other, value, htext, -, hheld, hread⟩ := origin_of_found hfound
    exact ⟨other, value, htext, hheld, hread⟩
  · intro requests halone
    exact isolated_of_lookedUpSince halone
  · intro requests hisolated
    exact hisolated.failsClosed
  · intro hisolated
    exact isUnambiguous_of_failsClosed fun requests => (hisolated requests).failsClosed
  · intro hname requests
    exact isolated_of_isUnambiguous hname requests
  · exact isUnambiguous_of_failsClosed
  · intro hname requests
    exact (isolated_of_isUnambiguous hname requests).failsClosed

/-- A name that never had a value is admitted by the rule of another name that is
    written in the same way. -/
theorem alias_admitted_without_value :
    let requests : List Request :=
      [.reload "[a.b]\nc=allow".toList, .rule ⟨"a.b".toList, "c".toList⟩]
    let name : Name := ⟨"a".toList, "b.c".toList⟩
    (∀ earlier later, requests = earlier ++ later → (fresh.after earlier).store.get? name = none) ∧
      ((fresh.after requests).check name (.text "x".toList)).1 = true ∧
      ¬ Isolated requests name := by
  intro requests name
  have hnever : ∀ earlier later, requests = earlier ++ later →
      (fresh.after earlier).store.get? name = none := by
    intro earlier later hsplit
    have hmem : earlier ∈ requests.inits := (List.mem_inits _ _).2 ⟨later, hsplit.symm⟩
    simp only [requests, List.inits, List.map_cons, List.map_nil, List.mem_cons, List.not_mem_nil,
      or_false] at hmem
    obtain rfl | rfl | rfl := hmem <;> decide
  refine ⟨hnever, by decide, fun hisolated => ?_⟩
  obtain ⟨value, ⟨earlier, later, hsplit, -, hvalue⟩, -⟩ :=
    hisolated ⟨"a.b.c".toList, .allow, none, none⟩ rfl
  rw [hnever earlier later hsplit] at hvalue
  cases hvalue

end Replica

end ConfigWatch
