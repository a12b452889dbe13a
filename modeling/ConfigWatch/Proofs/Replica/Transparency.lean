import ConfigWatch.Proofs.Replica.Run
/-!
When keeping rules cannot be noticed. In a run that merges documents through events
alone and asks for rules by written names alone, every kept rule is the one that the
store has at the moment: an event that changes the store drops all rules, and what is
kept under a text was read for the one name that the text stands for.
-/
namespace ConfigWatch

/-- The rule of a written name, read from the store as it is. -/
def Store.ruleNamed? (s : Store) (fullName : Text) : Option Rule :=
  match Name.ofText? fullName with
  | some name => (s.get? name).bind (Rule.ofText? fullName)
  | none => none

theorem Store.ruleNamed?_eq_rule? (s : Store) {fullName : Text} {name : Name}
    (hname : Name.ofText? fullName = some name) : s.ruleNamed? fullName = s.rule? name := by
  have htext : name.toText = fullName := (Name.ofText?_eq_some_iff.1 hname).1
  rw [ruleNamed?, hname, rule?, htext]

/-- Whether a request is allowed where rules are asked for by written names: it merges
    no document past the feed and names no rule by two parts. -/
def Request.isByName : Request → Bool
  | .reload _ | .rule _ | .check _ _ => false
  | _ => true

theorem Request.content?_eq_none_of_isByName {request : Request} (hnamed : request.isByName = true)
    (hdrops : request.dropsRules = false) : request.content? = none := by
  cases request with
  | reload content => cases hnamed
  | deliver event =>
    have hpayload : event.payload? = none := by simpa [dropsRules] using hdrops
    exact hpayload
  | _ => rfl

theorem Request.ofText?_of_isByName {request : Request} {name : Name} (hnamed : request.isByName = true)
    (hlookup : request.lookup? = some name) : Name.ofText? name.toText = some name := by
  have hwritten : ∀ fullName, Name.ofText? fullName = some name → Name.ofText? name.toText = some name :=
    fun fullName hname => (Name.ofText?_eq_some_iff.1 hname).1 ▸ hname
  cases request with
  | rule name => cases hnamed
  | check name id => cases hnamed
  | ruleNamed fullName => exact hwritten fullName hlookup
  | checkNamed fullName id => exact hwritten fullName hlookup
  | _ => cases hlookup

namespace Replica

/-- Every kept rule is the one that the store has for the text that it is kept under. -/
def IsCurrent (r : Replica) : Prop :=
  ∀ t kept, r.rules[t]? = some kept → r.store.ruleNamed? t = some kept

theorem isCurrent_fresh : fresh.IsCurrent := by
  intro t kept hkept
  simp [fresh] at hkept

theorem IsCurrent.answer {r : Replica} (hcurrent : r.IsCurrent) {request : Request}
    (hnamed : request.isByName = true) : (r.answer request).2.IsCurrent := by
  intro t kept hkept
  cases hdrops : request.dropsRules with
  | true => simp [rules_answer_of_dropsRules r hdrops] at hkept
  | false =>
    -- Only what drops the rules can change the store, so old rules stay current.
    have hstore : (r.answer request).2.store = r.store := by
      rw [store_answer, Request.content?_eq_none_of_isByName hnamed hdrops]
      rfl
    rw [hstore]
    cases hlookup : request.lookup? with
    | none =>
      rw [rules_answer_of_lookup?_eq_none r hdrops hlookup] at hkept
      exact hcurrent t kept hkept
    | some name =>
      rw [rules_answer_of_lookup? r hlookup] at hkept
      obtain hold | ⟨rfl, hread⟩ := kept_of_kept_rule hkept
      · exact hcurrent t kept hold
      · rw [Store.ruleNamed?_eq_rule? _ (Request.ofText?_of_isByName hnamed hlookup), hread]

theorem IsCurrent.after {r : Replica} (hcurrent : r.IsCurrent) {requests : List Request}
    (hnamed : ∀ request ∈ requests, request.isByName = true) : (r.after requests).IsCurrent := by
  induction requests generalizing r with
  | nil => exact hcurrent
  | cons request rest ih =>
    simp only [List.mem_cons, forall_eq_or_imp] at hnamed
    exact ih (hcurrent.answer hnamed.1) hnamed.2

theorem IsCurrent.ruleNamed_fst {r : Replica} (hcurrent : r.IsCurrent) (fullName : Text) :
    (r.ruleNamed fullName).1 = r.store.ruleNamed? fullName := by
  unfold Replica.ruleNamed
  cases hname : Name.ofText? fullName with
  | none => simp [Store.ruleNamed?, hname]
  | some name =>
    obtain ⟨htext, hcomplete, -⟩ := Name.ofText?_eq_some_iff.1 hname
    rw [rule_fst, if_pos hcomplete, Store.ruleNamed?_eq_rule? _ hname]
    cases hkept : r.rules[name.toText]? with
    | none => rfl
    | some kept =>
      have hread := hcurrent name.toText kept hkept
      rw [htext, Store.ruleNamed?_eq_rule? _ hname] at hread
      exact hread.symm

theorem checkNamed_fst (r : Replica) (fullName : Text) (id : Identity) :
    (r.checkNamed fullName id).1 = Rule.admits (r.ruleNamed fullName).1 id := rfl

end Replica

end ConfigWatch
