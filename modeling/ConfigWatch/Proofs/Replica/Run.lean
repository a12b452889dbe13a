import ConfigWatch.Proofs.Store
import ConfigWatch.Replica.Request
/-!
Runs of requests. All that a request does to the store is to merge the document that
it brings, and all that it does to the kept rules is to drop them or to look up one
name. So the store of a run is the merge of its documents, and what a run keeps is
told by one case for each of these.
-/
namespace ConfigWatch

namespace Request

/-- The document that a request merges. -/
def content? : Request → Option Text
  | .reload content => some content
  | .deliver event => event.payload?
  | _ => none

/-- Whether a request drops the kept rules. -/
def dropsRules : Request → Bool
  | .deliver event => event.payload?.isSome
  | .resetRules => true
  | _ => false

/-- The name whose rule a request looks up. -/
def lookup? : Request → Option Name
  | .rule name | .check name _ => some name
  | .ruleNamed fullName | .checkNamed fullName _ => Name.ofText? fullName
  | _ => none

end Request

namespace Replica

theorem reload_fst (r : Replica) (content : Text) :
    (r.reload content).1 = (Document.entries content).length := by
  cases content <;> rfl

theorem store_reload (r : Replica) (content : Text) :
    (r.reload content).2.store = r.store.merge content := by
  cases content <;> rfl

theorem rules_reload (r : Replica) (content : Text) : (r.reload content).2.rules = r.rules := by
  cases content <;> rfl

theorem store_rule (r : Replica) (name : Name) : (r.rule name).2.store = r.store := by
  unfold rule
  split
  · split
    · rfl
    · dsimp only
      split <;> rfl
  · rfl

/-- A lookup finds the kept rule, or else the one that the store has. -/
theorem rule_fst (r : Replica) (name : Name) :
    (r.rule name).1 =
      if name.isComplete then (r.rules[name.toText]?).or (r.store.rule? name) else none := by
  unfold rule
  split
  · split
    · rename_i kept hkept
      simp [hkept]
    · rename_i hmiss
      dsimp only
      split
      · rename_i read hread
        simp [hmiss, hread]
      · rename_i hread
        simp [hmiss, hread]
  · rfl

/-- A lookup keeps what it finds, unless something is kept under that text already. -/
theorem getElem?_rules_rule (r : Replica) (name : Name) (t : Text) :
    (r.rule name).2.rules[t]? = (r.rules[t]?).or (if name.toText = t then (r.rule name).1 else none) := by
  unfold rule
  split
  · split
    · rename_i kept hkept
      by_cases htext : name.toText = t
      · simp [← htext, hkept]
      · simp [htext]
    · rename_i hmiss
      dsimp only
      split
      · rename_i read hread
        by_cases htext : name.toText = t
        · simp [← htext, hmiss]
        · have hcompare : compare name.toText t ≠ .eq := mt Std.LawfulEqCmp.compare_eq_iff_eq.1 htext
          simp [htext, Std.ExtTreeMap.getElem?_insert, hcompare]
      · simp
  · simp

/-- What is kept after a lookup was kept before, or has just been read from the store. -/
theorem kept_of_kept_rule {r : Replica} {name : Name} {t : Text} {kept : Rule}
    (hkept : (r.rule name).2.rules[t]? = some kept) :
    r.rules[t]? = some kept ∨ (name.toText = t ∧ r.store.rule? name = some kept) := by
  rw [getElem?_rules_rule, Option.or_eq_some_iff] at hkept
  obtain hold | ⟨hnone, hnew⟩ := hkept
  · exact .inl hold
  · obtain ⟨rfl, hfound⟩ := Option.ite_none_right_eq_some.1 hnew
    rw [rule_fst, hnone, Option.none_or] at hfound
    exact .inr ⟨rfl, (Option.ite_none_right_eq_some.1 hfound).2⟩

theorem kept_of_found {r : Replica} {name : Name} {rule : Rule} (hfound : (r.rule name).1 = some rule) :
    (r.rule name).2.rules[name.toText]? = some rule := by
  rw [getElem?_rules_rule, if_pos rfl, hfound]
  cases hkept : r.rules[name.toText]? with
  | none => rfl
  | some kept =>
    rw [rule_fst, hkept] at hfound
    exact (Option.ite_none_right_eq_some.1 hfound).2

/-- A lookup of a complete name adds one to the hits if something is kept under its written form,
    and to the misses if not, whether or not the store has a rule. It leaves all other samples as
    they are. -/
theorem metrics_rule (r : Replica) (name : Name) :
    (r.rule name).2.metrics =
      if name.isComplete then
        if (r.rules[name.toText]?).isSome then
          { r.metrics with ruleHits := some (r.metrics.ruleHits.getD 0 + 1) }
        else { r.metrics with ruleMisses := some (r.metrics.ruleMisses.getD 0 + 1) }
      else r.metrics := by
  unfold rule
  split
  · split
    · rename_i kept hkept
      rw [hkept]
      rfl
    · rename_i hmiss
      rw [hmiss]
      dsimp only
      split <;> rfl
  · rfl

theorem store_ruleNamed (r : Replica) (fullName : Text) :
    (r.ruleNamed fullName).2.store = r.store := by
  unfold ruleNamed
  split
  · exact store_rule r _
  · rfl

theorem store_deliver (r : Replica) (e : Feed.Event) :
    (r.deliver e).2.store = e.payload?.elim r.store r.store.merge := by
  unfold deliver
  split
  · rename_i hpayload
    rw [hpayload]
    rfl
  · rename_i content hpayload
    rw [hpayload]
    exact store_reload r content

theorem store_answer (r : Replica) (request : Request) :
    (r.answer request).2.store = request.content?.elim r.store r.store.merge := by
  cases request with
  | reload content => exact store_reload r content
  | deliver event => exact store_deliver r event
  | rule name => exact store_rule r name
  | ruleNamed fullName => exact store_ruleNamed r fullName
  | check name id => exact store_rule r name
  | checkNamed fullName id => exact store_ruleNamed r fullName
  | _ => rfl

theorem rules_answer_of_dropsRules (r : Replica) {request : Request}
    (hdrops : request.dropsRules = true) : (r.answer request).2.rules = ∅ := by
  cases request with
  | deliver event =>
    obtain ⟨content, hpayload⟩ := Option.isSome_iff_exists.1 hdrops
    simp only [answer, deliver, hpayload]
    rfl
  | resetRules => rfl
  | _ => cases hdrops

theorem rules_answer_of_lookup? (r : Replica) {request : Request} {name : Name}
    (hlookup : request.lookup? = some name) : (r.answer request).2.rules = (r.rule name).2.rules := by
  cases request with
  | rule name => cases hlookup; rfl
  | check name id => cases hlookup; rfl
  | ruleNamed fullName =>
    have hname : Name.ofText? fullName = some name := hlookup
    simp only [answer, ruleNamed, hname]
  | checkNamed fullName id =>
    have hname : Name.ofText? fullName = some name := hlookup
    simp only [answer, checkNamed, ruleNamed, hname]
  | _ => cases hlookup

theorem rules_answer_of_lookup?_eq_none (r : Replica) {request : Request}
    (hdrops : request.dropsRules = false) (hlookup : request.lookup? = none) :
    (r.answer request).2.rules = r.rules := by
  cases request with
  | reload content => exact rules_reload r content
  | deliver event =>
    have hpayload : event.payload? = none := by simpa [Request.dropsRules] using hdrops
    simp only [answer, deliver, hpayload]
  | resetRules => cases hdrops
  | rule name => cases hlookup
  | check name id => cases hlookup
  | ruleNamed fullName =>
    have hname : Name.ofText? fullName = none := hlookup
    simp only [answer, ruleNamed, hname]
  | checkNamed fullName id =>
    have hname : Name.ofText? fullName = none := hlookup
    simp only [answer, checkNamed, ruleNamed, hname]
  | _ => rfl

/-- The replica after requests, their answers aside. -/
def after (r : Replica) (requests : List Request) : Replica := (r.answerAll requests).2

theorem after_cons (r : Replica) (request : Request) (rest : List Request) :
    r.after (request :: rest) = (r.answer request).2.after rest := rfl

theorem after_append (r : Replica) (earlier later : List Request) :
    r.after (earlier ++ later) = (r.after earlier).after later := by
  induction earlier generalizing r with
  | nil => rfl
  | cons request earlier ih => rw [List.cons_append, after_cons, ih, after_cons]

theorem after_concat (r : Replica) (requests : List Request) (request : Request) :
    r.after (requests ++ [request]) = ((r.after requests).answer request).2 :=
  after_append r requests [request]

/-- The store of a run is the merge of its documents, in order. -/
theorem store_after (r : Replica) (requests : List Request) :
    (r.after requests).store = (requests.filterMap Request.content?).foldl Store.merge r.store := by
  induction requests generalizing r with
  | nil => rfl
  | cons request rest ih =>
    rw [after_cons, ih, store_answer]
    cases hcontent : request.content? with
    | none => simp [hcontent]
    | some content => simp [hcontent]

/-- Whatever the store of a run holds was given by a document of the run. -/
theorem exists_entry_of_getElem?_drawer {requests : List Request} {name : Name} {value : Text}
    (hvalue : ((fresh.after requests).store.drawer name.space)[name.key]? = some value) :
    ∃ content ∈ requests.filterMap Request.content?,
      ∃ e ∈ Document.entries content, e.name = name ∧ e.value = value := by
  rw [store_after, Store.foldl_merge, show fresh.store = Store.empty from rfl,
    Store.getElem?_drawer_putAll] at hvalue
  obtain ⟨e, he, hname, hgiven⟩ := exists_mem_of_lastValue?_eq_some hvalue
  obtain ⟨content, hcontent, hmem⟩ := List.mem_flatMap.1 he
  exact ⟨content, hcontent, e, hmem, hname, hgiven⟩

end Replica

end ConfigWatch
