import ConfigWatch.Proofs.Replica.Transparency
/-!
Documents that are told again. A feed that is subscribed to anew may repeat the documents that it
told last, in their order and more than once. Putting again what has just been put changes no
value; and the rules that are dropped on the way are read again from the same values, so
nobody who asks by written names can notice.
-/
namespace ConfigWatch

namespace Request

/-- Whether a request asks for values, for what the store holds as a whole, or for rules by
    written names. -/
def asksByName : Request → Bool
  | .value _ | .valueNamed _ | .valueD _ _ | .valueNamedD _ _ => true
  | .boolean _ _ | .short _ _ | .integer _ _ | .long _ _ | .single _ _ | .double _ _ => true
  | .namespaces | .size | .isEmpty => true
  | .ruleNamed _ | .checkNamed _ _ => true
  | .reload _ | .deliver _ | .resetRules | .rule _ | .check _ _ | .cachedRules | .samples => false

theorem dropsRules_of_isSome_content? {request : Request} (hnamed : request.isByName = true)
    (hcontent : request.content?.isSome = true) : request.dropsRules = true := by
  cases request with
  | reload content => cases hnamed
  | deliver event => exact hcontent
  | _ => cases hcontent

theorem dropsRules_eq_false {request : Request} (hcontent : request.content? = none)
    (hreset : request ≠ .resetRules) : request.dropsRules = false := by
  cases request with
  | deliver event => exact Option.isSome_eq_false_iff.2 (Option.isNone_iff_eq_none.2 hcontent)
  | resetRules => exact absurd rfl hreset
  | _ => rfl

end Request

/-- Merging again, as often as one likes, what has just been merged changes nothing. -/
theorem Store.foldl_merge_replicate (s : Store) (contents : List Text) (times : Nat) :
    (List.replicate times contents).flatten.foldl merge (contents.foldl merge s) = contents.foldl merge s := by
  induction times with
  | zero => rfl
  | succ times ih =>
    have hagain : contents.foldl merge (contents.foldl merge s) = contents.foldl merge s := by
      simp only [foldl_merge, putAll_putAll_self]
    rw [List.replicate_succ, List.flatten_cons, List.foldl_append, hagain, ih]

namespace Replica

/-- Two replicas with the same store, and with the same rules as far as these are asked for by
    written names. -/
structure AlikeByName (r s : Replica) : Prop where
  store_eq : s.store = r.store
  ruleNamed_eq : ∀ fullName, (s.ruleNamed fullName).1 = (r.ruleNamed fullName).1

theorem AlikeByName.refl (r : Replica) : r.AlikeByName r := ⟨rfl, fun _ => rfl⟩

theorem AlikeByName.trans {r s t : Replica} (hrs : r.AlikeByName s) (hst : s.AlikeByName t) :
    r.AlikeByName t :=
  ⟨hst.store_eq.trans hrs.store_eq, fun fullName =>
    (hst.ruleNamed_eq fullName).trans (hrs.ruleNamed_eq fullName)⟩

theorem AlikeByName.answer_eq {r s : Replica} (halike : r.AlikeByName s) {request : Request}
    (hasks : request.asksByName = true) : (s.answer request).1 = (r.answer request).1 := by
  cases request with
  | ruleNamed fullName => exact congrArg Answer.rule (halike.ruleNamed_eq fullName)
  | checkNamed fullName id =>
    exact congrArg (fun found => Answer.flag (Rule.admits found id)) (halike.ruleNamed_eq fullName)
  | reload content => cases hasks
  | deliver event => cases hasks
  | resetRules => cases hasks
  | rule name => cases hasks
  | check name id => cases hasks
  | cachedRules => cases hasks
  | samples => cases hasks
  | _ => simp only [answer, halike.store_eq]

theorem IsCurrent.alikeByName {r s : Replica} (hr : r.IsCurrent) (hs : s.IsCurrent)
    (hstore : s.store = r.store) : r.AlikeByName s :=
  ⟨hstore, fun fullName => by rw [hs.ruleNamed_fst, hr.ruleNamed_fst, hstore]⟩

theorem rule_fst_congr {r s : Replica} (hstore : s.store = r.store) (hrules : s.rules = r.rules) (name : Name) :
    (s.rule name).1 = (r.rule name).1 := by
  rw [rule_fst, rule_fst, hstore, hrules]

/-- A lookup finds what it would have found before another lookup, unless that was of another
    name with the same written form. -/
theorem rule_fst_after_rule (r : Replica) {asked name : Name}
    (hsame : asked.toText = name.toText → asked = name) : ((r.rule asked).2.rule name).1 = (r.rule name).1 := by
  rw [rule_fst, rule_fst, store_rule]
  by_cases hcomplete : name.isComplete = true
  · rw [if_pos hcomplete, if_pos hcomplete, getElem?_rules_rule]
    by_cases htext : asked.toText = name.toText
    · rw [hsame htext, if_pos rfl, rule_fst, if_pos hcomplete]
      cases r.rules[name.toText]? <;> simp
    · rw [if_neg htext, Option.or_none]
  · rw [if_neg hcomplete, if_neg hcomplete]

theorem alikeByName_answer (r : Replica) {request : Request} (hnamed : request.isByName = true)
    (hreset : request ≠ .resetRules) (hcontent : request.content? = none) :
    r.AlikeByName (r.answer request).2 := by
  have hstore : (r.answer request).2.store = r.store := by
    rw [store_answer, hcontent]
    rfl
  refine ⟨hstore, fun fullName => ?_⟩
  unfold Replica.ruleNamed
  cases hname : Name.ofText? fullName with
  | none => rfl
  | some name =>
    have hdrops := Request.dropsRules_eq_false hcontent hreset
    cases hlookup : request.lookup? with
    | none => exact rule_fst_congr hstore (rules_answer_of_lookup?_eq_none r hdrops hlookup) name
    | some asked =>
      -- A written form stands for one name, so the same form is asked for by the same name.
      have hsame : asked.toText = name.toText → asked = name := by
        intro htext
        have hasked := Request.ofText?_of_isByName hnamed hlookup
        rw [htext, (Name.ofText?_eq_some_iff.1 hname).1, hname] at hasked
        exact (Option.some.inj hasked).symm
      rw [← r.rule_fst_after_rule hsame]
      exact rule_fst_congr (hstore.trans (store_rule r asked).symm) (rules_answer_of_lookup? r hlookup) name

theorem alikeByName_after (r : Replica) {requests : List Request}
    (hnamed : ∀ request ∈ requests, request.isByName = true ∧ request ≠ .resetRules)
    (hcontents : requests.filterMap Request.content? = []) : r.AlikeByName (r.after requests) := by
  induction requests generalizing r with
  | nil => exact .refl r
  | cons request rest ih =>
    simp only [List.mem_cons, forall_eq_or_imp] at hnamed
    obtain ⟨⟨hfirst, hreset⟩, hrest⟩ := hnamed
    have hnone := List.filterMap_eq_nil_iff.1 hcontents
    have hcontent := hnone request List.mem_cons_self
    have hothers : rest.filterMap Request.content? = [] :=
      List.filterMap_eq_nil_iff.2 fun later hlater => hnone later (List.mem_cons_of_mem _ hlater)
    exact (r.alikeByName_answer hfirst hreset hcontent).trans (ih _ hrest hothers)

/-- Once an event has brought a document, whatever was kept before has been dropped. -/
theorem isCurrent_after (r : Replica) {requests : List Request}
    (hnamed : ∀ request ∈ requests, request.isByName = true)
    (hcontents : requests.filterMap Request.content? ≠ []) : (r.after requests).IsCurrent := by
  induction requests using List.reverseRecOn with
  | nil => exact absurd rfl hcontents
  | append_singleton requests request ih =>
    simp only [List.mem_append, List.mem_singleton] at hnamed
    have hlast : request.isByName = true := hnamed request (.inr rfl)
    rw [after_concat]
    cases hcontent : request.content? with
    | none =>
      refine IsCurrent.answer (ih (fun earlier hearlier => hnamed earlier (.inl hearlier)) ?_) hlast
      simpa [hcontent] using hcontents
    | some content =>
      have hdrops := Request.dropsRules_of_isSome_content? hlast (by rw [hcontent]; rfl)
      intro t kept hkept
      simp [rules_answer_of_dropsRules _ hdrops] at hkept

/-- It does no harm that a feed tells its last documents again. Take any replica that has been
    asked anything, and then has heard documents from the feed while it was asked for rules by
    written names only. When the same documents are told again in the same order, any number of
    times, and also then rules are asked for by written names only, then the store is what it was,
    and every value and every rule by its written name is answered as before. -/
theorem replay_unnoticed (start : Replica) (earlier : List Request) {heard replayed : List Request} {times : Nat}
    (hheard : ∀ request ∈ heard, request.isByName = true)
    (hreplayed : ∀ request ∈ replayed, request.isByName = true ∧ request ≠ .resetRules)
    (hcontents : replayed.filterMap Request.content? =
      (List.replicate times (heard.filterMap Request.content?)).flatten) :
    let before := start.after (earlier ++ heard)
    let after := before.after replayed
    after.store = before.store ∧
      ∀ question : Request, question.asksByName = true →
        (after.answer question).1 = (before.answer question).1 := by
  intro before after
  have hbefore : before = (start.after earlier).after heard := after_append start earlier heard
  have hstore : after.store = before.store := by
    rw [show after.store = _ from store_after before replayed, hcontents, hbefore, store_after]
    exact Store.foldl_merge_replicate _ _ times
  have halike : before.AlikeByName after := by
    by_cases hnone : heard.filterMap Request.content? = []
    · refine before.alikeByName_after hreplayed ?_
      simp [hcontents, hnone]
    · have hcurrent : before.IsCurrent := by
        rw [hbefore]
        exact isCurrent_after _ hheard hnone
      exact hcurrent.alikeByName (hcurrent.after fun request hmem => (hreplayed request hmem).1) hstore
  exact ⟨hstore, fun question hasks => halike.answer_eq hasks⟩

/-- Two documents that overwrite a rule and a value, within themselves and one after the other,
    are told twice more, with a check in between that keeps the rule for a while. -/
theorem replayed_rule_and_value_unchanged :
    let documented (content : String) : Feed.Event := ⟨.put, "/app".toList, some content.toList⟩
    let deny : Request := .deliver (documented "[g]\nr.s=deny;a\nr.s=deny;b\n[s]\nx=1")
    let overwrite : Request := .deliver (documented "[s]\nx=2\nx=3")
    let ask : Request := .checkNamed "g.r.s".toList (.text "b".toList)
    let earlier : List Request := [.deliver (documented "[g]\nr.s=allow\n[s]\nx=0"), ask]
    let heard := [deny, ask, .deliver ⟨.delete, "/app".toList, none⟩, overwrite]
    let replayed := [deny, ask, overwrite, deny, overwrite]
    let before := fresh.after (earlier ++ heard)
    (∀ request ∈ heard, request.isByName = true) ∧
      (∀ request ∈ replayed, request.isByName = true ∧ request ≠ .resetRules) ∧
      replayed.filterMap Request.content? =
        (List.replicate 2 (heard.filterMap Request.content?)).flatten ∧
      ((before.after replayed).answer ask).1 = .flag true ∧
      ((before.after replayed).answer (.valueNamed "s.x".toList)).1 = .value (some "3".toList) := by
  intro documented deny overwrite ask earlier heard replayed before
  have hheard : ∀ request ∈ heard, request.isByName = true := by
    intro request hmem
    simp only [heard, List.mem_cons, List.not_mem_nil, or_false] at hmem
    obtain rfl | rfl | rfl | rfl := hmem <;> rfl
  have hreplayed : ∀ request ∈ replayed, request.isByName = true ∧ request ≠ .resetRules := by
    intro request hmem
    simp only [replayed, List.mem_cons, List.not_mem_nil, or_false] at hmem
    obtain rfl | rfl | rfl | rfl | rfl := hmem <;> exact ⟨rfl, nofun⟩
  have hcontents : replayed.filterMap Request.content? =
      (List.replicate 2 (heard.filterMap Request.content?)).flatten := rfl
  obtain ⟨-, hanswers⟩ := replay_unnoticed fresh earlier hheard hreplayed hcontents
  have hcheck : (before.checkNamed "g.r.s".toList (.text "b".toList)).1 = true := by decide +kernel
  have hvalue : before.store.named? "s.x".toList = some "3".toList := by decide +kernel
  refine ⟨hheard, hreplayed, hcontents, ?_, ?_⟩
  · exact (hanswers ask rfl).trans (congrArg Answer.flag hcheck)
  · exact (hanswers (.valueNamed "s.x".toList) rfl).trans (congrArg Answer.value hvalue)

end Replica

end ConfigWatch
