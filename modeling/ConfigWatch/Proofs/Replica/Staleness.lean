import ConfigWatch.Proofs.Replica.Run
/-!
How long a rule stays. What a lookup finds first under a written name is found under it
until rules are dropped, whatever is reloaded meanwhile; a lookup that finds nothing
leaves nothing behind. So what is kept is told by the log of all that was found since
rules were last dropped.
-/
namespace ConfigWatch

theorem Rule.name_of_ofText? {name raw : Text} {rule : Rule} (hread : Rule.ofText? name raw = some rule) :
    rule.name = name := by
  obtain ⟨stance, -, rfl⟩ := Option.map_eq_some_iff.1 hread
  rfl

namespace Replica

/-- The rule that a request finds, with the written name that it is found under. -/
def found? (r : Replica) (request : Request) : Option (Text × Rule) :=
  request.lookup?.bind fun name => (r.rule name).1.map (name.toText, ·)

/-- A log with all that requests find after it, one after the other, since rules were
    last dropped. -/
def finds (r : Replica) (log : List (Text × Rule)) : List Request → List (Text × Rule)
  | [] => log
  | request :: rest =>
    (r.answer request).2.finds (if request.dropsRules then [] else log ++ (r.found? request).toList) rest

/-- The rule that was found first under a text. -/
def firstFound (log : List (Text × Rule)) (t : Text) : Option Rule :=
  (log.find? fun found => found.1 = t).map Prod.snd

theorem firstFound_append (log more : List (Text × Rule)) (t : Text) :
    firstFound (log ++ more) t = (firstFound log t).or (firstFound more t) := by
  rw [firstFound, List.find?_append, Option.map_or]
  rfl

theorem isSome_firstFound_iff {log : List (Text × Rule)} {t : Text} :
    (firstFound log t).isSome = true ↔ t ∈ log.map Prod.fst := by
  simp [firstFound]

theorem firstFound_found? (r : Replica) {request : Request} {name : Name}
    (hlookup : request.lookup? = some name) (t : Text) :
    firstFound (r.found? request).toList t = if name.toText = t then (r.rule name).1 else none := by
  rw [found?, hlookup, Option.bind_some]
  cases hfound : (r.rule name).1 with
  | none => simp [firstFound]
  | some rule => by_cases htext : name.toText = t <;> simp [firstFound, htext]

theorem finds_concat (r : Replica) (log : List (Text × Rule)) (requests : List Request) (request : Request) :
    r.finds log (requests ++ [request]) =
      if request.dropsRules then [] else r.finds log requests ++ ((r.after requests).found? request).toList := by
  induction requests generalizing r log with
  | nil => rfl
  | cons first rest ih => exact ih _ _

/-- What is kept after a request was kept before it, unless the request drops rules, or
    is what the request finds under a text with nothing kept. -/
theorem getElem?_rules_answer (r : Replica) (request : Request) (t : Text) :
    (r.answer request).2.rules[t]? =
      if request.dropsRules then none else (r.rules[t]?).or (firstFound (r.found? request).toList t) := by
  cases hdrops : request.dropsRules with
  | true => simp [rules_answer_of_dropsRules r hdrops]
  | false =>
    rw [if_neg Bool.false_ne_true]
    cases hlookup : request.lookup? with
    | none => simp [rules_answer_of_lookup?_eq_none r hdrops hlookup, found?, hlookup, firstFound]
    | some name => rw [rules_answer_of_lookup? r hlookup, getElem?_rules_rule, firstFound_found? r hlookup]

/-- The kept rule of a text is the one that was found first under it. -/
theorem getElem?_rules_after (start : Replica) (requests : List Request) (t : Text) :
    (start.resetRules.after requests).rules[t]? = firstFound (start.resetRules.finds [] requests) t := by
  induction requests using List.reverseRecOn with
  | nil => simp [after, answerAll, resetRules, finds, firstFound]
  | append_singleton requests request ih =>
    rw [after_concat, finds_concat, getElem?_rules_answer, ih]
    split
    · rfl
    · rw [firstFound_append]

theorem size_of_getElem?_eq_firstFound {rules : Std.ExtTreeMap Text Rule} {log : List (Text × Rule)}
    (hkept : ∀ t, rules[t]? = firstFound log t) : rules.size = (log.map Prod.fst).dedup.length := by
  rw [← Std.ExtTreeMap.length_keys]
  refine List.Perm.length_eq ((List.perm_ext_iff_of_nodup rules.nodup_keys (List.nodup_dedup _)).2 ?_)
  intro t
  rw [Std.ExtTreeMap.mem_keys, Std.ExtTreeMap.mem_iff_isSome_getElem?, hkept, isSome_firstFound_iff,
    List.mem_dedup]

/-- Every kept rule bears the name that it is kept under. -/
def IsNamed (r : Replica) : Prop :=
  ∀ (t : Text) (kept : Rule), r.rules[t]? = some kept → kept.name = t

theorem isNamed_resetRules (r : Replica) : r.resetRules.IsNamed := by
  intro t kept hkept
  simp [resetRules] at hkept

theorem IsNamed.name_of_found {r : Replica} (hnamed : r.IsNamed) {name : Name} {rule : Rule}
    (hfound : (r.rule name).1 = some rule) : rule.name = name.toText := by
  obtain hold | ⟨-, hread⟩ := kept_of_kept_rule (kept_of_found hfound)
  · exact hnamed name.toText rule hold
  · obtain ⟨value, -, hvalue⟩ := Option.bind_eq_some_iff.1 hread
    exact Rule.name_of_ofText? hvalue

theorem IsNamed.answer {r : Replica} (hnamed : r.IsNamed) (request : Request) :
    (r.answer request).2.IsNamed := by
  intro t kept hkept
  rw [getElem?_rules_answer] at hkept
  obtain ⟨-, hkept⟩ := Option.ite_none_left_eq_some.1 hkept
  obtain hold | ⟨-, hnew⟩ := Option.or_eq_some_iff.1 hkept
  · exact hnamed t kept hold
  · cases hlookup : request.lookup? with
    | none => simp [found?, hlookup, firstFound] at hnew
    | some name =>
      rw [firstFound_found? r hlookup] at hnew
      obtain ⟨rfl, hfound⟩ := Option.ite_none_right_eq_some.1 hnew
      exact hnamed.name_of_found hfound

theorem IsNamed.after {r : Replica} (hnamed : r.IsNamed) (requests : List Request) :
    (r.after requests).IsNamed := by
  induction requests generalizing r with
  | nil => exact hnamed
  | cons request rest ih => exact ih (hnamed.answer request)

/-- After rules were dropped and any requests were made, a lookup finds the rule that was
    found first under the written name since rules were last dropped, and the hits grow by
    one; or else, what can be read from the value that the store has now, and the misses grow
    by one. No other sample changes, and none for a name with an empty part, which has no rule.
    Whatever is found bears the written name, and as many rules are kept as written names have
    found one. -/
theorem lookups_follow_first_found (start : Replica) (requests : List Request) :
    let r := start.resetRules.after requests
    let log := start.resetRules.finds [] requests
    (∀ name, ((r.rule name).1, (r.rule name).2.metrics) =
      if name.isComplete then
        match firstFound log name.toText with
        | some rule => (some rule, { r.metrics with ruleHits := some (r.metrics.ruleHits.getD 0 + 1) })
        | none => ((r.store.get? name).bind (Rule.ofText? name.toText),
            { r.metrics with ruleMisses := some (r.metrics.ruleMisses.getD 0 + 1) })
      else (none, r.metrics)) ∧
    (∀ name, ∀ rule ∈ (r.rule name).1, rule.name = name.toText) ∧
    r.cachedRules = (log.map Prod.fst).dedup.length := by
  intro r log
  have hkept : ∀ t, r.rules[t]? = firstFound log t := getElem?_rules_after start requests
  refine ⟨fun name => ?_, fun name rule hfound => ?_, size_of_getElem?_eq_firstFound hkept⟩
  · rw [rule_fst, metrics_rule, hkept]
    split
    · cases firstFound log name.toText <;> rfl
    · rfl
  · exact ((isNamed_resetRules start).after requests).name_of_found hfound

/-- A rule that was looked up, which was a miss, is found again after a reload has changed its
    value, also under another name that is written in the same way, until rules are dropped. That
    is the first hit. -/
theorem stale_rule_found :
    let requests : List Request :=
      [.reload "[a]\nb.c=deny".toList, .rule ⟨"a".toList, "b.c".toList⟩, .reload "[a]\nb.c=allow".toList]
    let name : Name := ⟨"a.b".toList, "c".toList⟩
    let r := fresh.after requests
    (r.rule name).1 = some ⟨"a.b.c".toList, .deny, none, none⟩ ∧
      r.metrics.ruleHits = none ∧ r.metrics.ruleMisses = some 1 ∧
      (r.rule name).2.metrics = { r.metrics with ruleHits := some 1 } ∧
      r.cachedRules = 1 ∧ r.resetRules.cachedRules = 0 := by
  intro requests name r
  obtain ⟨hlookups, -, hcount⟩ := lookups_follow_first_found fresh requests
  have hfirst : firstFound (fresh.resetRules.finds [] requests) name.toText =
      some ⟨"a.b.c".toList, .deny, none, none⟩ := by decide
  have hlookup := hlookups name
  rw [if_pos (by decide), hfirst] at hlookup
  have hhits : r.metrics.ruleHits = none := by decide
  have hmetrics : (r.rule name).2.metrics =
      { r.metrics with ruleHits := some (r.metrics.ruleHits.getD 0 + 1) } := congrArg Prod.snd hlookup
  rw [hhits] at hmetrics
  exact ⟨congrArg Prod.fst hlookup, hhits, by decide, hmetrics, hcount.trans (by decide), rfl⟩

end Replica

end ConfigWatch
