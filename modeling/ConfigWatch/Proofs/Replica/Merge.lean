import ConfigWatch.Proofs.Document.Seam
import ConfigWatch.Proofs.Replica.Run
/-!
Reloading documents. Whatever is reloaded into a fresh replica, its store is the merge
of all entries so far, and every reload is answered by the number of its own entries.
A document can as well be reloaded in two parts, if it is cut before a header.
-/
namespace ConfigWatch

theorem Metrics.recordMerge_recordMerge (m : Metrics) (first second held heldAfter : Nat) :
    (m.recordMerge first held).recordMerge second heldAfter = m.recordMerge (first + second) heldAfter := by
  simp [recordMerge, increased, Nat.add_assoc]

namespace Replica

theorem answerAll_reload (r : Replica) (contents : List Text) :
    (r.answerAll (contents.map .reload)).1 =
      contents.map fun content => .count (Document.entries content).length := by
  induction contents generalizing r with
  | nil => rfl
  | cons content rest ih =>
    rw [List.map_cons, List.map_cons, ← ih (r.reload content).2, ← reload_fst r content]
    rfl

/-- After any documents have been reloaded from nothing, the last writer of every name
    has won, the store counts every name once and lists every namespace once and in
    order, and every reload has counted all entries of its own document. -/
theorem reloads_merge_last_writer_wins (contents : List Text) :
    (fresh.after (contents.map .reload)).store.IsMergeOf (contents.flatMap Document.entries) ∧
      (fresh.answerAll (contents.map .reload)).1 =
        contents.map fun content => .count (Document.entries content).length := by
  refine ⟨?_, answerAll_reload fresh contents⟩
  have hcontents : (contents.map Request.reload).filterMap Request.content? = contents := by
    simp [List.filterMap_map, Function.comp_def, Request.content?]
  rw [store_after, hcontents, Store.foldl_merge]
  refine Store.isMergeOf_putAll fun e he => ?_
  obtain ⟨content, -, hmem⟩ := List.mem_flatMap.1 he
  exact Document.isWellFormed_of_mem_entries hmem

/-- Where the entries of two documents are those of the one that they make together, so are
    two reloads. -/
theorem reload_append {front rest : Text}
    (hentries : Document.entries (front ++ rest) = Document.entries front ++ Document.entries rest)
    (r : Replica) :
    r.reload (front ++ rest) =
      ((r.reload front).1 + ((r.reload front).2.reload rest).1, ((r.reload front).2.reload rest).2) := by
  -- An empty document is not recorded, so it has to be told apart.
  obtain rfl | hfront := Decidable.eq_or_ne front []
  · rw [List.nil_append, show r.reload [] = (0, r) from rfl, Nat.zero_add]
  obtain rfl | hrest := Decidable.eq_or_ne rest []
  · rw [List.append_nil]
    rfl
  have hwhole : front ++ rest ≠ [] := by simp [hfront]
  simp only [reload, List.isEmpty_iff, hfront, hrest, hwhole, ↓reduceIte, hentries,
    Store.putAll_append, List.length_append, Metrics.recordMerge_recordMerge]

/-- A document can be cut behind any of its lines. The second part is then read under the
    namespace of the last header of the first part, if that is not blank; and reloading the
    whole reloads the first part and puts what the second part gives. If the second part opens
    with a section of its own, the whole makes the same of every replica as one part after the
    other. -/
theorem reload_in_parts {front : Text} (hfront : front.IsWholeLines) (rest : Text) :
    let space := Document.spaceAfter [] front
    let continued := Document.entriesFrom space rest
    (∀ name ≠ [], space = name ↔ ∃ header,
      Document.NearestHeader front.lines front.lines.length header ∧ Document.headerSpace header = name) ∧
    Document.entries (front ++ rest) = Document.entries front ++ continued ∧
    (∀ r : Replica,
      let first := r.reload front
      let whole := r.reload (front ++ rest)
      whole.1 = first.1 + continued.length ∧
        whole.2.store = first.2.store.putAll continued ∧ whole.2.rules = first.2.rules) ∧
    (Document.OpensSection rest →
      continued = Document.entries rest ∧
      ∀ r : Replica,
        let first := r.reload front
        let second := first.2.reload rest
        r.reload (front ++ rest) = (first.1 + second.1, second.2)) := by
  intro space continued
  have hentries : Document.entries (front ++ rest) = Document.entries front ++ continued :=
    Document.entriesFrom_append [] hfront rest
  refine ⟨fun name hname => Document.spaceAfter_eq_iff hname, hentries, fun r => ⟨?_, ?_, ?_⟩,
    fun hopens => ?_⟩
  · rw [reload_fst, reload_fst, hentries, List.length_append]
  · rw [store_reload, store_reload, Store.merge, Store.merge, hentries, Store.putAll_append]
  · rw [rules_reload, rules_reload]
  · have hcontinued : continued = Document.entries rest := hopens.entriesFrom_eq space
    exact ⟨hcontinued, reload_append (hcontinued ▸ hentries)⟩

/-- A comment does not open a section, so what follows it stays in the one before. -/
theorem second_part_continues_or_opens_section :
    let front : Text := "#\r\n[ a ]\r\nk=1\n".toList
    let continuing : Text := "\n#[b]\r\nl=2\n[b]".toList
    let opening : Text := "\n#[c]\r\n[b]\nl=2".toList
    front.IsWholeLines ∧
      (¬ Document.OpensSection continuing ∧
        Document.entries (front ++ continuing) =
          [⟨⟨"a".toList, "k".toList⟩, "1".toList⟩, ⟨⟨"a".toList, "l".toList⟩, "2".toList⟩]) ∧
      (Document.OpensSection opening ∧
        Document.entries (front ++ opening) =
          [⟨⟨"a".toList, "k".toList⟩, "1".toList⟩, ⟨⟨"b".toList, "l".toList⟩, "2".toList⟩]) ∧
      ∀ r : Replica,
        r.reload (front ++ opening) =
          ((r.reload front).1 + ((r.reload front).2.reload opening).1,
            ((r.reload front).2.reload opening).2) := by
  intro front continuing opening
  have hfront : front.IsWholeLines := by decide
  have hopening : Document.OpensSection opening := by decide
  obtain ⟨-, hcontinued, -, -⟩ := reload_in_parts hfront continuing
  obtain ⟨-, hopened, -, hparts⟩ := reload_in_parts hfront opening
  refine ⟨hfront, ⟨by decide, hcontinued.trans (by decide)⟩,
    ⟨hopening, hopened.trans (by decide)⟩, (hparts hopening).2⟩

end Replica

end ConfigWatch
