import ConfigWatch.Proofs.Document
import ConfigWatch.Store
import Mathlib.Data.List.Dedup
import Mathlib.Data.List.Nodup
/-!
The store as the merge of everything that was put into it. For every name it holds
the value of the last entry, it holds no other names, and its drawers are the
namespaces of the entries.
-/
namespace ConfigWatch

/-- The value that the last entry for a name gives. -/
def lastValue? (es : List Entry) (name : Name) : Option Text :=
  (es.filter fun e => e.name = name).getLast?.map Entry.value

@[simp] theorem lastValue?_nil (name : Name) : lastValue? [] name = none := rfl

theorem lastValue?_concat (es : List Entry) (e : Entry) (name : Name) :
    lastValue? (es ++ [e]) name = if e.name = name then some e.value else lastValue? es name := by
  by_cases hname : e.name = name <;> simp [lastValue?, List.filter_append, hname]

theorem lastValue?_append_cons (es : List Entry) {e : Entry} {more : List Entry}
    (hmore : ∀ other ∈ more, other.name ≠ e.name) : lastValue? (es ++ e :: more) e.name = some e.value := by
  have hnone : more.filter (fun other => other.name = e.name) = [] := by
    simpa using hmore
  rw [lastValue?, List.filter_append, List.filter_cons_of_pos (by simp), hnone, List.getLast?_concat]
  rfl

theorem exists_mem_of_lastValue?_eq_some {es : List Entry} {name : Name} {value : Text}
    (hvalue : lastValue? es name = some value) : ∃ e ∈ es, e.name = name ∧ e.value = value := by
  obtain ⟨e, hlast, rfl⟩ := Option.map_eq_some_iff.1 hvalue
  have hmem := List.mem_of_getLast? hlast
  simp only [List.mem_filter, decide_eq_true_eq] at hmem
  exact ⟨e, hmem.1, hmem.2, rfl⟩

theorem isSome_lastValue?_iff {es : List Entry} {name : Name} :
    (lastValue? es name).isSome = true ↔ name ∈ es.map Entry.name := by
  simp [lastValue?]

namespace Store

@[simp] theorem drawer_empty (space : Text) : empty.drawer space = ∅ := by
  simp [drawer, empty]

theorem drawer_put (s : Store) (e : Entry) (space : Text) :
    (s.put e).drawer space =
      if e.name.space = space then (s.drawer space).insert e.name.key e.value else s.drawer space := by
  rw [drawer, put, Std.ExtTreeMap.getD_insert]
  by_cases hspace : e.name.space = space
  · simp [hspace]
  · simp [hspace, drawer]

/-- Putting an entry sets the value of its name and of no other. -/
theorem getElem?_drawer_put (s : Store) (e : Entry) (name : Name) :
    ((s.put e).drawer name.space)[name.key]? =
      if e.name = name then some e.value else (s.drawer name.space)[name.key]? := by
  rw [drawer_put]
  by_cases hspace : e.name.space = name.space
  · rw [if_pos hspace, Std.ExtTreeMap.getElem?_insert]
    by_cases hkey : e.name.key = name.key
    · have hname : e.name = name := by
        cases hn : e.name
        cases name
        simp_all
      simp [hname]
    · have hname : e.name ≠ name := fun h => hkey (congrArg Name.key h)
      simp [hkey, hname]
  · have hname : e.name ≠ name := fun h => hspace (congrArg Name.space h)
    rw [if_neg hspace, if_neg hname]

@[simp] theorem putAll_nil (s : Store) : s.putAll [] = s := rfl

theorem putAll_append (s : Store) (es es' : List Entry) :
    s.putAll (es ++ es') = (s.putAll es).putAll es' :=
  List.foldl_append

theorem putAll_concat (s : Store) (es : List Entry) (e : Entry) :
    s.putAll (es ++ [e]) = (s.putAll es).put e := by
  rw [putAll_append]
  rfl

theorem foldl_merge (s : Store) (contents : List Text) :
    contents.foldl merge s = s.putAll (contents.flatMap Document.entries) := by
  induction contents generalizing s with
  | nil => rfl
  | cons content rest ih =>
    rw [List.foldl_cons, ih, List.flatMap_cons, putAll_append]
    rfl

/-- Entries set the values that they give last, and leave all others. -/
theorem getElem?_drawer_putAll_or (s : Store) (es : List Entry) (name : Name) :
    ((s.putAll es).drawer name.space)[name.key]? =
      (lastValue? es name).or (s.drawer name.space)[name.key]? := by
  induction es using List.reverseRecOn with
  | nil => simp
  | append_singleton es e ih =>
    rw [putAll_concat, getElem?_drawer_put, lastValue?_concat, ih]
    split <;> simp

theorem getElem?_drawer_putAll (es : List Entry) (name : Name) :
    ((empty.putAll es).drawer name.space)[name.key]? = lastValue? es name := by
  rw [getElem?_drawer_putAll_or]
  simp

/-- The last writer of a name wins. -/
theorem get?_putAll {es : List Entry} (hes : ∀ e ∈ es, e.IsWellFormed) (name : Name) :
    (empty.putAll es).get? name = lastValue? es name := by
  rw [get?, getElem?_drawer_putAll]
  split
  · rfl
  · rename_i hincomplete
    cases hlast : lastValue? es name with
    | none => rfl
    | some value =>
      obtain ⟨e, he, rfl, -⟩ := exists_mem_of_lastValue?_eq_some hlast
      exact absurd (hes e he).1.isComplete hincomplete

/-- Whatever the store held, the values that a document gives last are in it after a merge. -/
theorem get?_merge_of_lastValue? (s : Store) {content value : Text} {name : Name}
    (hlast : lastValue? (Document.entries content) name = some value) :
    (s.merge content).get? name = some value := by
  obtain ⟨e, he, rfl, -⟩ := exists_mem_of_lastValue?_eq_some hlast
  have hcomplete : e.name.isComplete = true := (Document.isWellFormed_of_mem_entries he).1.isComplete
  rw [get?, if_pos hcomplete, merge, getElem?_drawer_putAll_or, hlast, Option.some_or]

/-- Asking by the written form of a name finds the value of the name, if the form is cut where it
    was joined. -/
theorem named?_toText (s : Store) {name : Name} (hfree : '.' ∉ name.space) :
    s.named? name.toText = s.get? name := by
  rw [named?, Name.ofText?_toText hfree]
  by_cases hcomplete : name.isComplete = true
  · rw [if_pos hcomplete, Option.bind_some]
  · rw [if_neg hcomplete, Option.bind_none, get?, if_neg hcomplete]

/-- The names that have a value, drawer by drawer. -/
def names (s : Store) : List Name :=
  s.drawers.toList.flatMap fun entry => entry.2.keys.map (Name.mk entry.1)

theorem length_names (s : Store) : s.names.length = s.size := by
  have hsum : s.size = (s.drawers.toList.map fun entry => entry.2.size).sum := by
    rw [List.sum_eq_foldr, List.foldr_map]
    rfl
  simp [hsum, names, List.length_flatMap]

theorem mem_names {s : Store} {name : Name} : name ∈ s.names ↔ name.key ∈ s.drawer name.space := by
  simp only [names, List.mem_flatMap, List.mem_map, Std.ExtTreeMap.mem_keys, Prod.exists,
    Std.ExtTreeMap.mem_toList_iff_getElem?_eq_some, drawer, Std.ExtTreeMap.getD_eq_getD_getElem?]
  constructor
  · rintro ⟨space, drawer, hdrawer, key, hkey, rfl⟩
    simpa [hdrawer] using hkey
  · intro hkey
    cases hdrawer : s.drawers[name.space]? with
    | none => simp [hdrawer] at hkey
    | some drawer => exact ⟨name.space, drawer, hdrawer, name.key, by simpa [hdrawer] using hkey, rfl⟩

theorem nodup_names (s : Store) : s.names.Nodup := by
  refine List.nodup_flatMap.2 ⟨fun entry _ => ?_, ?_⟩
  · exact entry.2.nodup_keys.map fun a b hab => congrArg Name.key hab
  · refine s.drawers.distinct_keys_toList.imp fun {a b} hdistinct => ?_
    simp only [Function.onFun, List.disjoint_left, List.mem_map, not_exists, not_and]
    rintro name ⟨key, -, rfl⟩ key' - hname
    have hspace : b.1 = a.1 := congrArg Name.space hname
    exact hdistinct (Std.LawfulEqCmp.compare_eq_iff_eq.2 hspace.symm)

/-- A merge knows a value for exactly the names of its entries. -/
theorem mem_names_putAll {es : List Entry} {name : Name} :
    name ∈ (empty.putAll es).names ↔ name ∈ es.map Entry.name := by
  rw [mem_names, Std.ExtTreeMap.mem_iff_isSome_getElem?, getElem?_drawer_putAll,
    isSome_lastValue?_iff]

/-- A merge holds as many values as its entries have names, however often they name them. -/
theorem size_putAll (es : List Entry) : (empty.putAll es).size = (es.map Entry.name).dedup.length := by
  rw [← length_names]
  refine List.Perm.length_eq ((List.perm_ext_iff_of_nodup (nodup_names _) (List.nodup_dedup _)).2 ?_)
  intro name
  rw [mem_names_putAll, List.mem_dedup]

theorem isEmpty_putAll (es : List Entry) : (empty.putAll es).isEmpty = true ↔ es = [] := by
  rw [isEmpty, beq_iff_eq, size_putAll, List.length_eq_zero_iff, List.dedup_eq_nil, List.map_eq_nil_iff]

/-- Entries make the drawers of their namespaces, and none goes away. -/
theorem mem_drawers_putAll {s : Store} {es : List Entry} {space : Text} :
    space ∈ (s.putAll es).drawers ↔ space ∈ s.drawers ∨ ∃ e ∈ es, e.name.space = space := by
  induction es using List.reverseRecOn with
  | nil => simp
  | append_singleton es e ih =>
    rw [putAll_concat, put, Std.ExtTreeMap.mem_insert, ih, Std.LawfulEqCmp.compare_eq_iff_eq]
    simp only [List.mem_append, List.mem_singleton]
    constructor
    · rintro (hspace | hold | ⟨e', he', hspace⟩)
      · exact .inr ⟨e, .inr rfl, hspace⟩
      · exact .inl hold
      · exact .inr ⟨e', .inl he', hspace⟩
    · rintro (hold | ⟨e', he' | rfl, hspace⟩)
      · exact .inr (.inl hold)
      · exact .inr (.inr ⟨e', he', hspace⟩)
      · exact .inl hspace

theorem mem_namespaces_putAll {es : List Entry} {space : Text} :
    space ∈ (empty.putAll es).namespaces ↔ ∃ e ∈ es, e.name.space = space := by
  rw [namespaces, Std.ExtTreeMap.mem_keys, mem_drawers_putAll]
  simp [empty]

/-- A store is what its drawers are and what they hold. -/
theorem eq_of_drawers {s t : Store} (hspaces : ∀ space, space ∈ s.drawers ↔ space ∈ t.drawers)
    (hvalues : ∀ name : Name, (s.drawer name.space)[name.key]? = (t.drawer name.space)[name.key]?) : s = t := by
  have hdrawer (space : Text) : s.drawer space = t.drawer space :=
    Std.ExtTreeMap.ext_getElem? fun key => hvalues ⟨space, key⟩
  have hdrawers : s.drawers = t.drawers := by
    refine Std.ExtTreeMap.ext_getElem? fun space => ?_
    by_cases hspace : space ∈ s.drawers
    · have hleft : s.drawers[space]? = some (s.drawer space) :=
        Std.ExtTreeMap.getElem?_eq_some_getD hspace
      have hright : t.drawers[space]? = some (t.drawer space) :=
        Std.ExtTreeMap.getElem?_eq_some_getD ((hspaces space).1 hspace)
      rw [hleft, hright, hdrawer]
    · rw [Std.ExtTreeMap.getElem?_eq_none hspace,
        Std.ExtTreeMap.getElem?_eq_none (mt (hspaces space).2 hspace)]
  cases s
  cases t
  exact congrArg mk hdrawers

/-- Entries that have just been put change nothing when they are put again, however many of them
    set the same value. -/
theorem putAll_putAll_self (s : Store) (es : List Entry) : (s.putAll es).putAll es = s.putAll es := by
  refine eq_of_drawers (fun space => ?_) fun name => ?_
  · simp only [mem_drawers_putAll, or_assoc, or_self]
  · simp only [getElem?_drawer_putAll_or]
    cases lastValue? es name <;> rfl

theorem pairwise_namespaces (s : Store) : s.namespaces.Pairwise (· < ·) :=
  s.drawers.ordered_keys.imp Text.lt_of_compare_eq_lt

/-- A store that is the merge of entries in which the last writer of a name wins. -/
structure IsMergeOf (s : Store) (es : List Entry) : Prop where
  get?_eq : ∀ name, s.get? name = lastValue? es name
  get?_incomplete : ∀ name, name.space = [] ∨ name.key = [] → s.get? name = none
  size_eq : s.size = (es.map Entry.name).dedup.length
  isEmpty_iff : s.isEmpty = true ↔ es = []
  increasing : s.namespaces.Pairwise (· < ·)
  mem_namespaces : ∀ space, space ∈ s.namespaces ↔ ∃ e ∈ es, e.name.space = space

theorem isMergeOf_putAll {es : List Entry} (hes : ∀ e ∈ es, e.IsWellFormed) :
    (empty.putAll es).IsMergeOf es where
  get?_eq := get?_putAll hes
  get?_incomplete name hname := by
    refine if_neg fun hcomplete => ?_
    obtain ⟨hspace, hkey⟩ := Name.isComplete_iff.1 hcomplete
    exact hname.elim hspace hkey
  size_eq := size_putAll es
  isEmpty_iff := isEmpty_putAll es
  increasing := pairwise_namespaces _
  mem_namespaces space := mem_namespaces_putAll

end Store

end ConfigWatch
