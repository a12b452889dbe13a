import ConfigWatch.Proofs.Replica.Run
/-!
Two ways to ask for a name. A name that has no point in its namespace can be asked for by its parts
and by its written form, and the answers are the same, also about rules that were kept; a text that
writes no name is answered as an unknown name is. No value is ever empty, so a default is the answer
exactly where nothing is held.
-/
namespace ConfigWatch

/-- What a store holds under a name, whether or not the name is complete. -/
def Store.held? (s : Store) (name : Name) : Option Text := (s.drawer name.space)[name.key]?

theorem Store.orDefault_eq_getD {value : Option Text} (hvalue : value ≠ some []) (default : Text) :
    orDefault value default = value.getD default := by
  cases value with
  | none => rfl
  | some v =>
    have hne : v ≠ [] := fun hempty => hvalue (congrArg some hempty)
    rw [orDefault, if_neg (by simpa using hne), Option.getD_some]

/-- The empty text is left out of the conversion, which makes no difference where it denotes
    nothing. -/
theorem convertOr_eq_getD {α : Type} [Readable α] {raw : Option Text}
    (hempty : raw = some [] → (Readable.ofText? [] : Option α) = none) (default : α) :
    convertOr raw default = (raw.bind Readable.ofText?).getD default := by
  cases raw with
  | none => rfl
  | some t =>
    obtain rfl | hne := Decidable.eq_or_ne t []
    · rw [Option.bind_some, hempty rfl]
      rfl
    · rw [convertOr, if_neg (by simpa using hne), Option.bind_some]

namespace Replica

/-- A name is answered alike by its written form and by its parts, and the same is kept and counted
    on the way. -/
structure AnswersAlike (r : Replica) (name : Name) : Prop where
  value : r.store.named? name.toText = r.store.get? name
  valueOr : ∀ default, r.store.namedD name.toText default = r.store.getD name default
  rule : r.ruleNamed name.toText = r.rule name
  check : ∀ id, r.checkNamed name.toText id = r.check name id

/-- A text is answered by the absence of a value, by the default, or by a denial, and leaves no
    trace. -/
structure AnswersNothing (r : Replica) (fullName : Text) : Prop where
  value : r.store.named? fullName = none
  valueOr : ∀ default, r.store.namedD fullName default = default
  typed : ∀ {α : Type} [Readable α] (default : α), r.store.typedD fullName default = default
  rule : r.ruleNamed fullName = (none, r)
  check : ∀ id, r.checkNamed fullName id = (false, r)

theorem ruleNamed_toText (r : Replica) {name : Name} (hfree : '.' ∉ name.space) :
    r.ruleNamed name.toText = r.rule name := by
  rw [ruleNamed, Name.ofText?_toText hfree]
  by_cases hcomplete : name.isComplete = true
  · rw [if_pos hcomplete]
  · rw [if_neg hcomplete, rule, if_neg hcomplete]

theorem answersAlike (r : Replica) {name : Name} (hfree : '.' ∉ name.space) : r.AnswersAlike name where
  value := r.store.named?_toText hfree
  valueOr default := by rw [Store.namedD, r.store.named?_toText hfree, Store.getD]
  rule := r.ruleNamed_toText hfree
  check id := by rw [checkNamed, r.ruleNamed_toText hfree, check]

theorem answersNothing (r : Replica) {fullName : Text} (hmisspelt : Name.IsMisspelt fullName) :
    r.AnswersNothing fullName := by
  have hname : Name.ofText? fullName = none := hmisspelt.ofText?_eq_none
  have hvalue : r.store.named? fullName = none := by rw [Store.named?, hname, Option.bind_none]
  have hrule : r.ruleNamed fullName = (none, r) := by rw [ruleNamed, hname]
  refine ⟨hvalue, fun default => ?_, fun default => ?_, hrule, fun id => ?_⟩
  · rw [Store.namedD, hvalue, Store.orDefault]
  · rw [Store.typedD, hvalue, convertOr]
  · rw [checkNamed, hrule]
    rfl

theorem isWellFormed_of_held? {requests : List Request} {name : Name} {value : Text}
    (hheld : (fresh.after requests).store.held? name = some value) : Entry.IsWellFormed ⟨name, value⟩ := by
  obtain ⟨content, -, e, he, rfl, rfl⟩ := exists_entry_of_getElem?_drawer hheld
  exact Document.isWellFormed_of_mem_entries he

/-- Only complete names are held, so what is held can be asked for. -/
theorem get?_eq_held? (requests : List Request) (name : Name) :
    (fresh.after requests).store.get? name = (fresh.after requests).store.held? name := by
  by_cases hcomplete : name.isComplete = true
  · rw [Store.get?, if_pos hcomplete, Store.held?]
  · rw [Store.get?, if_neg hcomplete]
    refine (Option.eq_none_iff_forall_ne_some.2 fun value hheld => hcomplete ?_).symm
    exact (isWellFormed_of_held? hheld).1.isComplete

theorem held?_ne_some_nil (requests : List Request) (name : Name) :
    (fresh.after requests).store.held? name ≠ some [] := by
  intro hheld
  obtain ⟨-, hne, -⟩ := isWellFormed_of_held? hheld
  exact hne rfl

/-- It does not matter how a name is asked for. After any run from nothing, no value that is held is
    empty, and a name is answered by the value that is held under it, or by the default exactly if
    none is. A name without a point in its namespace has the same value and the same rule, with and
    without a default and for any identity, whether it is asked for by its parts or by its written
    form; and under its written form it has the typed value that its text denotes, or the default
    if there is no text or the text denotes none. A text that has no point, or nothing on one side
    of the first one, has no value, no rule and no effect. -/
theorem names_answered_alike (requests : List Request) :
    let r := fresh.after requests
    (∀ name value, r.store.held? name = some value → value ≠ []) ∧
    (∀ name, r.store.get? name = r.store.held? name ∧
      ∀ default, r.store.getD name default = (r.store.held? name).getD default) ∧
    (∀ name : Name, '.' ∉ name.space → r.AnswersAlike name ∧
      ∀ {α : Type} [Readable α] (default : α),
        r.store.typedD name.toText default = ((r.store.held? name).bind Readable.ofText?).getD default) ∧
    ∀ fullName, Name.IsMisspelt fullName → r.AnswersNothing fullName := by
  intro r
  have hnonempty : ∀ name, r.store.held? name ≠ some [] := held?_ne_some_nil requests
  have hget : ∀ name, r.store.get? name = r.store.held? name := get?_eq_held? requests
  refine ⟨?_, ?_, ?_, ?_⟩
  · rintro name value hheld rfl
    exact hnonempty name hheld
  · intro name
    refine ⟨hget name, fun default => ?_⟩
    rw [Store.getD, hget, Store.orDefault_eq_getD (hnonempty name)]
  · intro name hfree
    refine ⟨r.answersAlike hfree, fun default => ?_⟩
    rw [Store.typedD, r.store.named?_toText hfree, hget,
      convertOr_eq_getD fun hempty => absurd hempty (hnonempty name)]
  · intro fullName hmisspelt
    exact r.answersNothing hmisspelt

/-- A rule that was kept for another name with the same written form is found both ways, where the
    store has a rule of the name's own. -/
theorem kept_rule_found_both_ways :
    let requests : List Request :=
      [.reload "[a.b]\nc=allow\n[a]\nb.c=deny\nn=+07".toList, .rule ⟨"a.b".toList, "c".toList⟩]
    let r := fresh.after requests
    let name : Name := ⟨"a".toList, "b.c".toList⟩
    let id : Identity := .text "x".toList
    '.' ∉ name.space ∧ (r.store.namedD name.toText "none".toList = "deny".toList) ∧
      (r.checkNamed name.toText id).1 = true ∧ (r.check name id).1 = true ∧
      r.store.typedD "a.n".toList (0 : Int16) = 7 ∧
      Name.IsMisspelt ".n".toList ∧ r.store.typedD ".n".toList (0 : Int16) = 0 := by
  intro requests r name id
  obtain ⟨-, hvalues, hnames, hothers⟩ := names_answered_alike requests
  have hfree : '.' ∉ name.space := by decide
  obtain ⟨halike, -⟩ := hnames name hfree
  obtain ⟨-, htyped⟩ := hnames ⟨"a".toList, "n".toList⟩ (by decide)
  have hmisspelt : Name.IsMisspelt ".n".toList := .inr ⟨[], "n".toList, rfl, by decide, .inl rfl⟩
  have hcheck : (r.check name id).1 = true := by decide
  refine ⟨hfree, ?_, ?_, hcheck, ?_, hmisspelt, (hothers _ hmisspelt).typed 0⟩
  · rw [halike.valueOr, (hvalues name).2]
    decide
  · rw [halike.check]
    exact hcheck
  · exact (htyped (0 : Int16)).trans (by decide)

end Replica

end ConfigWatch
