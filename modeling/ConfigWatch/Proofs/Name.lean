import ConfigWatch.Name
import ConfigWatch.Proofs.Text
/-!
Written names. Cutting a text at its first separator finds the only parts of which
the left one is free of the separator; so a written name stands for the one
complete name whose namespace has no point, and joining that name gives the text
back. Names with points in their namespaces have written forms too, but other
names are read from those.
-/
namespace ConfigWatch

namespace Name

theorem isComplete_iff {name : Name} : name.isComplete = true ↔ name.space ≠ [] ∧ name.key ≠ [] := by
  simp [isComplete]

/-- A text is the written form of a name exactly when it joins the two parts and the
    namespace is free of points. -/
theorem ofText?_eq_some_iff {t : Text} {name : Name} :
    ofText? t = some name ↔ name.toText = t ∧ name.isComplete = true ∧ '.' ∉ name.space := by
  unfold ofText? toText
  simp only [Option.bind_eq_some_iff, Prod.exists]
  constructor
  · rintro ⟨space, key, hcut, hname⟩
    obtain ⟨rfl, hfree⟩ := Text.cutFirst?_eq_some_iff.1 hcut
    split at hname
    · cases hname
    · rename_i hparts
      cases hname
      exact ⟨rfl, by simpa [isComplete] using hparts, hfree⟩
  · rintro ⟨rfl, hcomplete, hfree⟩
    refine ⟨name.space, name.key, Text.cutFirst?_eq_some_iff.2 ⟨rfl, hfree⟩, ?_⟩
    rw [isComplete_iff] at hcomplete
    simp [hcomplete.1, hcomplete.2]

/-- A complete name without a point in its namespace is read back from its written form. -/
theorem ofText?_toText {name : Name} (hfree : '.' ∉ name.space) :
    ofText? name.toText = if name.isComplete then some name else none := by
  have hcut : Text.cutFirst? '.' name.toText = some (name.space, name.key) :=
    Text.cutFirst?_eq_some_iff.2 ⟨rfl, hfree⟩
  rw [ofText?, hcut, Option.bind_some, isComplete]
  dsimp only
  cases name.space.isEmpty <;> cases name.key.isEmpty <;> rfl

/-- A text that writes no name: it has no point, or nothing on one side of the first one. -/
def IsMisspelt (t : Text) : Prop :=
  '.' ∉ t ∨
    ∃ left right : Text, t = left ++ '.' :: right ∧ '.' ∉ left ∧ (left = [] ∨ right = [])

theorem IsMisspelt.ofText?_eq_none {t : Text} (hmisspelt : IsMisspelt t) : ofText? t = none := by
  obtain hfree | ⟨left, right, rfl, hleft, hempty⟩ := hmisspelt
  · rw [ofText?, Text.cutFirst?_eq, if_neg hfree]
    rfl
  · have hincomplete : ¬ (Name.mk left right).isComplete = true := by
      rw [isComplete_iff]
      rintro ⟨hspace, hkey⟩
      exact hempty.elim hspace hkey
    exact (ofText?_toText hleft).trans (if_neg hincomplete)

end Name

end ConfigWatch
