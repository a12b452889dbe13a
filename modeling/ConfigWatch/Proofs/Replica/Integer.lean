import ConfigWatch.Proofs.Document.Seam
import ConfigWatch.Proofs.Numeral
import ConfigWatch.Proofs.Replica.Naming
import Mathlib.Algebra.Ring.Int.Defs
/-!
Integers of three widths. A text is converted to the integer that it denotes exactly if that fits
into the width, and to the default otherwise; so the widths never disagree about a value, and what
a wider one reads and a narrower one does not is out of the narrower one's range. A number that is
reloaded in decimal form, with any blanks around it, is read back.
-/
namespace ConfigWatch

/-- The widths at which integers can be asked for. -/
inductive Width where
  | short
  | integer
  | long

namespace Width

/-- The machine integers of a width. -/
def Word : Width → Type
  | short => Int16
  | integer => Int32
  | long => Int64

def bits : Width → Nat
  | short => 16
  | integer => 32
  | long => 64

/-- The integer that a word stands for. -/
def value : (w : Width) → w.Word → Int
  | short, x => Int16.toInt x
  | integer, x => Int32.toInt x
  | long, x => Int64.toInt x

def ofBits : (w : Width) → BitVec w.bits → w.Word
  | short, b => Int16.ofBitVec b
  | integer, b => Int32.ofBitVec b
  | long, b => Int64.ofBitVec b

instance : (w : Width) → Readable w.Word
  | short => inferInstanceAs (Readable Int16)
  | integer => inferInstanceAs (Readable Int32)
  | long => inferInstanceAs (Readable Int64)

/-- An integer is in the range of a width. -/
def Holds (w : Width) (v : Int) : Prop := -2 ^ (w.bits - 1) ≤ v ∧ v ≤ 2 ^ (w.bits - 1) - 1

instance (w : Width) (v : Int) : Decidable (w.Holds v) := inferInstanceAs (Decidable (_ ∧ _))

theorem bits_pos (w : Width) : 0 < w.bits := by cases w <;> decide

theorem value_ofBits (w : Width) (b : BitVec w.bits) : w.value (w.ofBits b) = b.toInt := by
  cases w <;> rfl

theorem exists_ofBits_eq {w : Width} (x : w.Word) : ∃ b, w.ofBits b = x := by
  cases w with
  | short => exact ⟨Int16.toBitVec x, rfl⟩
  | integer => exact ⟨Int32.toBitVec x, rfl⟩
  | long => exact ⟨Int64.toBitVec x, rfl⟩

theorem ofText?_eq (w : Width) (t : Text) :
    (Readable.ofText? t : Option w.Word) =
      (Numeral.integerWithin? (-2 ^ (w.bits - 1)) (2 ^ (w.bits - 1) - 1) t).map
        fun v => w.ofBits (BitVec.ofInt w.bits v) := by
  cases w <;> rfl

theorem Holds.value_ofBits_ofInt {w : Width} {v : Int} (hv : w.Holds v) :
    w.value (w.ofBits (BitVec.ofInt w.bits v)) = v := by
  rw [value_ofBits]
  exact BitVec.toInt_ofInt_eq_self w.bits_pos hv.1 (Int.lt_of_le_sub_one hv.2)

theorem holds_value {w : Width} (x : w.Word) : w.Holds (w.value x) := by
  obtain ⟨b, rfl⟩ := exists_ofBits_eq x
  rw [value_ofBits]
  exact ⟨b.le_toInt, Int.le_sub_one_of_lt b.toInt_lt⟩

theorem ofBits_ofInt_value {w : Width} (x : w.Word) : w.ofBits (BitVec.ofInt w.bits (w.value x)) = x := by
  obtain ⟨b, rfl⟩ := exists_ofBits_eq x
  rw [value_ofBits, BitVec.ofInt_toInt]

theorem Holds.mono {narrow wide : Width} (hbits : narrow.bits ≤ wide.bits) {v : Int}
    (hv : narrow.Holds v) : wide.Holds v := by
  have hpow : (2 : Int) ^ (narrow.bits - 1) ≤ 2 ^ (wide.bits - 1) := by
    exact_mod_cast Nat.pow_le_pow_right (by decide : 0 < 2) (Nat.sub_le_sub_right hbits 1)
  obtain ⟨hleast, hgreatest⟩ := hv
  constructor
  · omega
  · omega

/-- A text is read as the word that stands for what it denotes. -/
theorem ofText?_eq_some_iff {w : Width} {t : Text} {x : w.Word} :
    Readable.ofText? t = some x ↔ Numeral.DenotesInteger t (w.value x) := by
  simp only [ofText?_eq, Option.map_eq_some_iff, Numeral.integerWithin?_eq_some_iff]
  constructor
  · rintro ⟨v, ⟨hdenotes, hv⟩, rfl⟩
    rwa [Holds.value_ofBits_ofInt hv]
  · intro hdenotes
    exact ⟨w.value x, ⟨hdenotes, holds_value x⟩, ofBits_ofInt_value x⟩

theorem ofText?_nil (w : Width) : (Readable.ofText? [] : Option w.Word) = none := by
  rw [Option.eq_none_iff_forall_ne_some]
  intro x hread
  exact Numeral.not_denotesInteger_nil _ (ofText?_eq_some_iff.1 hread)

theorem convertOr_eq {w : Width} (raw : Option Text) (default : w.Word) :
    convertOr raw default = (raw.bind Readable.ofText?).getD default :=
  convertOr_eq_getD (fun _ => ofText?_nil w) default

/-- A text that denotes an integer of the width is converted to that integer. -/
theorem value_convertOr {w : Width} {t : Text} {v : Int} (hdenotes : Numeral.DenotesInteger t v)
    (hv : w.Holds v) (default : w.Word) : w.value (convertOr (some t) default) = v := by
  have hread : Readable.ofText? t = some (w.ofBits (BitVec.ofInt w.bits v)) :=
    ofText?_eq_some_iff.2 (by rwa [hv.value_ofBits_ofInt])
  rw [convertOr_eq, Option.bind_some, hread, Option.getD_some, hv.value_ofBits_ofInt]

theorem convertOr_eq_default {w : Width} {t : Text} (hnone : ∀ v, Numeral.DenotesInteger t v → ¬ w.Holds v)
    (default : w.Word) : convertOr (some t) default = default := by
  cases hread : (Readable.ofText? t : Option w.Word) with
  | none => rw [convertOr_eq, Option.bind_some, hread, Option.getD_none]
  | some x => exact absurd (holds_value x) (hnone _ (ofText?_eq_some_iff.1 hread))

theorem exists_value_ne (w : Width) : ∃ x y : w.Word, w.value x ≠ w.value y := by
  cases w with
  | short => exact ⟨(0 : Int16), (1 : Int16), by decide⟩
  | integer => exact ⟨(0 : Int32), (1 : Int32), by decide⟩
  | long => exact ⟨(0 : Int64), (1 : Int64), by decide⟩

end Width

namespace Store

/-- A store answers a name with an integer, whatever the default. -/
def ReadsAs (s : Store) (w : Width) (fullName : Text) (v : Int) : Prop :=
  ∀ default : w.Word, w.value (s.typedD fullName default) = v

theorem readsAs_of_converted {s : Store} {w : Width} {fullName : Text} {x : w.Word}
    (hread : (s.named? fullName).bind Readable.ofText? = some x) : s.ReadsAs w fullName (w.value x) := by
  intro default
  rw [typedD, Width.convertOr_eq, hread, Option.getD_some]

theorem typedD_eq_default {s : Store} {w : Width} {fullName : Text}
    (hread : (s.named? fullName).bind (Readable.ofText? : Text → Option w.Word) = none) (default : w.Word) :
    s.typedD fullName default = default := by
  rw [typedD, Width.convertOr_eq, hread, Option.getD_none]

theorem readsAs_or_default (s : Store) (w : Width) (fullName : Text) :
    (∃ v, s.ReadsAs w fullName v) ∨ ∀ default : w.Word, s.typedD fullName default = default := by
  cases hread : (s.named? fullName).bind (Readable.ofText? : Text → Option w.Word) with
  | none => exact .inr (typedD_eq_default hread)
  | some x => exact .inl ⟨w.value x, readsAs_of_converted hread⟩

/-- What is answered under every default is what the value of the name denotes. -/
theorem readsAs_iff {s : Store} {w : Width} {fullName : Text} {v : Int} :
    s.ReadsAs w fullName v ↔
      ∃ t, s.named? fullName = some t ∧ Numeral.DenotesInteger t v ∧ w.Holds v := by
  constructor
  · intro hreads
    cases hread : (s.named? fullName).bind (Readable.ofText? : Text → Option w.Word) with
    | none =>
      -- Every default would be the answer, but there are two that differ.
      obtain ⟨x, y, hne⟩ := w.exists_value_ne
      have hdefault (default : w.Word) : w.value default = v := by
        rw [← hreads default, typedD_eq_default hread]
      exact absurd ((hdefault x).trans (hdefault y).symm) hne
    | some x =>
      have hvalue : w.value x = v := (readsAs_of_converted hread x).symm.trans (hreads x)
      obtain ⟨t, htext, hconvert⟩ := Option.bind_eq_some_iff.1 hread
      rw [Width.ofText?_eq_some_iff, hvalue] at hconvert
      exact ⟨t, htext, hconvert, hvalue ▸ Width.holds_value x⟩
  · rintro ⟨t, htext, hdenotes, hv⟩ default
    rw [typedD, htext]
    exact Width.value_convertOr hdenotes hv default

/-- The widths differ only in their ranges. -/
theorem readsAs_narrow_iff {s : Store} {narrow wide : Width} (hbits : narrow.bits ≤ wide.bits)
    {fullName : Text} {v : Int} :
    s.ReadsAs narrow fullName v ↔ s.ReadsAs wide fullName v ∧ narrow.Holds v := by
  simp only [readsAs_iff]
  constructor
  · rintro ⟨t, htext, hdenotes, hv⟩
    exact ⟨⟨t, htext, hdenotes, hv.mono hbits⟩, hv⟩
  · rintro ⟨⟨t, htext, hdenotes, -⟩, hv⟩
    exact ⟨t, htext, hdenotes, hv⟩

end Store

/-- Blanks that do not end a line. -/
structure Text.IsPadding (t : Text) : Prop where
  blank : t.isBlank = true
  feed : '\n' ∉ t

/-- The last line of a document that gives a value to a name is a pair with `right` behind its equals
    sign. -/
def Document.SetsLast (content : Text) (name : Name) (right : Text) : Prop :=
  ∃ front left rest, content = front ++ (left ++ '=' :: right ++ rest) ∧
    front.IsWholeLines ∧ spaceAfter [] front = name.space ∧
    IsKeySide left ∧ left.trim = name.key ∧
    EndsLine rest ∧ ∀ e ∈ entriesFrom name.space rest, e.name ≠ name

/-- A document leaves the text of the last line for a name behind, without the blanks around it. -/
theorem Store.get?_merge_of_setsLast (s : Store) {content right : Text} {name : Name}
    (hspace : name.space ≠ []) (hsets : Document.SetsLast content name right) (hfeed : '\n' ∉ right)
    (hvalue : right.trim ≠ []) (hlast : right.trim.getLast? ≠ some ']') :
    (s.merge content).get? name = some right.trim := by
  obtain ⟨front, left, rest, rfl, hfront, hafter, hleft, hkey, hrest, hmore⟩ := hsets
  refine s.get?_merge_of_lastValue? ?_
  rw [Document.entries, Document.entriesFrom_append [] hfront, hafter,
    Document.entriesFrom_append_pair hspace hleft hfeed hvalue hlast hrest, hkey]
  exact lastValue?_append_cons _ hmore

/-- A numeral between blanks is stored without them. -/
theorem Store.get?_merge_of_numeral (s : Store) {content before t after : Text} {v : Int} {name : Name}
    (hspace : name.space ≠ []) (hdenotes : Numeral.DenotesInteger t v)
    (hsets : Document.SetsLast content name (before ++ t ++ after))
    (hbefore : before.IsPadding) (hafter : after.IsPadding) :
    (s.merge content).get? name = some t := by
  have hbounds := hdenotes.char_bounds
  have htrim : (before ++ t ++ after).trim = t := by
    rw [Text.trim_padded hbefore.blank t hafter.blank]
    refine Text.trim_eq_self fun c hc => Text.isBlankChar_of_printable ?_
    have hchar := hbounds c hc
    omega
  have hfeed : '\n' ∉ before ++ t ++ after := by
    have hmem : '\n' ∉ t := fun hc => absurd (hbounds _ hc).1 (by decide)
    simp [hbefore.feed, hmem, hafter.feed]
  have hne : t ≠ [] := by
    rintro rfl
    exact Numeral.not_denotesInteger_nil v hdenotes
  have hlast : t.getLast? ≠ some ']' := fun hc => absurd (hbounds _ (List.mem_of_getLast? hc)).2 (by decide)
  have hget := s.get?_merge_of_setsLast hspace hsets hfeed
  rw [htrim] at hget
  exact hget hne hlast

namespace Replica

/-- The integers that are written in a store are read exactly. At each width a text is converted to
    the integer that it denotes, if that is in the range of the width, and to the default otherwise;
    so a name has an answer of its own or every default for an answer. What a narrower width answers
    is what a wider one answers, as far as the narrower one holds it. And an integer whose decimal
    form is reloaded, with any blanks around it on its line, is the answer at every width that
    holds it. -/
theorem integers_exact_at_every_width :
    (∀ (w : Width) (t : Text) (default : w.Word),
      (∀ v, Numeral.DenotesInteger t v → w.Holds v → w.value (convertOr (some t) default) = v) ∧
      ((∀ v, Numeral.DenotesInteger t v → ¬ w.Holds v) → convertOr (some t) default = default)) ∧
    (∀ (s : Store) (fullName : Text),
      (∀ w : Width, (∃ v, s.ReadsAs w fullName v) ∨ ∀ default : w.Word, s.typedD fullName default = default) ∧
      ∀ narrow wide : Width, narrow.bits ≤ wide.bits → ∀ v,
        s.ReadsAs narrow fullName v ↔ s.ReadsAs wide fullName v ∧ narrow.Holds v) ∧
    ∀ (r : Replica) (w : Width) (v : Int) (fullName : Text) (name : Name) (content before after : Text),
      w.Holds v → Name.ofText? fullName = some name → before.IsPadding → after.IsPadding →
      Document.SetsLast content name (before ++ v.repr.toList ++ after) →
      (r.reload content).2.store.ReadsAs w fullName v := by
  refine ⟨?_, ?_, ?_⟩
  · intro w t default
    exact ⟨fun v hdenotes hv => Width.value_convertOr hdenotes hv default,
      fun hnone => Width.convertOr_eq_default hnone default⟩
  · intro s fullName
    exact ⟨fun w => s.readsAs_or_default w fullName, fun narrow wide hbits v => Store.readsAs_narrow_iff hbits⟩
  · intro r w v fullName name content before after hv hname hbefore hafter hsets
    have hdenotes := Numeral.denotesInteger_repr v
    have hcomplete := (Name.ofText?_eq_some_iff.1 hname).2.1
    have hget := r.store.get?_merge_of_numeral (Name.isComplete_iff.1 hcomplete).1 hdenotes hsets hbefore hafter
    rw [store_reload, Store.readsAs_iff, Store.named?, hname, Option.bind_some]
    exact ⟨v.repr.toList, hget, hdenotes, hv⟩

/-- The least integer of the narrowest width is read between blanks at every width. A numeral beyond
    the narrowest width is read at the next one. -/
theorem least_short_read_at_every_width :
    let content := "[ x ]\n n =\t-32768 \r\nn2=0".toList
    let s := (fresh.reload content).2.store
    let name : Name := ⟨"x".toList, "n".toList⟩
    Width.short.Holds (-32768) ∧ Name.ofText? "x.n".toList = some name ∧
      Document.SetsLast content name ("\t".toList ++ (-32768 : Int).repr.toList ++ " \r".toList) ∧
      s.typedD "x.n".toList (5 : Int16) = -32768 ∧ s.ReadsAs .short "x.n".toList (-32768) ∧
      s.ReadsAs .long "x.n".toList (-32768) ∧
      Numeral.DenotesInteger "+0040000".toList 40000 ∧
      convertOr (some "+0040000".toList) (5 : Int16) = 5 ∧
      (convertOr (some "+0040000".toList) (5 : Int32)).toInt = 40000 := by
  intro content s name
  obtain ⟨hconvert, hwidths, hreload⟩ := integers_exact_at_every_width
  have hheld : Width.short.Holds (-32768) := by decide
  have hname : Name.ofText? "x.n".toList = some name := by decide
  have hsets : Document.SetsLast content name ("\t".toList ++ (-32768 : Int).repr.toList ++ " \r".toList) :=
    ⟨"[ x ]\n".toList, " n ".toList, "\nn2=0".toList, by decide, by decide, by decide,
      ⟨by decide, by decide, by decide, by decide⟩, by decide, .inr rfl, by decide⟩
  have hshort : s.ReadsAs .short "x.n".toList (-32768) :=
    hreload fresh .short (-32768) "x.n".toList name content "\t".toList " \r".toList hheld hname
      ⟨by decide, by decide⟩ ⟨by decide, by decide⟩ hsets
  have hlong : s.ReadsAs .long "x.n".toList (-32768) :=
    ((hwidths s "x.n".toList).2 .short .long (by decide) (-32768)).1 hshort |>.1
  have hdenotes : Numeral.DenotesInteger "+0040000".toList 40000 := Numeral.integer?_eq_some_iff.1 (by decide)
  have hbeyond : ∀ v, Numeral.DenotesInteger "+0040000".toList v → ¬ Width.short.Holds v := by
    rintro v hv
    rw [hv.unique hdenotes]
    decide
  exact ⟨hheld, hname, hsets, Int16.toInt_inj.1 (hshort (5 : Int16)), hshort, hlong, hdenotes,
    (hconvert .short "+0040000".toList (5 : Int16)).2 hbeyond,
    (hconvert .integer "+0040000".toList (5 : Int32)).1 40000 hdenotes (by decide)⟩

end Replica

end ConfigWatch
