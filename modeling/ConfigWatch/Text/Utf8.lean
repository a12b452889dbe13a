import ConfigWatch.Text.Basic
/-!
Text as UTF-8 bytes. Decoding splits bytes into characters and ill-formed parts; an
ill-formed part is as long as it can be while still being the beginning of some
character, and at least one byte.
-/
namespace ConfigWatch.Utf8

def encode (t : Text) : List UInt8 := t.flatMap String.utf8EncodeChar

def continues (b : UInt8) : Bool := 0x80 ≤ b && b ≤ 0xBF

/-- The bytes that may follow a first byte as the second one. They leave out
    characters that have a shorter form, surrogates, and what lies beyond the last
    code point. -/
def secondRange (first : UInt8) : UInt8 × UInt8 :=
  if first = 0xE0 then (0xA0, 0xBF)
  else if first = 0xED then (0x80, 0x9F)
  else if first = 0xF0 then (0x90, 0xBF)
  else if first = 0xF4 then (0x80, 0x8F)
  else (0x80, 0xBF)

/-- The number of bytes that follow a first byte; `none` for a byte that is none. -/
def tailLength (first : UInt8) : Option Nat :=
  if first < 0x80 then some 0
  else if 0xC2 ≤ first ∧ first ≤ 0xDF then some 1
  else if 0xE0 ≤ first ∧ first ≤ 0xEF then some 2
  else if 0xF0 ≤ first ∧ first ≤ 0xF4 then some 3
  else none

def leadBits (first : UInt8) : Nat :=
  if first < 0x80 then first.toNat
  else if first < 0xE0 then first.toNat % 0x20
  else if first < 0xF0 then first.toNat % 0x10
  else first.toNat % 0x08

/-- Reads `count` bytes that continue a character with the bits `bits` so far, and
    gives the code point, if it is complete, and what follows. -/
def takeTail (bits : Nat) : Nat → List UInt8 → Option Nat × List UInt8
  | 0, rest => (some bits, rest)
  | _ + 1, [] => (none, [])
  | count + 1, b :: rest =>
    if continues b then takeTail (bits * 0x40 + b.toNat % 0x40) count rest else (none, b :: rest)

/-- Reads the character with the given first byte, or the ill-formed part. -/
def takeChar (first : UInt8) (rest : List UInt8) : Option Char × List UInt8 :=
  match tailLength first with
  | none => (none, rest)
  | some 0 => (some (Char.ofNat first.toNat), rest)
  | some (count + 1) =>
    match rest with
    | [] => (none, [])
    | second :: after =>
      let range := secondRange first
      if range.1 ≤ second ∧ second ≤ range.2 then
        let (code, left) := takeTail (leadBits first * 0x40 + second.toNat % 0x40) count after
        (code.map Char.ofNat, left)
      else (none, second :: after)

theorem length_takeTail_le (bits count : Nat) (rest : List UInt8) :
    (takeTail bits count rest).2.length ≤ rest.length := by
  induction count generalizing bits rest with
  | zero => simp [takeTail]
  | succ count ih =>
    cases rest with
    | nil => simp [takeTail]
    | cons b rest =>
      simp only [takeTail]
      split
      · exact Nat.le_succ_of_le (ih _ rest)
      · simp

theorem length_takeChar_le (first : UInt8) (rest : List UInt8) :
    (takeChar first rest).2.length ≤ rest.length := by
  unfold takeChar
  split
  · simp
  · simp
  · split
    · simp
    · rename_i second after
      dsimp only
      split
      · exact Nat.le_succ_of_le (length_takeTail_le _ _ after)
      · simp

/-- The characters of bytes in order, with `none` for each ill-formed part. -/
def chars : List UInt8 → List (Option Char)
  | [] => []
  | first :: rest => (takeChar first rest).1 :: chars (takeChar first rest).2
termination_by bytes => bytes.length
decreasing_by
  have hle := length_takeChar_le first rest
  simp only [List.length_cons]
  omega

/-- The text that bytes encode; `none` if any part is ill-formed. -/
def decode? (bytes : List UInt8) : Option Text := (chars bytes).mapM id

def replacement : Char := Char.ofNat 0xFFFD

/-- The text of bytes with a replacement character for each ill-formed part. -/
def decodeLossy (bytes : List UInt8) : Text := (chars bytes).map (·.getD replacement)

def byteOrderMark : List UInt8 := [0xEF, 0xBB, 0xBF]

/-- The bytes without a byte order mark at their start. -/
def dropMark (bytes : List UInt8) : List UInt8 :=
  if byteOrderMark.isPrefixOf bytes then bytes.drop 3 else bytes

end ConfigWatch.Utf8
