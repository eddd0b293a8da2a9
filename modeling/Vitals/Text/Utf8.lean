/-
  UTF-8 as the wire and the configuration reader use it.

  Encoding goes character by character. Decoding comes in two strengths: `decode?` accepts
  well-formed bytes only, and `lossy` accepts anything, putting one U+FFFD in the place of each
  maximal ill-formed piece.

  * `encode`: the bytes of a text.
  * `lossy`: the text of any bytes.
  * `decode?`: the text of well-formed bytes.
  * `fitting`: the longest front part of a text whose bytes fit a capacity.
-/
namespace Vitals.Text

/-- The bytes of a list of characters. -/
def encodeChars (cs : List Char) : List UInt8 := cs.flatMap String.utf8EncodeChar

/-- The bytes of a text. -/
def encode (s : String) : List UInt8 := encodeChars s.toList

@[simp] theorem encodeChars_nil : encodeChars [] = [] := rfl

@[simp] theorem encodeChars_cons (c : Char) (cs : List Char) :
    encodeChars (c :: cs) = String.utf8EncodeChar c ++ encodeChars cs := rfl

@[simp] theorem encodeChars_append (cs ds : List Char) :
    encodeChars (cs ++ ds) = encodeChars cs ++ encodeChars ds := by
  simp [encodeChars]

/-! ## Pieces of a byte string -/

/-- The character that stands for an ill-formed piece. -/
def replacement : Char := Char.ofNat 0xFFFD

/-- What a leading byte announces: the payload bits it carries itself, the range of the byte after
it, and how many plain continuation bytes follow that one. -/
structure Lead where
  bits : Nat
  low : UInt8
  high : UInt8
  more : Nat
  deriving DecidableEq, Repr

/-- The leading bytes of sequences of two, three and four bytes. The range of the second byte keeps
out overlong forms, surrogates and values above U+10FFFF. -/
def Lead.ofByte? (b : UInt8) : Option Lead :=
  if 0xC2 ≤ b ∧ b ≤ 0xDF then some ⟨b.toNat - 0xC0, 0x80, 0xBF, 0⟩
  else if b = 0xE0 then some ⟨0, 0xA0, 0xBF, 1⟩
  else if b = 0xED then some ⟨13, 0x80, 0x9F, 1⟩
  else if 0xE1 ≤ b ∧ b ≤ 0xEF then some ⟨b.toNat - 0xE0, 0x80, 0xBF, 1⟩
  else if b = 0xF0 then some ⟨0, 0x90, 0xBF, 2⟩
  else if 0xF1 ≤ b ∧ b ≤ 0xF3 then some ⟨b.toNat - 0xF0, 0x80, 0xBF, 2⟩
  else if b = 0xF4 then some ⟨4, 0x80, 0x8F, 2⟩
  else none

/-- The six payload bits of a continuation byte, added below those read so far. -/
def pushBits (value : Nat) (b : UInt8) : Nat := value * 64 + (b.toNat - 0x80)

/-- Reads `more` plain continuation bytes; `none` when the sequence breaks off. The rest is what was
not taken, so a broken sequence takes exactly the bytes that could have belonged to it. -/
def continuation : Nat → Nat → List UInt8 → Option Char × List UInt8
  | 0, value, rest => (some (Char.ofNat value), rest)
  | _ + 1, _, [] => (none, [])
  | more + 1, value, b :: rest =>
    if 0x80 ≤ b ∧ b ≤ 0xBF then continuation more (pushBits value b) rest else (none, b :: rest)

/-- The first piece of `b :: rest`: a character, or `none` for a maximal ill-formed piece, and what
comes after it. -/
def piece (b : UInt8) (rest : List UInt8) : Option Char × List UInt8 :=
  if b < 0x80 then (some (Char.ofNat b.toNat), rest)
  else
    match Lead.ofByte? b, rest with
    | some lead, c :: rest' =>
      if lead.low ≤ c ∧ c ≤ lead.high then continuation lead.more (pushBits lead.bits c) rest'
      else (none, c :: rest')
    | _, _ => (none, rest)

theorem continuation_length (more value : Nat) (rest : List UInt8) :
    (continuation more value rest).2.length ≤ rest.length := by
  induction more generalizing value rest with
  | zero => simp [continuation]
  | succ more ih =>
    cases rest with
    | nil => simp [continuation]
    | cons b rest =>
      unfold continuation
      split
      · exact Nat.le_succ_of_le (ih _ _)
      · exact Nat.le_refl _

theorem piece_length (b : UInt8) (rest : List UInt8) : (piece b rest).2.length ≤ rest.length := by
  unfold piece
  split
  · exact Nat.le_refl _
  · split
    · split
      · exact Nat.le_succ_of_le (continuation_length _ _ _)
      · exact Nat.le_refl _
    · exact Nat.le_refl _

/-- The pieces of a byte string in order. -/
def pieces : List UInt8 → List (Option Char)
  | [] => []
  | b :: rest => (piece b rest).1 :: pieces (piece b rest).2
  termination_by bytes => bytes.length
  decreasing_by
    have := piece_length b rest
    simp only [List.length_cons]
    omega

@[simp] theorem pieces_nil : pieces [] = [] := by rw [pieces]

theorem pieces_cons (b : UInt8) (rest : List UInt8) :
    pieces (b :: rest) = (piece b rest).1 :: pieces (piece b rest).2 := by rw [pieces]

/-- The characters of any bytes, each ill-formed piece replaced. -/
def lossyChars (bytes : List UInt8) : List Char := (pieces bytes).map (·.getD replacement)

/-- The text of any bytes, each ill-formed piece replaced by U+FFFD. -/
def lossy (bytes : List UInt8) : String := String.ofList (lossyChars bytes)

/-- The text of well-formed bytes. -/
def decode? (bytes : List UInt8) : Option String :=
  ((pieces bytes).mapM id).map String.ofList

/-! ## Fitting a text into a capacity -/

/-- The longest front part of a list of characters whose bytes fit into `capacity`. -/
def fittingChars : Nat → List Char → List Char
  | _, [] => []
  | capacity, c :: cs =>
    if c.utf8Size ≤ capacity then c :: fittingChars (capacity - c.utf8Size) cs else []

/-- The longest front part of a text whose bytes fit into `capacity`. -/
def fitting (capacity : Nat) (s : String) : String :=
  String.ofList (fittingChars capacity s.toList)

theorem length_encodeChars_fittingChars (capacity : Nat) (cs : List Char) :
    (encodeChars (fittingChars capacity cs)).length ≤ capacity := by
  induction cs generalizing capacity with
  | nil => simp [fittingChars]
  | cons c cs ih =>
    unfold fittingChars
    split
    · next h =>
      have := ih (capacity - c.utf8Size)
      simp only [encodeChars_cons, List.length_append, String.length_utf8EncodeChar]
      omega
    · simp

end Vitals.Text
