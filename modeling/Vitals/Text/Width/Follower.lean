/-
  What a character means to the cells of the character in front of it.

  Some characters are shown as one sign with those in front of them: an emoji with a skin tone,
  several emoji that are joined, a flag, a ligature. Such a sign takes as many cells as it needs,
  not as many as its characters on their own. A selector in between may ask for another form.

  * `Follower`: what stands behind a character.
  * `Follower.join?`: the cells of a character that is one sign with what stands behind it.
  * `alone`: the cells of a character that is not.
  * `Behind.take`: the cells of any character.
-/
import Vitals.Text.Width.Ranges

namespace Vitals.Text

/-! ## Characters -/

/-- What joins two emoji into one, or two letters into a ligature. -/
def joiner : Char := '\u200D'

/-- The selector of the wide form of a quotation mark. -/
def wideSelector : Char := '\uFE01'

/-- The selector of the text form of the character before it. -/
def textSelector : Char := '\uFE0E'

/-- The selector of the emoji form of the character before it. -/
def emojiSelector : Char := '\uFE0F'

/-- A modifier that sets the skin tone of the emoji before it. -/
def isSkinTone (c : Char) : Bool := inRanges [(0x1F3FB, 0x1F3FF)] c

/-- One of the letters that make a flag, two by two. -/
def isFlagLetter (c : Char) : Bool := inRanges [(0x1F1E6, 0x1F1FF)] c

/-- A consonant of the Tifinagh script. -/
def isTifinaghConsonant (c : Char) : Bool := inRanges [(0x2D31, 0x2D65), (0x2D6F, 0x2D6F)] c

/-- A quotation mark that has a wide form. -/
def isQuotationMark (c : Char) : Bool := inRanges [(0x2018, 0x2019), (0x201C, 0x201D)] c

/-- An emoji that has a text form of one cell. Ideographs in squares stay wide. -/
def hasNarrowForm (c : Char) : Bool :=
  inRanges emojiRanges c && inRanges variationRanges c && !inRanges [(0x1F200, 0x1F2FF)] c

/-! ## Followers -/

/-- What makes a ligature with the letter before it. -/
inductive Ligature where
  /-- A Hebrew lamed, with an alef before it. -/
  | lamed
  /-- A Buginese ya, with the vowel sign i before it. -/
  | ya
  /-- The two of them, with the letter a before them. -/
  | vowelYa
  /-- A Tifinagh consonant, with another before it. -/
  | consonant
  /-- A Tifinagh consonant and the sign that joins it to the one before it. -/
  | joinedConsonant
  /-- A Lisu tone letter, with another before it. -/
  | toneLetter
  /-- An Old Turkic i, with a letter before it. -/
  | orkhonI
  /-- A Khmer letter that the sign before it puts below the line. -/
  | subscript
  deriving DecidableEq, Repr

/-- What stands behind a character, as far as it matters to the character. -/
inductive Follower where
  /-- Nothing that matters. -/
  | plain
  | emoji
  | skinTone
  | flagLetters (count : Nat)
  /-- A joiner and an emoji. -/
  | joinedEmoji
  /-- The mark of a keycap, a joiner and an emoji. -/
  | joinedKeycap
  /-- Letters of flags, a joiner and an emoji. -/
  | joinedFlagLetters (count : Nat)
  /-- The tags of a region, digits and then letters, a joiner and an emoji. -/
  | joinedTags (digits letters : Nat)
  /-- An Arabic alef, perhaps with marks before it. -/
  | alef
  /-- The Kirat Rai vowel sign e. -/
  | vowelE
  /-- The Kirat Rai vowel sign ai. -/
  | vowelAi
  /-- The end of a ligature, perhaps with a joiner before it. -/
  | ligature (last : Ligature) (joined : Bool)
  deriving DecidableEq, Repr

/-- The cells of a character that is one sign with the end of a ligature, and what the two are to
the character before them. -/
def Ligature.join? (last : Ligature) (joined : Bool) (c : Char) : Option (Int × Follower) :=
  match last, joined with
  | lamed, true => if c = '\u05D0' then some (0, .plain) else none
  | ya, true => if c = '\u1A17' then some (0, .ligature vowelYa false) else none
  | vowelYa, _ => if c = '\u1A15' then some (0, .plain) else none
  | consonant, _ =>
    if c = '\u2D7F' then some (1, .ligature joinedConsonant false)
    else if joined && isTifinaghConsonant c then some (0, .plain)
    else none
  | joinedConsonant, _ => if isTifinaghConsonant c then some (-1, .plain) else none
  | toneLetter, _ => if inRanges [(0xA4F8, 0xA4FB)] c then some (0, .plain) else none
  | orkhonI, true => if c.toNat = 0x10C32 then some (0, .plain) else none
  | subscript, _ => if c = '\u17D2' then some (-1, .plain) else none
  | _, _ => none

namespace Follower

/-- Whether a selector may stand between a joiner and what it joins to. -/
def isJoined : Follower → Bool
  | joinedEmoji | joinedKeycap => true
  | _ => false

/-- Whether selectors may stand between the parts of a sign. -/
def isLigature : Follower → Bool
  | alef | ligature .. => true
  | _ => false

/-- The cells of a character that is one sign with what stands behind it, and what the two are to
the character before them. Cells that were counted too many are taken back. -/
def join? (f : Follower) (c : Char) : Option (Int × Follower) :=
  match f with
  | plain | joinedKeycap => none
  | emoji => if c = joiner then some (0, joinedEmoji) else none
  | skinTone =>
    if inRanges modifierBaseRanges c then some (0, emoji)
    else if c = joiner then some (0, joinedEmoji)
    else none
  | flagLetters n =>
    if isFlagLetter c then some (1, flagLetters (n + 1))
    else if 2 ≤ n ∧ c = joiner then some (0, joinedEmoji)
    else none
  | joinedEmoji =>
    if c = '\u20E3' then some (0, joinedKeycap)
    else if isFlagLetter c then some (1, joinedFlagLetters 1)
    else if isSkinTone c then some (0, skinTone)
    else if c.toNat = 0xE007F then some (0, joinedTags 0 0)
    else if inRanges emojiRanges c then some (0, emoji)
    else none
  | joinedFlagLetters n =>
    if isFlagLetter c then some (if n % 2 = 1 then -1 else 3, joinedFlagLetters (n + 1))
    else if 2 ≤ n ∧ c = joiner then some (0, joinedEmoji)
    else none
  | joinedTags digits letters =>
    if inRanges [(0xE0061, 0xE007A)] c ∧ digits = 0 ∧ letters < 6 then
      some (0, joinedTags 0 (letters + 1))
    else if inRanges [(0xE0030, 0xE0039)] c ∧ digits < 3 ∧ (digits = 0 → letters ≤ 4) then
      some (0, joinedTags (digits + 1) letters)
    else if c.toNat = 0x1F3F4 ∧ (digits = 3 ∨ digits = 0 ∧ 3 ≤ letters) then some (0, emoji)
    else none
  | alef =>
    if inRanges lamRanges c then some (0, plain)
    else if inRanges zeroWidthRanges c && !inRanges apartRanges c then some (0, alef)
    else none
  | vowelE =>
    match c.toNat with
    | 0x16D63 | 0x16D69 => some (0, plain)
    | 0x16D67 => some (0, vowelAi)
    | 0x16D68 => some (1, vowelE)
    | _ => none
  | vowelAi => if c.toNat = 0x16D63 then some (0, plain) else none
  | ligature last joined => last.join? joined c

end Follower

/-! ## Characters on their own -/

/-- The cells of a character that is no emoji. U+17D8 is three letters in one. -/
def plainWidth (c : Char) : Int :=
  if c.toNat = 0x17D8 then 3
  else if inRanges zeroWidthRanges c then 0
  else if inRanges wideRanges c then 2
  else 1

/-- What ligature a letter may end. -/
def Ligature.ofLast? (c : Char) : Option Ligature :=
  if inRanges subscriptRanges c then some subscript
  else if isTifinaghConsonant c then some consonant
  else
    match c.toNat with
    | 0x5DC => some lamed
    | 0x1A10 => some ya
    | 0xA4FC | 0xA4FD => some toneLetter
    | 0x10C03 => some orkhonI
    | _ => none

/-- The cells of a character that is no sign with what stands behind it, and what it is to the
character before it. -/
def alone (c : Char) : Int × Follower :=
  if isSkinTone c then (2, .skinTone)
  else if isFlagLetter c then (1, .flagLetters 1)
  else if inRanges emojiRanges c then (2, .emoji)
  else if inRanges alefRanges c then (1, .alef)
  else
    match c.toNat, Ligature.ofLast? c with
    | 0x16D67, _ => (1, .vowelE)
    | 0x16D68, _ => (1, .vowelAi)
    | _, some last => (1, .ligature last false)
    | _, none => (plainWidth c, .plain)

/-- The cells of a character that no selector is meant for, and what it is to the character before
it. A joiner, and marks that are ignored, may stand before the end of a ligature. -/
def Follower.take (f : Follower) (c : Char) : Int × Follower :=
  let cells := (f.join? c).getD (alone c)
  match f with
  | .ligature last _ =>
    if c = joiner then (0, .ligature last true)
    else if inRanges ignoredMarkRanges c then (0, f)
    else cells
  | _ => cells

/-! ## Selectors -/

/-- What stands behind a character, and the selectors between the two. -/
structure Behind where
  follower : Follower
  asWide : Bool
  asText : Bool
  asEmoji : Bool
  deriving DecidableEq, Repr

namespace Behind

/-- A follower without a selector before it. -/
def of (f : Follower) : Behind := ⟨f, false, false, false⟩

/-- The cells of a character and what stands behind the one before it, without a selector. -/
def bare (r : Int × Follower) : Int × Behind := (r.1, .of r.2)

/-- Puts a selector of wide forms in front. Only ligatures go on behind a selector. -/
def selectWide (b : Behind) : Behind :=
  if b.follower.isLigature then { b with asWide := true } else ⟨.plain, true, false, false⟩

/-- Puts a selector of text forms in front. -/
def selectText (b : Behind) : Behind :=
  if b.follower.isLigature then { b with asText := true } else ⟨.plain, false, true, false⟩

/-- Puts a selector of emoji forms in front. It may also stand before what is joined to an emoji. -/
def selectEmoji (b : Behind) : Behind :=
  if b.follower.isLigature || b.follower.isJoined then { b with asEmoji := true }
  else ⟨.plain, false, false, true⟩

/-- Takes back a selector of emoji forms in front of a character that has none. -/
def unselectEmoji (b : Behind) : Behind :=
  if !b.asEmoji then b
  else if b.follower.isLigature then { b with asEmoji := false }
  else .of .plain

/-- Takes a character that no selector of emoji forms is meant for. -/
def takePlain (b : Behind) (c : Char) : Int × Behind :=
  if c.toNat ≤ 0xA0 then bare (1, .plain)
  else if c = emojiSelector then (0, b.selectEmoji)
  else if c = textSelector then (0, b.selectText)
  else if c = wideSelector then (0, b.selectWide)
  else if b.asText && hasNarrowForm c then bare (1, .plain)
  else if b.asWide && isQuotationMark c then bare (2, .plain)
  else bare (b.follower.take c)

/-- The cells that a character adds to those behind it, and what stands behind the character before
it. -/
def take (b : Behind) (c : Char) : Int × Behind :=
  if b.asEmoji && inRanges variationRanges c then
    bare (if b.follower.isJoined then 0 else 2, .emoji)
  else b.unselectEmoji.takePlain c

end Behind

end Vitals.Text
