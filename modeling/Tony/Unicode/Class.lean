import Tony.Unicode.Age
import Tony.Unicode.Alphabetic
import Tony.Unicode.Connector
import Tony.Unicode.DefaultIgnorable
import Tony.Unicode.GraphemeExtend
import Tony.Unicode.Mark
import Tony.Unicode.Number
import Tony.Unicode.Unprintable

/-! The classes of characters that reading and quoting ask for. -/

namespace Tony.Unicode

def isBlank (c : Char) : Bool :=
  (0x09 ≤ c.toNat && c.toNat ≤ 0x0D) || c.toNat == 0x20 || c.toNat == 0x85 || c.toNat == 0xA0 ||
    c.toNat == 0x1680 || (0x2000 ≤ c.toNat && c.toNat ≤ 0x200A) || c.toNat == 0x2028 ||
    c.toNat == 0x2029 || c.toNat == 0x202F || c.toNat == 0x205F || c.toNat == 0x3000

/-- A character inside a word: the last letter of a word is not followed by one. Words are those of
Unicode 16.0, so what is newer stands outside of them. -/
def isWordPart (c : Char) : Bool :=
  !within c.toNat addedIn17 &&
    (within c.toNat alphabetic || within c.toNat mark || within c.toNat decimalDigit ||
      within c.toNat connectorPunctuation || within c.toNat joinControl)

/-- Letters and numerals of Unicode 17.0. Numerals of every kind count, marks and connectors do
not. -/
def isAlphanumeric (c : Char) : Bool :=
  within c.toNat alphabetic || within c.toNat decimalDigit || within c.toNat letterNumber ||
    within c.toNat otherNumber

/-- A mark that is drawn on the character before it. The halfwidth sound marks extend a grapheme too,
but they are letters and have a cell of their own. -/
def isCombining (c : Char) : Bool :=
  within c.toNat mark && within c.toNat graphemeExtend

def isPrintable (c : Char) : Bool :=
  !within c.toNat unprintable && !within c.toNat defaultIgnorable

end Tony.Unicode
