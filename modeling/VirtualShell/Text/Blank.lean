import VirtualShell.Text.Ranges

/-!
# Blank characters

The characters with the Unicode property White_Space. They separate the words of a line and are what
trimming removes. The separators U+001C to U+001F and the zero-width characters are not among them.
-/

namespace VirtualShell.Text

/-- The code points of Unicode white space. -/
def blankRanges : List (Nat × Nat) :=
  [(0x9, 0xD), (0x20, 0x20), (0x85, 0x85), (0xA0, 0xA0), (0x1680, 0x1680), (0x2000, 0x200A),
   (0x2028, 0x2029), (0x202F, 0x202F), (0x205F, 0x205F), (0x3000, 0x3000)]

/-- Whether a character is white space. -/
def isBlank (c : Char) : Bool :=
  inRanges c.toNat blankRanges

example : Ascending blankRanges := by decide

/-- The characters without those at the end that satisfy `p`. -/
def dropEndWhile (p : Char → Bool) (cs : List Char) : List Char :=
  (cs.reverse.dropWhile p).reverse

/-- The text without its leading blanks. -/
def trimStart (s : String) : String :=
  String.ofList (s.toList.dropWhile isBlank)

/-- The text without its trailing blanks. -/
def trimEnd (s : String) : String :=
  String.ofList (dropEndWhile isBlank s.toList)

/-- The text without the blanks at either end. -/
def trim (s : String) : String :=
  trimEnd (trimStart s)

/-- The maximal stretches of a text without blanks, in order. -/
def words (s : String) : List String :=
  ((s.toList.splitOnP isBlank).filter (! ·.isEmpty)).map String.ofList

end VirtualShell.Text
