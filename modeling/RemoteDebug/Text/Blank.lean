/-! White space: the characters of the Unicode property `White_Space`, and trimming.

Texts are handled as lists of characters; `trim` drops blanks at both ends and
`trimEnd` at the right one. -/
namespace RemoteDebug.Text

/-- Whether a code point lies in one of the closed ranges. -/
def within (ranges : List (Nat × Nat)) (c : Char) : Bool :=
  ranges.any fun r => r.1 ≤ c.toNat && c.toNat ≤ r.2

/-- The 25 code points of `White_Space`, as closed ranges. -/
def blankRanges : List (Nat × Nat) :=
  [(0x9, 0xD), (0x20, 0x20), (0x85, 0x85), (0xA0, 0xA0), (0x1680, 0x1680), (0x2000, 0x200A),
    (0x2028, 0x2029), (0x202F, 0x202F), (0x205F, 0x205F), (0x3000, 0x3000)]

def isBlank (c : Char) : Bool := within blankRanges c

def trimStart (s : List Char) : List Char := s.dropWhile isBlank

/-- Drops the longest run at the right end whose characters all satisfy `p`. -/
def dropEndWhile (p : Char → Bool) (s : List Char) : List Char := (s.reverse.dropWhile p).reverse

def trimEnd (s : List Char) : List Char := dropEndWhile isBlank s

def trim (s : List Char) : List Char := trimEnd (trimStart s)

/-- The text before the first `c` and the text after it, if there is one. -/
def splitAt? (c : Char) (s : List Char) : Option (List Char × List Char) :=
  match s.span (· != c) with
  | (_, []) => none
  | (before, _ :: after) => some (before, after)

example : trim "\t 1.2\r\n".toList = "1.2".toList := by decide
example : splitAt? '.' "1.2.3".toList = some ("1".toList, "2.3".toList) := by decide

end RemoteDebug.Text
