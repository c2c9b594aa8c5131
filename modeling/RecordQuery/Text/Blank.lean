import RecordQuery.Text.Rune
import RecordQuery.Text.Span

namespace RecordQuery.Text

private def blankTable : List (Nat × Nat) :=
  [(0x09, 0x0D), (0x20, 0x20), (0x85, 0x85), (0xA0, 0xA0), (0x1680, 0x1680), (0x2000, 0x200A),
    (0x2028, 0x2029), (0x202F, 0x202F), (0x205F, 0x205F), (0x3000, 0x3000)]

def isBlankCode (code : Nat) : Bool := inRanges blankTable code

def isBlankRune (r : Rune) : Bool := r.isChar && isBlankCode r.code

/-- Without the white space at both ends. -/
def trim (t : Text) : Text :=
  ofRunes ((t.runes.dropWhile isBlankRune).reverse.dropWhile isBlankRune).reverse

end RecordQuery.Text
