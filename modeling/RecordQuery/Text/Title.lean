import RecordQuery.Text.Rune
import RecordQuery.Text.WordTable

/-! Title case: the first letter of each word takes its title form and the rest stays. Letters,
digits, marks and connectors make up a word; a single joiner such as an apostrophe or a colon keeps
a word together, two joiners in a row end it, and so does everything else. -/
namespace RecordQuery.Text

private def isCased (r : Rune) : Bool := r.isChar && inRanges WordTable.cased r.code

private def isJoiner (r : Rune) : Bool := r.isChar && inRanges WordTable.joiners r.code

private def endsWord (r : Rune) : Bool :=
  !(r.isChar && (inRanges WordTable.inner r.code || inRanges WordTable.joiners r.code))

/-- The title form, which may have several characters. -/
def titleForm (code : Nat) : Text :=
  if code < 0x80 then ofCode (if 0x61 ≤ code ∧ code ≤ 0x7A then code - 32 else code)
  else match WordTable.longTitle.find? (·.1 == code) with
    | some (_, codes) => ofCodes codes
    | none => ofCode (mapCode WordTable.title code)

private def titleFrom (inWord afterJoiner : Bool) : List Rune → Text
  | [] => []
  | r :: rest =>
    let inWord := inWord && !(afterJoiner && isJoiner r)
    if isCased r then
      (if inWord then r.bytes else titleForm r.code) ++ titleFrom true false rest
    else r.bytes ++ titleFrom (inWord && !endsWord r) (isJoiner r) rest

def title (t : Text) : Text := titleFrom false false t.runes

end RecordQuery.Text
