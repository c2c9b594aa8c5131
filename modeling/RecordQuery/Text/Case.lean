import RecordQuery.Text.Rune
import RecordQuery.Text.CaseTable

/-! Letter case, character by character. Upper case, lower case and folding are three different
ways to compare words: they disagree on a few letters beyond ASCII. -/
namespace RecordQuery.Text

def lowerCode (code : Nat) : Nat :=
  if code < 0x80 then if 0x41 ≤ code ∧ code ≤ 0x5A then code + 32 else code
  else mapCode CaseTable.lower code

def upperCode (code : Nat) : Nat :=
  if code < 0x80 then if 0x61 ≤ code ∧ code ≤ 0x7A then code - 32 else code
  else mapCode CaseTable.upper code

def foldCode (code : Nat) : Nat :=
  if code < 0x80 then if 0x41 ≤ code ∧ code ≤ 0x5A then code + 32 else code
  else mapCode CaseTable.fold code

/-- Lower case; stray bytes become replacement characters. -/
def lower (t : Text) : Text := ofCodes (t.codes.map lowerCode)

/-- Upper case; stray bytes become replacement characters. -/
def upper (t : Text) : Text := ofCodes (t.codes.map upperCode)

/-- Equality up to case. -/
def sameFold (s t : Text) : Bool := s.codes.map foldCode == t.codes.map foldCode

end RecordQuery.Text
