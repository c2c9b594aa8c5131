namespace RecordQuery.Text

/-- Every `step`-th code point from `first` to `last` is mapped by adding `shift`. -/
structure CaseSpan where
  first : Nat
  last : Nat
  step : Nat
  shift : Int

def CaseSpan.covers (span : CaseSpan) (code : Nat) : Bool :=
  span.first ≤ code && code ≤ span.last && (code - span.first) % span.step == 0

/-- A code point that no span covers stays. -/
def mapCode (spans : List CaseSpan) (code : Nat) : Nat :=
  match spans.find? (·.covers code) with
  | some span => (code + span.shift).toNat
  | none => code

def inRanges (ranges : List (Nat × Nat)) (code : Nat) : Bool :=
  ranges.any fun (first, last) => first ≤ code && code ≤ last

end RecordQuery.Text
