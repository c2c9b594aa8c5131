import RecordQuery.Text

/-! The 160-bit digest (SHA-1) behind derived ids. -/
namespace RecordQuery.Digest

structure State where
  a : UInt32
  b : UInt32
  c : UInt32
  d : UInt32
  e : UInt32

def initial : State := ⟨0x67452301, 0xEFCDAB89, 0x98BADCFE, 0x10325476, 0xC3D2E1F0⟩

def rotate (x n : UInt32) : UInt32 := (x <<< n) ||| (x >>> (32 - n))

def wordOfBytes (bytes : List UInt8) : UInt32 :=
  bytes.foldl (fun word b => (word <<< 8) ||| b.toUInt32) 0

def bytesOfWord (word : UInt32) : List UInt8 :=
  [(word >>> 24).toUInt8, (word >>> 16).toUInt8, (word >>> 8).toUInt8, word.toUInt8]

/-- The message, a one bit, zeros up to the last eight bytes of a block, and the length in bits. -/
def padded (message : List UInt8) : List UInt8 :=
  let bits := 8 * message.length
  let zeros := (119 - message.length % 64) % 64
  message ++ 0x80 :: List.replicate zeros (0 : UInt8) ++
    (List.range 8).map fun i => Nat.toUInt8 (bits >>> (8 * (7 - i)))

/-- The pieces of the given size; a last shorter piece is dropped. -/
def pieces (size : Nat) : (count : Nat) → List UInt8 → List (List UInt8)
  | 0, _ => []
  | count + 1, bytes => bytes.take size :: pieces size count (bytes.drop size)

/-- The eighty words of a block: sixteen from the block, each later one from four before it. -/
def schedule (block : List UInt8) : Array UInt32 :=
  (List.range 64).foldl (fun words i =>
      let word := words.getD (i + 13) 0 ^^^ words.getD (i + 8) 0 ^^^ words.getD (i + 2) 0 ^^^
        words.getD i 0
      words.push (rotate word 1))
    ((pieces 4 16 block).map wordOfBytes).toArray

def mix (round : Nat) (b c d : UInt32) : UInt32 :=
  if round < 20 then ((b &&& c) ||| (~~~b &&& d)) + 0x5A827999
  else if round < 40 then (b ^^^ c ^^^ d) + 0x6ED9EBA1
  else if round < 60 then ((b &&& c) ||| (b &&& d) ||| (c &&& d)) + 0x8F1BBCDC
  else (b ^^^ c ^^^ d) + 0xCA62C1D6

def step (words : Array UInt32) (s : State) (round : Nat) : State :=
  let next := rotate s.a 5 + mix round s.b s.c s.d + s.e + words.getD round 0
  ⟨next, s.a, rotate s.b 30, s.c, s.d⟩

def absorb (s : State) (block : List UInt8) : State :=
  let t := (List.range 80).foldl (step (schedule block)) s
  ⟨s.a + t.a, s.b + t.b, s.c + t.c, s.d + t.d, s.e + t.e⟩

/-- The twenty bytes of the digest. -/
def of (message : List UInt8) : List UInt8 :=
  let bytes := padded message
  let s := (pieces 64 (bytes.length / 64) bytes).foldl absorb initial
  [s.a, s.b, s.c, s.d, s.e].flatMap bytesOfWord

end RecordQuery.Digest
