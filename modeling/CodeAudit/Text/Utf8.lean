namespace CodeAudit.Text

abbrev Bytes := List UInt8

/-- Why bytes are no text: where the fault starts, the bytes it takes up, and its cause. -/
structure Undecodable where
  position : Nat
  bytes : Bytes
  reason : String
  deriving DecidableEq, Repr

/-- A character begun: the bytes read, its value so far, how many bytes it still owes, and the
bounds of the next of them. -/
structure Begun where
  bytes : Bytes
  value : Nat
  owed : Nat
  low : UInt8
  high : UInt8

inductive Piece
  | char (c : Char)
  | fault (bytes : Bytes) (reason : String)
  deriving DecidableEq, Repr

/-- What a byte between characters is or begins. -/
def first (b : UInt8) : Piece ⊕ Begun :=
  let n := b.toNat
  if n < 0x80 then .inl (.char (Char.ofNat n))
  else if n < 0xC2 then .inl (.fault [b] "invalid start byte")
  else if n < 0xE0 then .inr ⟨[b], n - 0xC0, 1, 0x80, 0xBF⟩
  else if n < 0xF0 then
    .inr ⟨[b], n - 0xE0, 2, if n = 0xE0 then 0xA0 else 0x80, if n = 0xED then 0x9F else 0xBF⟩
  else if n < 0xF5 then
    .inr ⟨[b], n - 0xF0, 3, if n = 0xF0 then 0x90 else 0x80, if n = 0xF4 then 0x8F else 0xBF⟩
  else .inl (.fault [b] "invalid start byte")

/-- The characters and faults of `bytes` after an unfinished character. A byte that cannot go on
with the character begun ends it as a fault and is read afresh. -/
def piecesFrom : Option Begun → Bytes → List Piece
  | none, [] => []
  | some g, [] => [.fault g.bytes.reverse "unexpected end of data"]
  | none, b :: rest =>
    match first b with
    | .inl p => p :: piecesFrom none rest
    | .inr g => piecesFrom (some g) rest
  | some g, b :: rest =>
    if g.low ≤ b ∧ b ≤ g.high then
      let value := g.value * 64 + (b.toNat - 0x80)
      if g.owed = 1 then .char (Char.ofNat value) :: piecesFrom none rest
      else piecesFrom (some ⟨b :: g.bytes, value, g.owed - 1, 0x80, 0xBF⟩) rest
    else
      .fault g.bytes.reverse "invalid continuation byte" ::
        match first b with
        | .inl p => p :: piecesFrom none rest
        | .inr g' => piecesFrom (some g') rest

def pieces (bytes : Bytes) : List Piece := piecesFrom none bytes

/-- The text with the replacement character for each fault. -/
def decodeLossy (bytes : Bytes) : List Char :=
  (pieces bytes).map fun
    | .char c => c
    | .fault _ _ => '\ufffd'

def Piece.size : Piece → Nat
  | .char c => c.utf8Size
  | .fault bytes _ => bytes.length

def decodeFrom (position : Nat) : List Piece → Except Undecodable (List Char)
  | [] => .ok []
  | .char c :: rest => (decodeFrom (position + (Piece.char c).size) rest).map (c :: ·)
  | .fault bytes reason :: _ => .error ⟨position, bytes, reason⟩

/-- The text, or the first fault. -/
def decode (bytes : Bytes) : Except Undecodable (List Char) := decodeFrom 0 (pieces bytes)

def encode (s : String) : Bytes := s.toUTF8.data.toList

end CodeAudit.Text
