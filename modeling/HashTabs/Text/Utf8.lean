/-! UTF-8: the bytes of a text, and the text of bytes that keep to the format. -/

namespace HashTabs.Text.Utf8

/-- The bytes of a text. -/
def encode (s : List Char) : List UInt8 := s.flatMap String.utf8EncodeChar

@[simp] theorem encode_nil : encode [] = [] := rfl

@[simp] theorem encode_cons (c : Char) (s : List Char) :
    encode (c :: s) = String.utf8EncodeChar c ++ encode s := rfl

theorem encode_append (s t : List Char) : encode (s ++ t) = encode s ++ encode t := by
  simp [encode]

/-- Why bytes are no text; the index is that of the first byte of the offending character. -/
inductive Fault where
  /-- The first `length` bytes from `index` on begin no character. -/
  | invalid (length index : Nat)
  /-- The bytes from `index` on begin a character and end before it does. -/
  | incomplete (index : Nat)
  deriving DecidableEq, Repr

/-- The wording of a fault. -/
def Fault.message : Fault → String
  | invalid n i => "invalid utf-8 sequence of " ++ toString n ++ " bytes from index " ++ toString i
  | incomplete i => "incomplete utf-8 byte sequence from index " ++ toString i

/-- How many bytes a character takes, judged by its first byte; zero if none starts with it. -/
def width (lead : UInt8) : Nat :=
  if lead < 0x80 then 1
  else if lead < 0xC2 then 0
  else if lead < 0xE0 then 2
  else if lead < 0xF0 then 3
  else if lead < 0xF5 then 4
  else 0

/-- A byte that may stand in third or fourth place. -/
def isTail (b : UInt8) : Bool := decide (0x80 ≤ b ∧ b ≤ 0xBF)

/-- A byte that may stand in second place. The lead byte narrows the choice where it would open
the way to overlong forms, to surrogates, or past the last code point. -/
def isSecond (lead b : UInt8) : Bool :=
  if lead = 0xE0 then decide (0xA0 ≤ b ∧ b ≤ 0xBF)
  else if lead = 0xED then decide (0x80 ≤ b ∧ b ≤ 0x9F)
  else if lead = 0xF0 then decide (0x90 ≤ b ∧ b ≤ 0xBF)
  else if lead = 0xF4 then decide (0x80 ≤ b ∧ b ≤ 0x8F)
  else isTail b

/-- The character whose bytes are a lead byte with `share` payload values and the tail `bs`. -/
def assemble (lead : UInt8) (share : Nat) (bs : List UInt8) : Char :=
  Char.ofNat (bs.foldl (fun n b => n * 64 + b.toNat % 64) (lead.toNat % share))

/-- Reads characters off the bytes from index `i` on. -/
def decodeFrom (i : Nat) : List UInt8 → Except Fault (List Char)
  | [] => .ok []
  | a :: r =>
    if width a = 1 then (decodeFrom (i + 1) r).map (assemble a 128 [] :: ·)
    else if width a = 0 then .error (.invalid 1 i)
    else match r with
    | [] => .error (.incomplete i)
    | b :: r =>
      if !isSecond a b then .error (.invalid 1 i)
      else if width a = 2 then (decodeFrom (i + 2) r).map (assemble a 32 [b] :: ·)
      else match r with
      | [] => .error (.incomplete i)
      | c :: r =>
        if !isTail c then .error (.invalid 2 i)
        else if width a = 3 then (decodeFrom (i + 3) r).map (assemble a 16 [b, c] :: ·)
        else match r with
        | [] => .error (.incomplete i)
        | d :: r =>
          if !isTail d then .error (.invalid 3 i)
          else (decodeFrom (i + 4) r).map (assemble a 8 [b, c, d] :: ·)

/-- The text of bytes that are UTF-8, or the first place where they are not. -/
def decode (bs : List UInt8) : Except Fault (List Char) := decodeFrom 0 bs

/-- The text that a single byte stands for: itself if it is ASCII, or else the mark of a byte that
is no text. -/
def ofByte (b : UInt8) : Char :=
  if b < 0x80 then Char.ofNat b.toNat else '\uFFFD'

end HashTabs.Text.Utf8
