import HashTabs.Query.Fault

/-! A parameter as it is written: the route of keys that it takes into the tree, and its value. -/

namespace HashTabs.Query

/-- The byte that stands between two parameters. -/
def ampersand : UInt8 := 0x26

/-- The byte that stands between the keys of a parameter and its value. -/
def equalsSign : UInt8 := 0x3D

/-- The byte that opens a key below another. -/
def openBracket : UInt8 := 0x5B

/-- The byte that closes what an opening bracket opened. -/
def closeBracket : UInt8 := 0x5D

/-- A key that leads to one branch. -/
inductive Key where
  | name (s : String)
  | number (n : Nat)
  deriving DecidableEq, Repr

/-- What is said of a byte right after a key in brackets. -/
def Key.misplaced : Key → UInt8 → Misplaced
  | name _ => .afterName
  | number _ => .afterNumber

/-- The way of one parameter from where it stands down to its value, as far as it can be read. -/
inductive Route where
  /-- The value belongs under this key. -/
  | last (key : Key) (value : String)
  /-- The value is added to a list. -/
  | push (value : String)
  /-- The route goes on below this key; the position is that of the bracket that leads there. -/
  | into (key : Key) (position : Nat) (rest : Route)
  /-- Nothing more can be read. -/
  | stop (fault : Fault)

namespace Route

/-- Ends a route with the value that the bytes stand for. -/
def valued (close : String → Route) (bs : List UInt8) : Route :=
  match Text.Percent.text bs with
  | .ok v => close v
  | .error f => .stop (.noText f)

/-- A byte that begins a number. -/
def isDigit (b : UInt8) : Bool := decide (0x30 ≤ b ∧ b ≤ 0x39)

/-- A byte that begins a name in brackets: printable ASCII, but no digit and no bracket. -/
def beginsName (b : UInt8) : Bool :=
  decide (0x20 ≤ b ∧ b ≤ 0x7E) && !isDigit b && !(b == openBracket) && !(b == closeBracket)

/-- Reads digits from `n` on. In each place a character that is no digit counts before a number
that has grown too large. -/
def numberFrom (n : Nat) : List Char → Except Fault Nat
  | [] => .ok n
  | c :: r =>
    if c.isDigit then
      let n := n * 10 + (c.toNat - '0'.toNat)
      if n < 2 ^ 64 then numberFrom n r else .error .hugeNumber
    else .error .noNumber

/-- The key that stands between brackets as `b :: r`: a number if it begins with a digit. -/
def bracketKey (b : UInt8) (r : List UInt8) : Except Fault Key :=
  match Text.Percent.text (b :: r) with
  | .error f => .error (.noText f)
  | .ok s => if isDigit b then (numberFrom 0 s.toList).map .number else .ok (.name s)

/-- Goes on after a key that ends at `pos`; `deeper` takes over behind an opening bracket. -/
def afterKey (k : Key) (pos : Nat) (deeper : Nat → List UInt8 → Route) : List UInt8 → Route
  | [] => .last k ""
  | b :: r =>
    if b = equalsSign then valued (.last k) r
    else if b = openBracket then .into k (pos + 1) (deeper (pos + 1) r)
    else .stop (.misplaced (k.misplaced b) (pos + 1))

/-- Goes on after empty brackets that end at `pos`. -/
def afterNothing (pos : Nat) : List UInt8 → Route
  | [] => .push ""
  | b :: r =>
    if b = equalsSign then valued .push r else .stop (.misplaced .afterNothing (pos + 1))

/-- Reads on behind an opening bracket at `pos`, in a segment that others follow if `more`. Once the
depth is used up, the bracket and all that follows it are one name. -/
def bracketed (more : Bool) : Nat → Nat → List UInt8 → Route
  | 0, _, bs =>
    match Text.Percent.text (openBracket :: bs.takeWhile (· != equalsSign)) with
    | .error f => .stop (.noText f)
    | .ok s =>
      match bs.dropWhile (· != equalsSign) with
      | [] => .last (.name s) ""
      | _ :: r => valued (.last (.name s)) r
  | _ + 1, _, [] => if more then .last (.name "") "" else .stop .cutShort
  | depth + 1, pos, b :: r =>
    if b = closeBracket then afterNothing (pos + 1) r
    else if b = openBracket then .stop (.misplaced .secondBracket (pos + 1))
    else if isDigit b || beginsName b then
      let key := b :: r.takeWhile (· != closeBracket)
      match bracketKey b (r.takeWhile (· != closeBracket)) with
      | .error f => .stop f
      | .ok k =>
        match r.dropWhile (· != closeBracket) with
        | [] => .last k ""
        | _ :: r => afterKey k (pos + key.length + 1) (bracketed more depth) r
    else .stop (.misplaced (.noKey b) (pos + 1))

/-- A byte at which a name outside brackets ends. -/
def endsName (b : UInt8) : Bool := b == openBracket || b == equalsSign

/-- The route of the parameter `b :: r` that starts behind `pos` bytes. Its first byte belongs to
its name, whatever it is, unless it is an opening bracket. -/
def ofSegment (more : Bool) (depth pos : Nat) (b : UInt8) (r : List UInt8) : Route :=
  if b = openBracket then bracketed more depth (pos + 1) r
  else
    let name := b :: r.takeWhile (!endsName ·)
    match Text.Percent.text name with
    | .error f => .stop (.noText f)
    | .ok s =>
      afterKey (.name s) (pos + name.length) (bracketed more (depth - 1))
        (r.dropWhile (!endsName ·))

end Route

end HashTabs.Query
