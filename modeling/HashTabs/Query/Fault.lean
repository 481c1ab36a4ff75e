import HashTabs.Query.Tree

/-! Why a query is refused. -/

namespace HashTabs.Query

/-- What stands where a query allows something else. -/
inductive Misplaced where
  /-- An opening bracket right after another. -/
  | secondBracket
  /-- A byte that begins no key. -/
  | noKey (b : UInt8)
  /-- A byte right after the bracket that closes a name. -/
  | afterName (b : UInt8)
  /-- A byte right after the bracket that closes a number. -/
  | afterNumber (b : UInt8)
  /-- More keys after brackets that hold none. -/
  | afterNothing
  /-- A key below a place that is taken by something without such keys. -/
  | below (taken : Tree)

/-- The wording of what is misplaced. -/
def Misplaced.message : Misplaced → String
  | secondBracket => "found another opening bracket before the closed bracket"
  | noKey b => "unexpected character: " ++ String.singleton (Text.Utf8.ofByte b)
  | afterName b =>
    "Unexpected character: '" ++ String.singleton (Text.Utf8.ofByte b) ++ "' found when parsing"
  | afterNumber b => "Unexpected character: " ++ toString b.toNat ++ " found when parsing"
  | afterNothing => "non-indexed sequence of structs not supported"
  | below taken => "tried to insert a new key into " ++ taken.describe

/-- The first thing that is wrong with a query. -/
inductive Fault where
  /-- A key or a value is no text. -/
  | noText (cause : Text.Utf8.Fault)
  /-- The query ends right after an opening bracket. -/
  | cutShort
  /-- A key starts with a digit and is no number. -/
  | noNumber
  /-- A key is a number beyond 64 bits. -/
  | hugeNumber
  /-- Something is misplaced; the position counts the bytes up to it, itself included. -/
  | misplaced (cause : Misplaced) (position : Nat)
  /-- Two parameters contradict each other. -/
  | clash (cause : Clash)
  /-- A parameter that has to be a value has names below it. -/
  | namesForText
  /-- A parameter that has to be a value has numbers below it, or is a list. -/
  | listForText

/-- The wording of a fault. -/
def Fault.message : Fault → String
  | noText cause => cause.message
  | cutShort => "query string ended before expected"
  | noNumber => "invalid digit found in string"
  | hugeNumber => "number too large to fit in target type"
  | misplaced cause position =>
    "parsing failed with error: '" ++ cause.message ++ "' at position: " ++ toString position
  | clash cause => cause.message
  | namesForText => "invalid type: map, expected a string"
  | listForText => "invalid type: sequence, expected a string"

end HashTabs.Query
