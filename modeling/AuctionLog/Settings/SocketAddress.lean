import AuctionLog.Text.Ascii

namespace AuctionLog

/-- An Internet address: four bytes, or eight groups of 16 bits. -/
inductive IpAddress where
  | v4 (octets : List Nat)
  | v6 (groups : List Nat) (scope : Nat)
deriving DecidableEq

structure SocketAddress where
  ip : IpAddress
  port : Nat
deriving DecidableEq

namespace SocketAddress

def spanDigits (base : Nat) (text : List Char) : List Char × List Char :=
  let isDigit (char : Char) := (Numeral.digit? base char).isSome
  (text.takeWhile isDigit, text.dropWhile isDigit)

/-- A number below the bound; leading zeros do not matter. -/
def readNumber? (bound : Nat) (text : List Char) : Option (Nat × List Char) :=
  let (digits, rest) := spanDigits 10 text
  match Numeral.digits? 10 digits with
  | some value => if value < bound then some (value, rest) else none
  | none => none

/-- A byte in decimal, without leading zeros. -/
def readOctet? (text : List Char) : Option (Nat × List Char) :=
  let digits := (spanDigits 10 text).1
  if digits.length ≤ 3 ∧ (digits.length ≤ 1 ∨ digits.head? ≠ some '0') then readNumber? 256 text
  else none

def readChar? (char : Char) : List Char → Option (List Char)
  | [] => none
  | first :: rest => if first = char then some rest else none

def readOctets? : Nat → List Char → Option (List Nat × List Char)
  | 0, text => some ([], text)
  | 1, text => do
      let (octet, rest) ← readOctet? text
      return ([octet], rest)
  | count + 2, text => do
      let (octet, rest) ← readOctet? text
      let (octets, rest) ← readOctets? (count + 1) (← readChar? '.' rest)
      return (octet :: octets, rest)

/-- Up to four hexadecimal digits. -/
def readGroup? (text : List Char) : Option (Nat × List Char) :=
  let (digits, rest) := spanDigits 16 text
  if digits.length ≤ 4 then (Numeral.digits? 16 digits).map (·, rest) else none

def groupsOfOctets : List Nat → List Nat
  | [a, b, c, d] => [a * 256 + b, c * 256 + d]
  | _ => []

def readSeparator? (first : Bool) (text : List Char) : Option (List Char) :=
  if first then some text else readChar? ':' text

/-- As many groups as there are, up to `most`. The last two may be given as octets, which is told
along with the groups. -/
def readGroups (first : Bool) : (most : Nat) → List Char → List Nat × Bool × List Char
  | 0, text => ([], false, text)
  | most + 1, text =>
      let octets? :=
        if 0 < most then do readOctets? 4 (← readSeparator? first text) else none
      match octets? with
      | some (octets, rest) => (groupsOfOctets octets, true, rest)
      | none =>
          match do readGroup? (← readSeparator? first text) with
          | none => ([], false, text)
          | some (group, rest) =>
              let (groups, octets, rest) := readGroups false most rest
              (group :: groups, octets, rest)

/-- Eight groups, where one gap may stand for one zero group or more. -/
def readV6? (text : List Char) : Option (List Nat × List Char) :=
  let (head, octets, rest) := readGroups true 8 text
  if head.length = 8 then some (head, rest)
  else if octets then none
  else do
    let rest ← readChar? ':' (← readChar? ':' rest)
    let (tail, _, rest) := readGroups true (7 - head.length) rest
    return (head ++ List.replicate (8 - head.length - tail.length) 0 ++ tail, rest)

def readPort? (text : List Char) : Option (Nat × List Char) := do
  readNumber? 0x10000 (← readChar? ':' text)

def readV4Socket? (text : List Char) : Option (SocketAddress × List Char) := do
  let (octets, rest) ← readOctets? 4 text
  let (port, rest) ← readPort? rest
  return (⟨.v4 octets, port⟩, rest)

/-- The scope of an address, zero if it is not given. -/
def readScope? (text : List Char) : Option (Nat × List Char) :=
  match text with
  | '%' :: rest => readNumber? 0x100000000 rest
  | _ => some (0, text)

def readV6Socket? (text : List Char) : Option (SocketAddress × List Char) := do
  let (groups, rest) ← readV6? (← readChar? '[' text)
  let (scope, rest) ← readScope? rest
  let (port, rest) ← readPort? (← readChar? ']' rest)
  return (⟨.v6 groups scope, port⟩, rest)

def ofText? (text : String) : Option SocketAddress :=
  match (readV4Socket? text.toList).orElse fun _ => readV6Socket? text.toList with
  | some (address, []) => some address
  | _ => none

def decimal (value : Nat) : List Char :=
  Nat.toDigits 10 value

def octetText (octets : List Nat) : List Char :=
  ['.'].intercalate (octets.map decimal)

def groupText (groups : List Nat) : List Char :=
  [':'].intercalate (groups.map (Nat.toDigits 16))

/-- The start and the length of the first longest run of zero groups. -/
def longestGap (groups : List Nat) : Nat × Nat :=
  let runs := (List.range groups.length).map fun start =>
    (start, ((groups.drop start).takeWhile (· == 0)).length)
  runs.foldl (fun best run => if best.2 < run.2 then run else best) (0, 0)

/-- Two zero groups or more are left out once, where most of them are together. An address that
stands for one of four bytes shows these. -/
def v6Text (groups : List Nat) : List Char :=
  match groups with
  | [0, 0, 0, 0, 0, 0xFFFF, high, low] =>
      "::ffff:".toList ++ octetText [high / 256, high % 256, low / 256, low % 256]
  | _ =>
      let (start, length) := longestGap groups
      if 1 < length then
        groupText (groups.take start) ++ [':', ':'] ++ groupText (groups.drop (start + length))
      else groupText groups

def text (address : SocketAddress) : String :=
  let host := match address.ip with
    | .v4 octets => octetText octets
    | .v6 groups scope =>
        '[' :: v6Text groups ++ (if scope = 0 then [] else '%' :: decimal scope) ++ [']']
  String.ofList (host ++ ':' :: decimal address.port)

end SocketAddress

end AuctionLog
