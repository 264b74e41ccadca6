import AuctionLog.Json.Writer
import AuctionLog.Text.Unicode

namespace AuctionLog.Quoted

/-- The code point of a character that a report cannot show, in hexadecimal. -/
def codeEscape (char : Char) : List Char :=
  ['\\', 'u', '\x7b'] ++ Nat.toDigits 16 char.toNat ++ ['\x7d']

def escaped (char : Char) : List Char :=
  if char = '"' then ['\\', '"']
  else if char = '\\' then ['\\', '\\']
  else if char = '\x00' then ['\\', '0']
  else if char = '\t' then ['\\', 't']
  else if char = '\n' then ['\\', 'n']
  else if char = '\x0d' then ['\\', 'r']
  else if char.toNat < 0x20 then codeEscape char
  else if char.toNat < 0x7F then [char]
  else if Invisible.isInvisible char then codeEscape char
  else [char]

/-- The text as a report quotes it, with every character visible. -/
def text (value : String) : String :=
  String.ofList ('"' :: value.toList.flatMap escaped ++ ['"'])

end AuctionLog.Quoted

namespace AuctionLog.Json

inductive Found where
  | null
  | bool (value : Bool)
  | num (value : Number)
  | str (value : String)
  | sequence
  | map
deriving DecidableEq

def Found.ofJson : Json → Found
  | .null => .null
  | .bool value => .bool value
  | .num value => .num value
  | .str value => .str value
  | .arr _ => .sequence
  | .obj _ => .map

def Found.message : Found → String
  | .null => "null"
  | .bool value => "boolean `" ++ (if value then "true" else "false") ++ "`"
  | .num (.int value lower upper) =>
      "integer `" ++ String.ofList (Number.text (.int value lower upper)) ++ "`"
  | .num (.double value) =>
      "floating point `" ++ String.ofList (Number.text (.double value)) ++ "`"
  | .str value => "string " ++ Quoted.text value
  | .sequence => "sequence"
  | .map => "map"

inductive Expected where
  | record (name : String)
  | recordOf (name : String) (size : Nat)
  | fewerItems
  | sequence
  | map
  | valuesByName
  | text
  | flag
  | int64
  | nat64
  | unit
  | choice
  | choiceName
  | oneMember
deriving DecidableEq

def Expected.message : Expected → String
  | .record name => "struct " ++ name
  | .recordOf name size =>
      "struct " ++ name ++ " with " ++ String.ofList (Nat.toDigits 10 size) ++
        (if size = 1 then " element" else " elements")
  | .fewerItems => "fewer elements in array"
  | .sequence => "a sequence"
  | .map => "a map"
  | .valuesByName => "a map of names to a string or a list of strings"
  | .text => "a string"
  | .flag => "a boolean"
  | .int64 => "i64"
  | .nat64 => "u64"
  | .unit => "unit"
  | .choice => "string or map"
  | .choiceName => "variant identifier"
  | .oneMember => "map with a single key"

inductive Mismatch where
  | wrongType (found : Found) (expected : Expected)
  | wrongValue (found : Found) (expected : Expected)
  | wrongLength (length : Nat) (expected : Expected)
  | duplicateField (name : String)
  | missingField (name : String)
  | unknownChoice (given : String) (choices : List String)
  | neitherTextNorTexts
  | badMethod
  | notText (found : Json)
  | notInt32 (found : Json)
deriving DecidableEq

def listing : List String → String
  | [] => "there are no variants"
  | [one] => "expected `" ++ one ++ "`"
  | [one, two] => "expected `" ++ one ++ "` or `" ++ two ++ "`"
  | many => "expected one of " ++ ", ".intercalate (many.map fun name => "`" ++ name ++ "`")

def Mismatch.message : Mismatch → String
  | .wrongType found expected =>
      "invalid type: " ++ found.message ++ ", expected " ++ expected.message
  | .wrongValue found expected =>
      "invalid value: " ++ found.message ++ ", expected " ++ expected.message
  | .wrongLength length expected =>
      "invalid length " ++ String.ofList (Nat.toDigits 10 length) ++ ", expected " ++
        expected.message
  | .duplicateField name => "duplicate field `" ++ name ++ "`"
  | .missingField name => "missing field `" ++ name ++ "`"
  | .unknownChoice given choices => "unknown variant `" ++ given ++ "`, " ++ listing choices
  | .neitherTextNorTexts => "data did not match any variant of untagged enum Values"
  | .badMethod => "invalid HTTP method"
  | .notText found => "expected a string, found " ++ found.compact
  | .notInt32 found => "expected a 32-bit integer, found " ++ found.compact

end AuctionLog.Json
