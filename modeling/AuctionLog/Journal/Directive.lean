import AuctionLog.Journal.Ceiling
import AuctionLog.Text.Unicode
import AuctionLog.Text.Utf8

namespace AuctionLog

structure FieldDemand where
  name : String
  hasValue : Bool
deriving DecidableEq

def FieldDemand.ofText (text : String) : FieldDemand :=
  { name := String.ofList (text.toList.takeWhile (· ≠ '='))
    hasValue := text.toList.contains '=' }

/-- A rule on what is let through: for the targets that begin with a text, or for all targets. A
directive with a span is about what happens in that span. -/
structure Directive where
  target : Option String
  span : Option String
  field : Option FieldDemand
  ceiling : Ceiling
deriving DecidableEq

namespace Directive

def everywhere (ceiling : Ceiling) : Directive :=
  { target := none, span := none, field := none, ceiling }

def everything : Directive :=
  everywhere (.upTo .trace)

def ofTarget (target : String) (ceiling : Ceiling) : Directive :=
  { target := some target, span := none, field := none, ceiling }

/-- Whether a directive may begin with the character, unless it begins with a span. -/
def isOpening (char : Char) : Bool :=
  char == '-' || char == ':' || char == '_' || Alphanumeric.isAlphanumeric char

def endsTarget (char : Char) : Bool :=
  char == '=' || char == '['

def endsSpan (char : Char) : Bool :=
  char == ']' || char == '\x7b'

/-- A level for all targets, or a target alone, which lets all levels through. -/
def ofWord (text : String) : Directive :=
  match Ceiling.ofText? text with
  | some ceiling => everywhere ceiling
  | none => ofTarget text (.upTo .trace)

/-- The directive with the level that is written from a byte of the text on; without a level it lets
all levels through. -/
def withLevel (directive : Directive) (text : String) (start : Nat) :
    Except Utf8.Miscut (Option Directive) := do
  let level ← Utf8.slice text start text.utf8ByteSize
  if level.isEmpty then return some { directive with ceiling := .upTo .trace }
  else return (Ceiling.ofText? level).map fun ceiling => { directive with ceiling }

def ofTail (directive : Directive) (text : String) (start : Nat) :
    List Char → Except Utf8.Miscut (Option Directive)
  | [] => .ok (some directive)
  | '=' :: _ => directive.withLevel text (start + 1)
  | _ => .ok none

def ofField (directive : Directive) (text : String) (start : Nat) (rest : List Char) :
    Except Utf8.Miscut (Option Directive) :=
  let demand := rest.takeWhile (· ≠ '\x7d')
  let stop := start + Utf8.width demand
  match rest.dropWhile (· ≠ '\x7d') with
  | [] => .ok none
  | _ :: rest => do
      let field ← Utf8.slice text start stop
      match rest with
      | ']' :: rest =>
          if field.isEmpty then return none
          else ofTail { directive with field := some (.ofText field) } text (stop + 2) rest
      | _ => return none

def ofSpan (directive : Directive) (text : String) (start : Nat) (rest : List Char) :
    Except Utf8.Miscut (Option Directive) :=
  let name := rest.takeWhile (!endsSpan ·)
  let stop := start + Utf8.width name
  match rest.dropWhile (!endsSpan ·) with
  | ']' :: rest => do
      let span ← Utf8.slice text start stop
      ofTail { directive with span := some span } text (stop + 1) rest
  | '\x7b' :: rest => do
      let span ← Utf8.slice text start stop
      ofField { directive with span := if span.isEmpty then none else some span } text (stop + 1)
        rest
  | _ => .ok none

/-- The directive that a text holds: `target[span{field}]=level`, any part of which may be absent.
The parts are found in the text without the blanks at its two ends, and are cut out at the same
places of the text as it stands, so that blanks before a directive shift what its parts are taken to
be. A part may then begin or end inside a character. -/
def ofText (text : String) : Except Utf8.Miscut (Option Directive) :=
  match Blank.trim text.toList with
  | [] => .ok none
  | '[' :: rest => ofSpan everything text 1 rest
  | opening :: rest =>
      let trimmed := opening :: rest
      if !isOpening opening then .ok none
      else
        let head := trimmed.takeWhile (!endsTarget ·)
        let stop := Utf8.width head
        match trimmed.dropWhile (!endsTarget ·) with
        | '=' :: _ => do
            let target ← Utf8.slice text 0 stop
            { everything with target := some target }.withLevel text (stop + 1)
        | '[' :: rest => do
            let target ← Utf8.slice text 0 stop
            ofSpan { everything with target := some target } text (stop + 1) rest
        | _ => .ok (some (ofWord text))

def coversTarget (directive : Directive) (target : String) : Bool :=
  match directive.target with
  | none => true
  | some start => start.toList.isPrefixOf target.toList

/-- Whether the directive is about an entry wherever it is made. One that asks for a value is not,
since only spans are looked at for values. -/
def covers (directive : Directive) (entry : Entry) : Bool :=
  directive.span.isNone && directive.coversTarget entry.target &&
    match directive.field with
    | none => true
    | some field => !field.hasValue && entry.hasField field.name

/-- Whether the directive is about all that happens in a span. Spans have no fields. -/
def reaches (directive : Directive) (span : Span) : Bool :=
  directive.span == some span.name && directive.field.isNone && directive.coversTarget span.target

/-- The longer the beginning of targets that a directive names, the more it is about. -/
def precision (directive : Directive) : Nat :=
  match directive.target with
  | none => 0
  | some start => start.utf8ByteSize + 1

/-- Whether a directive goes before another one: by the target, then by the field. -/
def isFiner (directive other : Directive) : Bool :=
  other.precision < directive.precision ||
    (other.precision == directive.precision &&
      match directive.field, other.field with
      | some _, none => true
      | some field, some coarse => coarse.name < field.name
      | none, _ => false)

/-- Whether two directives are about the same, so that the later one counts. -/
def sameScope (directive other : Directive) : Bool :=
  directive.target == other.target && directive.span == other.span && directive.field == other.field

end Directive

end AuctionLog
