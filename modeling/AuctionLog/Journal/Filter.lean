import AuctionLog.Journal.Directive
import AuctionLog.Sink.Basic

namespace AuctionLog

/-- Rules on which entries of the journal are let through, at most one of each scope. -/
abbrev Filter := List Directive

namespace Filter

/-- Adds a rule, in place of one of the same scope. -/
def add (filter : Filter) (directive : Directive) : Filter :=
  filter.filter (fun other => !other.sameScope directive) ++ [directive]

/-- The pieces of a comma-separated text. -/
def pieces (text : String) : List String :=
  (text.toList.splitOn ',').map String.ofList

/-- The directives of a comma-separated text; what is none of them is passed over. -/
def directives (text : String) : Except Utf8.Miscut (List Directive) :=
  return (← (pieces text).mapM Directive.ofText).filterMap id

/-- The rules of a text, or one rule for all targets when the text has none. -/
def ofText (default : Ceiling) (text : String) : Except Utf8.Miscut Filter := do
  match ← directives text with
  | [] => return [.everywhere default]
  | found => return found.foldl add []

def ruleFor? (filter : Filter) (entry : Entry) : Option Directive :=
  (filter.filter (·.covers entry)).foldl (fun best directive =>
    match best with
    | none => some directive
    | some other => if directive.isFiner other then some directive else best) none

def allowsInSpan (filter : Filter) (entry : Entry) : Bool :=
  match entry.span with
  | none => false
  | some span =>
      filter.any fun directive => directive.reaches span && directive.ceiling.allows entry.level

/-- Whether an entry is let through: for the span that it is made in, or by the finest rule about
it. An entry without a rule is not. -/
def allows (filter : Filter) (entry : Entry) : Bool :=
  filter.allowsInSpan entry ||
    match filter.ruleFor? entry with
    | none => false
    | some directive => directive.ceiling.allows entry.level

/-- Lets records through, whatever the rules for other targets say. -/
def pinRecords (filter : Filter) : Filter :=
  filter.add (.ofTarget recordTarget (.upTo .info))

/-- The filter of the service: the rules of the environment if there are any, and else the level. -/
def ofLevel (level : Level) (rules : Option String) : Except Utf8.Miscut Filter :=
  (ofText (.upTo level) (rules.getD "")).map pinRecords

/-- A filter of explicit rules, which without any lets errors through. -/
def ofRules (rules : String) : Except Utf8.Miscut Filter :=
  ofText (.upTo .error) rules

def select (filter : Filter) (entries : List Entry) : List Entry :=
  entries.filter filter.allows

end Filter

end AuctionLog
