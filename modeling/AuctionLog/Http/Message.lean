import AuctionLog.Recorder.Outcome

namespace AuctionLog.Http.Target

def isSchemeChar (char : Char) : Bool :=
  char.isAlphanum || char == '+' || char == '-' || char == '.'

/-- What follows the scheme of a target in absolute form, from the authority on. -/
def afterScheme? (target : List Char) : Option (List Char) :=
  match target.dropWhile isSchemeChar with
  | ':' :: '/' :: '/' :: rest => some rest
  | _ => none

def endsPath (char : Char) : Bool :=
  char == '?' || char == '#'

def endsAuthority (char : Char) : Bool :=
  char == '/' || endsPath char

/-- The path of a target, without query and fragment. In absolute form it is what follows the
authority, or `/` when nothing does. An authority alone has no path; an asterisk is its own. -/
def path (target : String) : String :=
  match target.toList with
  | '/' :: rest => String.ofList ('/' :: rest.takeWhile (!endsPath ·))
  | ['*'] => "*"
  | other =>
      match afterScheme? other with
      | none => ""
      | some rest =>
          match (rest.dropWhile (!endsAuthority ·)).takeWhile (!endsPath ·) with
          | [] => "/"
          | path => String.ofList path

end AuctionLog.Http.Target

namespace AuctionLog.Http

structure Request where
  method : String
  /-- What the request is about: a path with a query if there is one, or a whole address. -/
  target : String
  body : List UInt8

def Request.path (request : Request) : String :=
  Target.path request.target

inductive Body where
  | text (text : String)
  | counts (counts : Counts)

structure Response where
  status : Nat
  contentType : Option String
  allow : Option String
  body : Body

namespace Response

def plainText : String := "text/plain; charset=utf-8"

def text (text : String) : Response :=
  ⟨200, some plainText, none, .text text⟩

def counts (counts : Counts) : Response :=
  ⟨200, some plainText, none, .counts counts⟩

def acknowledge (acknowledgment : Acknowledgment) : Response :=
  ⟨200, some "application/json", none, .text acknowledgment.toJson.compact⟩

def unreadable (fault : Json.Fault) (body : List UInt8) : Response :=
  ⟨400, some plainText, none, .text ("failed to parse request: " ++ fault.message body)⟩

def tooLarge : Response :=
  ⟨413, some plainText, none, .text "Failed to buffer the request body: length limit exceeded"⟩

def notFound : Response :=
  ⟨404, none, none, .text ""⟩

def notAllowed (allow : String) : Response :=
  ⟨405, none, some allow, .text ""⟩

/-- The response without its body, as a `HEAD` request is answered. -/
def head (response : Response) : Response :=
  { response with body := .text "" }

end Response

end AuctionLog.Http
