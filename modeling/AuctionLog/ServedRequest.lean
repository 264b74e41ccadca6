import AuctionLog.Decoder.Fields
import AuctionLog.NamedValues

namespace AuctionLog

open Json

def isTokenChar (char : Char) : Bool :=
  char.isAlphanum || "!#$%&'*+-.^_`|~".toList.contains char

/-- The name of an HTTP method: one or more token characters. -/
structure Method where
  name : String
  token : name.toList ≠ [] ∧ name.toList.all isTokenChar
deriving DecidableEq

def Method.ofName? (name : String) : Option Method :=
  if h : name.toList ≠ [] ∧ name.toList.all isTokenChar then some ⟨name, h⟩ else none

structure ServedRequest where
  headers : NamedValues
  queryParams : Option NamedValues
  remoteHost : Option String
  body : Option String
  scheme : Option String
  method : Option Method
  absoluteUri : Option String
deriving DecidableEq

namespace ServedRequest

def empty : ServedRequest :=
  { headers := .empty, queryParams := none, remoteHost := none, body := none, scheme := none
    method := none, absoluteUri := none }

/-- A method in any case, which is kept in upper case. -/
def methodDecoder : Decoder (Option Method) :=
  Decoder.text.optional.refine fun
    | none => .ok none
    | some name =>
        match Method.ofName? (Ascii.upper name) with
        | some method => .ok (some method)
        | none => .error .badMethod

def fields : List (Field ServedRequest) :=
  [ .defaulted "headers" NamedValues.decoder fun request value =>
      { request with headers := value }
  , .optional "queryParams" NamedValues.decoder fun request value =>
      { request with queryParams := value }
  , .optional "remoteHost" .text fun request value => { request with remoteHost := value }
  , .optional "body" .text fun request value => { request with body := value }
  , .optional "scheme" .text fun request value => { request with scheme := value }
  , .defaulted "httpMethod" methodDecoder fun request value => { request with method := value }
  , .optional "absoluteUri" .text fun request value => { request with absoluteUri := value } ]

def decoder : Decoder ServedRequest :=
  .record "HttpRequestContext" fields empty

end ServedRequest

end AuctionLog
