import AuctionLog.ServedRequest

namespace AuctionLog

open Json

/-- The request of an event as a record tells of it, with one value per name. -/
structure RequestView where
  headers : List (String × String)
  queryParams : List (String × String)
  remoteHost : Option String
  httpMethod : Option String
  absoluteUri : Option String
  scheme : Option String
  body : Option String
  refererHeader : Option String
  userAgent : Option String
deriving DecidableEq

namespace RequestView

def ofRequest (request : ServedRequest) : RequestView :=
  { headers := request.headers.single
    queryParams := (request.queryParams.getD .empty).single
    remoteHost := request.remoteHost
    httpMethod := request.method.map (·.name)
    absoluteUri := request.absoluteUri
    scheme := request.scheme
    body := request.body
    refererHeader := request.headers.get? "Referer"
    userAgent := request.headers.get? "User-Agent" }

/-- The members of a record that tell of the request; the two maps are always among them. -/
def members (view : RequestView) : Members :=
  [ ("headers", NamedValues.textMembers view.headers)
  , ("queryParams", NamedValues.textMembers view.queryParams) ] ++
    member? "remoteHost" (view.remoteHost.map .str) ++
    member? "httpMethod" (view.httpMethod.map .str) ++
    member? "absoluteUri" (view.absoluteUri.map .str) ++
    member? "scheme" (view.scheme.map .str) ++
    member? "body" (view.body.map .str) ++
    member? "refererHeader" (view.refererHeader.map .str) ++
    member? "userAgent" (view.userAgent.map .str)

def toJson (view : RequestView) : Json :=
  .obj view.members

end RequestView

end AuctionLog
