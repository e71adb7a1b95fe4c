import MessageBoard.Http.Handler

/-!
# The server

What surrounds the handling of every request: a time limit, and the headers that tell browsers which
pages may read the response. Unless the server lets everyone in, those are pages on this machine: on
the port of the server itself and on that of a page under development.
-/

namespace MessageBoard.Http

structure Server where
  port : UInt16
  permissive : Bool
  requestLimit : Duration
  callLimit : Duration
  deriving DecidableEq

namespace Server

variable (server : Server)

def developmentPort : UInt16 := 3000

def originOn (host : String) (port : UInt16) : String := s!"http://{host}:{port.toNat}"

def localOrigins : List String :=
  [developmentPort, server.port].flatMap fun port =>
    ["localhost", "127.0.0.1"].map (originOn · port)

def originHeaders (req : Request) : List (String × String) :=
  if server.permissive then [("access-control-allow-origin", "*")]
  else match req.header? "origin" with
    | some origin =>
      if server.localOrigins.contains origin then [("access-control-allow-origin", origin)] else []
    | none => []

/-- The response to someone who asks what may be asked. -/
def preflight (req : Request) : Response where
  status := 200
  headers :=
    server.originHeaders req ++
      [("access-control-allow-methods", "*"), ("access-control-allow-headers", "*")] ++
      ((Route.ofPath req.target.path).map fun route => ("allow", route.allow)).toList
  body := .empty

/-- The limit of a single operation counts only where it is the shorter one. -/
def operationLimit : Option Duration :=
  if server.requestLimit.nanos ≤ server.callLimit.nanos then none else some server.callLimit

def respond (fresh : Uuid) (req : Request) : Program Response :=
  if req.method = "OPTIONS" then .done (server.preflight req)
  else
    ((handle server.operationLimit fresh req).within server.requestLimit (.ofStatus 408)).bind
      fun r => .done (r.addHeaders (server.originHeaders req))

end Server

end MessageBoard.Http
