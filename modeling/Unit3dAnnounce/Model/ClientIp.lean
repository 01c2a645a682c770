import Unit3dAnnounce.Model.Environment

/-!
# Client addresses

Behind a reverse proxy, the address of a client is the one that the proxy has appended to a header.
-/

namespace Unit3dAnnounce

/-- `HeaderMap::get_all`, in the order of the request. A name is looked up in lower case. -/
def HeaderMap.getAll (headers : HeaderMap) (name : Text) : List (List UInt8) :=
  (headers.filter fun header => utf8 header.1 = name.toAsciiLowercase).map Prod.snd

def comma : UInt8 := 0x2C

/-- We need the right-most ip, which should be included in the last header. -/
def proxiedIp (values : List (List UInt8)) : Option IpAddr := do
  let value ← values.getLast?
  let text ← headerToStr value
  let ip ← (text.splitOn comma).getLast?
  IpAddr.fromStr (Text.trim ip)

/-- Without a configured header, the connecting ip is used. There is none behind a Unix socket. -/
def ClientIp.fromRequestParts {F : Type} (config : Config F) (headers : HeaderMap)
    (connectInfo : Option SocketAddr) : Except AnnounceError IpAddr :=
  match config.reverseProxyClientIpHeaderName with
  | some header => okOr .internalTrackerError (proxiedIp (headers.getAll header))
  | none => okOr .internalTrackerError (connectInfo.map SocketAddr.ip)

end Unit3dAnnounce
