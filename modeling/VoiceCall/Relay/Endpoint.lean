namespace VoiceCall.Relay

/-- The protocol version asked for in the URL. -/
def protocolVersion : Nat := 4

def trimSlashes (endpoint : List Char) : List Char :=
  (endpoint.reverse.dropWhile (· == '/')).reverse

def hasScheme (endpoint : List Char) : Bool :=
  "ws://".toList.isPrefixOf endpoint || "wss://".toList.isPrefixOf endpoint

/-- The URL of an endpoint, secure unless the endpoint names a scheme itself. -/
def url (endpoint : String) : String :=
  let base := trimSlashes endpoint.toList
  let address := if hasScheme base then base else "wss://".toList ++ base
  String.ofList (address ++ "/?v=".toList ++ (toString protocolVersion).toList)

end VoiceCall.Relay
