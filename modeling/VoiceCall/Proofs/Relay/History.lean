import VoiceCall.Relay.Handshake

namespace VoiceCall.Proofs.Relay.History

open VoiceCall.Relay

inductive Call where
  | opened
  | close
  | message (received : Message)
  | discovered (address : Packet.Discovery.Address)

/-- The handshake after a call, and its reply. Opening and closing are not replied to. -/
def Call.apply (h : Handshake) : Call → Handshake × Reply
  | .opened => (h.opened, .actions [])
  | .close => (h.close, .actions [])
  | .message received => h.onMessage received
  | .discovered address => h.onDiscovered address

/-- The handshake of an identity after a history. Histories list the latest call first. -/
def after (identity : Identity) : List Call → Handshake
  | [] => .start identity
  | call :: earlier => (call.apply (after identity earlier)).1

end VoiceCall.Proofs.Relay.History
