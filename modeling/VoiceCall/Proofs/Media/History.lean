import VoiceCall.Media.Link

namespace VoiceCall.Proofs.Media.History

open VoiceCall.Media

inductive Call where
  | setSsrc (ssrc : UInt32)
  | installKey (key : Octets)
  | send (network : Network) (unit : Octets)
  | discover (network : Network) (timeout : Nat)
  | arrive (arrivals : List Arrival)
  | listen
  | receive

def Call.apply (l : Link) : Call → Link
  | .setSsrc ssrc => l.setSsrc ssrc
  | .installKey key => l.installKey key
  | .send network unit => (l.send network unit).1
  | .discover network timeout => (l.discover network timeout).1
  | .arrive arrivals => l.arrive arrivals
  | .listen => l.listen
  | .receive => l.receiveAll.1

/-- The link after so many calls. -/
def after (l : Link) (calls : List Call) : Link :=
  calls.foldl Call.apply l

end VoiceCall.Proofs.Media.History
