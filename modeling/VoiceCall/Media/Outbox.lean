import VoiceCall.Media.Link

namespace VoiceCall.Media

/-- Frames that wait to be sent, in order. -/
structure Outbox where
  frames : List Octets
deriving DecidableEq, Repr

namespace Outbox

/-- Frames that may wait at a time. -/
def capacity : Nat := 32

def empty : Outbox := ⟨[]⟩

/-- Queues a frame, cut to the largest one that is produced, or drops it if too many wait. -/
def put (o : Outbox) (frame : Octets) : Outbox :=
  if o.frames.length < capacity then
    ⟨o.frames ++ [frame.take Audio.maxFrameBytes]⟩
  else
    o

/-- Sends frames one after the other, whether or not the ones before them went out. -/
def sendAll (l : Link) (network : Network) : List Octets → Link × List Octets
  | [] => (l, [])
  | frame :: frames =>
    let (l, first, _) := l.send network frame
    let (l, rest) := sendAll l network frames
    (l, first ++ rest)

/-- Sends all frames that wait: the link, the datagrams, and the empty queue. -/
def flush (o : Outbox) (l : Link) (network : Network) : Link × List Octets × Outbox :=
  let (l, datagrams) := sendAll l network o.frames
  (l, datagrams, empty)

end Outbox

end VoiceCall.Media
