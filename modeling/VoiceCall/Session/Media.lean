import VoiceCall.Session.Basic

namespace VoiceCall.Session

def take (now : Nat) (s : Session) : Media.Delivery → Session
  | .packet header payload =>
    let (hub, receiver, notice) := s.receiver.onPacket s.hub header payload now
    { s with hub := hub, receiver := receiver, notices := s.notices ++ notice.toList }
  | .fault fault => { s with notices := s.notices ++ [Receiver.onFault fault] }

def receive (now : Nat) (s : Session) : Session :=
  match s.link with
  | none => s
  | some link =>
    let (link, deliveries) := link.receiveAll
    deliveries.foldl (take now) { s with link := some link }

def silenceFrame : Octets := [0xf8, 0xff, 0xfe]

def silenceCount : Nat := 5

def sendSilence : Nat → Session → Session × Option Fault
  | 0, s => (s, none)
  | count + 1, s =>
    match s.link with
    | none => (s, some .notConnected)
    | some link =>
      let (link, datagrams, result) := link.send s.network silenceFrame
      let s := { s with link := some link, datagrams := s.datagrams ++ datagrams }
      match result with
      | .ok _ => sendSilence count s
      | .error fault => (s, some fault)

/-- Sends a frame of the microphone. One that cannot be sent is lost. -/
def sendFrame (s : Session) (frame : Octets) : Session :=
  match s.link with
  | none => s
  | some link =>
    let (link, datagrams, _) := (Media.Outbox.empty.put frame).flush link s.network
    { s with link := some link, datagrams := s.datagrams ++ datagrams }

def deviceFailed (s : Session) (direction : String) (fault : Fault) : Session :=
  s.emit (.deviceError (direction ++ ": " ++ fault.message))

def captureWord : String := "capture"

def playbackWord : String := "playback"

/-- The pipeline behind the microphone, and the thread that sends what it gives. -/
def startPipeline (env : Surroundings) (h : Hub) : Except Fault Microphone.Pipeline :=
  match env.startThread .sender with
  | .error fault => .error fault
  | .ok () => Microphone.Pipeline.create env.dsp h.microphone

def startPlayback (env : Surroundings) (s : Session) : Session :=
  match Sound.PlaybackStream.openOn env.host s.hub.settings.outputDevice with
  | .ok stream => { s with playback := some { stream with line := stream.line.start } }
  | .error fault => s.deviceFailed playbackWord fault

def startCapture (env : Surroundings) (s : Session) : Session × Option Fault :=
  match startPipeline env s.hub with
  | .error fault => (s, some fault)
  | .ok pipeline =>
    match Sound.CaptureStream.openOn env.host s.hub.settings.inputDevice with
    | .ok stream =>
      ({ s with intake := some ⟨{ stream with line := stream.line.start }, pipeline⟩ }, none)
    | .error fault => (s.deviceFailed captureWord fault, none)

def startMedia (env : Surroundings) (s : Session) : Session × Option Fault :=
  match s.link with
  | none => (s, some .notConnected)
  | some link =>
    match env.startThread .receiver with
    | .error fault => (s, some fault)
    | .ok () =>
      startCapture env (startPlayback env { s with link := some link.listen, receiver := .fresh })

def pollDevices (s : Session) : Session :=
  let s :=
    match s.intake.bind fun intake => intake.stream.line.checkFault.2 with
    | some message => { s with intake := none }.deviceFailed captureWord (.device message)
    | none => s
  match s.playback.bind fun stream => stream.line.checkFault.2 with
  | some message => { s with playback := none }.deviceFailed playbackWord (.device message)
  | none => s

/-- One period of the microphone goes through the pipeline and out. -/
def capturePeriod (dsp : Dsp) (s : Session) (stream : Sound.CaptureStream)
    (pipeline : Microphone.Pipeline) : List (List Sample) → Session
  | [] => { s with intake := some ⟨stream, pipeline⟩ }
  | period :: periods =>
    let (hub, pipeline, outcome) := s.hub.capture dsp pipeline period
    let s := { s with hub := hub }
    let s :=
      match outcome with
      | .sent frame => s.sendFrame frame
      | _ => s
    capturePeriod dsp s stream pipeline periods

/-- The microphone has heard something; false if none is open. -/
def captured (dsp : Dsp) (s : Session) (data : Sound.Block) : Session × Bool :=
  match s.intake with
  | none => (s, false)
  | some intake =>
    let (stream, periods) := intake.stream.feed data
    (capturePeriod dsp s stream intake.pipeline periods, true)

/-- What the mixer gives when it is asked for so many samples. -/
def renderer (now : Nat) : Sound.Renderer Hub := fun hub length =>
  let (hub, out) := hub.mix (.create Audio.periodLength) length now
  (out, hub)

/-- The sound device asks for one period; none if no device is open. -/
def pulled (s : Session) (now : Nat) : Session × Option Sound.Block :=
  match s.playback with
  | none => (s, none)
  | some stream =>
    let played := stream.pull (renderer now) s.hub
    ({ s with hub := played.source }, played.data)

def captureTrouble (s : Session) (trouble : Sound.Trouble) : Session × Bool :=
  match s.intake with
  | none => (s, false)
  | some intake =>
    ({ s with intake := some { intake with stream := intake.stream.suffer trouble } }, true)

def playbackTrouble (s : Session) (trouble : Sound.Trouble) (now : Nat) : Session × Bool :=
  match s.playback with
  | none => (s, false)
  | some stream =>
    let (stream, played) := stream.suffer (renderer now) trouble s.hub
    ({ s with playback := some stream, hub := played.source }, true)

end VoiceCall.Session
