import VoiceCall.Decoding.Pool
import VoiceCall.Decoding.Task
import VoiceCall.Microphone.Pipeline
import VoiceCall.Playback.Mixer
import VoiceCall.Relay.Handshake

/-!
The hub of a call: what signaling, the receiving side and both audio sides share. It knows the
speakers, decodes for them, and tells its owner what happens.
-/

namespace VoiceCall

/-- What the owner of a hub is told. -/
inductive Event where
  | stateChanged (state : Relay.HandshakeState)
  /-- Media is flowing, and this source is ours. -/
  | connected (ssrc : UInt32)
  | speakerJoined (ssrc : UInt32) (user : Option String)
  | speakerLeft (ssrc : UInt32) (user : Option String)
  | speakerActivity (ssrc : UInt32) (user : Option String) (speaking : Bool)
  /-- A device failed; the other direction goes on. -/
  | deviceError (message : String)
  /-- The call is over, with a reason unless that was asked for. -/
  | disconnected (reason : Option String)
deriving DecidableEq, Repr

structure Hub where
  settings : Settings
  roster : Roster
  pool : Decoding.Pool Decoding.Task
  microphone : Microphone.Controls
  playback : Playback.Controls
  /-- Our own source number, zero while there is none. -/
  localSsrc : UInt32
  /-- Source numbers whose speakers were removed and not announced again. -/
  departed : List UInt32
  /-- The serial number of the next speaker. -/
  nextSerial : Nat
  /-- What has been told, in order. -/
  events : List Event

namespace Hub

/-- A hub without speakers, for settings brought into their ranges. -/
def create (settings : Settings) : Hub :=
  let settings := settings.sanitized
  { settings := settings
    roster := .empty
    pool := .create settings.maxDecodeWorkers.toNat settings.decodeQueueCapacity.toNat
    microphone := .ofSettings settings
    playback := .create settings.playbackGain
    localSsrc := 0
    departed := []
    nextSerial := 0
    events := [] }

/-- Takes over settings; what concerns devices and buffers waits for the next call. -/
def updateSettings (h : Hub) (settings : Settings) : Hub :=
  let settings := settings.sanitized
  { h with
    settings := settings
    microphone := h.microphone.apply settings
    playback := h.playback.setMasterGain settings.playbackGain }

def emit (h : Hub) (event : Event) : Hub :=
  { h with events := h.events ++ [event] }

def takeEvents (h : Hub) : List Event × Hub :=
  (h.events, { h with events := [] })

/-- Lets the worker at a place of the pool's list take a task up, or finish the one it has. -/
def decode (dsp : Dsp) (place : Nat) (h : Hub) : Hub :=
  match (h.pool.stepAt? place).bind h.pool.step? with
  | none => h
  | some (pool, none) => { h with pool := pool }
  | some (pool, some task) =>
    { h with pool := pool, roster := task.serve dsp h.roster }

/-- Works off what the pool's owner has begun; meanwhile the workers go on. -/
def obey (dsp : Dsp) (h : Hub) : Hub :=
  let (pool, roster) := h.pool.obey (Decoding.Task.serve dsp) h.roster
  { h with pool := pool, roster := roster }

/-- Brings the pool to one worker for each speaker, as far as it may have them. -/
def resizePool (dsp : Dsp) (h : Hub) : Hub :=
  obey dsp { h with pool := h.pool.resize h.roster.size }

def decodeWorkers (h : Hub) : Nat := h.pool.workerCount

def isDeparted (h : Hub) (ssrc : UInt32) : Bool :=
  h.departed.contains ssrc

/-- Registers a speaker unless its source number is taken, and says whether it did. A speaker that
had departed is welcome again. -/
def addSpeaker (dsp : Dsp) (h : Hub) (ssrc : UInt32) (user : Option String) : Hub × Bool :=
  let h := { h with departed := h.departed.filter (· ≠ ssrc) }
  if h.roster.contains ssrc then
    (h, false)
  else
    let speaker :=
      Speaker.create ssrc user h.nextSerial h.settings.jitterDesired h.settings.jitterMax
    let (roster, added) := h.roster.insert speaker
    if added then
      let h := resizePool dsp { h with roster := roster, nextSerial := h.nextSerial + 1 }
      (h.emit (.speakerJoined ssrc user), true)
    else
      (h, false)

def speakerRemoved (dsp : Dsp) (h : Hub) (s : Speaker) : Hub :=
  let h := { h with departed := if h.isDeparted s.ssrc then h.departed else s.ssrc :: h.departed }
  (resizePool dsp h).emit (.speakerLeft s.ssrc s.user)

def removeSpeaker (dsp : Dsp) (h : Hub) (ssrc : UInt32) : Hub × Bool :=
  match h.roster.remove ssrc with
  | (roster, some s) => (speakerRemoved dsp { h with roster := roster } s, true)
  | (roster, none) => ({ h with roster := roster }, false)

/-- Removes the speaker that the index names for a user and says whether there was one. -/
def removeUser (dsp : Dsp) (h : Hub) (user : String) : Hub × Bool :=
  match h.roster.removeUser user with
  | (roster, some s) => (speakerRemoved dsp { h with roster := roster } s, true)
  | (roster, none) => ({ h with roster := roster }, false)

/-- Registers a speaker of no known user for a source that was heard, unless it is our own or has
departed. -/
def admitUnknown (dsp : Dsp) (h : Hub) (ssrc : UInt32) : Hub × Bool :=
  if ssrc = h.localSsrc || h.isDeparted ssrc then (h, false) else addSpeaker dsp h ssrc none

def setLocalSsrc (h : Hub) (ssrc : UInt32) : Hub :=
  { h with localSsrc := ssrc }

def modifySpeaker (h : Hub) (ssrc : UInt32) (f : Speaker → Speaker)
    (hf : ∀ s, (f s).ssrc = s.ssrc) : Hub × Bool :=
  ({ h with roster := h.roster.modify ssrc f hf }, h.roster.contains ssrc)

def setSpeakerMuted (h : Hub) (ssrc : UInt32) (muted : Bool) : Hub × Bool :=
  h.modifySpeaker ssrc (·.setMuted muted) fun _ => rfl

def setSpeakerGain (h : Hub) (ssrc : UInt32) (gain : Sample) : Hub × Bool :=
  h.modifySpeaker ssrc (·.setGain gain) fun _ => rfl

/-- Removes every speaker, stops the workers and forgets who has departed. -/
def shutdown (dsp : Dsp) (h : Hub) : Hub :=
  let h := h.roster.speakers.foldl (fun h s => (removeSpeaker dsp h s.ssrc).1) h
  let h := obey dsp { h with pool := h.pool.clear }
  { h with departed := [], localSsrc := 0 }

def setDeafened (h : Hub) (deafened : Bool) : Hub :=
  { h with playback := { h.playback with deafened := deafened } }

def setMasterGain (h : Hub) (gain : Sample) : Hub :=
  { h with playback := h.playback.setMasterGain gain }

def setTransmitting (h : Hub) (transmitting : Bool) : Hub :=
  { h with microphone := { h.microphone with transmitting := transmitting } }

def mix (h : Hub) (m : Playback.Mixer) (length now : Nat) : Hub × List Sample :=
  let (roster, playback, out) := m.mix h.roster h.playback .none length now
  ({ h with roster := roster, playback := playback }, out)

def capture (dsp : Dsp) (h : Hub) (p : Microphone.Pipeline) (pcm : List Sample) :
    Hub × Microphone.Pipeline × Microphone.Outcome :=
  let (p, microphone, outcome) := p.process dsp h.microphone pcm
  ({ h with microphone := microphone }, p, outcome)

end Hub

end VoiceCall
