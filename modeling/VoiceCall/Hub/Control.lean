import VoiceCall.Hub.Basic

namespace VoiceCall

inductive Control where
  | muteSpeaker (ssrc : UInt32) (muted : Bool)
  | setSpeakerGain (ssrc : UInt32) (gain : Sample)
  | removeSpeaker (ssrc : UInt32)
  | deafen (deafened : Bool)
  | setMasterGain (gain : Sample)
  | transmit (transmitting : Bool)
  | setBitrate (bitrate : Int)
  | setVadMethod (method : VadMethod)
  | updateSettings (settings : Settings)
deriving DecidableEq

/-- The hub after a change. Changes of a speaker that is not there do nothing. -/
def Hub.control (dsp : Dsp) (h : Hub) : Control → Hub
  | .muteSpeaker ssrc muted => (h.setSpeakerMuted ssrc muted).1
  | .setSpeakerGain ssrc gain => (h.setSpeakerGain ssrc gain).1
  | .removeSpeaker ssrc => (h.removeSpeaker dsp ssrc).1
  | .deafen deafened => h.setDeafened deafened
  | .setMasterGain gain => h.setMasterGain gain
  | .transmit transmitting => h.setTransmitting transmitting
  | .setBitrate bitrate => { h with microphone := { h.microphone with bitrate := bitrate } }
  | .setVadMethod method => { h with microphone := { h.microphone with vadMethod := method } }
  | .updateSettings settings => h.updateSettings settings

end VoiceCall
