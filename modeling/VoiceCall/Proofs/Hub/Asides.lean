import VoiceCall.Hub.Control
import VoiceCall.Hub.Receiver
import VoiceCall.Session.Speakers

namespace VoiceCall.Proofs.Hub.Asides

def isMilestone : Event → Bool
  | .stateChanged _ => true
  | .connected _ => true
  | .disconnected _ => true
  | _ => false

/-- Between two moments a hub has told no milestone. -/
def Aside (h h' : Hub) : Prop :=
  ∃ told, h'.events = h.events ++ told ∧ told.filter isMilestone = []

theorem aside_of_events_eq {h h' : Hub} (heq : h'.events = h.events) : Aside h h' :=
  ⟨[], by rw [heq, List.append_nil], rfl⟩

theorem Aside.refl (h : Hub) : Aside h h :=
  aside_of_events_eq rfl

theorem Aside.trans {h h' h'' : Hub} (hfirst : Aside h h') (hsecond : Aside h' h'') :
    Aside h h'' := by
  obtain ⟨first, hevents, hnone⟩ := hfirst
  obtain ⟨second, hevents', hnone'⟩ := hsecond
  refine ⟨first ++ second, ?_, ?_⟩
  · rw [hevents', hevents, List.append_assoc]
  · rw [List.filter_append, hnone, hnone', List.append_nil]

theorem aside_decode (dsp : Dsp) (place : Nat) (h : Hub) : Aside h (h.decode dsp place) := by
  refine aside_of_events_eq ?_
  rw [Hub.decode]
  split <;> rfl

theorem aside_emit (h : Hub) {event : Event} (hevent : isMilestone event = false) :
    Aside h (h.emit event) :=
  ⟨[event], rfl, by simp [hevent]⟩

theorem aside_foldl {α : Type} {f : Hub → α → Hub} (hf : ∀ h x, Aside h (f h x)) (xs : List α)
    (h : Hub) : Aside h (xs.foldl f h) := by
  induction xs generalizing h with
  | nil => exact .refl h
  | cons x xs ih => exact (hf h x).trans (ih (f h x))

theorem aside_addSpeaker (dsp : Dsp) (h : Hub) (ssrc : UInt32) (user : Option String) :
    Aside h (h.addSpeaker dsp ssrc user).1 := by
  rw [Hub.addSpeaker]
  dsimp only
  split
  · exact aside_of_events_eq rfl
  · split
    · exact ⟨[.speakerJoined ssrc user], rfl, rfl⟩
    · exact aside_of_events_eq rfl

theorem aside_removeSpeaker (dsp : Dsp) (h : Hub) (ssrc : UInt32) :
    Aside h (h.removeSpeaker dsp ssrc).1 := by
  rw [Hub.removeSpeaker]
  split
  · exact ⟨[.speakerLeft _ _], rfl, rfl⟩
  · exact aside_of_events_eq rfl

theorem aside_removeUser (dsp : Dsp) (h : Hub) (user : String) :
    Aside h (h.removeUser dsp user).1 := by
  rw [Hub.removeUser]
  split
  · exact ⟨[.speakerLeft _ _], rfl, rfl⟩
  · exact aside_of_events_eq rfl

theorem aside_admitUnknown (dsp : Dsp) (h : Hub) (ssrc : UInt32) :
    Aside h (h.admitUnknown dsp ssrc).1 := by
  rw [Hub.admitUnknown]
  split
  · exact .refl h
  · exact aside_addSpeaker dsp h ssrc none

theorem aside_reassign (dsp : Dsp) (h : Hub) (ssrc : UInt32) (user : String) : Aside h
    ((match h.roster.ssrcOfUser user with
      | some previous => (h.removeSpeaker dsp previous).1
      | none => h).addSpeaker dsp ssrc (some user)).1 := by
  refine .trans ?_ (aside_addSpeaker dsp _ ssrc (some user))
  split
  · exact aside_removeSpeaker dsp h _
  · exact .refl h

theorem aside_mapSpeaker (dsp : Dsp) (h : Hub) (ssrc : UInt32) (user : String) :
    Aside h (Session.mapSpeaker dsp h ssrc user) := by
  rw [Session.mapSpeaker]
  split
  · split
    · exact .refl h
    · exact (aside_removeSpeaker dsp h ssrc).trans (aside_reassign dsp _ ssrc user)
  · exact aside_reassign dsp h ssrc user

theorem aside_shutdown (dsp : Dsp) (h : Hub) : Aside h (h.shutdown dsp) := by
  have hremoved := aside_foldl (fun h s => aside_removeSpeaker dsp h s.ssrc) h.roster.speakers h
  exact hremoved.trans (aside_of_events_eq rfl)

theorem aside_control (dsp : Dsp) (h : Hub) (change : Control) :
    Aside h (h.control dsp change) := by
  cases change with
  | removeSpeaker ssrc => exact aside_removeSpeaker dsp h ssrc
  | _ => exact aside_of_events_eq rfl

theorem events_deliver (h : Hub) (s : Speaker) (payload : Octets) (now : Nat) :
    (h.deliver s payload now).1.events = h.events := by
  rw [Hub.deliver]
  split <;> rfl

theorem events_handlePacket (h : Hub) (header : Packet.Header) (payload : Octets) (now : Nat) :
    (h.handlePacket header payload now).1.events = h.events := by
  rw [Hub.handlePacket]
  split
  · rfl
  · rfl
  · exact events_deliver h _ payload now

theorem aside_onPacket (r : Receiver) (h : Hub) (header : Packet.Header) (payload : Octets)
    (now : Nat) : Aside h (r.onPacket h header payload now).1 :=
  aside_of_events_eq (events_handlePacket h header payload now)

end VoiceCall.Proofs.Hub.Asides
