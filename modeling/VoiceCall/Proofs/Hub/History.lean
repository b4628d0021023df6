import Mathlib.Logic.Relation
import VoiceCall.Proofs.Hub.Bookkeeping

namespace VoiceCall.Proofs.Hub.History

open VoiceCall.Proofs.Hub.Bookkeeping
open VoiceCall.Proofs.Speaker.Keys

inductive Call where
  | addSpeaker (ssrc : UInt32) (user : Option String)
  | removeSpeaker (ssrc : UInt32)
  | removeUser (user : String)
  | admitUnknown (ssrc : UInt32)
  | packet (header : Packet.Header) (payload : Octets) (now : Nat)
  | decode (place : Nat)
  | setLocalSsrc (ssrc : UInt32)
  | control (change : Control)
  | mix (mixer : Playback.Mixer) (length now : Nat)
  | capture (pipeline : Microphone.Pipeline) (pcm : List Sample)
  | shutdown

def Call.apply (dsp : Dsp) (h : Hub) : Call → Hub
  | addSpeaker ssrc user => (h.addSpeaker dsp ssrc user).1
  | removeSpeaker ssrc => (h.removeSpeaker dsp ssrc).1
  | removeUser user => (h.removeUser dsp user).1
  | admitUnknown ssrc => (h.admitUnknown dsp ssrc).1
  | packet header payload now => (h.handlePacket header payload now).1
  | decode place => h.decode dsp place
  | setLocalSsrc ssrc => h.setLocalSsrc ssrc
  | control change => h.control dsp change
  | mix mixer length now => (h.mix mixer length now).1
  | capture pipeline pcm => (h.capture dsp pipeline pcm).1
  | shutdown => h.shutdown dsp

/-- The hub of some settings after a history. Histories list the latest call first. -/
def after (dsp : Dsp) (settings : Settings) : List Call → Hub
  | [] => .create settings
  | call :: earlier => call.apply dsp (after dsp settings earlier)

/-- The sources whose departure a call lifts: those that are announced, and those that were heard
and had not departed. -/
def Call.Welcomes (h : Hub) : Call → UInt32 → Prop
  | addSpeaker ssrc _, other => other = ssrc
  | admitUnknown ssrc, other => other = ssrc ∧ other ∉ h.departed
  | _, _ => False

theorem ledger_deliver (h : Hub) (s : Speaker) (payload : Octets) (now : Nat) :
    ledger (h.deliver s payload now).1 = ledger h := by
  rw [Hub.deliver]
  split <;> rfl

theorem ledger_handlePacket (h : Hub) (header : Packet.Header) (payload : Octets) (now : Nat) :
    ledger (h.handlePacket header payload now).1 = ledger h := by
  rw [Hub.handlePacket]
  split
  · rfl
  · rfl
  · exact ledger_deliver h _ payload now

theorem ledger_modifySpeaker (h : Hub) (ssrc : UInt32) {f : Speaker → Speaker}
    (hf : ∀ s, entryOf (f s) = entryOf s) :
    ledger (h.modifySpeaker ssrc f fun s => ssrc_of_entryOf (hf s)).1 = ledger h := by
  have hspeakers : (h.roster.modify ssrc f fun s => ssrc_of_entryOf (hf s)).speakers.map entryOf =
      h.roster.speakers.map entryOf := by
    rw [speakers_modify, List.map_map]
    refine List.map_congr_left fun s _ => ?_
    rw [Function.comp_apply]
    split
    · exact hf s
    · rfl
  simp only [ledger, Hub.modifySpeaker, hspeakers]

theorem ledger_setSpeakerMuted (h : Hub) (ssrc : UInt32) (muted : Bool) :
    ledger (h.setSpeakerMuted ssrc muted).1 = ledger h :=
  ledger_modifySpeaker h ssrc (f := (·.setMuted muted)) fun _ => rfl

theorem ledger_setSpeakerGain (h : Hub) (ssrc : UInt32) (gain : Sample) :
    ledger (h.setSpeakerGain ssrc gain).1 = ledger h :=
  ledger_modifySpeaker h ssrc (f := (·.setGain gain)) fun _ => rfl

theorem entry_control (dsp : Dsp) (h : Hub) (change : Control) :
    Entry (fun _ => False) (ledger h) (ledger (h.control dsp change)) := by
  cases change with
  | muteSpeaker ssrc muted =>
      rw [Hub.control, ledger_setSpeakerMuted]
      exact .kept
  | setSpeakerGain ssrc gain =>
      rw [Hub.control, ledger_setSpeakerGain]
      exact .kept
  | removeSpeaker ssrc => exact entry_removeSpeaker dsp h ssrc
  | _ => exact .kept

theorem ledger_mix (h : Hub) (mixer : Playback.Mixer) (length now : Nat) :
    ledger (h.mix mixer length now).1 = ledger h := by
  have hspeakers := Playback.map_mixChunks (f := entryOf) (fun _ _ _ => rfl) h.playback .none now
    (Playback.chunks mixer.scratch length) h.roster.speakers
  simp only [ledger, Hub.mix, Playback.Mixer.mix, speakers_replace, hspeakers]

/-- Apart from the end of it all, a call makes at most one entry. -/
theorem entry_apply (dsp : Dsp) (h : Hub) {call : Call} (hcall : call ≠ .shutdown) :
    Entry (call.Welcomes h) (ledger h) (ledger (call.apply dsp h)) := by
  cases call with
  | addSpeaker ssrc user => exact entry_addSpeaker dsp h ssrc user
  | removeSpeaker ssrc => exact entry_removeSpeaker dsp h ssrc
  | removeUser user => exact entry_removeUser dsp h user
  | admitUnknown ssrc => exact entry_admitUnknown dsp h ssrc
  | packet header payload now =>
      rw [Call.apply, ledger_handlePacket]
      exact .kept
  | decode place =>
      rw [Call.apply, ledger_decode]
      exact .kept
  | setLocalSsrc ssrc => exact .kept
  | control change => exact entry_control dsp h change
  | mix mixer length now =>
      rw [Call.apply, ledger_mix]
      exact .kept
  | capture pipeline pcm => exact .kept
  | shutdown => exact absurd rfl hcall

/-- Several entries that lift no departure. -/
def Entries : Ledger → Ledger → Prop :=
  Relation.ReflTransGen (Entry fun _ => False)

theorem registered_removeSpeaker (dsp : Dsp) (h : Hub) (ssrc : UInt32) :
    (ledger (h.removeSpeaker dsp ssrc).1).registered =
      (ledger h).registered.filter (·.1 ≠ ssrc) := by
  rw [Hub.removeSpeaker, Roster.remove]
  cases hfind : h.roster.find? ssrc with
  | none => exact (map_without_of_find? hfind).symm.trans (map_without h.roster ssrc)
  | some s =>
      dsimp only
      rw [ledger_speakerRemoved]
      exact map_without h.roster ssrc

theorem entries_removeAll (dsp : Dsp) (speakers : List Speaker) (h : Hub) :
    Entries (ledger h)
        (ledger (speakers.foldl (fun h s => (h.removeSpeaker dsp s.ssrc).1) h)) ∧
      (ledger (speakers.foldl (fun h s => (h.removeSpeaker dsp s.ssrc).1) h)).registered =
        (ledger h).registered.filter fun entry => ∀ s ∈ speakers, entry.1 ≠ s.ssrc := by
  induction speakers generalizing h with
  | nil => exact ⟨.refl, (List.filter_eq_self.mpr (by simp)).symm⟩
  | cons s speakers ih =>
      obtain ⟨hentries, hregistered⟩ := ih (h.removeSpeaker dsp s.ssrc).1
      refine ⟨.head (entry_removeSpeaker dsp h s.ssrc) hentries, ?_⟩
      rw [List.foldl_cons, hregistered, registered_removeSpeaker, List.filter_filter]
      refine List.filter_congr fun entry _ => ?_
      simp [Bool.and_comm]

theorem registered_removeAll (dsp : Dsp) (h : Hub) :
    (ledger (h.roster.speakers.foldl (fun h s => (h.removeSpeaker dsp s.ssrc).1) h)).registered =
      [] := by
  rw [(entries_removeAll dsp h.roster.speakers h).2, List.filter_eq_nil_iff]
  rintro entry hmem hnone
  obtain ⟨s, hs, rfl⟩ := List.mem_map.mp hmem
  exact of_decide_eq_true hnone s hs rfl

theorem entries_shutdown (dsp : Dsp) (h : Hub) :
    ∃ l, Entries (ledger h) l ∧ ledger (h.shutdown dsp) = { l with departed := [] } := by
  let removed := h.roster.speakers.foldl (fun h s => (h.removeSpeaker dsp s.ssrc).1) h
  refine ⟨ledger removed, (entries_removeAll dsp h.roster.speakers h).1, ?_⟩
  have hobeyed := ledger_obey dsp { removed with pool := removed.pool.clear }
  exact congrArg (fun l : Ledger => { l with departed := [] }) hobeyed

end VoiceCall.Proofs.Hub.History
