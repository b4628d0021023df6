import VoiceCall.Media.Outbox
import VoiceCall.Proofs.Media.Numbering

namespace VoiceCall.Proofs.Media.Streams

open VoiceCall.Media
open VoiceCall.Packet
open VoiceCall.Proofs.Media.Numbering
open VoiceCall.Proofs.Media.Sending

/-- The datagrams of some units, sealed one after the other, and how far the counters of packets and
units have come with them. A unit that is cut off takes up one number more than it sends. -/
inductive Stream (key : Octets) (ssrc : UInt32) (packets units : Nat) :
    List Octets → Nat → Nat → Prop where
  | nil : Stream key ssrc packets units [] packets units
  | sent {datagrams more : List Octets} {packets' units' : Nat} (unit : Octets) :
      Stream key ssrc packets units datagrams packets' units' →
        more.map .ok = sealPieces key ssrc (counted packets' (units' + 1))
          (Packetizer.standard.fragment unit) →
          Stream key ssrc packets units (datagrams ++ more) (packets' + more.length) (units' + 1)
  | cut {datagrams more : List Octets} {packets' units' : Nat} (unit : Octets) :
      Stream key ssrc packets units datagrams packets' units' →
        more.map .ok <+: sealPieces key ssrc (counted packets' (units' + 1))
          (Packetizer.standard.fragment unit) →
          more.length < (Packetizer.standard.fragment unit).length →
            Stream key ssrc packets units (datagrams ++ more) (packets' + (more.length + 1))
              (units' + 1)

theorem Stream.append {key : Octets} {ssrc : UInt32}
    {packets units packets' units' packets'' units'' : Nat} {datagrams more : List Octets}
    (hfirst : Stream key ssrc packets units datagrams packets' units')
    (hsecond : Stream key ssrc packets' units' more packets'' units'') :
    Stream key ssrc packets units (datagrams ++ more) packets'' units'' := by
  induction hsecond with
  | nil =>
      rw [List.append_nil]
      exact hfirst
  | sent unit _ hsealed ih =>
      rw [← List.append_assoc]
      exact .sent unit ih hsealed
  | cut unit _ hsealed hshort ih =>
      rw [← List.append_assoc]
      exact .cut unit ih hsealed hshort

/-- Between two moments a link keeps its key, and sends a stream if it has one. -/
structure Passed (l l' : Link) (more : List Octets) : Prop where
  ssrc : l'.ssrc = l.ssrc
  key : l'.key = l.key
  mute : l.key = none → l'.sequencer = l.sequencer ∧ more = []
  stream : ∀ {key : Octets} {packets units : Nat}, l.key = some key →
    l.sequencer = counted packets units → ∃ packets' units',
      l'.sequencer = counted packets' units' ∧ Stream key l.ssrc packets units more packets' units'

theorem passed_of_sender_eq {l l' : Link} (hssrc : l'.ssrc = l.ssrc) (hkey : l'.key = l.key)
    (hsequencer : l'.sequencer = l.sequencer) : Passed l l' [] where
  ssrc := hssrc
  key := hkey
  mute _ := ⟨hsequencer, rfl⟩
  stream _ hcounted := ⟨_, _, hsequencer.trans hcounted, .nil⟩

theorem Passed.refl (l : Link) : Passed l l [] :=
  passed_of_sender_eq rfl rfl rfl

theorem Passed.trans {l l' l'' : Link} {more more' : List Octets} (hfirst : Passed l l' more)
    (hsecond : Passed l' l'' more') : Passed l l'' (more ++ more') where
  ssrc := hsecond.ssrc.trans hfirst.ssrc
  key := hsecond.key.trans hfirst.key
  mute hkey := by
    obtain ⟨hsequencer, rfl⟩ := hfirst.mute hkey
    obtain ⟨hsequencer', rfl⟩ := hsecond.mute (hfirst.key.trans hkey)
    exact ⟨hsequencer'.trans hsequencer, rfl⟩
  stream hkey hcounted := by
    obtain ⟨packets, units, hcounted', hstream⟩ := hfirst.stream hkey hcounted
    obtain ⟨packets', units', hcounted'', hstream'⟩ :=
      hsecond.stream (hfirst.key.trans hkey) hcounted'
    rw [hfirst.ssrc] at hstream'
    exact ⟨packets', units', hcounted'', hstream.append hstream'⟩

theorem passed_send (l : Link) (network : Network) (unit : Octets) :
    Passed l (l.send network unit).1 (l.send network unit).2.1 where
  ssrc := ssrc_send l network unit
  key := key_send l network unit
  mute hkey := by simp [Link.send, hkey]
  stream hkey hcounted := by
    obtain ⟨datagrams, count, fault, hsent, htaken⟩ := send_counted hkey hcounted network unit
    have hlength := length_sealing hkey unit
    rw [sealing, hkey] at htaken hlength
    simp only [hcounted, nextUnit_counted] at htaken hlength
    rw [hsent]
    refine ⟨_, _, rfl, ?_⟩
    cases htaken with
    | all _ hall => exact Stream.nil.sent unit hall
    | cut _ _ hbegins hshort => exact Stream.nil.cut unit hbegins (hlength ▸ hshort)

theorem passed_sendAll (l : Link) (network : Network) (frames : List Octets) :
    Passed l (Outbox.sendAll l network frames).1 (Outbox.sendAll l network frames).2 := by
  induction frames generalizing l with
  | nil => exact .refl l
  | cons frame frames ih => exact (passed_send l network frame).trans (ih _)

theorem passed_arrive (l : Link) (arrivals : List Arrival) : Passed l (l.arrive arrivals) [] :=
  passed_of_sender_eq rfl rfl rfl

theorem passed_listen (l : Link) : Passed l l.listen [] :=
  passed_of_sender_eq rfl rfl rfl

theorem passed_receiveAll (l : Link) : Passed l l.receiveAll.1 [] := by
  obtain ⟨hsequencer, hkey, hssrc⟩ := receiveFor_sender l.inbox.length l
  exact passed_of_sender_eq hssrc hkey hsequencer

end VoiceCall.Proofs.Media.Streams
