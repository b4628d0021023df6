import Mathlib.Algebra.Ring.Nat
import VoiceCall.Proofs.Media.Numbering

namespace VoiceCall.Proofs.Media.Outgoing

open VoiceCall.Media
open VoiceCall.Packet
open VoiceCall.Cipher
open VoiceCall.Proofs.Packet.Pieces
open VoiceCall.Proofs.Media.History
open VoiceCall.Proofs.Media.Sending
open VoiceCall.Proofs.Media.Numbering

/-- What became of a unit: the datagrams that went out, and what its sender was told. -/
structure Dispatch where
  sent : List Octets
  result : Except Fault Nat

def Dispatch.of (l : Link) (network : Network) (unit : Octets) : Dispatch :=
  ⟨(l.send network unit).2.1, (l.send network unit).2.2⟩

def Dispatch.accepted (d : Dispatch) : Bool :=
  d.result.isOk

/-- What became of the units of a history, in order. -/
def dispatches (l : Link) : List Call → List Dispatch
  | [] => []
  | call :: calls =>
    match call with
    | .send network unit => .of l network unit :: dispatches (call.apply l) calls
    | _ => dispatches (call.apply l) calls

/-- The key that a history leaves, from the one before it. -/
def keyBehind (key : Option Octets) : List Call → Option Octets
  | [] => key
  | .installKey key :: calls => keyBehind (some key) calls
  | _ :: calls => keyBehind key calls

/-- The source number that a history leaves, from the one before it. -/
def ssrcBehind (ssrc : UInt32) : List Call → UInt32
  | [] => ssrc
  | .setSsrc ssrc :: calls => ssrcBehind ssrc calls
  | _ :: calls => ssrcBehind ssrc calls

/-- The network is there whenever something is to be sent. -/
def Online (calls : List Call) : Prop :=
  ∀ network unit, .send network unit ∈ calls → network = .up

theorem Online.tail {call : Call} {calls : List Call} (h : Online (call :: calls)) :
    Online calls :=
  fun network unit hmem => h network unit (List.mem_cons_of_mem call hmem)

theorem key_after (l : Link) (calls : List Call) :
    (after l calls).key = keyBehind l.key calls := by
  induction calls generalizing l with
  | nil => rfl
  | cons call calls ih =>
      refine (ih (call.apply l)).trans ?_
      cases call with
      | send network unit => exact congrArg (keyBehind · calls) (key_send l network unit)
      | discover network timeout =>
          exact congrArg (keyBehind · calls) (discover_sender l network timeout).2.1
      | receive => exact congrArg (keyBehind · calls) (receiveFor_sender l.inbox.length l).2.1
      | installKey key => rfl
      | setSsrc ssrc => rfl
      | arrive arrivals => rfl
      | listen => rfl

theorem ssrc_after (l : Link) (calls : List Call) :
    (after l calls).ssrc = ssrcBehind l.ssrc calls := by
  induction calls generalizing l with
  | nil => rfl
  | cons call calls ih =>
      refine (ih (call.apply l)).trans ?_
      cases call with
      | send network unit => exact congrArg (ssrcBehind · calls) (ssrc_send l network unit)
      | discover network timeout =>
          exact congrArg (ssrcBehind · calls) (discover_sender l network timeout).2.2
      | receive => exact congrArg (ssrcBehind · calls) (receiveFor_sender l.inbox.length l).2.2
      | installKey key => rfl
      | setSsrc ssrc => rfl
      | arrive arrivals => rfl
      | listen => rfl

theorem send_of_no_key {l : Link} (hkey : l.key = none) (network : Network) (unit : Octets) :
    l.send network unit = (l, [], .error .noSecretKey) := by
  rw [Link.send, hkey]

/-- One unit moves the counters by the datagrams that went out, and by one if it was taken. -/
theorem sequencer_send {l : Link} {packets units : Nat}
    (hcounted : l.sequencer = counted packets units) (unit : Octets) :
    (l.send .up unit).1.sequencer =
      counted (packets + (Dispatch.of l .up unit).sent.length)
        (units + if (Dispatch.of l .up unit).accepted then 1 else 0) := by
  cases hkey : l.key with
  | none =>
      rw [Dispatch.of, send_of_no_key hkey]
      exact hcounted
  | some key =>
      obtain ⟨datagrams, count, fault, hsent, htaken⟩ := send_counted hkey hcounted .up unit
      rw [Dispatch.of, hsent]
      cases htaken with
      | all => rfl
      | cut _ hrefused => cases hrefused

/-- The counters tell how many datagrams went out and how many units were taken. -/
theorem sequencer_after {l : Link} {packets units : Nat} {calls : List Call}
    (hcounted : l.sequencer = counted packets units) (honline : Online calls) :
    (after l calls).sequencer =
      counted (packets + ((dispatches l calls).flatMap Dispatch.sent).length)
        (units + (dispatches l calls).countP Dispatch.accepted) := by
  induction calls generalizing l packets units with
  | nil => exact hcounted
  | cons call calls ih =>
      by_cases hcall : ∃ network unit, call = .send network unit
      · obtain ⟨network, unit, rfl⟩ := hcall
        obtain rfl : network = .up := honline network unit List.mem_cons_self
        rw [dispatches, List.flatMap_cons, List.length_append, List.countP_cons,
          Nat.add_comm (List.countP _ _), ← Nat.add_assoc, ← Nat.add_assoc]
        exact ih (sequencer_send hcounted unit) honline.tail
      · have hother : ∀ network unit, call ≠ .send network unit :=
          fun network unit heq => hcall ⟨network, unit, heq⟩
        have hnext : (call.apply l).sequencer = counted packets units :=
          (sequencer_apply hother l).trans hcounted
        have hpassed : dispatches l (call :: calls) = dispatches (call.apply l) calls := by
          cases call with
          | send network unit => exact absurd rfl (hother network unit)
          | _ => rfl
        rw [hpassed]
        exact ih hnext honline.tail

theorem exists_opened {key : Octets} {ssrc : UInt32} {packets units : Nat} {last : Sequencer}
    {datagrams pieces : List Octets}
    (h : Carried key ssrc (counted packets units) datagrams pieces last) :
    ∃ opened, datagrams.mapM (openPacket key) = .ok opened ∧ opened.map Prod.snd = pieces ∧
      ∀ (j : Nat) header payload, opened[j]? = some (header, payload) →
        header = .opus (.ofNat (packets + j + 1)) (.ofNat (Audio.periodLength * units)) ssrc := by
  generalize hs : counted packets units = s at h
  induction h generalizing packets with
  | nil s => exact ⟨[], rfl, rfl, by simp⟩
  | @cons s last datagram piece datagrams pieces hopened hrest ih =>
      subst hs
      obtain ⟨opened, hrestOpened, hpieces, hheaders⟩ := ih (nextPacket_counted packets units).symm
      refine ⟨(.opus (counted packets units).nextPacket.sequence (counted packets units).timestamp
        ssrc, piece) :: opened, ?_, ?_, ?_⟩
      · rw [List.mapM_cons, hopened, hrestOpened]
        rfl
      · rw [List.map_cons, hpieces]
      · intro j header payload hj
        cases j with
        | zero =>
            cases hj
            rw [nextPacket_counted]
            rfl
        | succ j =>
            rw [hheaders j header payload hj, Nat.add_right_comm packets 1 j,
              Nat.add_assoc packets j 1]

/-- While there is no key a unit is refused and nothing moves; with one it goes out in datagrams
that open to its pieces, numbered on from those of all units before it, under the one timestamp that
counts the units. -/
theorem units_numbered {sockets : Sockets} {host : String} {ssrc : UInt32} {link : Link}
    (hlink : Link.connect sockets host ssrc = .ok link) {calls : List Call} (honline : Online calls)
    (unit : Octets) :
    let l := after link calls
    let earlier := dispatches link calls
    let dispatch := Dispatch.of l .up unit
    (keyBehind none calls = none → l.send .up unit = (l, [], .error .noSecretKey)) ∧
      ∀ key, keyBehind none calls = some key →
        dispatch.result = .ok dispatch.sent.length ∧ 1 ≤ dispatch.sent.length ∧
          ∃ opened : List (Header × Octets),
            dispatch.sent.mapM (openPacket key) = .ok opened ∧
            (opened.map Prod.snd).flatten = unit ∧
            (∀ payload ∈ opened.map Prod.snd, payload.length ≤ 1100) ∧
            (∀ payload ∈ (opened.map Prod.snd).dropLast, payload.length = 1100) ∧
            ∀ (j : Nat) header payload, opened[j]? = some (header, payload) →
              header.sequence.toNat =
                  ((earlier.flatMap Dispatch.sent).length + j + 1) % 2 ^ 16 ∧
                header.timestamp.toNat =
                  960 * (earlier.countP Dispatch.accepted + 1) % 2 ^ 32 ∧
                header.ssrc = ssrcBehind ssrc calls := by
  intro l earlier dispatch
  have hfresh := eq_of_connect hlink
  have hkeyBehind : l.key = keyBehind none calls := by rw [key_after, hfresh]
  have hssrcBehind : l.ssrc = ssrcBehind ssrc calls := by rw [ssrc_after, hfresh]
  refine ⟨fun hnone => send_of_no_key (hkeyBehind.trans hnone) .up unit, fun key hsome => ?_⟩
  obtain ⟨last, offered, datagrams, hsent, hcarried⟩ := send_up (hkeyBehind.trans hsome) unit
  have hdispatch : dispatch = ⟨datagrams, .ok datagrams.length⟩ := by
    simp only [dispatch, Dispatch.of, hsent]
  have hcounted := sequencer_after (congrArg Link.sequencer hfresh) honline
  rw [Nat.zero_add, Nat.zero_add] at hcounted
  rw [hcounted, nextUnit_counted, hssrcBehind] at hcarried
  obtain ⟨opened, hopened, hpieces, hheaders⟩ := exists_opened hcarried
  have hpositive : 1 ≤ datagrams.length := by
    rw [hcarried.length_eq, Nat.succ_le_iff, List.length_pos_iff]
    exact pieces_ne_nil _ unit
  rw [hdispatch]
  refine ⟨rfl, hpositive, opened, hopened, ?_, ?_, ?_, ?_⟩
  · rw [hpieces, Packetizer.fragment, flatten_pieces]
  · rw [hpieces]
    exact fun payload hpayload => length_le_of_mem_pieces (by decide) hpayload
  · rw [hpieces]
    exact fun payload hpayload => length_of_mem_dropLast hpayload
  · intro j header payload hj
    rw [hheaders j header payload hj]
    exact ⟨UInt16.toNat_ofNat', UInt32.toNat_ofNat', rfl⟩

/-- A frame before the key is refused and takes no number: the first one behind the key, two packets
long, is numbered from one on. -/
theorem units_numbered_behind_refusal :
    let sockets : Sockets := ⟨fun _ => .ok ["127.0.0.1"], fun _ => none⟩
    ∃ link, Link.connect sockets "relay" 42 = .ok link ∧
      let calls : List Call := [.send .up [0xf8, 0xff, 0xfe],
        .installKey (List.replicate 32 7), .setSsrc 43]
      let dispatch := Dispatch.of (after link calls) .up (List.replicate 1101 0)
      Online calls ∧ keyBehind none calls = some (List.replicate 32 7) ∧
        ∃ opened, dispatch.sent.mapM (openPacket (List.replicate 32 7)) = .ok opened ∧
          (opened.map Prod.snd).flatten = List.replicate 1101 0 ∧
          ∀ (j : Nat) header payload, opened[j]? = some (header, payload) →
            header.sequence.toNat = (j + 1) % 2 ^ 16 ∧ header.timestamp.toNat = 960 ∧
              header.ssrc = 43 := by
  intro sockets
  let link : Link := ⟨42, none, .start 960, [], false, 0⟩
  have hlink : Link.connect sockets "relay" 42 = .ok link := by rfl
  let calls : List Call := [.send .up [0xf8, 0xff, 0xfe],
    .installKey (List.replicate 32 7), .setSsrc 43]
  have honline : Online calls := by
    intro network unit hmem
    have hfirst : network = .up ∧ unit = [0xf8, 0xff, 0xfe] := by simpa [calls] using hmem
    exact hfirst.1
  have hrefused : dispatches link calls = [⟨[], .error .noSecretKey⟩] := rfl
  obtain ⟨-, -, opened, hopened, hunit, -, -, hheaders⟩ :=
    (units_numbered hlink honline (List.replicate 1101 0)).2 (List.replicate 32 7) rfl
  rw [hrefused] at hheaders
  refine ⟨link, hlink, honline, rfl, opened, hopened, hunit, fun j header payload hj => ?_⟩
  obtain ⟨hsequence, htimestamp, hssrc⟩ := hheaders j header payload hj
  exact ⟨by simpa using hsequence, htimestamp, hssrc⟩

end VoiceCall.Proofs.Media.Outgoing
