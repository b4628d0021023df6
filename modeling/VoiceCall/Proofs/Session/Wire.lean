import VoiceCall.Proofs.Media.Replies
import VoiceCall.Proofs.Session.Turns

namespace VoiceCall.Proofs.Session.Wire

open VoiceCall.Media
open VoiceCall.Packet
open VoiceCall.Relay
open VoiceCall.Session
open VoiceCall.Proofs.Media.Numbering
open VoiceCall.Proofs.Media.Replies (discover_of_refused discover_of_taken)
open VoiceCall.Proofs.Media.Sending (exists_send_eq)
open VoiceCall.Proofs.Media.Streams
open VoiceCall.Proofs.Packet.Pieces
open VoiceCall.Proofs.Relay.Answers
open VoiceCall.Proofs.Session.Actions
open VoiceCall.Proofs.Session.Frame
open VoiceCall.Proofs.Session.Turns

/-- Something is done in order from the first on, and is done in whole if so much is sure. -/
def SoFar {α : Type} (sure : Prop) (done whole : List α) : Prop :=
  done <+: whole ∧ (sure → done = whole)

/-- The messages on a hello and a ready, if this arrives while the public address is found out. -/
def greeting (identity : Identity) (arrivals : List Arrival) : List Message :=
  .identify identity ::
    match (Link.awaitReply arrivals).1 with
    | .ok address => [.selectProtocol (.udp address.ip address.port supportedMode)]
    | .error _ => []

def speakingNotice (ssrc : UInt32) : Message :=
  .speaking ⟨speakingMicrophone, 0, ssrc, none⟩

/-- The silent frame of a number, under that number and its timestamp. -/
def silence (key : Octets) (ssrc : UInt32) (number : Nat) : Except Fault Octets :=
  Cipher.sealPacket key (.opus (.ofNat number) (.ofNat (Audio.periodLength * number)) ssrc)
    silenceFrame

/-- The datagrams under a key: five silent frames, and what the microphone gives behind them. -/
def Sealed (sure : Prop) (key : Octets) (ssrc : UInt32) (datagrams : List Octets) : Prop :=
  ∃ silences voice packets units, datagrams = silences ++ voice ∧
    SoFar (sure ∨ voice ≠ []) (silences.map .ok) ((List.range' 1 5).map (silence key ssrc)) ∧
      Stream key ssrc 5 5 voice packets units

/-- What goes out to the relay and on the media path, by the messages that were acted on. Of a
session that lives it is sure that all of it went out. -/
inductive Transcript (identity : Identity) (sure : Prop) :
    List (Message × List Arrival) → List Message → List Octets → Prop where
  | silent : Transcript identity sure [] [] []
  | greeted {messages : List Message} (millis : Float) (arrivals : List Arrival) :
      SoFar sure messages [.identify identity] →
        Transcript identity sure [(.hello millis, arrivals)] messages []
  | discovered {messages : List Message} {datagrams : List Octets} (millis : Float)
      (arrivals : List Arrival) (ready : Ready) (replies : List Arrival) :
      SoFar sure messages (greeting identity replies) →
        SoFar sure datagrams [Discovery.probe ready.ssrc] →
          Transcript identity sure [(.hello millis, arrivals), (.ready ready, replies)]
            messages datagrams
  | established {messages : List Message} {datagrams : List Octets} (millis : Float)
      (arrivals : List Arrival) (ready : Ready) (replies : List Arrival)
      (address : Discovery.Address) (description : SessionKey) (arrivals' : List Arrival) :
      (Link.awaitReply replies).1 = .ok address → description.mode = supportedMode →
        SoFar sure messages [speakingNotice ready.ssrc] →
          Sealed sure description.key ready.ssrc datagrams →
            Transcript identity sure [(.hello millis, arrivals), (.ready ready, replies),
                (.sessionDescription description, arrivals')]
              (greeting identity replies ++ messages) (Discovery.probe ready.ssrc :: datagrams)

/-- What a session that lives has come to, by the messages that were acted on. -/
inductive Stage (identity : Identity) :
    Handshake → Option Link → List (Message × List Arrival) → List Message → List Octets →
      Prop where
  | connecting : Stage identity ⟨.connecting, identity, none, none⟩ none [] [] []
  | awaitingHello : Stage identity ⟨.awaitingHello, identity, none, none⟩ none [] [] []
  | awaitingReady (millis : Float) (arrivals : List Arrival) :
      Stage identity ⟨.awaitingReady, identity, none, none⟩ none [(.hello millis, arrivals)]
        [.identify identity] []
  | awaitingSessionDescription {l : Link} {address : Discovery.Address} (millis : Float)
      (arrivals : List Arrival) (ready : Ready) (replies : List Arrival) :
      (Link.awaitReply replies).1 = .ok address → l.ssrc = ready.ssrc → l.key = none →
        l.sequencer = counted 0 0 →
          Stage identity
            ⟨.awaitingSessionDescription, identity, some ready.ssrc, some supportedMode⟩ (some l)
            [(.hello millis, arrivals), (.ready ready, replies)] (greeting identity replies)
            [Discovery.probe ready.ssrc]
  | connected {l : Link} {address : Discovery.Address} {silences voice : List Octets}
      {packets units : Nat} (millis : Float) (arrivals : List Arrival) (ready : Ready)
      (replies : List Arrival) (description : SessionKey) (arrivals' : List Arrival) :
      (Link.awaitReply replies).1 = .ok address → description.mode = supportedMode →
        l.ssrc = ready.ssrc → l.key = some description.key →
          l.sequencer = counted packets units →
            silences.map .ok = (List.range' 1 5).map (silence description.key ready.ssrc) →
              Stream description.key ready.ssrc 5 5 voice packets units →
                Stage identity ⟨.connected, identity, some ready.ssrc, some supportedMode⟩ (some l)
                  [(.hello millis, arrivals), (.ready ready, replies),
                    (.sessionDescription description, arrivals')]
                  (greeting identity replies ++ [speakingNotice ready.ssrc])
                  (Discovery.probe ready.ssrc :: (silences ++ voice))

variable {identity : Identity} {acted : List (Message × List Arrival)} {s s' : Session}

theorem soFar_refl {α : Type} (sure : Prop) (whole : List α) : SoFar sure whole whole :=
  ⟨List.prefix_rfl, fun _ => rfl⟩

theorem soFar_partly {α : Type} {done whole : List α} (h : done <+: whole) :
    SoFar False done whole :=
  ⟨h, False.elim⟩

def AtStage (identity : Identity) (s : Session) (acted : List (Message × List Arrival)) : Prop :=
  Stage identity s.handshake s.link acted (spoken s) s.datagrams

def Transcribed (identity : Identity) (sure : Prop) (s : Session)
    (acted : List (Message × List Arrival)) : Prop :=
  Transcript identity sure acted (spoken s) s.datagrams

theorem AtStage.transcribed (h : AtStage identity s acted) (sure : Prop) :
    Transcribed identity sure s acted := by
  unfold AtStage at h
  unfold Transcribed
  generalize s.handshake = handshake, s.link = link, spoken s = messages, s.datagrams = datagrams
    at h ⊢
  cases h with
  | connecting => exact .silent
  | awaitingHello => exact .silent
  | awaitingReady millis arrivals => exact .greeted millis arrivals (soFar_refl sure _)
  | awaitingSessionDescription millis arrivals ready replies _ _ _ _ =>
      exact .discovered millis arrivals ready replies (soFar_refl sure _) (soFar_refl sure _)
  | connected millis arrivals ready replies description arrivals' hfound hmode _ _ _ hsilent
      hstream =>
      refine .established millis arrivals ready replies _ description arrivals' hfound hmode
        (soFar_refl sure _) ⟨_, _, _, _, rfl, ?_, hstream⟩
      rw [hsilent]
      exact soFar_refl _ _

theorem AtStage.steady (h : AtStage identity s acted) (hsteady : Steady s s') :
    AtStage identity s' acted := by
  obtain ⟨more, hdatagrams, hcarries⟩ := hsteady.media
  unfold AtStage at h ⊢
  rw [hsteady.handshake, hsteady.unspoken, hdatagrams]
  generalize s.handshake = handshake, s.link = link, spoken s = messages, s.datagrams = datagrams,
    s'.link = link' at h hcarries ⊢
  cases h with
  | connecting =>
      cases hcarries
      exact .connecting
  | awaitingHello =>
      cases hcarries
      exact .awaitingHello
  | awaitingReady millis arrivals =>
      cases hcarries
      exact .awaitingReady millis arrivals
  | awaitingSessionDescription millis arrivals ready replies hfound hssrc hkey hcounted =>
      cases hcarries with
      | passed hpassed =>
          obtain ⟨hsequencer, rfl⟩ := hpassed.mute hkey
          exact .awaitingSessionDescription millis arrivals ready replies hfound
            (hpassed.ssrc.trans hssrc) (hpassed.key.trans hkey) (hsequencer.trans hcounted)
  | connected millis arrivals ready replies description arrivals' hfound hmode hssrc hkey hcounted
      hsilent hstream =>
      cases hcarries with
      | passed hpassed =>
          obtain ⟨packets, units, hcounted', hstream'⟩ := hpassed.stream hkey hcounted
          rw [hssrc] at hstream'
          rw [List.cons_append, List.append_assoc]
          exact .connected millis arrivals ready replies description arrivals' hfound hmode
            (hpassed.ssrc.trans hssrc) (hpassed.key.trans hkey) hcounted' hsilent
            (hstream.append hstream')

/-- How a session stands when it has acted on one more message, or failed to. -/
def Performed (identity : Identity) (acted : List (Message × List Arrival)) :
    Session × Option Fault → Prop
  | (s, none) => AtStage identity s acted
  | (s, some _) => Transcribed identity False s acted

theorem AtStage.of_eq {handshake : Handshake} {link : Option Link} {messages : List Message}
    {datagrams : List Octets} (h : Stage identity handshake link acted messages datagrams)
    (hhandshake : s.handshake = handshake) (hlink : s.link = link) (hspoken : spoken s = messages)
    (hdatagrams : s.datagrams = datagrams) : AtStage identity s acted := by
  rwa [AtStage, hhandshake, hlink, hspoken, hdatagrams]

theorem Transcribed.of_eq {sure : Prop} {messages : List Message} {datagrams : List Octets}
    (h : Transcript identity sure acted messages datagrams) (hspoken : spoken s = messages)
    (hdatagrams : s.datagrams = datagrams) : Transcribed identity sure s acted := by
  rwa [Transcribed, hspoken, hdatagrams]

theorem spoken_concat {message : Message} {messages : List Message} (hspoken : spoken s = messages)
    (h : isHeartbeat message = false) :
    (s.sent ++ [message]).filter (!isHeartbeat ·) = messages ++ [message] := by
  rw [← hspoken]
  simp [spoken, h]

theorem performed_send {message : Message}
    (hsent : AtStage identity { s with sent := s.sent ++ [message] } acted)
    (hsevered : Transcribed identity False s acted) :
    Performed identity acted (s.send message) := by
  rw [Session.send]
  split
  · exact hsent
  · exact hsevered

theorem AtStage.awaitingHello (h : AtStage identity s acted)
    (hstate : s.handshake.state = .awaitingHello) :
    s.handshake = ⟨.awaitingHello, identity, none, none⟩ ∧ s.link = none ∧ acted = [] ∧
      spoken s = [] ∧ s.datagrams = [] := by
  unfold AtStage at h
  generalize s.handshake = handshake, s.link = link, spoken s = messages, s.datagrams = datagrams
    at h hstate ⊢
  cases h with
  | awaitingHello => exact ⟨rfl, rfl, rfl, rfl, rfl⟩
  | _ => cases hstate

theorem performed_hello {env : Surroundings} (h : AtStage identity s acted)
    (hstate : s.handshake.state = .awaitingHello) (interval : Nanoseconds) (millis : Float)
    (arrivals : List Arrival) :
    Performed identity (acted ++ [(.hello millis, arrivals)])
      (performAll env arrivals { s with handshake := { s.handshake with state := .awaitingReady } }
        [.startHeartbeat interval, .send (.identify s.handshake.identity)]) := by
  obtain ⟨hhandshake, hlink, rfl, hspoken, hdatagrams⟩ := h.awaitingHello hstate
  rw [hhandshake]
  have hbroke : Transcript identity False [(.hello millis, arrivals)] [] [] :=
    .greeted millis arrivals (soFar_partly List.nil_prefix)
  refine (performAll_concat env arrivals _ [.startHeartbeat interval] _).symm ▸ ?_
  rw [performAll, perform]
  cases env.startThread .heartbeat with
  | error fault => exact Transcribed.of_eq hbroke hspoken hdatagrams
  | ok =>
      refine performed_send ?_ ?_
      · exact .of_eq (.awaitingReady millis arrivals) rfl hlink (spoken_concat hspoken rfl)
          hdatagrams
      · exact .of_eq hbroke hspoken hdatagrams

theorem AtStage.awaitingReady (h : AtStage identity s acted)
    (hstate : s.handshake.state = .awaitingReady) :
    ∃ millis arrivals, s.handshake = ⟨.awaitingReady, identity, none, none⟩ ∧ s.link = none ∧
      acted = [(.hello millis, arrivals)] ∧ spoken s = [.identify identity] ∧
        s.datagrams = [] := by
  unfold AtStage at h
  generalize s.handshake = handshake, s.link = link, spoken s = messages, s.datagrams = datagrams
    at h hstate ⊢
  cases h with
  | awaitingReady millis arrivals => exact ⟨millis, arrivals, rfl, rfl, rfl, rfl, rfl⟩
  | _ => cases hstate

theorem performed_ready {env : Surroundings} (h : AtStage identity s acted)
    (hstate : s.handshake.state = .awaitingReady) (ready : Ready) (replies : List Arrival) :
    Performed identity (acted ++ [(.ready ready, replies)])
      (performAll env replies
        { s with
          handshake := { s.handshake with
            state := .awaitingSessionDescription
            ssrc := some ready.ssrc
            mode := some supportedMode } }
        [.connectMedia ready.ip ready.port ready.ssrc]) := by
  obtain ⟨millis, arrivals, hhandshake, hlink, rfl, hspoken, hdatagrams⟩ := h.awaitingReady hstate
  rw [hhandshake]
  refine (performAll_concat env replies _ [] _).symm ▸ ?_
  have hgreeting : [.identify identity] <+: greeting identity replies := ⟨_, rfl⟩
  have hsilent {datagrams : List Octets} (h : datagrams <+: [Discovery.probe ready.ssrc]) :
      Transcript identity False [(.hello millis, arrivals), (.ready ready, replies)]
        [.identify identity] datagrams :=
    .discovered millis arrivals ready replies (soFar_partly hgreeting) (soFar_partly h)
  simp only [performAll, perform, connectMedia]
  split
  · exact .of_eq (hsilent List.nil_prefix) hspoken hdatagrams
  · rename_i hconnected
    rw [eq_of_connect hconnected]
    simp only [Link.arrive, List.nil_append]
    rcases hreply : Link.awaitReply replies with ⟨found, inbox⟩
    cases hanswer : s.network 0 with
    | some detail =>
        rw [discover_of_refused hanswer]
        exact Transcribed.of_eq (hsilent List.nil_prefix) hspoken
          ((List.append_nil s.datagrams).trans hdatagrams)
    | none =>
        rw [discover_of_taken hanswer (by decide), hreply]
        have hprobe : s.datagrams ++ [Discovery.probe ready.ssrc] =
            [Discovery.probe ready.ssrc] := by
          rw [hdatagrams, List.nil_append]
        cases found with
        | error fault =>
            exact Transcribed.of_eq (hsilent List.prefix_rfl) hspoken hprobe
        | ok address =>
            have hfound : (Link.awaitReply replies).1 = .ok address := by rw [hreply]
            have hselected : greeting identity replies = [.identify identity] ++
                [.selectProtocol (.udp address.ip address.port supportedMode)] := by
              rw [greeting, hfound]
              rfl
            refine performed_send ?_ ?_
            · have hstage := @Stage.awaitingSessionDescription identity
                ⟨ready.ssrc, none, counted 0 0, inbox, false, 1⟩ address
                millis arrivals ready replies hfound rfl rfl rfl
              exact .of_eq hstage rfl rfl ((spoken_concat hspoken rfl).trans hselected.symm)
                hprobe
            · exact .of_eq (hsilent List.prefix_rfl) hspoken hprobe

/-- A silent frame is a packet of its own, which the network takes or not. -/
theorem send_silence {key : Octets} {l : Link} {number : Nat} (hkey : l.key = some key)
    (hcounted : l.sequencer = counted number number) (network : Network) :
    (∃ datagram, l.send network silenceFrame =
        ({ l with sequencer := counted (number + 1) (number + 1), offered := l.offered + 1 },
          [datagram], .ok 1) ∧
      .ok datagram = silence key l.ssrc (number + 1)) ∨
      ∃ l' fault, l.send network silenceFrame = (l', [], .error fault) := by
  have hwhole : Packetizer.standard.fragment silenceFrame = [silenceFrame] :=
    pieces_of_le (by decide)
  obtain ⟨datagrams, count, fault, hsent, htaken⟩ :=
    send_counted hkey hcounted network silenceFrame
  simp only [sealing, hkey, hcounted, hwhole, nextUnit_counted, sealPieces,
    nextPacket_counted] at htaken
  cases htaken with
  | all _ hall =>
      obtain ⟨datagram, rfl, hsealed⟩ := List.map_eq_singleton_iff.mp hall
      exact .inl ⟨datagram, hsent, hsealed⟩
  | cut _ _ _ hshort =>
      obtain rfl : datagrams = [] := List.eq_nil_of_length_eq_zero (Nat.lt_one_iff.mp hshort)
      exact .inr ⟨_, _, hsent⟩

/-- The silent frames go out in order, and all of them unless one fails. -/
theorem sendSilence_cases {key : Octets} {l : Link} {number : Nat} (count : Nat)
    (hlink : s.link = some l) (hkey : l.key = some key)
    (hcounted : l.sequencer = counted number number) :
    ∃ l' silences fault, sendSilence count s =
        ({ s with link := some l', datagrams := s.datagrams ++ silences }, fault) ∧
      l'.ssrc = l.ssrc ∧ l'.key = l.key ∧
      silences.map .ok <+: (List.range' (number + 1) count).map (silence key l.ssrc) ∧
      (fault = none → l'.sequencer = counted (number + count) (number + count) ∧
        silences.map .ok = (List.range' (number + 1) count).map (silence key l.ssrc)) := by
  induction count generalizing s l number with
  | zero =>
      refine ⟨l, [], none, ?_, rfl, rfl, List.nil_prefix, fun _ => ⟨hcounted, rfl⟩⟩
      rw [sendSilence, List.append_nil, ← hlink]
  | succ count ih =>
      rw [sendSilence, hlink, List.range'_succ, List.map_cons]
      obtain ⟨datagram, hsent, hsealed⟩ | ⟨l', fault, hsent⟩ :=
        send_silence hkey hcounted s.network
      · let behind : Link :=
          { l with sequencer := counted (number + 1) (number + 1), offered := l.offered + 1 }
        obtain ⟨l', silences, fault, hrest, hssrc, hkey', hbegins, hall⟩ :=
          ih (l := behind) (s := { s with
            link := some behind
            datagrams := s.datagrams ++ [datagram] }) rfl hkey rfl
        simp only [hsent, ← hsealed]
        refine ⟨l', datagram :: silences, fault, ?_, hssrc, hkey', ?_, fun hnone => ?_⟩
        · refine hrest.trans ?_
          rw [List.append_assoc, List.singleton_append]
        · exact (List.prefix_cons_inj _).mpr hbegins
        · obtain ⟨hcounted', hall⟩ := hall hnone
          rw [Nat.add_comm count 1, ← Nat.add_assoc]
          exact ⟨hcounted', congrArg _ hall⟩
      · obtain ⟨sequencer, offered, hframe⟩ := exists_send_eq l s.network silenceFrame
        rw [hsent] at hframe
        subst hframe
        simp only [hsent]
        refine ⟨{ l with sequencer := sequencer, offered := offered }, [], some fault, rfl, rfl,
          rfl, List.nil_prefix, ?_⟩
        rintro ⟨⟩

theorem AtStage.awaitingSessionDescription (h : AtStage identity s acted)
    (hstate : s.handshake.state = .awaitingSessionDescription) :
    ∃ l address millis arrivals ready replies,
      s.handshake = ⟨.awaitingSessionDescription, identity, some ready.ssrc, some supportedMode⟩ ∧
        s.link = some l ∧ (Link.awaitReply replies).1 = .ok address ∧ l.ssrc = ready.ssrc ∧
          l.sequencer = counted 0 0 ∧
            acted = [(.hello millis, arrivals), (.ready ready, replies)] ∧
              spoken s = greeting identity replies ∧
                s.datagrams = [Discovery.probe ready.ssrc] := by
  unfold AtStage at h
  generalize s.handshake = handshake, s.link = link, spoken s = messages, s.datagrams = datagrams
    at h hstate ⊢
  cases h with
  | awaitingSessionDescription millis arrivals ready replies hfound hssrc _ hcounted =>
      exact ⟨_, _, millis, arrivals, ready, replies, rfl, rfl, hfound, hssrc, hcounted, rfl, rfl,
        rfl⟩
  | _ => cases hstate

theorem performed_startMedia (env : Surroundings) (arrivals : List Arrival)
    (h : AtStage identity s acted) :
    Performed identity acted (perform env arrivals s .startMedia) := by
  obtain ⟨s', hsteady, hstarted | ⟨fault, hstarted⟩⟩ := perform_startMedia env arrivals s
  · rw [hstarted]
    have hstage := h.steady hsteady
    exact hstage
  · rw [hstarted]
    exact (h.steady hsteady).transcribed False

theorem performed_send_startMedia (env : Surroundings) (arrivals : List Arrival)
    {message : Message} (hsent : AtStage identity { s with sent := s.sent ++ [message] } acted)
    (hsevered : Transcribed identity False s acted) :
    Performed identity acted (performAll env arrivals s [.send message, .startMedia]) := by
  refine (performAll_concat env arrivals s [.send message] .startMedia).symm ▸ ?_
  rw [performAll, perform, Session.send]
  cases s.wired with
  | true => exact performed_startMedia env arrivals hsent
  | false => exact hsevered

theorem performed_description {env : Surroundings} (h : AtStage identity s acted)
    (hstate : s.handshake.state = .awaitingSessionDescription) {ssrc : UInt32}
    (hown : s.handshake.ssrc = some ssrc) (description : SessionKey)
    (hmode : description.mode = supportedMode) (arrivals' : List Arrival) :
    Performed identity (acted ++ [(.sessionDescription description, arrivals')])
      (performAll env arrivals' { s with handshake := { s.handshake with state := .connected } }
        [.installKey description.key, .sendSilence,
          .send (.speaking ⟨speakingMicrophone, 0, ssrc, none⟩), .startMedia]) := by
  obtain ⟨l, address, millis, arrivals, ready, replies, hhandshake, hlink, hfound, hssrc, hcounted,
    rfl, hspoken, hdatagrams⟩ := h.awaitingSessionDescription hstate
  rw [hhandshake] at hown ⊢
  obtain rfl := Option.some.inj hown
  have hbroke {datagrams : List Octets}
      (hsealed : Sealed False description.key ready.ssrc datagrams) :
      Transcript identity False [(.hello millis, arrivals), (.ready ready, replies),
          (.sessionDescription description, arrivals')]
        (greeting identity replies ++ []) (Discovery.probe ready.ssrc :: datagrams) :=
    .established millis arrivals ready replies address description arrivals' hfound hmode
      (soFar_partly List.nil_prefix) hsealed
  let moved : Session := { s with
    handshake := ⟨.connected, identity, some ready.ssrc, some supportedMode⟩ }
  let keyed : Session := { moved with link := some (l.installKey description.key) }
  refine (performAll_installKey (s := moved) env arrivals' hlink description.key _).symm ▸ ?_
  obtain ⟨l', silences, fault, hsilent, hssrc', hkey, hbegins, hall⟩ :=
    sendSilence_cases (s := keyed) silenceCount rfl rfl hcounted
  change silences.map .ok <+: (List.range' 1 5).map (silence description.key l.ssrc) at hbegins
  rw [hssrc] at hbegins
  have hsent : s.datagrams ++ silences = Discovery.probe ready.ssrc :: (silences ++ []) := by
    rw [hdatagrams, List.append_nil, List.singleton_append]
  have hpartly : SoFar (False ∨ ([] : List Octets) ≠ []) (silences.map .ok)
      ((List.range' 1 5).map (silence description.key ready.ssrc)) :=
    ⟨hbegins, fun hsure => hsure.elim False.elim fun hne => absurd rfl hne⟩
  have hbroken := hbroke ⟨silences, [], 5, 5, rfl, hpartly, .nil⟩
  rw [hsilent]
  cases fault with
  | some fault => exact .of_eq hbroken (hspoken.trans (List.append_nil _).symm) hsent
  | none =>
      obtain ⟨hcounted', hsealed⟩ := hall rfl
      change silences.map .ok = (List.range' 1 5).map (silence description.key l.ssrc) at hsealed
      rw [hssrc] at hsealed
      refine performed_send_startMedia env arrivals' ?_ ?_
      · have hstage := @Stage.connected identity l' address silences [] 5 5 millis arrivals ready
          replies description arrivals' hfound hmode (hssrc'.trans hssrc) hkey hcounted' hsealed
          .nil
        exact .of_eq hstage rfl rfl (spoken_concat hspoken rfl) hsent
      · exact .of_eq hbroken (hspoken.trans (List.append_nil _).symm) hsent

theorem performed_moved (env : Surroundings) (arrivals : List Arrival) {message : Message}
    {handshake : Handshake} {todo : List Action} (h : AtStage identity s acted)
    (hanswer : Answer s.handshake message (handshake, .actions todo))
    (hmoved : handshake.state ≠ s.handshake.state) :
    Performed identity (acted ++ [(message, arrivals)])
      (performAll env arrivals { s with handshake := handshake } todo) := by
  cases hanswer with
  | greeted hstate _ => exact performed_hello h hstate _ _ arrivals
  | accepted hstate _ => exact performed_ready h hstate _ arrivals
  | established hstate hmode hssrc => exact performed_description h hstate hssrc _ hmode arrivals
  | remarked _ _ => exact absurd rfl hmoved

theorem AtStage.opened (h : AtStage identity s acted) :
    AtStage identity
      ({ s with handshake := s.handshake.opened, standing := .running }.emitStateChange
        s.handshake.state) acted := by
  have hopened :
      AtStage identity { s with handshake := s.handshake.opened, standing := .running } acted := by
    unfold AtStage at h ⊢
    change Stage identity s.handshake.opened s.link acted (spoken s) s.datagrams
    generalize s.handshake = handshake, s.link = link, spoken s = messages,
      s.datagrams = datagrams at h ⊢
    cases h with
    | connecting => exact .awaitingHello
    | awaitingHello => exact .awaitingHello
    | awaitingReady millis arrivals => exact .awaitingReady millis arrivals
    | awaitingSessionDescription millis arrivals ready replies hfound hssrc hkey hcounted =>
        exact .awaitingSessionDescription millis arrivals ready replies hfound hssrc hkey hcounted
    | connected millis arrivals ready replies description arrivals' hfound hmode hssrc hkey hcounted
        hsilent hstream =>
        exact .connected millis arrivals ready replies description arrivals' hfound hmode hssrc hkey
          hcounted hsilent hstream
  rw [emitStateChange]
  split
  · exact hopened
  · exact hopened

/-- What is on record of a session. -/
def Recorded (identity : Identity) (s : Session) (acted : List (Message × List Arrival)) : Prop :=
  s.isLive ∧ AtStage identity s acted ∨ s.isLive = false ∧ Transcribed identity False s acted

theorem recorded_step (env : Surroundings) (stimulus : Stimulus) (h : Recorded identity s acted) :
    Recorded identity (s.step env stimulus) (acted ++ (accepts? s stimulus).toList) := by
  rcases h with ⟨hlive, hstage⟩ | ⟨hgone, htranscribed⟩
  · have hturn := turn_step env s stimulus
    generalize s.step env stimulus = s' at hturn ⊢
    cases hturn with
    | rested _ hrested => simp [hlive] at hrested
    | steady _ _ hpassed hsteady =>
        rw [hpassed, Option.toList_none, List.append_nil]
        refine .inl ⟨?_, hstage.steady hsteady⟩
        rwa [isLive, hsteady.standing]
    | opened hdialing =>
        rw [show accepts? s .opened = none from rfl, Option.toList_none, List.append_nil]
        refine .inl ⟨?_, hstage.opened⟩
        rw [emitStateChange]
        split <;> rfl
    | ended _ _ hpassed hsteady =>
        rw [hpassed, Option.toList_none, List.append_nil]
        have htranscribed := (hstage.steady hsteady).transcribed False
        exact .inr ⟨rfl, htranscribed⟩
    | crashed now _ _ _ hpassed hsteady =>
        rw [hpassed, Option.toList_none, List.append_nil]
        have hcrashed : AtStage identity { s with standing := .crashed } acted := hstage
        refine .inr ⟨?_, (hcrashed.steady hsteady).transcribed False⟩
        rw [isLive, hsteady.standing]
        rfl
    | advanced now hrunning haccepted hanswer hmoved hperformed hsteady =>
        rename_i meanwhile message handshake todo performed
        rw [haccepted, Option.toList_some]
        have hadvanced := performed_moved env meanwhile hstage hanswer hmoved
        obtain ⟨hstanding, -, -⟩ :=
          performAll_frame env meanwhile { s with handshake := handshake } todo
        rw [hperformed] at hadvanced hstanding
        have htold : AtStage identity (performed.emit (.stateChanged handshake.state))
          (acted ++ [(message, meanwhile)]) := hadvanced
        refine .inl ⟨?_, htold.steady hsteady⟩
        exact isLive_of_running ((hsteady.standing.trans hstanding).trans hrunning)
    | broke now hrunning haccepted hanswer hmoved hperformed =>
        rename_i meanwhile message handshake todo performed fault
        rw [haccepted, Option.toList_some]
        have hbroke := performed_moved env meanwhile hstage hanswer hmoved
        rw [hperformed] at hbroke
        exact .inr ⟨rfl, hbroke⟩
  · have hpassed : accepts? s stimulus = none := by
      apply accepts?_of_not_running
      intro hrunning
      simp [isLive, hrunning] at hgone
    rw [hpassed, Option.toList_none, List.append_nil, step_of_not_live hgone]
    exact .inr ⟨hgone, htranscribed⟩

/-- The messages that a session acts on in a run, with what arrives while it does. -/
def accepted (env : Surroundings) : Session → List Stimulus → List (Message × List Arrival)
  | _, [] => []
  | s, stimulus :: stimuli =>
    (accepts? s stimulus).toList ++ accepted env (s.step env stimulus) stimuli

theorem recorded_run (env : Surroundings) (stimuli : List Stimulus)
    (h : Recorded identity s acted) :
    Recorded identity (s.run env stimuli) (acted ++ accepted env s stimuli) := by
  induction stimuli generalizing s acted with
  | nil =>
      rw [accepted, List.append_nil]
      exact h
  | cons stimulus stimuli ih =>
      rw [accepted, ← List.append_assoc]
      exact ih (recorded_step env stimulus h)

theorem length_probe (ssrc : UInt32) : (Discovery.probe ssrc).length = 74 := by
  simp [Discovery.probe, Octets.ofWord16, Octets.ofWord32, Discovery.addressWidth]

/-- Whatever the relay does, a session tells it nothing but the messages of one fixed exchange, and
the media path carries first the discovery probe and then, under the key of the session description
alone, five silent frames and the frames of the microphone, numbered on from there. -/
theorem sends_transcript (env : Surroundings) (hub : Hub) (identity : Identity)
    (stimuli : List Stimulus) :
    let s₀ := Session.start hub identity
    let s := s₀.run env stimuli
    Transcript identity s.isLive (accepted env s₀ stimuli) (spoken s) s.datagrams ∧
      ∀ ssrc, (Discovery.probe ssrc).length = 74 := by
  intro s₀ s
  have hstart : Recorded identity s₀ [] := .inl ⟨rfl, .connecting⟩
  refine ⟨?_, length_probe⟩
  rcases recorded_run env stimuli hstart with ⟨hlive, hstage⟩ | ⟨hgone, htranscribed⟩
  · exact hstage.transcribed _
  · rwa [show (s.isLive = true) = False by rw [hgone]; simp]

end VoiceCall.Proofs.Session.Wire
