import VoiceCall.Relay.Handshake

namespace VoiceCall.Proofs.Relay.Answers

open VoiceCall.Relay

/-- What a handshake with a source passes on of other speakers, never of our own source. -/
inductive Remark (h : Handshake) : Action → Prop where
  | mapped {ssrc : UInt32} (user : String) :
      h.hasSource → h.ssrc ≠ some ssrc → Remark h (.speakerMapped ssrc user)
  | silent {ssrc : UInt32} : h.hasSource → h.ssrc ≠ some ssrc → Remark h (.speakerSilent ssrc)
  | left (user : String) : h.hasSource → Remark h (.userLeft user)

inductive Answer (h : Handshake) : Message → Handshake × Reply → Prop where
  | greeted {millis : Float} {interval : Nanoseconds} :
      h.state = .awaitingHello → heartbeatInterval millis = some interval →
        Answer h (.hello millis) ({ h with state := .awaitingReady },
          .actions [.startHeartbeat interval, .send (.identify h.identity)])
  | overflowed {millis : Float} :
      h.state = .awaitingHello → heartbeatInterval millis = none →
        Answer h (.hello millis) (h, .overflowed)
  | accepted {ready : Ready} :
      h.state = .awaitingReady → ready.selectMode = some supportedMode →
        Answer h (.ready ready)
          ({ h with
              state := .awaitingSessionDescription
              ssrc := some ready.ssrc
              mode := some supportedMode },
            .actions [.connectMedia ready.ip ready.port ready.ssrc])
  | established {description : SessionKey} {ssrc : UInt32} :
      h.state = .awaitingSessionDescription → description.mode = supportedMode →
        h.ssrc = some ssrc →
          Answer h (.sessionDescription description) ({ h with state := .connected },
            .actions [.installKey description.key, .sendSilence,
              .send (.speaking ⟨speakingMicrophone, 0, ssrc, none⟩), .startMedia])
  | failed (message : Message) (fault : Fault) : Answer h message (h, .failed fault)
  | remarked (message : Message) {todo : List Action} :
      (∀ action ∈ todo, Remark h action) → Answer h message (h, .actions todo)

theorem Answer.passed (h : Handshake) (message : Message) : Answer h message (h, .actions []) :=
  .remarked message fun _ haction => absurd haction List.not_mem_nil

theorem selectMode_eq_some {ready : Ready} {mode : String} (h : ready.selectMode = some mode) :
    mode = supportedMode := by
  simpa using List.find?_some h

theorem onSpeaking_remarks {h : Handshake} (hsource : h.hasSource) (speaking : Speaking) :
    ∃ todo, h.onSpeaking speaking = .actions todo ∧ ∀ action ∈ todo, Remark h action := by
  unfold Handshake.onSpeaking
  split
  · exact ⟨[], rfl, fun _ haction => absurd haction List.not_mem_nil⟩
  · rename_i hother
    refine ⟨_, rfl, ?_⟩
    intro action haction
    rcases List.mem_append.mp haction with hmapped | hsilent
    · split at hmapped
      · rw [List.mem_singleton] at hmapped
        exact hmapped ▸ .mapped _ hsource hother
      · cases hmapped
    · split at hsilent
      · rw [List.mem_singleton] at hsilent
        exact hsilent ▸ .silent hsource hother
      · cases hsilent

theorem answer_onMessage (h : Handshake) (message : Message) :
    Answer h message (h.onMessage message) := by
  cases message with
  | hello millis =>
      rw [Handshake.onMessage]
      split
      · rename_i hstate
        rw [Handshake.onHello]
        cases hinterval : heartbeatInterval millis with
        | none => exact .overflowed hstate hinterval
        | some interval => exact .greeted hstate hinterval
      · exact .passed h _
  | ready ready =>
      rw [Handshake.onMessage]
      split
      · rename_i hstate
        rw [Handshake.onReady]
        cases hmode : ready.selectMode with
        | none => exact .failed _ _
        | some mode =>
            obtain rfl := selectMode_eq_some hmode
            exact .accepted hstate hmode
      · exact .passed h _
  | sessionDescription description =>
      rw [Handshake.onMessage]
      split
      · rename_i hstate
        rw [Handshake.onSessionDescription]
        split
        · exact .failed _ _
        · rename_i hmode
          split
          · exact .failed _ _
          · rename_i hssrc
            exact .established hstate (Classical.not_not.mp hmode) hssrc
      · exact .passed h _
  | speaking speaking =>
      rw [Handshake.onMessage]
      split
      · rename_i hsource
        obtain ⟨todo, htodo, hremarks⟩ := onSpeaking_remarks hsource speaking
        rw [htodo]
        exact .remarked _ hremarks
      · exact .passed h _
  | clientDisconnect user =>
      rw [Handshake.onMessage]
      refine .remarked _ fun action haction => ?_
      split at haction
      · rename_i hsource
        rw [List.mem_singleton] at haction
        exact haction ▸ .left user hsource
      · cases haction
  | identify identity => exact .passed h _
  | selectProtocol selection => exact .passed h _
  | heartbeat nonce => exact .passed h _
  | heartbeatAck nonce => exact .passed h _
  | unknown opcode payload => exact .passed h _

theorem onDiscovered_fst (h : Handshake) (address : Packet.Discovery.Address) :
    (h.onDiscovered address).1 = h := by
  unfold Handshake.onDiscovered
  split
  · rfl
  · cases h.mode <;> rfl

/-- An address is selected while the session description is awaited, and at no other time. -/
theorem onDiscovered_snd_cases (h : Handshake) (address : Packet.Discovery.Address) :
    (h.onDiscovered address).2 = .actions [] ∨
      (∃ fault, (h.onDiscovered address).2 = .failed fault) ∨
        h.state = .awaitingSessionDescription ∧ ∃ mode, h.mode = some mode ∧
          (h.onDiscovered address).2 =
            .actions [.send (.selectProtocol (.udp address.ip address.port mode))] := by
  unfold Handshake.onDiscovered
  split
  · exact .inl rfl
  · rename_i hstate
    cases hmode : h.mode with
    | none => exact .inr (.inl ⟨_, rfl⟩)
    | some mode => exact .inr (.inr ⟨Classical.not_not.mp hstate, mode, rfl, rfl⟩)

end VoiceCall.Proofs.Relay.Answers
