import VoiceCall.Proofs.Number.Span
import VoiceCall.Proofs.Relay.History
import VoiceCall.Relay.Decoding

namespace VoiceCall.Proofs.Relay.Overflow

open VoiceCall.Relay
open VoiceCall.Proofs.Number.Span
open VoiceCall.Proofs.Relay.History

/-- A count of milliseconds that is 2 ^ 64 seconds or more once a thousand divides it. -/
def TooLong (millis : Float) : Prop :=
  millis.isFinite ∧ 0 < millis ∧ Reaches (millis / Float.ofBits 0x408f400000000000) UInt64.size

theorem heartbeatInterval_eq_none_iff (millis : Float) :
    heartbeatInterval millis = none ↔ TooLong millis := by
  unfold heartbeatInterval TooLong
  by_cases hsound : millis.isFinite ∧ 0 < millis
  · simp [hsound, ofSeconds?_eq_none_iff]
  · simp only [Bool.and_eq_true, decide_eq_true_eq, if_neg hsound, reduceCtorEq, false_iff]
    exact fun h => hsound ⟨h.1, h.2.1⟩

/-- Whether a message is a hello with such an interval. -/
def asksTooLong : Message → Bool
  | .hello millis => (heartbeatInterval millis).isNone
  | _ => false

theorem asksTooLong_iff (message : Message) :
    asksTooLong message = true ↔ ∃ millis, message = .hello millis ∧ TooLong millis := by
  cases message <;> simp [asksTooLong, heartbeatInterval_eq_none_iff]

theorem onHello_eq_overflowed_iff (h : Handshake) (millis : Float) :
    (h.onHello millis).2 = .overflowed ↔ TooLong millis := by
  rw [← heartbeatInterval_eq_none_iff, Handshake.onHello]
  cases heartbeatInterval millis <;> simp

theorem onReady_ne_overflowed (h : Handshake) (ready : Ready) :
    (h.onReady ready).2 ≠ .overflowed := by
  rw [Handshake.onReady]
  cases ready.selectMode <;> simp

theorem onSessionDescription_ne_overflowed (h : Handshake) (description : SessionKey) :
    (h.onSessionDescription description).2 ≠ .overflowed := by
  rw [Handshake.onSessionDescription]
  split
  · simp
  · cases h.ssrc <;> simp

theorem onSpeaking_ne_overflowed (h : Handshake) (speaking : Speaking) :
    h.onSpeaking speaking ≠ .overflowed := by
  rw [Handshake.onSpeaking]
  split <;> simp

theorem onDiscovered_ne_overflowed (h : Handshake) (address : Packet.Discovery.Address) :
    (h.onDiscovered address).2 ≠ .overflowed := by
  rw [Handshake.onDiscovered]
  split
  · simp
  · cases h.mode <;> simp

theorem onMessage_ne_overflowed (h : Handshake) {message : Message}
    (hother : ∀ millis, message ≠ .hello millis) : (h.onMessage message).2 ≠ .overflowed := by
  cases message with
  | hello millis => exact absurd rfl (hother millis)
  | ready ready =>
      rw [Handshake.onMessage]
      split
      · exact onReady_ne_overflowed h ready
      · simp
  | sessionDescription description =>
      rw [Handshake.onMessage]
      split
      · exact onSessionDescription_ne_overflowed h description
      · simp
  | speaking speaking =>
      rw [Handshake.onMessage]
      split
      · exact onSpeaking_ne_overflowed h speaking
      · simp
  | clientDisconnect user => simp [Handshake.onMessage]
  | identify identity => simp [Handshake.onMessage]
  | selectProtocol selection => simp [Handshake.onMessage]
  | heartbeat nonce => simp [Handshake.onMessage]
  | heartbeatAck nonce => simp [Handshake.onMessage]
  | unknown opcode payload => simp [Handshake.onMessage]

theorem onMessage_eq_overflowed_iff (h : Handshake) (message : Message) :
    (h.onMessage message).2 = .overflowed ↔
      h.state = .awaitingHello ∧ ∃ millis, message = .hello millis ∧ TooLong millis := by
  by_cases hhello : ∃ millis, message = .hello millis
  · obtain ⟨millis, rfl⟩ := hhello
    simp only [Handshake.onMessage, Message.hello.injEq, exists_eq_left']
    split
    · rename_i hstate
      simp [hstate, onHello_eq_overflowed_iff]
    · rename_i hstate
      simp [hstate]
  · have hother : ∀ millis, message ≠ .hello millis := fun millis heq => hhello ⟨millis, heq⟩
    refine iff_of_false (onMessage_ne_overflowed h hother) ?_
    rintro ⟨-, millis, heq, -⟩
    exact hother millis heq

/-- Whatever a handshake was called with before, a call is not answered exactly when it is an
awaited hello whose interval is 2 ^ 64 seconds or more. -/
theorem overflowed_iff (identity : Identity) (calls : List Call) (call : Call) :
    (call.apply (after identity calls)).2 = .overflowed ↔
      (after identity calls).state = .awaitingHello ∧
        ∃ millis, call = .message (.hello millis) ∧ TooLong millis := by
  cases call with
  | opened => simp [Call.apply]
  | close => simp [Call.apply]
  | message message => simp [Call.apply, onMessage_eq_overflowed_iff]
  | discovered address => simp [Call.apply, onDiscovered_ne_overflowed]

/-- A relay can ask for such an interval in a message that reads. -/
theorem overflowed_long_hello :
    ¬ ∀ identity calls text message, Message.ofJson text = .ok message →
      ((after identity calls).onMessage message).2 ≠ .overflowed := by
  intro hanswered
  let text := "\x7b\"op\":8,\"d\":\x7b\"heartbeat_interval\":1e300\x7d\x7d"
  have hasked : (Message.ofJson text).toOption.any asksTooLong = true := by
    decide +kernel
  cases hread : Message.ofJson text with
  | error fault =>
      rw [hread] at hasked
      cases hasked
  | ok message =>
      rw [hread] at hasked
      apply hanswered ⟨"server", "user", "session", "token"⟩ [.opened] text message hread
      rw [onMessage_eq_overflowed_iff]
      exact ⟨rfl, (asksTooLong_iff message).mp hasked⟩

end VoiceCall.Proofs.Relay.Overflow
