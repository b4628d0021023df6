import VoiceCall.Proofs.Number.Quotient
import VoiceCall.Proofs.Relay.Overflow

namespace VoiceCall.Proofs.Relay.Heartbeat

open VoiceCall.Relay
open VoiceCall.Binary (ratio roundDiv)
open VoiceCall.Proofs.Number.Pattern
open VoiceCall.Proofs.Number.Quotient
open VoiceCall.Proofs.Number.Rounding
open VoiceCall.Proofs.Relay.History
open VoiceCall.Proofs.Relay.Overflow

theorem ofSeconds?_of_pattern_le {x y : Float} {span : Nanoseconds}
    (h : pattern x ≤ pattern y) (hspan : Nanoseconds.ofSeconds? y = some span) :
    ∃ shorter ≤ span, Nanoseconds.ofSeconds? x = some shorter := by
  have hpos := ratio_snd_pos x
  have hpos' := ratio_snd_pos y
  have hratio := ratio_le_of_pattern_le h
  unfold Nanoseconds.ofSeconds? at *
  generalize ratio x = a at *
  generalize ratio y = b at *
  have hround : roundDiv (a.1 * Nanoseconds.perSecond) a.2 ≤
      roundDiv (b.1 * Nanoseconds.perSecond) b.2 := by
    refine roundDiv_le_roundDiv hpos hpos' ?_
    rw [Nat.mul_right_comm, Nat.mul_right_comm b.1]
    exact Nat.mul_le_mul_right _ hratio
  dsimp only at *
  split at hspan
  · rename_i hshort
    cases hspan
    exact ⟨_, hround, if_pos (Nat.lt_of_le_of_lt hround hshort)⟩
  · cases hspan

theorem heartbeatInterval_of_pos {millis : Float} {m k : Nat} (h : Encodes millis m k) :
    heartbeatInterval millis =
      Nanoseconds.ofSeconds? (millis / Float.ofBits 0x408f400000000000) := by
  have hpos : 0 < millis := zero_lt_iff.mpr (.inl ⟨m, k, h⟩)
  rw [heartbeatInterval, if_pos]
  simp [h.isFinite, hpos]

theorem exists_encodes_thousand :
    ∃ m k, Encodes (Float.ofBits 0x408f400000000000) m k :=
  exists_encodes_of_pos (by decide +kernel) (by decide +kernel)

theorem heartbeatInterval_of_le {x y : Float} {m k m' k' : Nat} {interval : Nanoseconds}
    (hx : Encodes x m k) (hy : Encodes y m' k') (hle : x ≤ y)
    (h : heartbeatInterval y = some interval) :
    ∃ shorter ≤ interval, heartbeatInterval x = some shorter := by
  obtain ⟨_, _, hthousand⟩ := exists_encodes_thousand
  rw [heartbeatInterval_of_pos hy] at h
  rw [heartbeatInterval_of_pos hx]
  exact ofSeconds?_of_pattern_le (pattern_div_le_pattern_div hx hy hthousand hle) h

theorem heartbeatInterval_of_unusable {millis : Float}
    (h : ¬ (millis.isFinite ∧ 0 < millis)) : heartbeatInterval millis = some defaultHeartbeat := by
  rw [heartbeatInterval, if_neg]
  simpa using h

/-- Half a nanosecond, in milliseconds. -/
def halfNanosecond : Float :=
  5e-7

/-- The double behind half a nanosecond. -/
def pastHalfNanosecond : Float :=
  Float.ofBits 0x3ea0c6f7a0b5ed8e

theorem pattern_pastHalfNanosecond : pattern pastHalfNanosecond = pattern halfNanosecond + 1 := by
  decide +kernel

theorem exists_encodes_halfNanosecond : ∃ m k, Encodes halfNanosecond m k :=
  exists_encodes_of_pos (by decide +kernel) (by decide +kernel)

theorem exists_encodes_pastHalfNanosecond : ∃ m k, Encodes pastHalfNanosecond m k :=
  exists_encodes_of_pos (by decide +kernel) (by decide +kernel)

theorem heartbeatInterval_halfNanosecond : heartbeatInterval halfNanosecond = some 0 := by
  decide +kernel

theorem heartbeatInterval_pastHalfNanosecond : heartbeatInterval pastHalfNanosecond = some 1 := by
  decide +kernel

theorem heartbeatInterval_of_le_halfNanosecond {millis : Float} (hpos : 0 < millis)
    (hle : millis ≤ halfNanosecond) : heartbeatInterval millis = some 0 := by
  obtain ⟨_, _, hhalf⟩ := exists_encodes_halfNanosecond
  obtain ⟨_, _, hmillis⟩ := exists_encodes_of_le hpos hle hhalf
  obtain ⟨shorter, hshorter, h⟩ :=
    heartbeatInterval_of_le hmillis hhalf hle heartbeatInterval_halfNanosecond
  obtain rfl : shorter = 0 := Nat.le_zero.mp hshorter
  exact h

theorem pastHalfNanosecond_le {millis : Float} {m k : Nat} (h : Encodes millis m k)
    (hlong : ¬ millis ≤ halfNanosecond) : pastHalfNanosecond ≤ millis := by
  obtain ⟨_, _, hhalf⟩ := exists_encodes_halfNanosecond
  obtain ⟨_, _, hpast⟩ := exists_encodes_pastHalfNanosecond
  rw [h.le_iff hhalf] at hlong
  rw [hpast.le_iff h, pattern_pastHalfNanosecond]
  omega

theorem heartbeatInterval_pos {millis : Float} {interval : Nanoseconds}
    (h : heartbeatInterval millis = some interval)
    (hlong : ¬ (0 < millis ∧ millis ≤ halfNanosecond)) : 0 < interval := by
  by_cases hsound : millis.isFinite ∧ 0 < millis
  · obtain ⟨_, _, hmillis⟩ := exists_encodes_of_pos hsound.2 hsound.1
    obtain ⟨_, _, hpast⟩ := exists_encodes_pastHalfNanosecond
    have hle := pastHalfNanosecond_le hmillis fun hle => hlong ⟨hsound.2, hle⟩
    obtain ⟨shorter, hshorter, hone⟩ := heartbeatInterval_of_le hpast hmillis hle h
    rw [heartbeatInterval_pastHalfNanosecond] at hone
    cases hone
    exact hshorter
  · rw [heartbeatInterval_of_unusable hsound] at h
    cases h
    decide

theorem heartbeatInterval_pos_iff {millis : Float} {interval : Nanoseconds}
    (h : heartbeatInterval millis = some interval) :
    0 < interval ↔ ¬ (0 < millis ∧ millis ≤ halfNanosecond) := by
  refine ⟨fun hpos hshort => ?_, heartbeatInterval_pos h⟩
  rw [heartbeatInterval_of_le_halfNanosecond hshort.1 hshort.2] at h
  cases h
  exact Nat.lt_irrefl 0 hpos

theorem unusable_iff (millis : Float) :
    ¬ (millis.isFinite ∧ 0 < millis) ↔ millis.isNaN ∨ millis.isInf ∨ millis ≤ 0 := by
  change ¬ (millis.toModel.unpack.isFinite = true ∧ _) ↔
    millis.toModel.unpack.isNaN = true ∨ millis.toModel.unpack.isInf = true ∨ _
  rw [lt_iff, le_iff, unpack_zero]
  cases millis.toModel.unpack with
  | notANumber => exact iff_of_true (fun h => Bool.noConfusion h.1) (.inl rfl)
  | infinity s => exact iff_of_true (fun h => Bool.noConfusion h.1) (.inr (.inl rfl))
  | zero s =>
      refine iff_of_true (fun h => ?_) (.inr (.inr rfl))
      cases h.2
  | finite s m e hm =>
      cases s with
      | positive =>
          refine iff_of_false (fun h => h ⟨rfl, rfl⟩) ?_
          rintro (h | h | h) <;> cases h
      | negative =>
          refine iff_of_true (fun h => ?_) (.inr (.inr rfl))
          cases h.2

theorem onMessage_hello {h : Handshake} (hstate : h.state = .awaitingHello) {millis : Float}
    {interval : Nanoseconds} (hinterval : heartbeatInterval millis = some interval) :
    h.onMessage (.hello millis) =
      ({ h with state := .awaitingReady },
        .actions [.startHeartbeat interval, .send (.identify h.identity)]) := by
  rw [Handshake.onMessage, if_pos hstate, Handshake.onHello, hinterval]

/-- An awaited hello that is answered starts one heartbeat, with the default period if its interval
is no positive finite number, and a period longer than zero unless its interval is positive and at
most half a nanosecond. -/
theorem heartbeat_period (h : Handshake) (millis : Float) (hstate : h.state = .awaitingHello)
    (hanswered : (h.onMessage (.hello millis)).2 ≠ .overflowed) :
    ∃ interval,
      h.onMessage (.hello millis) =
        ({ h with state := .awaitingReady },
          .actions [.startHeartbeat interval, .send (.identify h.identity)]) ∧
      (millis.isNaN ∨ millis.isInf ∨ millis ≤ 0 → interval = 5 * Nanoseconds.perSecond) ∧
      (0 < interval ↔ ¬ (0 < millis ∧ millis ≤ halfNanosecond)) := by
  cases hinterval : heartbeatInterval millis with
  | none =>
      rw [heartbeatInterval_eq_none_iff] at hinterval
      exact absurd ((onMessage_eq_overflowed_iff h _).mpr ⟨hstate, millis, rfl, hinterval⟩)
        hanswered
  | some interval =>
      refine ⟨interval, onMessage_hello hstate hinterval, fun hunusable => ?_,
        heartbeatInterval_pos_iff hinterval⟩
      rw [heartbeatInterval_of_unusable ((unusable_iff millis).mpr hunusable)] at hinterval
      cases hinterval
      rfl

/-- The shortest interval that leaves a pause between two beats. -/
theorem heartbeat_period_shortest :
    ∃ interval,
      (Handshake.start ⟨"server", "user", "session", "token"⟩).opened.onMessage
          (.hello pastHalfNanosecond) =
        (⟨.awaitingReady, ⟨"server", "user", "session", "token"⟩, none, none⟩,
          .actions [.startHeartbeat interval,
            .send (.identify ⟨"server", "user", "session", "token"⟩)]) ∧
      (pastHalfNanosecond.isNaN ∨ pastHalfNanosecond.isInf ∨ pastHalfNanosecond ≤ 0 →
        interval = 5 * Nanoseconds.perSecond) ∧
      (0 < interval ↔ ¬ (0 < pastHalfNanosecond ∧ pastHalfNanosecond ≤ halfNanosecond)) := by
  refine heartbeat_period (Handshake.start ⟨"server", "user", "session", "token"⟩).opened
    pastHalfNanosecond rfl ?_
  rw [onMessage_hello rfl heartbeatInterval_pastHalfNanosecond]
  exact nofun

/-- Whether a message is a hello that leaves no pause between two beats. -/
def asksNoPause : Message → Bool
  | .hello millis => heartbeatInterval millis = some 0
  | _ => false

/-- A relay can ask for heartbeats without pause in a message that reads. -/
theorem not_always_paused :
    ¬ ∀ identity calls text message interval todo, Message.ofJson text = .ok message →
      ((after identity calls).onMessage message).2 = .actions todo →
      .startHeartbeat interval ∈ todo → 0 < interval := by
  intro hpaused
  let text := "\x7b\"op\":8,\"d\":\x7b\"heartbeat_interval\":1e-300\x7d\x7d"
  have hasked : (Message.ofJson text).toOption.any asksNoPause = true := by
    decide +kernel
  cases hread : Message.ofJson text with
  | error fault =>
      rw [hread] at hasked
      cases hasked
  | ok message =>
      rw [hread] at hasked
      cases message with
      | hello millis =>
          have hinterval : heartbeatInterval millis = some 0 := of_decide_eq_true hasked
          have hanswer := onMessage_hello
            (h := after ⟨"server", "user", "session", "token"⟩ [.opened]) rfl hinterval
          refine Nat.lt_irrefl 0 (hpaused _ _ text _ 0 _ hread (congrArg Prod.snd hanswer) ?_)
          exact List.mem_cons_self
      | _ => cases hasked

end VoiceCall.Proofs.Relay.Heartbeat
