import VoiceCall.Proofs.Relay.Answers
import VoiceCall.Proofs.Relay.History

namespace VoiceCall.Proofs.Relay.Order

open VoiceCall.Relay
open VoiceCall.Proofs.Relay.Answers
open VoiceCall.Proofs.Relay.History

def todo : Reply → List Action
  | .actions todo => todo
  | .failed _ => []
  | .overflowed => []

/-- What a handshake asked for over a history, in order. -/
def emitted (identity : Identity) : List Call → List Action
  | [] => []
  | call :: earlier => emitted identity earlier ++ todo (call.apply (after identity earlier)).2

/-- The steps of a call from the first to the last. -/
def course (identity : Identity) (interval : Nanoseconds) (ip : String) (port : UInt16)
    (ssrc : UInt32) (key : Octets) : List Action :=
  [.startHeartbeat interval, .send (.identify identity), .connectMedia ip port ssrc,
    .installKey key, .sendSilence, .send (.speaking ⟨speakingMicrophone, 0, ssrc, none⟩),
    .startMedia]

/-- All actions are steps of a call but the selection of a protocol and what concerns other
speakers. -/
def isStep : Action → Bool
  | .send (.selectProtocol _) => false
  | .speakerMapped _ _ => false
  | .speakerSilent _ => false
  | .userLeft _ => false
  | _ => true

/-- Whether an action may follow others: a protocol is selected between opening the media path and
installing the key, and other speakers are remarked on behind the first and are never ourselves. -/
def Placed (before : List Action) : Action → Prop
  | .send (.selectProtocol _) =>
    (∃ ip port ssrc, .connectMedia ip port ssrc ∈ before) ∧ ∀ key, .installKey key ∉ before
  | .speakerMapped other _ => ∃ ip port ssrc, .connectMedia ip port ssrc ∈ before ∧ other ≠ ssrc
  | .speakerSilent other => ∃ ip port ssrc, .connectMedia ip port ssrc ∈ before ∧ other ≠ ssrc
  | .userLeft _ => ∃ ip port ssrc, .connectMedia ip port ssrc ∈ before
  | _ => True

/-- Every action may follow those before it. -/
def AllPlaced (before actions : List Action) : Prop :=
  ∀ first action rest, actions = first ++ action :: rest → Placed (before ++ first) action

/-- The steps that were asked for when a handshake has come to a state. -/
inductive Stage (identity : Identity) (own : Option UInt32) :
    HandshakeState → List Action → Prop where
  | connecting : Stage identity own .connecting []
  | awaitingHello : Stage identity own .awaitingHello []
  | awaitingReady (interval : Nanoseconds) :
      Stage identity own .awaitingReady [.startHeartbeat interval, .send (.identify identity)]
  | awaitingSessionDescription {ssrc : UInt32} (interval : Nanoseconds) (ip : String)
      (port : UInt16) : own = some ssrc →
        Stage identity own .awaitingSessionDescription
          [.startHeartbeat interval, .send (.identify identity), .connectMedia ip port ssrc]
  | connected {ssrc : UInt32} (interval : Nanoseconds) (ip : String) (port : UInt16)
      (key : Octets) : own = some ssrc →
        Stage identity own .connected (course identity interval ip port ssrc key)
  | disconnected {steps : List Action} {interval : Nanoseconds} {ip : String} {port : UInt16}
      {ssrc : UInt32} {key : Octets} : steps <+: course identity interval ip port ssrc key →
        Stage identity own .disconnected steps

theorem Stage.isPrefix {identity : Identity} {own : Option UInt32} {state : HandshakeState}
    {steps : List Action} (h : Stage identity own state steps) :
    ∃ interval ip port ssrc key, steps <+: course identity interval ip port ssrc key := by
  cases h with
  | connecting => exact ⟨0, "", 0, 0, [], List.nil_prefix⟩
  | awaitingHello => exact ⟨0, "", 0, 0, [], List.nil_prefix⟩
  | awaitingReady interval => exact ⟨interval, "", 0, 0, [], _, rfl⟩
  | awaitingSessionDescription interval ip port _ => exact ⟨interval, ip, port, _, [], _, rfl⟩
  | connected interval ip port key _ => exact ⟨interval, ip, port, _, key, List.prefix_rfl⟩
  | disconnected hprefix => exact ⟨_, _, _, _, _, hprefix⟩

theorem identity_after (identity : Identity) (calls : List Call) :
    (after identity calls).identity = identity := by
  induction calls with
  | nil => rfl
  | cons call earlier ih =>
      cases call with
      | opened =>
          simp only [after, Call.apply, Handshake.opened]
          split
          · exact ih
          · exact ih
      | close => exact ih
      | message message =>
          have hanswer := answer_onMessage (after identity earlier) message
          rw [after, Call.apply]
          generalize (after identity earlier).onMessage message = answered at hanswer ⊢
          cases hanswer <;> exact ih
      | discovered address => rw [after, Call.apply, onDiscovered_fst, ih]

theorem filter_remarks {h : Handshake} {actions : List Action}
    (hremarks : ∀ action ∈ actions, Remark h action) : actions.filter isStep = [] := by
  rw [List.filter_eq_nil_iff]
  intro action haction
  cases hremarks action haction <;> exact Bool.false_ne_true

theorem stage_after (identity : Identity) (calls : List Call) :
    Stage identity (after identity calls).ssrc (after identity calls).state
      ((emitted identity calls).filter isStep) := by
  induction calls with
  | nil => exact .connecting
  | cons call earlier ih =>
      rw [emitted, List.filter_append]
      generalize (emitted identity earlier).filter isStep = steps at ih ⊢
      cases call with
      | opened =>
          simp only [after, Call.apply, todo, List.filter_nil, List.append_nil, Handshake.opened]
          split
          · rename_i hstate
            rw [hstate] at ih
            cases ih
            exact .awaitingHello
          · exact ih
      | close =>
          simp only [after, Call.apply, todo, List.filter_nil, List.append_nil]
          obtain ⟨_, _, _, _, _, hprefix⟩ := ih.isPrefix
          exact .disconnected hprefix
      | message message =>
          simp only [after, Call.apply]
          have hanswer := answer_onMessage (after identity earlier) message
          generalize (after identity earlier).onMessage message = answered at hanswer ⊢
          cases hanswer with
          | greeted hstate _ =>
              rw [hstate] at ih
              rw [identity_after]
              cases ih
              exact .awaitingReady _
          | overflowed _ _ => simpa [todo] using ih
          | accepted hstate _ =>
              rw [hstate] at ih
              cases ih
              exact .awaitingSessionDescription _ _ _ rfl
          | established hstate _ hssrc =>
              rw [hstate] at ih
              cases ih with
              | awaitingSessionDescription interval ip port hown =>
                  obtain rfl := Option.some.inj (hown.symm.trans hssrc)
                  exact .connected interval ip port _ hssrc
          | failed _ fault => simpa [todo] using ih
          | remarked _ hremarks =>
              rw [todo, filter_remarks hremarks, List.append_nil]
              exact ih
      | discovered address =>
          simp only [after, Call.apply, onDiscovered_fst]
          have hselected : (todo ((after identity earlier).onDiscovered address).2).filter isStep =
              [] := by
            rcases onDiscovered_snd_cases (after identity earlier) address with
              hreply | ⟨fault, hreply⟩ | ⟨_, mode, _, hreply⟩
            · rw [hreply]
              rfl
            · rw [hreply]
              rfl
            · rw [hreply]
              rfl
          rw [hselected, List.append_nil]
          exact ih

theorem exists_connectMedia_of_hasSource {identity : Identity} {calls : List Call}
    (hsource : (after identity calls).hasSource) :
    ∃ ip port ssrc, (after identity calls).ssrc = some ssrc ∧
      .connectMedia ip port ssrc ∈ emitted identity calls := by
  have hstage := stage_after identity calls
  have hmem : ∀ action ∈ (emitted identity calls).filter isStep, action ∈ emitted identity calls :=
    fun action haction => (List.mem_filter.mp haction).1
  generalize (emitted identity calls).filter isStep = steps at hstage hmem
  simp only [Handshake.hasSource, Bool.or_eq_true, decide_eq_true_eq] at hsource
  rcases hsource with hstate | hstate
  · rw [hstate] at hstage
    cases hstage with
    | awaitingSessionDescription interval ip port hown =>
        exact ⟨ip, port, _, hown, hmem _ (by simp)⟩
  · rw [hstate] at hstage
    cases hstage with
    | connected interval ip port key hown =>
        exact ⟨ip, port, _, hown, hmem _ (by simp [course])⟩

theorem installKey_not_mem {identity : Identity} {calls : List Call}
    (hstate : (after identity calls).state = .awaitingSessionDescription) (key : Octets) :
    .installKey key ∉ emitted identity calls := by
  intro hmem
  have hstep : .installKey key ∈ (emitted identity calls).filter isStep :=
    List.mem_filter.mpr ⟨hmem, rfl⟩
  have hstage := stage_after identity calls
  rw [hstate] at hstage
  generalize (emitted identity calls).filter isStep = steps at hstage hstep
  cases hstage
  simp at hstep

theorem Placed.mono {before : List Action} {h : Handshake} {action : Action}
    (hremark : Remark h action) (hplaced : Placed before action) (more : List Action) :
    Placed (before ++ more) action := by
  cases hremark with
  | mapped user _ _ =>
      obtain ⟨ip, port, ssrc, hmem, hother⟩ := hplaced
      exact ⟨ip, port, ssrc, List.mem_append_left more hmem, hother⟩
  | silent _ _ =>
      obtain ⟨ip, port, ssrc, hmem, hother⟩ := hplaced
      exact ⟨ip, port, ssrc, List.mem_append_left more hmem, hother⟩
  | left user _ =>
      obtain ⟨ip, port, ssrc, hmem⟩ := hplaced
      exact ⟨ip, port, ssrc, List.mem_append_left more hmem⟩

theorem placed_remark {identity : Identity} {calls : List Call} {action : Action}
    (hremark : Remark (after identity calls) action) :
    Placed (emitted identity calls) action := by
  cases hremark with
  | mapped user hsource hother =>
      obtain ⟨ip, port, ssrc, hown, hmem⟩ := exists_connectMedia_of_hasSource hsource
      exact ⟨ip, port, ssrc, hmem, fun heq => hother (heq ▸ hown)⟩
  | silent hsource hother =>
      obtain ⟨ip, port, ssrc, hown, hmem⟩ := exists_connectMedia_of_hasSource hsource
      exact ⟨ip, port, ssrc, hmem, fun heq => hother (heq ▸ hown)⟩
  | left user hsource =>
      obtain ⟨ip, port, ssrc, -, hmem⟩ := exists_connectMedia_of_hasSource hsource
      exact ⟨ip, port, ssrc, hmem⟩

theorem allPlaced_nil (before : List Action) : AllPlaced before [] := by
  intro first action rest heq
  simp at heq

theorem allPlaced_append {before xs ys : List Action} :
    AllPlaced before (xs ++ ys) ↔ AllPlaced before xs ∧ AllPlaced (before ++ xs) ys := by
  constructor
  · intro h
    constructor
    · rintro first action rest rfl
      exact h first action (rest ++ ys) (by simp)
    · rintro first action rest rfl
      rw [List.append_assoc]
      exact h (xs ++ first) action rest (by simp)
  · rintro ⟨hxs, hys⟩ first action rest heq
    rcases List.append_eq_append_iff.mp heq with ⟨more, rfl, hrest⟩ | ⟨more, hfirst, hrest⟩
    · rw [← List.append_assoc]
      exact hys more action rest hrest
    · cases more with
      | nil =>
          rw [List.append_nil] at hfirst
          subst hfirst
          simpa using hys [] action rest (by simpa using hrest.symm)
      | cons head more =>
          obtain ⟨rfl, -⟩ := List.cons.inj hrest
          exact hxs first action more hfirst

theorem allPlaced_singleton {before : List Action} {action : Action} (h : Placed before action) :
    AllPlaced before [action] := by
  intro first other rest heq
  cases first with
  | nil =>
      obtain ⟨rfl, -⟩ := List.cons.inj heq
      rwa [List.append_nil]
  | cons head first => simp at heq

/-- Steps may stand anywhere. -/
theorem allPlaced_steps {before actions : List Action} (h : ∀ action ∈ actions, isStep action) :
    AllPlaced before actions := by
  rintro first action rest rfl
  have hstep := h action (by simp)
  cases action with
  | send message =>
      cases message with
      | selectProtocol selection => cases hstep
      | _ => exact trivial
  | speakerMapped other user => cases hstep
  | speakerSilent other => cases hstep
  | userLeft user => cases hstep
  | _ => exact trivial

theorem allPlaced_reply (identity : Identity) (calls : List Call) (call : Call) :
    AllPlaced (emitted identity calls) (todo (call.apply (after identity calls)).2) := by
  cases call with
  | opened => exact allPlaced_nil _
  | close => exact allPlaced_nil _
  | message message =>
      have hanswer := answer_onMessage (after identity calls) message
      rw [Call.apply]
      generalize (after identity calls).onMessage message = answered at hanswer ⊢
      cases hanswer with
      | greeted _ _ => exact allPlaced_steps (by simp [todo, isStep])
      | overflowed _ _ => exact allPlaced_nil _
      | accepted _ _ => exact allPlaced_steps (by simp [todo, isStep])
      | established _ _ _ => exact allPlaced_steps (by simp [todo, isStep])
      | failed _ fault => exact allPlaced_nil _
      | remarked _ hremarks =>
          rintro first action rest rfl
          have hremark := hremarks action (by simp)
          exact (placed_remark hremark).mono hremark first
  | discovered address =>
      rw [Call.apply]
      rcases onDiscovered_snd_cases (after identity calls) address with
        hreply | ⟨fault, hreply⟩ | ⟨hstate, mode, _, hreply⟩
      · rw [hreply]
        exact allPlaced_nil _
      · rw [hreply]
        exact allPlaced_nil _
      · rw [hreply]
        have hsource : (after identity calls).hasSource := by simp [Handshake.hasSource, hstate]
        obtain ⟨ip, port, ssrc, -, hmem⟩ := exists_connectMedia_of_hasSource hsource
        exact allPlaced_singleton ⟨⟨ip, port, ssrc, hmem⟩, installKey_not_mem hstate⟩

theorem allPlaced_emitted (identity : Identity) (calls : List Call) :
    AllPlaced [] (emitted identity calls) := by
  induction calls with
  | nil => exact allPlaced_nil _
  | cons call earlier ih =>
      rw [emitted, allPlaced_append]
      exact ⟨ih, allPlaced_reply identity earlier call⟩

/-- Nothing is assigned before the relay is ready. -/
theorem unassigned_after (identity : Identity) (calls : List Call)
    (hsource : (after identity calls).hasSource = false)
    (hopen : (after identity calls).state ≠ .disconnected) :
    (after identity calls).ssrc = none ∧ (after identity calls).mode = none := by
  induction calls with
  | nil => exact ⟨rfl, rfl⟩
  | cons call earlier ih =>
      cases call with
      | opened =>
          simp only [after, Call.apply, Handshake.opened] at hsource hopen ⊢
          split at hsource
          · rename_i hstate
            rw [if_pos hstate]
            exact ih (by simp [Handshake.hasSource, hstate]) (by simp [hstate])
          · rename_i hstate
            rw [if_neg hstate] at hopen ⊢
            exact ih hsource hopen
      | close => exact absurd rfl hopen
      | message message =>
          have hanswer := answer_onMessage (after identity earlier) message
          rw [after, Call.apply] at hsource hopen ⊢
          generalize (after identity earlier).onMessage message = answered
            at hanswer hsource hopen ⊢
          cases hanswer with
          | greeted hstate _ => exact ih (by simp [Handshake.hasSource, hstate]) (by simp [hstate])
          | overflowed _ _ => exact ih hsource hopen
          | accepted _ _ => cases hsource
          | established _ _ _ => cases hsource
          | failed _ fault => exact ih hsource hopen
          | remarked _ hremarks => exact ih hsource hopen
      | discovered address =>
          rw [after, Call.apply, onDiscovered_fst] at hsource hopen ⊢
          exact ih hsource hopen

/-- A handshake with the assignments of another, if that has any. -/
def KeepsAssigned (before h : Handshake) : Prop :=
  (∀ ssrc, before.ssrc = some ssrc → h.ssrc = some ssrc) ∧
    ∀ mode, before.mode = some mode → h.mode = some mode

theorem keepsAssigned_apply (identity : Identity) (calls : List Call) (call : Call) :
    KeepsAssigned (after identity calls) (call.apply (after identity calls)).1 := by
  cases call with
  | opened =>
      rw [Call.apply, Handshake.opened]
      split
      · exact ⟨fun _ => id, fun _ => id⟩
      · exact ⟨fun _ => id, fun _ => id⟩
  | close => exact ⟨fun _ => id, fun _ => id⟩
  | message message =>
      have hanswer := answer_onMessage (after identity calls) message
      rw [Call.apply]
      generalize (after identity calls).onMessage message = answered at hanswer ⊢
      cases hanswer with
      | accepted hstate _ =>
          obtain ⟨hssrc, hmode⟩ := unassigned_after identity calls
            (by simp [Handshake.hasSource, hstate]) (by simp [hstate])
          constructor
          · intro ssrc hsome
            rw [hssrc] at hsome
            cases hsome
          · intro mode hsome
            rw [hmode] at hsome
            cases hsome
      | greeted _ _ => exact ⟨fun _ => id, fun _ => id⟩
      | overflowed _ _ => exact ⟨fun _ => id, fun _ => id⟩
      | established _ _ _ => exact ⟨fun _ => id, fun _ => id⟩
      | failed _ fault => exact ⟨fun _ => id, fun _ => id⟩
      | remarked _ hremarks => exact ⟨fun _ => id, fun _ => id⟩
  | discovered address =>
      rw [Call.apply, onDiscovered_fst]
      exact ⟨fun _ => id, fun _ => id⟩

theorem keepsAssigned_after (identity : Identity) (later earlier : List Call) :
    KeepsAssigned (after identity earlier) (after identity (later ++ earlier)) := by
  induction later with
  | nil => exact ⟨fun _ => id, fun _ => id⟩
  | cons call later ih =>
      obtain ⟨hssrc, hmode⟩ := keepsAssigned_apply identity (later ++ earlier) call
      exact ⟨fun ssrc hsome => hssrc ssrc (ih.1 ssrc hsome),
        fun mode hsome => hmode mode (ih.2 mode hsome)⟩

theorem apply_eq_of_failed {h : Handshake} {call : Call} {fault : Fault}
    (hfailed : (call.apply h).2 = .failed fault) : (call.apply h).1 = h := by
  cases call with
  | opened => cases hfailed
  | close => cases hfailed
  | message message =>
      have hanswer := answer_onMessage h message
      rw [Call.apply] at hfailed ⊢
      generalize h.onMessage message = answered at hanswer hfailed ⊢
      cases hanswer with
      | failed _ fault => rfl
      | greeted _ _ => cases hfailed
      | overflowed _ _ => cases hfailed
      | accepted _ _ => cases hfailed
      | established _ _ _ => cases hfailed
      | remarked _ _ => cases hfailed
  | discovered address => exact onDiscovered_fst h address

theorem apply_of_disconnected {h : Handshake} (hstate : h.state = .disconnected) (call : Call) :
    call.apply h = (h, .actions []) := by
  cases call with
  | opened => simp [Call.apply, Handshake.opened, hstate]
  | close =>
      rw [Call.apply, Handshake.close, ← hstate]
  | message message => cases message <;> simp [Call.apply, Handshake.onMessage,
      Handshake.hasSource, hstate]
  | discovered address => simp [Call.apply, Handshake.onDiscovered, hstate]

theorem closed_after (identity : Identity) (later earlier : List Call) :
    (after identity (later ++ .close :: earlier)).state = .disconnected ∧
      emitted identity (later ++ .close :: earlier) = emitted identity earlier := by
  induction later with
  | nil => exact ⟨rfl, List.append_nil _⟩
  | cons call later ih =>
      have hreply := apply_of_disconnected ih.1 call
      rw [List.cons_append, after, emitted, hreply]
      exact ⟨ih.1, (List.append_nil _).trans ih.2⟩

/-- Whatever a handshake is called with, apart from remarks on other speakers and answers to a
discovery it asks for the steps of one fixed course, each once and in their order; remarks and
answers keep to their place in that course; and nothing that was assigned is ever changed, not even
by a failure or the end of the call. -/
theorem asks_in_order (identity : Identity) (calls : List Call) :
    (∃ interval ip port ssrc key,
        (emitted identity calls).filter isStep <+: course identity interval ip port ssrc key) ∧
      Stage identity (after identity calls).ssrc (after identity calls).state
        ((emitted identity calls).filter isStep) ∧
      (∀ before action rest, emitted identity calls = before ++ action :: rest →
        Placed before action) ∧
      (∀ later earlier, calls = later ++ earlier →
        KeepsAssigned (after identity earlier) (after identity calls)) ∧
      (∀ (call : Call) (fault : Fault), (call.apply (after identity calls)).2 = .failed fault →
        (call.apply (after identity calls)).1 = after identity calls) ∧
      ∀ later earlier, calls = later ++ .close :: earlier →
        (after identity calls).state = .disconnected ∧
          emitted identity calls = emitted identity earlier := by
  refine ⟨(stage_after identity calls).isPrefix, stage_after identity calls, ?_, ?_, ?_, ?_⟩
  · intro before action rest heq
    exact allPlaced_emitted identity calls before action rest heq
  · rintro later earlier rfl
    exact keepsAssigned_after identity later earlier
  · intro call fault hfailed
    exact apply_eq_of_failed hfailed
  · rintro later earlier rfl
    exact closed_after identity later earlier

/-- A whole call: the steps are all there, the selection stands in their midst, and a late hello
changes nothing. -/
theorem asks_in_order_whole_call :
    let identity : Identity := ⟨"server", "user", "session", "token"⟩
    let ready : Ready := ⟨42, "127.0.0.1", 5000, ["plain", supportedMode]⟩
    let calls : List Call := [
      .message (.hello 0), .message (.sessionDescription ⟨supportedMode, []⟩),
      .discovered ⟨"203.0.113.9", 50000⟩, .message (.ready ready), .message (.hello 0), .opened]
    (after identity calls).state = .connected ∧
      Placed [.startHeartbeat defaultHeartbeat, .send (.identify identity),
          .connectMedia "127.0.0.1" 5000 42]
        (.send (.selectProtocol (.udp "203.0.113.9" 50000 supportedMode))) := by
  intro identity ready calls
  obtain ⟨-, -, hplaced, -⟩ := asks_in_order identity calls
  exact ⟨rfl, hplaced _ _ _ rfl⟩

end VoiceCall.Proofs.Relay.Order
