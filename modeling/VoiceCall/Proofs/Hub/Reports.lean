import VoiceCall.Hub.Receiver
import VoiceCall.Proofs.Hub.Errands
import VoiceCall.Proofs.Hub.History

namespace VoiceCall.Proofs.Hub.Reports

open VoiceCall.Proofs.Hub.Errands
open VoiceCall.Proofs.Hub.Bookkeeping

/-- How far the receiving side is with a packet. -/
inductive Flight where
  | idle
  | arrived (header : Packet.Header) (payload : Octets) (now : Nat)
  | found (header : Packet.Header) (payload : Octets) (now : Nat) (destination : Destination)
  | routed (ssrc : UInt32) (route : Route)

/-- A hub between a receiving side and a session. -/
structure System where
  hub : Hub
  receiver : Receiver
  flight : Flight
  /-- Reports on their way to the session. -/
  channel : List Notice
  /-- What the session has still to do of what it has begun. -/
  errands : List Errand
  /-- All reports that were sent, and the sources of all packets that were queued. -/
  reported : List Notice
  queued : List UInt32

/-- The beginning of a session: nothing has been heard yet. -/
def start (h : Hub) (channel : List Notice) : System where
  hub := h
  receiver := .fresh
  flight := .idle
  channel := channel
  errands := []
  reported := []
  queued := []

/-- What a session begins: to act on the oldest report, or on a message of the relay or the user. -/
inductive Operation where
  | notice
  | map (ssrc : UInt32) (user : String)
  | userLeft (user : String)
  | remove (ssrc : UInt32)

/-- Others leave alone who is registered, who has departed, and which source is ours. -/
structure Undisturbed (h h' : Hub) : Prop where
  contains (ssrc : UInt32) : h'.roster.contains ssrc = h.roster.contains ssrc
  departed (ssrc : UInt32) : h'.isDeparted ssrc = h.isDeparted ssrc
  localSsrc : h'.localSsrc = h.localSsrc

inductive Move where
  | arrive (header : Packet.Header) (payload : Octets) (now : Nat)
  | look
  /-- The packet is routed; somebody may have muted its speaker since it was found. -/
  | route (muted : Bool)
  | report
  | begin (operation : Operation)
  | proceed
  /-- Workers, devices and the user change what is theirs. -/
  | beside (change : Hub → Hub) (hkept : ∀ h, Undisturbed h (change h))

/-- Where a packet goes from where it was found to belong. -/
def forward (h : Hub) (header : Packet.Header) (payload : Octets) (now : Nat) (muted : Bool) :
    Destination → Hub × Route
  | .nowhere => (h, .dropped)
  | .nobody => (h, h.routeUnknown header.ssrc)
  | .speaker s => h.deliver { s with muted := muted } payload now

namespace System

def begin (s : System) : Operation → System
  | .notice =>
    match s.channel with
    | [] => s
    | .unknownSource ssrc :: channel => { s with channel := channel, errands := [.consider ssrc] }
    | .transportFailed _ :: channel => { s with channel := channel }
  | .map ssrc user => { s with errands := [.map ssrc user] }
  | .userLeft user => { s with errands := [.removeUser user] }
  | .remove ssrc => { s with errands := [.remove ssrc] }

/-- The system after a move. Nobody moves out of turn: the receiving side has one packet at a time,
and a session ends what it has begun before it begins something else. -/
def step (dsp : Dsp) (s : System) : Move → System
  | .arrive header payload now =>
    match s.flight with
    | .idle => { s with flight := .arrived header payload now }
    | _ => s
  | .look =>
    match s.flight with
    | .arrived header payload now =>
      { s with flight := .found header payload now (s.hub.destination header) }
    | _ => s
  | .route muted =>
    match s.flight with
    | .found header payload now destination =>
      let (hub, route) := forward s.hub header payload now muted destination
      { s with
        hub := hub
        flight := .routed header.ssrc route
        queued := if route = .queued then header.ssrc :: s.queued else s.queued }
    | _ => s
  | .report =>
    match s.flight with
    | .routed ssrc route =>
      let (receiver, notice) := s.receiver.note ssrc route
      { s with
        receiver := receiver
        flight := .idle
        channel := s.channel ++ notice.toList
        reported := s.reported ++ notice.toList }
    | _ => s
  | .begin operation => if s.errands.isEmpty then s.begin operation else s
  | .proceed =>
    match s.errands with
    | [] => s
    | errand :: errands =>
      let (hub, next) := errand.perform dsp s.hub
      { s with hub := hub, errands := next ++ errands }
  | .beside change _ => { s with hub := change s.hub }

def run (dsp : Dsp) (s : System) (moves : List Move) : System :=
  moves.foldl (step dsp) s

end System

/-- What an operation comes to if nobody moves in between. -/
def Operation.whole (dsp : Dsp) (s : System) : Operation → System
  | notice =>
    match s.channel with
    | [] => s
    | .unknownSource ssrc :: channel =>
      { s with channel := channel, hub := (s.hub.admitUnknown dsp ssrc).1 }
    | .transportFailed _ :: channel => { s with channel := channel }
  | map ssrc user => { s with hub := Session.mapSpeaker dsp s.hub ssrc user }
  | userLeft user => { s with hub := (s.hub.removeUser dsp user).1 }
  | remove ssrc => { s with hub := (s.hub.removeSpeaker dsp ssrc).1 }

theorem run_proceed {dsp : Dsp} {h h' : Hub} {errands : List Errand}
    (hfinishes : Finishes dsp h errands h') (s : System) :
    ∃ count, ({ s with hub := h, errands := errands } : System).run dsp
      (List.replicate count .proceed) = { s with hub := h', errands := [] } := by
  induction hfinishes with
  | done h => exact ⟨0, rfl⟩
  | next _ ih =>
      obtain ⟨count, hrun⟩ := ih
      exact ⟨count + 1, hrun⟩

theorem operation_uninterrupted (dsp : Dsp) {s : System} (hidle : s.errands = [])
    (operation : Operation) :
    ∃ count, s.run dsp (.begin operation :: List.replicate count .proceed) =
      operation.whole dsp s := by
  have hbegin (moves : List Move) :
      s.run dsp (.begin operation :: moves) = (s.begin operation).run dsp moves := by
    change ((if s.errands.isEmpty then s.begin operation else s) : System).run dsp moves = _
    rw [hidle]
    rfl
  simp only [hbegin]
  rcases s with ⟨hub, receiver, flight, channel, errands, reported, queued⟩
  obtain rfl : errands = [] := hidle
  cases operation with
  | notice =>
      match channel with
      | [] => exact ⟨0, rfl⟩
      | .unknownSource ssrc :: channel =>
          exact run_proceed (finishes_consider dsp hub ssrc)
            ⟨hub, receiver, flight, channel, [], reported, queued⟩
      | .transportFailed _ :: channel => exact ⟨0, rfl⟩
  | map ssrc user =>
      exact run_proceed (finishes_map dsp hub ssrc user)
        ⟨hub, receiver, flight, channel, [], reported, queued⟩
  | userLeft user =>
      exact run_proceed (finishes_removeUser dsp hub user)
        ⟨hub, receiver, flight, channel, [], reported, queued⟩
  | remove ssrc =>
      exact run_proceed (finishes_remove dsp hub ssrc)
        ⟨hub, receiver, flight, channel, [], reported, queued⟩

/-- The four moves of a packet are what the receiving side does with it. -/
theorem packet_uninterrupted (dsp : Dsp) {s : System} (hidle : s.flight = .idle)
    (header : Packet.Header) (payload : Octets) (now : Nat) :
    ∃ muted, s.run dsp [.arrive header payload now, .look, .route muted, .report] =
      { s with
        hub := (s.receiver.onPacket s.hub header payload now).1
        receiver := (s.receiver.onPacket s.hub header payload now).2.1
        channel := s.channel ++ (s.receiver.onPacket s.hub header payload now).2.2.toList
        reported := s.reported ++ (s.receiver.onPacket s.hub header payload now).2.2.toList
        queued :=
          if (s.hub.handlePacket header payload now).2 = .queued then header.ssrc :: s.queued
          else s.queued } := by
  rcases s with ⟨hub, receiver, flight, channel, errands, reported, queued⟩
  obtain rfl : flight = .idle := hidle
  have hroute : ∃ muted, forward hub header payload now muted (hub.destination header) =
      hub.handlePacket header payload now := by
    rw [Hub.handlePacket]
    cases hub.destination header with
    | nowhere => exact ⟨false, rfl⟩
    | nobody => exact ⟨false, rfl⟩
    | speaker found => exact ⟨found.muted, rfl⟩
  obtain ⟨muted, hroute⟩ := hroute
  refine ⟨muted, ?_⟩
  simp only [System.run, List.foldl, System.step, hroute, Receiver.onPacket]

/-- A source needs no further report. -/
def Covered (s : System) (ssrc : UInt32) : Prop :=
  Settled s.hub ssrc ∨ .unknownSource ssrc ∈ s.channel ∨ ∃ errand ∈ s.errands, errand.Promises ssrc

variable {s : System} {ssrc : UInt32}

theorem Undisturbed.settled {h h' : Hub} (hkept : Undisturbed h h') (hsettled : Settled h ssrc) :
    Settled h' ssrc :=
  hsettled.of_contains (hkept.contains ssrc ▸ id) (hkept.departed ssrc ▸ id) hkept.localSsrc

theorem undisturbed_decode (dsp : Dsp) (place : Nat) (h : Hub) :
    Undisturbed h (h.decode dsp place) := by
  have hledger := ledger_decode dsp place h
  have hsame : (h.decode dsp place).localSsrc = h.localSsrc := by
    rw [Hub.decode]
    split <;> rfl
  refine ⟨fun ssrc => Bool.eq_iff_iff.mpr ?_, fun ssrc => ?_, hsame⟩
  · rw [contains_iff, contains_iff, hledger]
  · exact congrArg (fun l => l.departed.contains ssrc) hledger

theorem undisturbed_forward (h : Hub) (header : Packet.Header) (payload : Octets) (now : Nat)
    (muted : Bool) (destination : Destination) :
    Undisturbed h (forward h header payload now muted destination).1 := by
  cases destination with
  | nowhere => exact ⟨fun _ => rfl, fun _ => rfl, rfl⟩
  | nobody => exact ⟨fun _ => rfl, fun _ => rfl, rfl⟩
  | speaker found =>
      rw [forward, Hub.deliver]
      split <;> exact ⟨fun _ => rfl, fun _ => rfl, rfl⟩

theorem covered_begin (operation : Operation) (hidle : s.errands = []) (hcovered : Covered s ssrc) :
    Covered (s.begin operation) ssrc := by
  have hwaiting : Settled s.hub ssrc ∨ .unknownSource ssrc ∈ s.channel := by
    rcases hcovered with hsettled | hnotice | ⟨errand, hmem, -⟩
    · exact .inl hsettled
    · exact .inr hnotice
    · rw [hidle] at hmem
      cases hmem
  cases operation with
  | notice =>
      rw [System.begin]
      split
      · exact hcovered
      · rename_i other channel hchannel
        rw [hchannel] at hwaiting
        rcases hwaiting with hsettled | hnotice
        · exact .inl hsettled
        · rcases List.mem_cons.mp hnotice with hsame | hnotice
          · exact .inr (.inr ⟨.consider other, List.mem_cons_self, Notice.unknownSource.inj hsame⟩)
          · exact .inr (.inl hnotice)
      · rename_i reason channel hchannel
        rw [hchannel] at hwaiting
        rcases hwaiting with hsettled | hnotice
        · exact .inl hsettled
        · exact .inr (.inl (by simpa using hnotice))
  | map other user => exact hwaiting.elim .inl fun hnotice => .inr (.inl hnotice)
  | userLeft user => exact hwaiting.elim .inl fun hnotice => .inr (.inl hnotice)
  | remove other => exact hwaiting.elim .inl fun hnotice => .inr (.inl hnotice)

theorem covered_step (dsp : Dsp) (move : Move) (hcovered : Covered s ssrc) :
    Covered (s.step dsp move) ssrc := by
  cases move with
  | arrive header payload now =>
      rw [System.step]
      split <;> exact hcovered
  | look =>
      rw [System.step]
      split <;> exact hcovered
  | route muted =>
      rw [System.step]
      split
      · exact hcovered.imp_left (undisturbed_forward _ _ _ _ muted _).settled
      · exact hcovered
  | report =>
      rw [System.step]
      split
      · exact hcovered.imp_right (.imp_left (List.mem_append_left _))
      · exact hcovered
  | begin operation =>
      rw [System.step]
      split
      · rename_i hidle
        exact covered_begin operation (List.isEmpty_iff.mp hidle) hcovered
      · exact hcovered
  | proceed =>
      rw [System.step]
      split
      · exact hcovered
      · rename_i errand errands herrands
        rcases hcovered with hsettled | hnotice | ⟨pending, hmem, hpromise⟩
        · rcases settled_perform dsp (.inl hsettled) with hstill | ⟨next, hmem, hnext⟩
          · exact .inl hstill
          · exact .inr (.inr ⟨next, List.mem_append_left errands hmem, hnext⟩)
        · exact .inr (.inl hnotice)
        · rw [herrands] at hmem
          rcases List.mem_cons.mp hmem with rfl | hmem
          · rcases settled_perform dsp (.inr hpromise) with hstill | ⟨next, hmem, hnext⟩
            · exact .inl hstill
            · exact .inr (.inr ⟨next, List.mem_append_left errands hmem, hnext⟩)
          · exact .inr (.inr ⟨pending, List.mem_append_right _ hmem, hpromise⟩)
  | beside change hkept => exact hcovered.imp_left (hkept s.hub).settled

theorem mem_announced_note {r : Receiver} {other : UInt32} {route : Route}
    (hmem : ssrc ∈ (r.note other route).1.announced) :
    ssrc ∈ r.announced ∨ .unknownSource ssrc ∈ (r.note other route).2.toList := by
  cases route with
  | unknownSpeaker =>
      rw [Receiver.note] at hmem ⊢
      split at hmem
      · exact .inl hmem
      · rcases List.mem_cons.mp hmem with rfl | hmem
        · exact .inr (by simp_all)
        · exact .inl hmem
  | queued => exact .inl (List.mem_filter.mp hmem).1
  | dropped => exact .inl hmem

theorem mem_announced_step (dsp : Dsp) {move : Move}
    (hmem : ssrc ∈ (s.step dsp move).receiver.announced) :
    ssrc ∈ s.receiver.announced ∨ .unknownSource ssrc ∈ (s.step dsp move).channel := by
  cases move with
  | report =>
      rw [System.step] at hmem ⊢
      split at hmem
      · exact (mem_announced_note hmem).imp_right (List.mem_append_right _)
      · exact .inl hmem
  | begin operation =>
      rw [System.step] at hmem
      split at hmem
      · cases operation with
        | notice =>
            rw [System.begin] at hmem
            split at hmem <;> exact .inl hmem
        | _ => exact .inl hmem
      · exact .inl hmem
  | beside change hkept => exact .inl hmem
  | _ =>
      rw [System.step] at hmem
      split at hmem <;> exact .inl hmem

/-- Whether a packet of the source was queued and the receiving side has not taken note of it. -/
def unnoted (ssrc : UInt32) : Flight → Nat
  | .routed other .queued => if other = ssrc then 1 else 0
  | _ => 0

/-- A source is reported once, and once more for each of its packets that was queued. -/
def Counted (s : System) (ssrc : UInt32) : Prop :=
  s.reported.count (.unknownSource ssrc) + unnoted ssrc s.flight ≤
    s.queued.count ssrc + if ssrc ∈ s.receiver.announced then 1 else 0

theorem counted_note {r : Receiver} {other : UInt32} {route : Route} {reported : List Notice}
    {count : Nat}
    (hcounted : reported.count (.unknownSource ssrc) + unnoted ssrc (.routed other route) ≤
      count + if ssrc ∈ r.announced then 1 else 0) :
    (reported ++ (r.note other route).2.toList).count (.unknownSource ssrc) ≤
      count + if ssrc ∈ (r.note other route).1.announced then 1 else 0 := by
  cases route with
  | unknownSpeaker =>
      rw [Receiver.note]
      split
      · simpa [unnoted] using hcounted
      · rename_i hnew
        by_cases hsame : ssrc = other
        · subst hsame
          have habsent : ssrc ∉ r.announced := by simpa using hnew
          simpa [unnoted, habsent] using hcounted
        · have hother : Notice.unknownSource other ≠ .unknownSource ssrc := fun heq =>
            hsame (Notice.unknownSource.inj heq).symm
          simpa [unnoted, hsame, List.count_cons, hother] using hcounted
  | queued =>
      by_cases hsame : other = ssrc
      · subst hsame
        have hbound : (if other ∈ r.announced then 1 else 0) ≤ 1 := by split <;> decide
        simp only [unnoted, if_true] at hcounted
        simp only [Receiver.note, Option.toList_none, List.append_nil, List.mem_filter]
        omega
      · simpa [Receiver.note, unnoted, hsame, Ne.symm hsame] using hcounted
  | dropped =>
      rw [Receiver.note, Option.toList_none, List.append_nil]
      exact hcounted

theorem counted_step (dsp : Dsp) (move : Move) (hcounted : Counted s ssrc) :
    Counted (s.step dsp move) ssrc := by
  cases move with
  | arrive header payload now =>
      rw [System.step]
      split
      · rename_i hflight
        rw [Counted, hflight] at hcounted
        exact hcounted
      · exact hcounted
  | look =>
      rw [System.step]
      split
      · rename_i hflight
        rw [Counted, hflight] at hcounted
        exact hcounted
      · exact hcounted
  | route muted =>
      rw [System.step]
      split
      · rename_i header payload now destination hflight
        rw [Counted, hflight] at hcounted
        dsimp only
        generalize forward s.hub header payload now muted destination = forwarded
        rcases forwarded with ⟨hub, route⟩
        cases route with
        | queued =>
            simp only [Counted, unnoted, if_true, List.count_cons, beq_iff_eq] at hcounted ⊢
            omega
        | dropped => exact hcounted
        | unknownSpeaker => exact hcounted
      · exact hcounted
  | report =>
      rw [System.step]
      split
      · rename_i other route hflight
        rw [Counted, hflight] at hcounted
        exact counted_note hcounted
      · exact hcounted
  | begin operation =>
      rw [System.step]
      split
      · cases operation with
        | notice =>
            rw [System.begin]
            split <;> exact hcounted
        | _ => exact hcounted
      · exact hcounted
  | proceed =>
      rw [System.step]
      split <;> exact hcounted
  | beside change hkept => exact hcounted

/-- Every source that is announced is covered, and reports are counted. -/
def Sound (s : System) : Prop :=
  (∀ ssrc ∈ s.receiver.announced, Covered s ssrc) ∧ ∀ ssrc, Counted s ssrc

theorem sound_start (h : Hub) (channel : List Notice) : Sound (start h channel) :=
  ⟨nofun, fun _ => Nat.zero_le _⟩

theorem sound_step (dsp : Dsp) (move : Move) (hsound : Sound s) : Sound (s.step dsp move) := by
  refine ⟨fun ssrc hmem => ?_, fun ssrc => counted_step dsp move (hsound.2 ssrc)⟩
  -- a source is announced by the move that reports it, and covered from then on
  rcases mem_announced_step dsp hmem with hmem | hnotice
  · exact covered_step dsp move (hsound.1 ssrc hmem)
  · exact .inr (.inl hnotice)

theorem sound_run (dsp : Dsp) (moves : List Move) (hsound : Sound s) : Sound (s.run dsp moves) := by
  induction moves generalizing s with
  | nil => exact hsound
  | cons move moves ih => exact ih (sound_step dsp move hsound)

/-- Whenever a session has nothing left to do, every source that was reported and not heard since is
registered, has departed, is our own, or is reported in the channel; and at any time it was reported
at most once more than its packets were queued. -/
theorem no_source_lost (dsp : Dsp) (h : Hub) (channel : List Notice) (moves : List Move) :
    (((start h channel).run dsp moves).errands = [] →
      ∀ ssrc ∈ ((start h channel).run dsp moves).receiver.announced,
        ((start h channel).run dsp moves).hub.roster.contains ssrc ∨
          ((start h channel).run dsp moves).hub.isDeparted ssrc ∨
          ssrc = ((start h channel).run dsp moves).hub.localSsrc ∨
          .unknownSource ssrc ∈ ((start h channel).run dsp moves).channel) ∧
      ∀ ssrc, ((start h channel).run dsp moves).reported.count (.unknownSource ssrc) ≤
        ((start h channel).run dsp moves).queued.count ssrc + 1 := by
  obtain ⟨hcovered, hcounted⟩ := sound_run dsp moves (sound_start h channel)
  generalize (start h channel).run dsp moves = s at hcovered hcounted
  constructor
  · intro hidle ssrc hmem
    rcases hcovered ssrc hmem with (hholds | hgone | hown) | hnotice | ⟨errand, hpending, -⟩
    · exact .inl hholds
    · exact .inr (.inl hgone)
    · exact .inr (.inr (.inl hown))
    · exact .inr (.inr (.inr hnotice))
    · rw [hidle] at hpending
      cases hpending
  · intro ssrc
    have hbound : (if ssrc ∈ s.receiver.announced then 1 else 0) ≤ 1 := by split <;> decide
    have hcount := hcounted ssrc
    rw [Counted] at hcount
    omega

/-- A source is heard while the workers decode, and the session gives it a speaker. -/
def firstHeard : List Move :=
  [.arrive (.opus 0 0 7) [] 0, .look, .beside (Hub.decode .quiet 0) (undisturbed_decode .quiet 0),
    .route false, .report, .begin .notice, .proceed, .proceed, .proceed, .proceed, .proceed]

theorem no_source_lost_heard :
    let s := (start (.create {}) []).run .quiet firstHeard
    s.errands = [] ∧ 7 ∈ s.receiver.announced ∧
      (s.hub.roster.contains 7 ∨ s.hub.isDeparted 7 ∨ 7 = s.hub.localSsrc ∨
        .unknownSource 7 ∈ s.channel) := by
  have hidle : ((start (.create {}) []).run .quiet firstHeard).errands = [] := by decide
  have hannounced :
      (7 : UInt32) ∈ ((start (.create {}) []).run .quiet firstHeard).receiver.announced := by
    decide
  exact ⟨hidle, hannounced,
    (no_source_lost .quiet (.create {}) [] firstHeard).1 hidle 7 hannounced⟩

end VoiceCall.Proofs.Hub.Reports
