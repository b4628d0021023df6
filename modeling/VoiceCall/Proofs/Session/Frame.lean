import VoiceCall.Proofs.Hub.Asides
import VoiceCall.Proofs.Media.Streams
import VoiceCall.Session.Run

/-!
What a session does besides its handshake. Sound, speakers, heartbeats and whatever is received
leave the course of the call alone: nothing but heartbeats is told to the relay, no milestone is
told to the owner, and the media path goes on with its stream if it has a key, and is silent if it
has none.
-/

namespace VoiceCall.Proofs.Session.Frame

open VoiceCall.Media
open VoiceCall.Session
open VoiceCall.Proofs.Hub.Asides
open VoiceCall.Proofs.Media.Streams

def isHeartbeat : Relay.Message → Bool
  | .heartbeat _ => true
  | _ => false

/-- What was told to the relay besides heartbeats. -/
def spoken (s : Session) : List Relay.Message :=
  s.sent.filter (!isHeartbeat ·)

/-- No link comes or goes, and one that is there sends some more. -/
inductive Carries : Option Link → Option Link → List Octets → Prop where
  | absent : Carries none none []
  | passed {l l' : Link} {more : List Octets} : Passed l l' more → Carries (some l) (some l') more

theorem Carries.refl (link : Option Link) : Carries link link [] := by
  cases link with
  | none => exact .absent
  | some l => exact .passed (.refl l)

theorem Carries.trans {link link' link'' : Option Link} {more more' : List Octets}
    (hfirst : Carries link link' more) (hsecond : Carries link' link'' more') :
    Carries link link'' (more ++ more') := by
  cases hfirst with
  | absent =>
      cases hsecond
      exact .absent
  | passed hpassed =>
      cases hsecond with
      | passed hpassed' => exact .passed (hpassed.trans hpassed')

/-- Between two moments the course of a call has not changed. -/
structure Steady (s s' : Session) : Prop where
  standing : s'.standing = s.standing
  handshake : s'.handshake = s.handshake
  unspoken : spoken s' = spoken s
  aside : Aside s.hub s'.hub
  media : ∃ more, s'.datagrams = s.datagrams ++ more ∧ Carries s.link s'.link more

/-- A session that has done nothing but with its hub, its devices and what it knows of speakers. -/
theorem steady_of_aside {s s' : Session} (hstanding : s'.standing = s.standing)
    (hhandshake : s'.handshake = s.handshake) (hsent : s'.sent = s.sent)
    (hlink : s'.link = s.link) (hdatagrams : s'.datagrams = s.datagrams)
    (haside : Aside s.hub s'.hub) : Steady s s' where
  standing := hstanding
  handshake := hhandshake
  unspoken := congrArg (List.filter (!isHeartbeat ·)) hsent
  aside := haside
  media := ⟨[], by rw [hdatagrams, List.append_nil], hlink ▸ .refl s.link⟩

theorem Steady.refl (s : Session) : Steady s s :=
  steady_of_aside rfl rfl rfl rfl rfl (.refl s.hub)

theorem Steady.trans {s s' s'' : Session} (hfirst : Steady s s') (hsecond : Steady s' s'') :
    Steady s s'' where
  standing := hsecond.standing.trans hfirst.standing
  handshake := hsecond.handshake.trans hfirst.handshake
  unspoken := hsecond.unspoken.trans hfirst.unspoken
  aside := hfirst.aside.trans hsecond.aside
  media := by
    obtain ⟨more, hdatagrams, hcarries⟩ := hfirst.media
    obtain ⟨more', hdatagrams', hcarries'⟩ := hsecond.media
    refine ⟨more ++ more', ?_, hcarries.trans hcarries'⟩
    rw [hdatagrams', hdatagrams, List.append_assoc]

theorem steady_foldl {α : Type} {f : Session → α → Session} (hf : ∀ s x, Steady s (f s x))
    (xs : List α) (s : Session) : Steady s (xs.foldl f s) := by
  induction xs generalizing s with
  | nil => exact .refl s
  | cons x xs ih => exact (hf s x).trans (ih (f s x))

theorem steady_hub (s : Session) {hub : Hub} (haside : Aside s.hub hub) :
    Steady s { s with hub := hub } :=
  steady_of_aside rfl rfl rfl rfl rfl haside

theorem steady_emit (s : Session) {event : Event} (hevent : isMilestone event = false) :
    Steady s (s.emit event) :=
  steady_hub s (aside_emit s.hub hevent)

theorem steady_link {s : Session} {l l' : Link} {more : List Octets} (hlink : s.link = some l)
    (hpassed : Passed l l' more) :
    Steady s { s with link := some l', datagrams := s.datagrams ++ more } where
  standing := rfl
  handshake := rfl
  unspoken := rfl
  aside := .refl s.hub
  media := ⟨more, rfl, hlink ▸ .passed hpassed⟩

theorem steady_silent_link {s : Session} {l l' : Link} (hlink : s.link = some l)
    (hpassed : Passed l l' []) : Steady s { s with link := some l' } := by
  have hsteady := steady_link hlink hpassed
  rwa [List.append_nil] at hsteady

theorem steady_take (now : Nat) (s : Session) (delivery : Delivery) :
    Steady s (s.take now delivery) := by
  cases delivery with
  | packet header payload =>
      exact steady_of_aside rfl rfl rfl rfl rfl
        ((aside_onPacket s.receiver s.hub header payload now).trans (aside_of_events_eq rfl))
  | fault fault => exact steady_of_aside rfl rfl rfl rfl rfl (.refl s.hub)

theorem steady_receive (now : Nat) (s : Session) : Steady s (s.receive now) := by
  rw [Session.receive]
  split
  · exact .refl s
  · rename_i hlink
    have hreceived := steady_silent_link hlink (passed_receiveAll _)
    exact hreceived.trans (steady_foldl (steady_take now) _ _)

theorem steady_arrive (s : Session) (arrivals : List Arrival) :
    Steady s { s with link := s.link.map (·.arrive arrivals) } := by
  cases hlink : s.link with
  | none => exact steady_of_aside rfl rfl rfl hlink.symm rfl (.refl s.hub)
  | some l => exact steady_silent_link hlink (passed_arrive l arrivals)

theorem steady_heartbeat (s : Session) (nonce : UInt64) :
    Steady s { s with sent := s.sent ++ [.heartbeat nonce] } where
  standing := rfl
  handshake := rfl
  unspoken := by simp [spoken, isHeartbeat]
  aside := .refl s.hub
  media := ⟨[], (List.append_nil _).symm, .refl s.link⟩

theorem steady_speakerSilent (s : Session) (ssrc : UInt32) : Steady s (s.speakerSilent ssrc) := by
  rw [Session.speakerSilent]
  split
  · exact .refl s
  · dsimp only
    split
    · exact steady_of_aside rfl rfl rfl rfl rfl (.refl s.hub)
    · exact steady_of_aside rfl rfl rfl rfl rfl (aside_emit s.hub rfl)

theorem steady_userLeft (dsp : Dsp) (s : Session) (user : String) :
    Steady s (s.userLeft dsp user) :=
  steady_of_aside rfl rfl rfl rfl rfl (aside_removeUser dsp s.hub user)

theorem steady_pollSpeaker (s : Session) (speaker : Speaker) :
    Steady s (s.pollSpeaker speaker) := by
  rw [Session.pollSpeaker]
  split
  · exact steady_of_aside rfl rfl rfl rfl rfl (.refl s.hub)
  · exact steady_of_aside rfl rfl rfl rfl rfl (aside_emit s.hub rfl)

theorem steady_pollSpeakers (s : Session) : Steady s s.pollSpeakers := by
  rw [Session.pollSpeakers]
  refine .trans ?_ (steady_foldl steady_pollSpeaker _ _)
  exact steady_of_aside rfl rfl rfl rfl rfl (.refl s.hub)

theorem steady_onNotice (dsp : Dsp) (s : Session) (notice : Notice) :
    Steady s (s.onNotice dsp notice).1 := by
  cases notice with
  | unknownSource ssrc => exact steady_hub s (aside_admitUnknown dsp s.hub ssrc)
  | transportFailed reason => exact .refl s

theorem steady_deviceFailed (s : Session) (direction : String) (fault : Fault) :
    Steady s (s.deviceFailed direction fault) :=
  steady_emit s rfl

theorem steady_sendFrame (s : Session) (frame : Octets) : Steady s (s.sendFrame frame) := by
  rw [Session.sendFrame]
  split
  · exact .refl s
  · rename_i hlink
    exact steady_link hlink (passed_sendAll _ s.network _)

theorem steady_sendSilence (count : Nat) (s : Session) : Steady s (sendSilence count s).1 := by
  induction count generalizing s with
  | zero => exact .refl s
  | succ count ih =>
      rw [Session.sendSilence]
      split
      · exact .refl s
      · rename_i hlink
        have hsent := steady_link hlink (passed_send _ s.network silenceFrame)
        dsimp only
        split
        · exact hsent.trans (ih _)
        · exact hsent

theorem steady_capturePeriod (dsp : Dsp) (s : Session) (stream : Sound.CaptureStream)
    (pipeline : Microphone.Pipeline) (periods : List (List Sample)) :
    Steady s (s.capturePeriod dsp stream pipeline periods) := by
  induction periods generalizing s pipeline with
  | nil => exact steady_of_aside rfl rfl rfl rfl rfl (.refl s.hub)
  | cons period periods ih =>
      have hcaptured : Steady s { s with hub := (s.hub.capture dsp pipeline period).1 } :=
        steady_hub s (aside_of_events_eq rfl)
      rw [Session.capturePeriod]
      refine hcaptured.trans (.trans ?_ (ih _ _))
      dsimp only
      split
      · exact steady_sendFrame _ _
      · exact .refl _

theorem steady_captured (dsp : Dsp) (s : Session) (data : Sound.Block) :
    Steady s (s.captured dsp data).1 := by
  rw [Session.captured]
  split
  · exact .refl s
  · exact steady_capturePeriod dsp s _ _ _

/-- Sources that are rendered from side by side stay related, as far as every request keeps that. -/
theorem related_fillChunks {α σ : Type} [Sound.DeviceSample α] {R : σ → σ → Prop}
    {render : Sound.Renderer σ}
    (hrender : ∀ {source source'}, R source source' →
      ∀ count, R (render source count).2 (render source' count).2)
    (channels : Nat) (data : List α) {source source' : σ} (hsource : R source source') :
    R (Sound.Adapter.fillChunks render channels data source).source
      (Sound.Adapter.fillChunks render channels data source').source := by
  induction data, source using Sound.Adapter.fillChunks.induct (α := α) render
    channels generalizing source' with
  | case1 data source hdone =>
      rw [Sound.Adapter.fillChunks, Sound.Adapter.fillChunks, if_pos hdone, if_pos hdone]
      exact hsource
  | case2 data source hmore chunk count pcm next hrendered =>
      rename_i ih
      rw [Sound.Adapter.fillChunks, Sound.Adapter.fillChunks, if_neg hmore, if_neg hmore]
      have hnext := hrender hsource (count * Audio.channels)
      rw [hrendered] at hnext
      simpa only [chunk, count, hrendered] using ih hnext

theorem related_pull {σ : Type} {R : σ → σ → Prop} {render : Sound.Renderer σ}
    (hrender : ∀ {source source'}, R source source' →
      ∀ count, R (render source count).2 (render source' count).2)
    (stream : Sound.PlaybackStream) (source source' : σ) (hsource : R source source') :
    R (stream.pull render source).source (stream.pull render source').source := by
  have hrendered (α : Type) [Sound.DeviceSample α] :
      R (Sound.PlaybackStream.renderAs α render stream.line source).source
        (Sound.PlaybackStream.renderAs α render stream.line source').source := by
    unfold Sound.PlaybackStream.renderAs
    dsimp only
    split
    · exact related_fillChunks hrender _ _ hsource
    · exact hsource
  unfold Sound.PlaybackStream.pull
  split
  · exact hrendered Int16
  · exact hrendered UInt16
  · exact hrendered Float32

/-- A source that is rendered from stays what it was, as far as no request changes that. -/
theorem source_pull {σ : Type} {P : σ → Prop} {render : Sound.Renderer σ}
    (hrender : ∀ source count, P source → P (render source count).2) (stream : Sound.PlaybackStream)
    (source : σ) (hsource : P source) : P (stream.pull render source).source :=
  related_pull (R := fun source _ => P source)
    (fun hrelated count => hrender _ count hrelated) stream source source hsource

theorem aside_pull (now : Nat) (stream : Sound.PlaybackStream) (hub : Hub) :
    Aside hub (stream.pull (renderer now) hub).source :=
  source_pull (fun _ _ haside => haside.trans (aside_of_events_eq rfl)) stream hub (.refl hub)

theorem steady_pulled (s : Session) (now : Nat) : Steady s (s.pulled now).1 := by
  rw [Session.pulled]
  split
  · exact .refl s
  · exact steady_hub s (aside_pull now _ s.hub)

theorem steady_captureTrouble (s : Session) (trouble : Sound.Trouble) :
    Steady s (s.captureTrouble trouble).1 := by
  rw [Session.captureTrouble]
  split
  · exact .refl s
  · exact steady_of_aside rfl rfl rfl rfl rfl (.refl s.hub)

theorem steady_playbackTrouble (s : Session) (trouble : Sound.Trouble) (now : Nat) :
    Steady s (s.playbackTrouble trouble now).1 := by
  rw [Session.playbackTrouble]
  split
  · exact .refl s
  · refine steady_of_aside rfl rfl rfl rfl rfl ?_
    cases trouble with
    | early => exact .refl s.hub
    | exchangeFailed => exact .refl s.hub
    | writeFailed => exact aside_pull now _ s.hub

theorem steady_pollDevices (s : Session) : Steady s s.pollDevices := by
  rw [Session.pollDevices]
  cases s.intake.bind fun intake => intake.stream.line.checkFault.2 with
  | none =>
      dsimp only
      split
      · exact steady_of_aside rfl rfl rfl rfl rfl (aside_emit s.hub rfl)
      · exact .refl s
  | some message =>
      have hclosed : Steady s
          ({ s with intake := none }.deviceFailed captureWord (.device message)) :=
        steady_of_aside rfl rfl rfl rfl rfl (aside_emit s.hub rfl)
      refine hclosed.trans ?_
      dsimp only
      split
      · exact steady_of_aside rfl rfl rfl rfl rfl (aside_emit _ rfl)
      · exact .refl _

theorem steady_startPlayback (env : Surroundings) (s : Session) :
    Steady s (startPlayback env s) := by
  rw [startPlayback]
  split
  · exact steady_of_aside rfl rfl rfl rfl rfl (.refl s.hub)
  · exact steady_deviceFailed s playbackWord _

theorem steady_startCapture (env : Surroundings) (s : Session) :
    Steady s (startCapture env s).1 := by
  rw [startCapture]
  split
  · exact .refl s
  · split
    · exact steady_of_aside rfl rfl rfl rfl rfl (.refl s.hub)
    · exact steady_deviceFailed s captureWord _

theorem steady_startMedia (env : Surroundings) (s : Session) : Steady s (s.startMedia env).1 := by
  rw [Session.startMedia]
  split
  · exact .refl s
  · rename_i l hlink
    split
    · exact .refl s
    · let listening : Session := { s with link := some l.listen, receiver := .fresh }
      have hlistening : Steady s listening :=
        (steady_silent_link hlink (passed_listen l)).trans
          (steady_of_aside rfl rfl rfl rfl rfl (.refl s.hub))
      exact (hlistening.trans (steady_startPlayback env listening)).trans
        (steady_startCapture env (startPlayback env listening))

end VoiceCall.Proofs.Session.Frame
