import VoiceCall.Media.Link
import VoiceCall.Proofs.Buffer.Memory
import VoiceCall.Proofs.Cipher.Sealed

namespace VoiceCall.Proofs.Media.Receiving

open VoiceCall.Cipher
open VoiceCall.Media
open VoiceCall.Media.Link (maxDatagram delivery?)
open VoiceCall.Packet (Header)
open VoiceCall.Proofs.Buffer.Memory
open VoiceCall.Proofs.Cipher.Aead (decrypt?_eq_some_iff length_stream)
open VoiceCall.Proofs.Cipher.Sealed (exists_sealPacket_eq_ok length_of_openPacket)

/-- What happens to a link that listens. -/
inductive Step where
  | arrive (arrival : Arrival)
  | installKey (key : Octets)
  /-- The receiving side takes the oldest arrival that waits. -/
  | receive

def Step.apply (l : Link) : Step → Link × List Delivery
  | .arrive arrival => (l.arrive [arrival], [])
  | .installKey key => (l.installKey key, [])
  | .receive =>
    match l.receive with
    | none => (l, [])
    | some (l, delivery) => (l, delivery.toList)

def run (l : Link) : List Step → Link × List Delivery
  | [] => (l, [])
  | step :: steps =>
    let (l, first) := step.apply l
    let (l, rest) := run l steps
    (l, first ++ rest)

/-- What arrives in the steps, in order. -/
def arrived : List Step → List Arrival
  | [] => []
  | .arrive arrival :: steps => arrival :: arrived steps
  | _ :: steps => arrived steps

/-- An arrival that was received, and the key that was installed at that moment. -/
structure Taken where
  key : Option Octets
  arrival : Arrival

namespace Taken

/-- The header and the payload that a datagram of the relay opens to. -/
def opened? (t : Taken) : Option (Header × Octets) :=
  match t.key, t.arrival with
  | some key, .datagram true data => (openPacket key (data.take maxDatagram)).toOption
  | _, _ => none

def fault? (t : Taken) : Option Fault :=
  match t.arrival with
  | .failure detail => some (.socket detail)
  | _ => none

end Taken

/-- What the steps receive, if the key is there and these arrivals wait. A fault of the socket ends
it. -/
def taken (key : Option Octets) : List Arrival → List Step → List Taken
  | _, [] => []
  | waiting, .arrive arrival :: steps => taken key (waiting ++ [arrival]) steps
  | waiting, .installKey key :: steps => taken (some key) waiting steps
  | [], .receive :: steps => taken key [] steps
  | arrival :: waiting, .receive :: steps =>
    let t : Taken := ⟨key, arrival⟩
    t :: if t.fault?.isSome then [] else taken key waiting steps

/-- What is handed on of what was received. -/
def handed (received : List Taken) : List Delivery :=
  (received.filterMap Taken.opened?).map (fun (header, payload) => .packet header payload) ++
    (received.findSome? Taken.fault?).toList.map .fault

inductive Event where
  | arrival (arrival : Arrival)
  | key (key : Octets)

/-- Every arrival is received before anything else happens. -/
def atOnce : List Event → List Step
  | [] => []
  | .arrival arrival :: events => .arrive arrival :: .receive :: atOnce events
  | .key key :: events => .installKey key :: atOnce events

/-- The key behind some events, from the one before them. -/
def keyBehind (key : Option Octets) : List Event → Option Octets
  | [] => key
  | .arrival _ :: events => keyBehind key events
  | .key key :: events => keyBehind (some key) events

/-- What arrives, with the key that was installed last. A fault of the socket ends it. -/
def moments (key : Option Octets) : List Event → List Taken
  | [] => []
  | .arrival arrival :: events =>
    let t : Taken := ⟨key, arrival⟩
    t :: if t.fault?.isSome then [] else moments key events
  | .key key :: events => moments (some key) events

/-- Opens the datagram in the first places of the memory, where the payload takes the place of its
ciphertext. -/
def openFront? (key memory : Octets) (length : Nat) :
    Option (Octets × Except Fault (Header × Octets)) := do
  let packet ← front? memory length
  if packet.length < minSealedSize then
    return (memory, .error (.packet (.tooShort packet.length minSealedSize)))
  match Header.parse packet with
  | .error fault => return (memory, .error (.packet fault))
  | .ok header =>
    let head := packet.take Header.size
    let tagStart := packet.length - Aead.tagSize
    match Aead.decrypt? key (nonceOf head) ((packet.take tagStart).drop Header.size)
        (packet.drop tagStart) with
    | none => return (memory, .error .crypto)
    | some plaintext =>
      let memory ← writeFront? memory (head ++ plaintext)
      let opened ← front? memory tagStart
      return (memory, .ok (header, opened.drop Header.size))

/-- Receives into memory for one datagram, and hands on from there. -/
def receiveInto? (memory : Octets) (t : Taken) : Option (Octets × List Delivery) :=
  match t.arrival with
  | .disturbance => some (memory, [])
  | .failure detail => some (memory, [.fault (.socket detail)])
  | .datagram fromRelay data => do
    let (memory, received) ← fill? memory data
    match fromRelay, t.key with
    | true, some key =>
      let (memory, opened) ← openFront? key memory received.length
      match opened with
      | .ok (header, payload) => return (memory, [.packet header payload])
      | .error _ => return (memory, [])
    | _, _ => return (memory, [])

theorem opened?_of_fault? {t : Taken} {fault : Fault} (h : t.fault? = some fault) :
    t.opened? = none := by
  obtain ⟨key, arrival⟩ := t
  cases arrival with
  | failure detail => cases key <;> rfl
  | _ => cases h

theorem delivery?_of_fault? {t : Taken} {fault : Fault} (h : t.fault? = some fault) :
    delivery? t.key t.arrival = some (.fault fault) := by
  obtain ⟨key, arrival⟩ := t
  cases arrival with
  | failure detail =>
      cases h
      rfl
  | _ => cases h

theorem delivery?_of_sound {t : Taken} (h : t.fault? = none) :
    delivery? t.key t.arrival = t.opened?.map fun (header, payload) => .packet header payload := by
  obtain ⟨key, arrival⟩ := t
  cases arrival with
  | disturbance => cases key <;> rfl
  | failure detail => cases h
  | datagram fromRelay data =>
      cases fromRelay with
      | false => cases key <;> rfl
      | true =>
          cases key with
          | none => rfl
          | some key =>
              simp only [delivery?, Taken.opened?, Option.bind_some]
              cases openPacket key (data.take maxDatagram) <;> rfl

theorem handed_of_fault {t : Taken} {fault : Fault} (h : t.fault? = some fault) :
    handed [t] = [.fault fault] := by
  simp [handed, h, opened?_of_fault? h]

theorem handed_cons {t : Taken} (h : t.fault? = none) (received : List Taken) :
    handed (t :: received) = (delivery? t.key t.arrival).toList ++ handed received := by
  rw [delivery?_of_sound h]
  cases hopened : t.opened? <;> simp [handed, h, hopened]

/-- The receiving side goes on unless there was a fault. -/
theorem receive_eq {l : Link} (hlistening : l.listening) {arrival : Arrival}
    {waiting : List Arrival} (hinbox : l.inbox = arrival :: waiting) :
    let t : Taken := ⟨l.key, arrival⟩
    l.receive = some ({ l with inbox := waiting, listening := t.fault?.isNone },
      delivery? t.key t.arrival) := by
  intro t
  unfold Link.receive
  rw [hlistening, hinbox]
  dsimp only
  cases hfault : t.fault? with
  | some fault =>
      have hdelivery : delivery? l.key arrival = _ := delivery?_of_fault? hfault
      rw [hdelivery]
      rfl
  | none =>
      have hdelivery : delivery? l.key arrival = _ := delivery?_of_sound hfault
      rw [hdelivery]
      cases t.opened? <;> rfl

theorem taken_of_fault {key : Option Octets} {arrival : Arrival} {fault : Fault}
    (h : Taken.fault? ⟨key, arrival⟩ = some fault) (waiting : List Arrival) (steps : List Step) :
    taken key (arrival :: waiting) (.receive :: steps) = [⟨key, arrival⟩] := by
  simp only [taken, h, Option.isSome_some, if_true]

theorem taken_of_sound {key : Option Octets} {arrival : Arrival}
    (h : Taken.fault? ⟨key, arrival⟩ = none) (waiting : List Arrival) (steps : List Step) :
    taken key (arrival :: waiting) (.receive :: steps) =
      ⟨key, arrival⟩ :: taken key waiting steps := by
  simp only [taken, h, Option.isSome_none, Bool.false_eq_true, if_false]

/-- A link that does not listen lets everything wait. -/
theorem run_of_deaf {l : Link} (hdeaf : l.listening = false) (steps : List Step) :
    (run l steps).2 = [] ∧ (run l steps).1.inbox = l.inbox ++ arrived steps := by
  induction steps generalizing l with
  | nil => exact ⟨rfl, (List.append_nil _).symm⟩
  | cons step steps ih =>
      cases step with
      | arrive arrival =>
          obtain ⟨hnothing, hinbox⟩ := ih (l := l.arrive [arrival]) hdeaf
          refine ⟨hnothing, hinbox.trans ?_⟩
          rw [arrived, Link.arrive, List.append_assoc, List.singleton_append]
      | installKey key => exact ih (l := l.installKey key) hdeaf
      | receive =>
          have hnone : l.receive = none := by
            rw [Link.receive, hdeaf]
          rw [run, Step.apply, hnone]
          exact ih hdeaf

/-- Only what was received last can be a fault. -/
theorem flatMap_delivery? (key : Option Octets) (waiting : List Arrival) (steps : List Step) :
    (taken key waiting steps).flatMap (fun t => (delivery? t.key t.arrival).toList) =
      handed (taken key waiting steps) := by
  induction steps generalizing key waiting with
  | nil => rfl
  | cons step steps ih =>
      cases step with
      | arrive arrival => exact ih key (waiting ++ [arrival])
      | installKey key => exact ih (some key) waiting
      | receive =>
          cases waiting with
          | nil => exact ih key []
          | cons arrival waiting =>
              cases hfault : Taken.fault? ⟨key, arrival⟩ with
              | some fault =>
                  rw [taken_of_fault hfault, handed_of_fault hfault, List.flatMap_singleton,
                    delivery?_of_fault? hfault]
                  rfl
              | none =>
                  rw [taken_of_sound hfault, handed_cons hfault, List.flatMap_cons, ih]

theorem run_eq {l : Link} (hlistening : l.listening) (steps : List Step) :
    (run l steps).2 = handed (taken l.key l.inbox steps) ∧
      (taken l.key l.inbox steps).map Taken.arrival ++ (run l steps).1.inbox =
        l.inbox ++ arrived steps := by
  induction steps generalizing l with
  | nil => exact ⟨rfl, (List.append_nil _).symm⟩
  | cons step steps ih =>
      cases step with
      | arrive arrival =>
          obtain ⟨hhanded, horder⟩ := ih (l := l.arrive [arrival]) hlistening
          refine ⟨hhanded, horder.trans ?_⟩
          rw [arrived, Link.arrive, List.append_assoc, List.singleton_append]
      | installKey key => exact ih (l := l.installKey key) hlistening
      | receive =>
          cases hinbox : l.inbox with
          | nil =>
              have hnone : l.receive = none := by
                rw [Link.receive, hlistening, hinbox]
              rw [run, Step.apply, hnone, taken, ← hinbox]
              exact ih hlistening
          | cons arrival waiting =>
              let t : Taken := ⟨l.key, arrival⟩
              let next : Link := { l with inbox := waiting, listening := t.fault?.isNone }
              have hreceive : l.receive = some (next, delivery? t.key t.arrival) :=
                receive_eq hlistening hinbox
              rw [run, Step.apply, hreceive]
              cases hfault : t.fault? with
              | some fault =>
                  have hdeaf : next.listening = false := by
                    simp only [next, hfault, Option.isNone_some]
                  obtain ⟨hnothing, hrest⟩ := run_of_deaf hdeaf steps
                  rw [taken_of_fault hfault, handed_of_fault hfault, delivery?_of_fault? hfault]
                  simp only [hnothing, hrest]
                  exact ⟨rfl, rfl⟩
              | none =>
                  have hnext : next.listening := by
                    simp only [next, hfault, Option.isNone_none]
                  obtain ⟨hhanded, horder⟩ := ih hnext
                  rw [taken_of_sound hfault, handed_cons hfault]
                  exact ⟨congrArg _ hhanded, congrArg (arrival :: ·) horder⟩

theorem taken_atOnce (key : Option Octets) (events : List Event) :
    taken key [] (atOnce events) = moments key events := by
  induction events generalizing key with
  | nil => rfl
  | cons event events ih =>
      cases event with
      | key key => exact ih (some key)
      | arrival arrival =>
          rw [atOnce, taken, List.nil_append, taken, moments, ih]

theorem moments_of_fault {key : Option Octets} {arrival : Arrival} {fault : Fault}
    (h : Taken.fault? ⟨key, arrival⟩ = some fault) (events : List Event) :
    moments key (.arrival arrival :: events) = [⟨key, arrival⟩] := by
  simp only [moments, h, Option.isSome_some, if_true]

theorem moments_of_sound {key : Option Octets} {arrival : Arrival}
    (h : Taken.fault? ⟨key, arrival⟩ = none) (events : List Event) :
    moments key (.arrival arrival :: events) = ⟨key, arrival⟩ :: moments key events := by
  simp only [moments, h, Option.isSome_none, Bool.false_eq_true, if_false]

/-- What is neither handed on nor a fault might as well not have come. -/
theorem handed_moments_of_idle {key : Option Octets} {before : List Event} {arrival : Arrival}
    (hopened : Taken.opened? ⟨keyBehind key before, arrival⟩ = none)
    (hfault : Taken.fault? ⟨keyBehind key before, arrival⟩ = none) (behind : List Event) :
    handed (moments key (before ++ .arrival arrival :: behind)) =
      handed (moments key (before ++ behind)) := by
  induction before generalizing key with
  | nil =>
      rw [keyBehind] at hopened hfault
      rw [List.nil_append, moments_of_sound hfault, handed_cons hfault, delivery?_of_sound hfault,
        hopened]
      rfl
  | cons event before ih =>
      cases event with
      | key key => exact ih hopened hfault
      | arrival first =>
          rw [List.cons_append, List.cons_append]
          cases hfirst : Taken.fault? ⟨key, first⟩ with
          | some fault => rw [moments_of_fault hfirst, moments_of_fault hfirst]
          | none =>
              rw [moments_of_sound hfirst, moments_of_sound hfirst, handed_cons hfirst,
                handed_cons hfirst, ih hopened hfault]

theorem openPacket_eq (key : Octets) {packet : Octets} (hlong : ¬ packet.length < minSealedSize)
    {header : Header} (hparse : Header.parse packet = .ok header) :
    let tagStart := packet.length - Aead.tagSize
    openPacket key packet =
      (Aead.decrypt? key (nonceOf (packet.take Header.size))
        ((packet.take tagStart).drop Header.size) (packet.drop tagStart)).elim
          (.error .crypto) fun payload => .ok (header, payload) := by
  intro tagStart
  have hcut : (packet.drop Header.size).length - Aead.tagSize = tagStart - Header.size := by
    rw [List.length_drop, Nat.sub_right_comm]
  have htag : Header.size + (tagStart - Header.size) = tagStart := by
    have hsize : minSealedSize = Header.size + Aead.tagSize := rfl
    omega
  rw [openPacket, if_neg hlong, hparse]
  dsimp only
  rw [hcut, List.drop_drop, htag, List.drop_take]
  cases Aead.decrypt? key _ _ _ <;> rfl

theorem exists_openFront? (key : Octets) {memory : Octets} {length : Nat}
    (hlength : length ≤ memory.length) :
    ∃ memory', memory'.length = memory.length ∧
      openFront? key memory length = some (memory', openPacket key (memory.take length)) := by
  have hfront : front? memory length = some (memory.take length) := if_pos hlength
  have hfits := List.length_take_of_le hlength
  unfold openFront?
  rw [hfront, Option.bind_eq_bind, Option.bind_some]
  generalize memory.take length = packet at hfits
  by_cases hshort : packet.length < minSealedSize
  · refine ⟨memory, rfl, ?_⟩
    rw [if_pos hshort, openPacket, if_pos hshort]
    rfl
  rw [if_neg hshort]
  cases hparse : Header.parse packet with
  | error fault =>
      refine ⟨memory, rfl, ?_⟩
      rw [openPacket, if_neg hshort, hparse]
      rfl
  | ok header =>
      rw [openPacket_eq key hshort hparse]
      dsimp only
      generalize hciphertext : (packet.take (packet.length - Aead.tagSize)).drop Header.size =
        ciphertext
      cases hdecrypt : Aead.decrypt? key (nonceOf (packet.take Header.size)) ciphertext
          (packet.drop (packet.length - Aead.tagSize)) with
      | none => exact ⟨memory, rfl, rfl⟩
      | some payload =>
          have hsize : minSealedSize = Header.size + Aead.tagSize := rfl
          obtain ⟨-, -, hstream⟩ := (decrypt?_eq_some_iff _ _ _ _ _).mp hdecrypt
          have hhead : (packet.take Header.size).length = Header.size :=
            List.length_take_of_le (by omega)
          have hopened : (packet.take Header.size ++ payload).length =
              packet.length - Aead.tagSize := by
            rw [List.length_append, hhead, ← hstream, length_stream, ← hciphertext,
              List.length_drop, List.length_take]
            omega
          have hroom : (packet.take Header.size ++ payload).length ≤ memory.length := by omega
          obtain ⟨memory', hwrite, hmemory, hread⟩ := exists_writeFront? hroom
          refine ⟨memory', hmemory, ?_⟩
          dsimp only
          rw [hwrite, Option.bind_some, ← hopened, hread, Option.bind_some, List.drop_left' hhead]
          rfl

theorem exists_receiveInto? {memory : Octets} (hmemory : memory.length = maxDatagram)
    (t : Taken) :
    ∃ memory', memory'.length = maxDatagram ∧
      receiveInto? memory t = some (memory', (delivery? t.key t.arrival).toList) := by
  obtain ⟨key, arrival⟩ := t
  cases arrival with
  | disturbance => exact ⟨memory, hmemory, rfl⟩
  | failure detail => exact ⟨memory, hmemory, rfl⟩
  | datagram fromRelay data =>
      obtain ⟨filled, hfill, hlength, hfront⟩ := exists_fill? memory data
      rw [hmemory] at hfill hlength hfront
      simp only [receiveInto?, hfill, Option.bind_eq_bind, Option.bind_some]
      cases fromRelay with
      | false => exact ⟨filled, hlength, by cases key <;> rfl⟩
      | true =>
          cases key with
          | none => exact ⟨filled, hlength, rfl⟩
          | some key =>
              have hroom : (data.take maxDatagram).length ≤ filled.length :=
                hlength ▸ List.length_take_le maxDatagram data
              obtain ⟨memory', hmemory', hopen⟩ := exists_openFront? key hroom
              rw [hfront] at hopen
              refine ⟨memory', hmemory'.trans hlength, ?_⟩
              simp only [hopen, Option.bind_some, delivery?]
              cases openPacket key (data.take maxDatagram) <;> rfl

theorem exists_runAll? {memory : Octets} (hmemory : memory.length = maxDatagram)
    (received : List Taken) :
    ∃ memory', runAll? receiveInto? memory received =
      some (memory', received.flatMap fun t => (delivery? t.key t.arrival).toList) := by
  induction received generalizing memory with
  | nil => exact ⟨memory, rfl⟩
  | cons t received ih =>
      obtain ⟨between, hbetween, hfirst⟩ := exists_receiveInto? hmemory t
      obtain ⟨memory', hrest⟩ := ih hbetween
      exact ⟨memory', runAll?_cons hfirst hrest⟩

/-- A fault is handed on last, and only once. -/
theorem eq_nil_of_handed {received : List Taken} {before behind : List Delivery} {fault : Fault}
    (h : handed received = before ++ .fault fault :: behind) :
    behind = [] ∧ ∀ other, .fault other ∉ before := by
  have hpackets : ∀ other, Delivery.fault other ∉
      (received.filterMap Taken.opened?).map fun (header, payload) => .packet header payload := by
    simp
  rw [handed] at h
  generalize (received.filterMap Taken.opened?).map _ = packets at h hpackets
  generalize received.findSome? Taken.fault? = last at h
  cases last with
  | none =>
      rw [Option.toList_none, List.map_nil, List.append_nil] at h
      exact absurd (by simp [h]) (hpackets fault)
  | some last =>
      rcases List.eq_nil_or_concat behind with rfl | ⟨more, other, rfl⟩
      · obtain ⟨rfl, -⟩ := List.append_inj' h rfl
        exact ⟨rfl, hpackets⟩
      · rw [List.concat_eq_append, ← List.cons_append, ← List.append_assoc] at h
        obtain ⟨rfl, -⟩ := List.append_inj' h rfl
        exact absurd (by simp) (hpackets fault)

/-- Of what it receives, one after the other, it hands on the packets of the relay that open under
the key that is installed at that moment, and last the fault that ends receiving, if there is one.
All of it can be done in memory for one datagram, where packets are opened in place. -/
theorem opened_handed_on {l : Link} (hlistening : l.listening) {memory : Octets}
    (hmemory : memory.length = maxDatagram) (steps : List Step) :
    let received := taken l.key l.inbox steps
    let after := run l steps
    after.2 = handed received ∧
      (∀ before fault behind, after.2 = before ++ .fault fault :: behind →
        behind = [] ∧ ∀ other, .fault other ∉ before) ∧
      received.map Taken.arrival ++ after.1.inbox = l.inbox ++ arrived steps ∧
      (∃ memory', runAll? receiveInto? memory received = some (memory', after.2)) ∧
      ∀ events, l.inbox = [] → steps = atOnce events → received = moments l.key events ∧
        ∀ before arrival behind, events = before ++ .arrival arrival :: behind →
          Taken.opened? ⟨keyBehind l.key before, arrival⟩ = none →
            Taken.fault? ⟨keyBehind l.key before, arrival⟩ = none →
              (run l (atOnce (before ++ behind))).2 = after.2 := by
  intro received after
  obtain ⟨hhanded, horder⟩ := run_eq hlistening steps
  refine ⟨hhanded, fun before fault behind h => ?_, horder, ?_, fun events hinbox hsteps => ?_⟩
  · exact eq_nil_of_handed (hhanded.symm.trans h)
  · obtain ⟨memory', hprogram⟩ := exists_runAll? hmemory received
    rw [flatMap_delivery?, ← hhanded] at hprogram
    exact ⟨memory', hprogram⟩
  · have hmoments (events : List Event) : taken l.key l.inbox (atOnce events) =
        moments l.key events := by
      rw [hinbox, taken_atOnce]
    subst hsteps
    refine ⟨hmoments events, fun before arrival behind hevents hopened hfault => ?_⟩
    subst hevents
    rw [(run_eq hlistening _).1, hhanded, hmoments, hmoments,
      handed_moments_of_idle hopened hfault]

/-- The same packet before the key, of a stranger, as it should be, and behind a fault. -/
theorem opened_handed_on_once :
    let key : Octets := List.replicate 32 7
    let memory : Octets := List.replicate maxDatagram 9
    let l : Link := ⟨42, none, .start 960, [], true, 0⟩
    memory.length = maxDatagram ∧ l.listening ∧
      ∃ packet : Octets,
        let events : List Event :=
          [.arrival (.datagram true packet), .key key, .arrival (.datagram false packet),
            .arrival (.datagram true [1, 2, 3]), .arrival (.datagram true packet),
            .arrival (.failure "gone"), .arrival (.datagram true packet)]
        (run l (atOnce events)).2 =
          [.packet (.opus 1 960 7) [0xf8, 0xff, 0xfe], .fault (.socket "gone")] := by
  intro key memory l
  have hmemory : memory.length = maxDatagram := List.length_replicate
  obtain ⟨packet, -, hopened⟩ := exists_sealPacket_eq_ok key (.opus 1 960 7) [0xf8, 0xff, 0xfe]
    (by decide) (by decide) (by decide)
  refine ⟨hmemory, rfl, packet, ?_⟩
  intro events
  have hwhole : packet.take maxDatagram = packet := by
    apply List.take_of_length_le
    rw [length_of_openPacket hopened]
    decide
  obtain ⟨hhanded, -, -, -, hatOnce⟩ :=
    opened_handed_on (l := l) rfl hmemory (atOnce events)
  obtain ⟨hmoments, -⟩ := hatOnce events rfl rfl
  have hjunk : Taken.opened? ⟨some key, .datagram true [1, 2, 3]⟩ = none := rfl
  have hgenuine : Taken.opened? ⟨some key, .datagram true packet⟩ =
      some (.opus 1 960 7, [0xf8, 0xff, 0xfe]) := by
    change (openPacket key (packet.take maxDatagram)).toOption = _
    rw [hwhole, hopened]
    rfl
  have hreceived : moments l.key events =
      [⟨none, .datagram true packet⟩, ⟨some key, .datagram false packet⟩,
        ⟨some key, .datagram true [1, 2, 3]⟩, ⟨some key, .datagram true packet⟩,
        ⟨some key, .failure "gone"⟩] := rfl
  rw [hhanded, hmoments, hreceived, handed, List.filterMap_cons_none rfl,
    List.filterMap_cons_none rfl, List.filterMap_cons_none hjunk,
    List.filterMap_cons_some hgenuine]
  rfl

end VoiceCall.Proofs.Media.Receiving
