import VoiceCall.Media.Link
import VoiceCall.Proofs.Buffer.Memory
import VoiceCall.Proofs.Packet.Discovery

namespace VoiceCall.Proofs.Media.Replies

open VoiceCall.Media
open VoiceCall.Media.Link (awaitReply maxDatagram)
open VoiceCall.Packet.Discovery
open VoiceCall.Proofs.Buffer.Memory
open VoiceCall.Proofs.Packet.Discovery

/-- Whether an arrival ends the waiting. Strangers, datagrams that are no replies and passing faults
do not. -/
def decides : Arrival → Bool
  | .datagram fromRelay data => fromRelay && (parseReply data).isOk
  | .disturbance => false
  | .failure _ => true

/-- What waiting for a reply comes to, and what is left unreceived. -/
inductive Awaited : List Arrival → Except Fault Address → List Arrival → Prop where
  | found {before behind : List Arrival} {data : Octets} {address : Address} :
    (∀ arrival ∈ before, decides arrival = false) → Names data address →
      Awaited (before ++ .datagram true data :: behind) (.ok address) behind
  | failed {before behind : List Arrival} (detail : String) :
    (∀ arrival ∈ before, decides arrival = false) →
      Awaited (before ++ .failure detail :: behind) (.error (.socket detail)) behind
  | silent {arrivals : List Arrival} :
    (∀ arrival ∈ arrivals, decides arrival = false) →
      Awaited arrivals (.error .discoveryTimeout) []

/-- One receive: how long it waits, and what it brings. -/
structure Receive where
  wait : Nat
  arrival : Arrival

/-- What is brought by the receives that begin before the time is over. -/
def inTime : Nat → List Receive → List Arrival
  | 0, _ => []
  | _ + 1, [] => []
  | left + 1, receive :: receives =>
    receive.arrival :: inTime (left + 1 - receive.wait) receives

/-- Waits for a reply as long as there is time, in memory for one datagram. -/
def awaitReply? (memory : Octets) : Nat → List Receive → Option (Except Fault Address)
  | 0, _ => some (.error .discoveryTimeout)
  | _ + 1, [] => some (.error .discoveryTimeout)
  | left + 1, ⟨wait, .datagram fromRelay data⟩ :: receives => do
    let (memory, received) ← fill? memory data
    match fromRelay, parseReply received with
    | true, .ok address => some (.ok address)
    | _, _ => awaitReply? memory (left + 1 - wait) receives
  | left + 1, ⟨wait, .disturbance⟩ :: receives => awaitReply? memory (left + 1 - wait) receives
  | _ + 1, ⟨_, .failure detail⟩ :: _ => some (.error (.socket detail))

/-- A reply is whole in the bytes that are not cut off. -/
theorem parseReply_take {room : Nat} (hroom : size ≤ room) (data : Octets) :
    parseReply (data.take room) = parseReply data := by
  by_cases hshort : data.length < size
  · rw [List.take_of_length_le (by omega)]
  · have hlong : ¬ (data.take room).length < size := by
      rw [List.length_take]
      omega
    have hfield :
        ((data.take room).drop 8).take addressWidth = (data.drop 8).take addressWidth := by
      unfold size at hroom
      unfold addressWidth
      rw [List.drop_take, List.take_take, Nat.min_eq_left (by omega)]
    have hoctet : ∀ i < size, (data.take room).getD i 0 = data.getD i 0 := by
      intro i hi
      rw [List.getD_eq_getElem?_getD, List.getElem?_take_of_lt (by omega),
        List.getD_eq_getElem?_getD]
    simp only [parseReply, if_neg hshort, if_neg hlong, hfield, hoctet 0 (by decide),
      hoctet 1 (by decide), hoctet 72 (by decide), hoctet 73 (by decide)]

theorem parseReply_received (data : Octets) :
    parseReply (data.take maxDatagram) = parseReply data :=
  parseReply_take (by decide) data

theorem awaitReply_datagram (fromRelay : Bool) (data : Octets) (arrivals : List Arrival) :
    awaitReply (.datagram fromRelay data :: arrivals) =
      match fromRelay, parseReply data with
      | true, .ok address => (.ok address, arrivals)
      | _, _ => awaitReply arrivals := by
  rw [← parseReply_received]
  rfl

theorem decides_datagram_iff {fromRelay : Bool} {data : Octets} :
    decides (.datagram fromRelay data) = true ↔
      fromRelay = true ∧ ∃ address, Names data address := by
  simp only [decides, Bool.and_eq_true, ← parseReply_eq_ok_iff]
  refine and_congr_right fun _ => ?_
  cases parseReply data with
  | error fault => exact iff_of_false Bool.false_ne_true nofun
  | ok address => exact iff_of_true rfl ⟨address, rfl⟩

/-- Only a reply and a fault decide. -/
theorem decides_cases {arrival : Arrival} (h : decides arrival = true) :
    (∃ data address, arrival = .datagram true data ∧ Names data address) ∨
      ∃ detail, arrival = .failure detail := by
  cases arrival with
  | disturbance => cases h
  | failure detail => exact .inr ⟨detail, rfl⟩
  | datagram fromRelay data =>
      obtain ⟨rfl, address, hnames⟩ := decides_datagram_iff.mp h
      exact .inl ⟨data, address, rfl, hnames⟩

theorem awaitReply_of_passed {arrival : Arrival} (h : decides arrival = false)
    (arrivals : List Arrival) : awaitReply (arrival :: arrivals) = awaitReply arrivals := by
  cases arrival with
  | disturbance => rfl
  | failure detail => cases h
  | datagram fromRelay data =>
      rw [awaitReply_datagram]
      split
      · rename_i hparse
        rw [decides, hparse] at h
        cases h
      · rfl

theorem awaitReply_reply {data : Octets} {address : Address} (h : Names data address)
    (arrivals : List Arrival) :
    awaitReply (.datagram true data :: arrivals) = (.ok address, arrivals) := by
  rw [awaitReply_datagram, parseReply_eq_ok_iff.mpr h]

theorem awaitReply_append {before : List Arrival}
    (h : ∀ arrival ∈ before, decides arrival = false) (arrivals : List Arrival) :
    awaitReply (before ++ arrivals) = awaitReply arrivals := by
  induction before with
  | nil => rfl
  | cons arrival before ih =>
      obtain ⟨hfirst, hrest⟩ := List.forall_mem_cons.mp h
      rw [List.cons_append, awaitReply_of_passed hfirst, ih hrest]

theorem Awaited.awaitReply_eq {arrivals rest : List Arrival} {result : Except Fault Address}
    (h : Awaited arrivals result rest) : awaitReply arrivals = (result, rest) := by
  cases h with
  | found hbefore hnames => rw [awaitReply_append hbefore, awaitReply_reply hnames]
  | failed detail hbefore => rw [awaitReply_append hbefore, awaitReply]
  | silent harrivals => rw [← List.append_nil arrivals, awaitReply_append harrivals, awaitReply]

theorem Awaited.cons {arrival : Arrival} {arrivals rest : List Arrival}
    {result : Except Fault Address} (harrival : decides arrival = false)
    (h : Awaited arrivals result rest) : Awaited (arrival :: arrivals) result rest := by
  cases h with
  | found hbefore hnames =>
      exact .found (List.forall_mem_cons.mpr ⟨harrival, hbefore⟩) hnames
  | failed detail hbefore =>
      exact .failed detail (List.forall_mem_cons.mpr ⟨harrival, hbefore⟩)
  | silent harrivals => exact .silent (List.forall_mem_cons.mpr ⟨harrival, harrivals⟩)

theorem awaited_awaitReply (arrivals : List Arrival) :
    Awaited arrivals (awaitReply arrivals).1 (awaitReply arrivals).2 := by
  induction arrivals with
  | nil => exact .silent nofun
  | cons arrival arrivals ih =>
      cases hdecides : decides arrival with
      | false =>
          rw [awaitReply_of_passed hdecides]
          exact .cons hdecides ih
      | true =>
          obtain ⟨data, address, rfl, hnames⟩ | ⟨detail, rfl⟩ := decides_cases hdecides
          · rw [awaitReply_reply hnames]
            exact @Awaited.found [] arrivals data address nofun hnames
          · exact @Awaited.failed [] arrivals detail nofun

/-- Nothing but what decides has a part in the result. -/
theorem awaitReply_filter (arrivals : List Arrival) :
    (awaitReply (arrivals.filter decides)).1 = (awaitReply arrivals).1 := by
  induction arrivals with
  | nil => rfl
  | cons arrival arrivals ih =>
      cases hdecides : decides arrival with
      | false =>
          rw [List.filter_cons_of_neg (by simp [hdecides]), ih, awaitReply_of_passed hdecides]
      | true =>
          rw [List.filter_cons_of_pos hdecides]
          obtain ⟨data, address, rfl, hnames⟩ | ⟨detail, rfl⟩ := decides_cases hdecides
          · rw [awaitReply_reply hnames, awaitReply_reply hnames]
          · rfl

/-- Whatever the memory holds before, and however long the receives take. -/
theorem awaitReply?_eq {memory : Octets} (hmemory : memory.length = maxDatagram)
    (left : Nat) (receives : List Receive) :
    awaitReply? memory left receives = some (awaitReply (inTime left receives)).1 := by
  induction receives generalizing memory left with
  | nil => cases left <;> rfl
  | cons receive receives ih =>
      cases left with
      | zero => rfl
      | succ left =>
          obtain ⟨wait, arrival⟩ := receive
          cases arrival with
          | disturbance => exact ih hmemory _
          | failure detail => rfl
          | datagram fromRelay data =>
              obtain ⟨memory', hfill, hlength, -⟩ := exists_fill? memory data
              have hnext := ih (hlength.trans hmemory) (left + 1 - wait)
              simp only [awaitReply?, inTime, awaitReply_datagram, hfill, hmemory,
                parseReply_received, Option.bind_eq_bind, Option.bind_some]
              cases fromRelay with
              | false => exact hnext
              | true =>
                  cases parseReply data with
                  | error fault => exact hnext
                  | ok address => rfl

theorem inTime_zero (receives : List Receive) : inTime 0 receives = [] := by
  cases receives <;> rfl

theorem discover_of_refused {l : Link} {network : Network} {detail : String}
    (hrefused : network l.offered = some detail) (timeout : Nat) :
    l.discover network timeout =
      ({ l with offered := l.offered + 1 }, [], .error (.socket detail)) := by
  simp only [Link.discover, Link.offer, hrefused, Option.map_some]

theorem discover_of_taken {l : Link} {network : Network} (htaken : network l.offered = none)
    {timeout : Nat} (htimeout : timeout ≠ 0) :
    l.discover network timeout =
      ({ l with inbox := (awaitReply l.inbox).2, offered := l.offered + 1 }, [probe l.ssrc],
        (awaitReply l.inbox).1) := by
  simp only [Link.discover, Link.offer, htaken, Option.map_none, if_neg htimeout]

theorem discover_up {l : Link} {timeout : Nat} {receives : List Receive}
    (hinbox : l.inbox = inTime timeout receives) :
    l.discover .up timeout =
      ({ l with inbox := (awaitReply l.inbox).2, offered := l.offered + 1 }, [probe l.ssrc],
        (awaitReply l.inbox).1) := by
  cases timeout with
  | zero =>
      rw [hinbox, inTime_zero]
      simp only [Link.discover, Link.offer_up, if_pos, hinbox, inTime_zero, awaitReply]
  | succ timeout => exact discover_of_taken rfl (Nat.succ_ne_zero timeout)

/-- One probe goes out, and whatever arrives before the time is over, the first datagram of the
relay that is a reply decides, or a fault of the socket before it. Nothing else has a part in it,
nor has the memory that it is received into. -/
theorem first_reply_decides {l : Link} {timeout : Nat} {receives : List Receive}
    (hinbox : l.inbox = inTime timeout receives) {memory : Octets}
    (hmemory : memory.length = maxDatagram) :
    let discovered := l.discover .up timeout
    let rest := discovered.1.inbox
    discovered.2.1 = [[0, 1, 0, 70] ++ Octets.ofWord32 l.ssrc ++ List.replicate 66 0] ∧
      discovered.1 = { l with inbox := rest, offered := l.offered + 1 } ∧
      Awaited l.inbox discovered.2.2 rest ∧
      (∀ result left, Awaited l.inbox result left → result = discovered.2.2 ∧ left = rest) ∧
      (∀ l' : Link, l'.inbox.filter decides = l.inbox.filter decides →
        (l'.discover .up timeout).2.2 = discovered.2.2) ∧
      awaitReply? memory timeout receives = some discovered.2.2 := by
  intro discovered rest
  have hdiscovered : discovered = _ := discover_up hinbox
  simp only [rest, hdiscovered, true_and]
  refine ⟨rfl, awaited_awaitReply l.inbox, fun result left hawaited => ?_, fun l' hsame => ?_,
    ?_⟩
  · rw [hawaited.awaitReply_eq]
    exact ⟨rfl, rfl⟩
  · cases timeout with
    | zero =>
        rw [hinbox, inTime_zero]
        rfl
    | succ timeout =>
        rw [← awaitReply_filter l.inbox, ← hsame, awaitReply_filter]
        rfl
  · rw [hinbox]
    exact awaitReply?_eq hmemory timeout receives

/-- A stranger's reply, an interruption and an empty datagram of the relay come before its reply. A
fault behind it comes too late. -/
theorem first_reply_decides_late :
    let address : Address := ⟨"192.0.2.10", 40000⟩
    let receives : List Receive :=
      [⟨30, .datagram false (reply 70 42 ⟨"203.0.113.6", 666⟩)⟩, ⟨0, .disturbance⟩,
        ⟨20, .datagram true []⟩, ⟨30, .datagram true (reply 70 42 address)⟩, ⟨0, .failure "gone"⟩]
    let l : Link := ⟨42, none, .start 960, inTime 80 receives, false, 0⟩
    let memory := List.replicate maxDatagram 9
    memory.length = maxDatagram ∧ l.inbox.length = 4 ∧
      (l.discover .up 80).2.2 = .ok address ∧
      awaitReply? memory 80 receives = some (.ok address) := by
  intro address receives l memory
  have hmemory : memory.length = maxDatagram := List.length_replicate
  have hinbox : l.inbox = inTime 80 receives := rfl
  obtain ⟨-, -, -, hunique, -, hprogram⟩ := first_reply_decides hinbox hmemory
  have hnames : Names (reply 70 42 address) address := by
    rw [← List.append_nil (reply 70 42 address)]
    exact names_reply 70 42 [] (by decide) (by decide) (by decide)
  have hbefore : ∀ arrival ∈ l.inbox.take 3, decides arrival = false := by
    simp only [l, receives, inTime, List.take, List.forall_mem_cons]
    exact ⟨rfl, rfl, rfl, nofun⟩
  obtain ⟨hresult, -⟩ := hunique _ _ (@Awaited.found _ [] _ _ hbefore hnames)
  rw [← hresult] at hprogram
  exact ⟨hmemory, rfl, hresult.symm, hprogram⟩

end VoiceCall.Proofs.Media.Replies
