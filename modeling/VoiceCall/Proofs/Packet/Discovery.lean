import Mathlib.Data.List.TakeWhile
import VoiceCall.Packet.Discovery
import VoiceCall.Proofs.Text.Utf8

namespace VoiceCall.Proofs.Packet.Discovery

open VoiceCall.Packet
open VoiceCall.Packet.Discovery
open VoiceCall.Proofs.Text.Utf8

/-- What a field holds in front of its first zero byte, or all of it if there is none. -/
def HoldsPadded (field content : Octets) : Prop :=
  0 ∉ content ∧ (field = content ∨ ∃ behind, field = content ++ 0 :: behind)

theorem takeWhile_eq_iff {field content : Octets} :
    field.takeWhile (· != 0) = content ↔ HoldsPadded field content := by
  constructor
  · rintro rfl
    refine ⟨fun hmem => by simpa using List.mem_takeWhile_imp hmem, ?_⟩
    have hsplit := List.takeWhile_append_dropWhile (p := (· != 0)) (l := field)
    cases hbehind : field.dropWhile (· != 0) with
    | nil =>
        rw [hbehind, List.append_nil] at hsplit
        exact .inl hsplit.symm
    | cons octet behind =>
        have hzero := List.head_dropWhile_not (· != 0) (l := field) (by simp [hbehind])
        simp only [hbehind, List.head_cons, bne_eq_false_iff_eq] at hzero
        rw [hbehind, hzero] at hsplit
        exact .inr ⟨behind, hsplit.symm⟩
  · rintro ⟨hzero, hfield⟩
    have hkept : ∀ octet ∈ content, (octet != 0) = true := by
      intro octet hmem
      simpa using fun heq : octet = 0 => hzero (heq ▸ hmem)
    rcases hfield with rfl | ⟨behind, rfl⟩
    · exact List.takeWhile_eq_self_iff.mpr hkept
    · rw [List.takeWhile_append_of_pos hkept]
      simp

theorem holdsPadded_replicate {content : Octets} (hzero : 0 ∉ content) (count : Nat) :
    HoldsPadded (content ++ List.replicate count 0) content := by
  refine ⟨hzero, ?_⟩
  cases count with
  | zero => exact .inl (List.append_nil _)
  | succ count => exact .inr ⟨List.replicate count 0, rfl⟩

theorem HoldsPadded.length_le {field content : Octets} (h : HoldsPadded field content) :
    content.length ≤ field.length := by
  obtain ⟨-, rfl | ⟨behind, rfl⟩⟩ := h
  · exact Nat.le_refl _
  · simp

theorem addressText_eq_some_iff {field : Octets} {ip : String} :
    addressText field = some ip ↔ HoldsPadded field (octetsOf ip) := by
  rw [addressText, fromUTF8?_eq_some_iff, takeWhile_eq_iff]

def addressField (data : Octets) : Octets :=
  (data.drop 8).take addressWidth

/-- A datagram is a reply that names an address. -/
structure Names (data : Octets) (address : Address) : Prop where
  long : size ≤ data.length
  marker : data.take 2 = [0, 2]
  text : HoldsPadded (addressField data) (octetsOf address.ip)
  nonempty : octetsOf address.ip ≠ []
  port : address.port.toNat = 256 * (data.getD 72 0).toNat + (data.getD 73 0).toNat

theorem marker_eq_iff {data : Octets} (hlong : size ≤ data.length) :
    word16 (data.getD 0 0) (data.getD 1 0) = replyMarker ↔ data.take 2 = [0, 2] := by
  rcases data with _ | ⟨high, _ | ⟨low, rest⟩⟩
  iterate 2 · simp [size] at hlong
  change word16 high low = replyMarker ↔ [high, low] = Octets.ofWord16 replyMarker
  constructor
  · intro h
    rw [← h, ofWord16_word16]
  · intro h
    simp only [Octets.ofWord16, List.cons.injEq, and_true] at h
    rw [h.1, h.2, word16_ofWord16]

theorem port_eq_iff {data : Octets} {port : UInt16} :
    word16 (data.getD 72 0) (data.getD 73 0) = port ↔
      port.toNat = 256 * (data.getD 72 0).toNat + (data.getD 73 0).toNat := by
  rw [← UInt16.toNat_inj, toNat_word16, Nat.mul_comm, eq_comm]

theorem parseReply_of_short {data : Octets} (hshort : data.length < size) :
    parseReply data = .error (.tooShort data.length size) :=
  if_pos hshort

theorem parseReply_of_other_marker {data : Octets} (hlong : size ≤ data.length)
    (hmarker : data.take 2 ≠ [0, 2]) :
    parseReply data = .error (.unexpectedMarker (word16 (data.getD 0 0) (data.getD 1 0))) := by
  rw [parseReply, if_neg (Nat.not_lt_of_le hlong)]
  exact if_pos fun h => hmarker ((marker_eq_iff hlong).mp h)

theorem parseReply_of_marker {data : Octets} (hlong : size ≤ data.length)
    (hmarker : data.take 2 = [0, 2]) :
    parseReply data =
      match addressText (addressField data) with
      | none => .error .invalidAddress
      | some ip =>
        if ip.isEmpty then .error .invalidAddress
        else .ok ⟨ip, word16 (data.getD 72 0) (data.getD 73 0)⟩ := by
  rw [parseReply, if_neg (Nat.not_lt_of_le hlong)]
  exact if_neg fun h => h ((marker_eq_iff hlong).mpr hmarker)

theorem parseReply_eq_ok_iff {data : Octets} {address : Address} :
    parseReply data = .ok address ↔ Names data address := by
  by_cases hshort : data.length < size
  · rw [parseReply_of_short hshort]
    exact iff_of_false nofun fun h => Nat.not_le_of_lt hshort h.long
  have hlong := Nat.le_of_not_lt hshort
  by_cases hmarker : data.take 2 = [0, 2]
  case neg =>
    rw [parseReply_of_other_marker hlong hmarker]
    exact iff_of_false nofun fun h => hmarker h.marker
  rw [parseReply_of_marker hlong hmarker]
  cases htext : addressText (addressField data) with
  | none =>
      refine iff_of_false nofun fun h => ?_
      cases htext.symm.trans (addressText_eq_some_iff.mpr h.text)
  | some ip =>
      have hip := addressText_eq_some_iff.mp htext
      by_cases hempty : ip = ""
      · refine iff_of_false (by simp [hempty]) fun h => h.nonempty ?_
        cases htext.symm.trans (addressText_eq_some_iff.mpr h.text)
        exact octetsOf_eq_nil_iff.mpr hempty
      · simp only [String.isEmpty_iff, if_neg hempty, Except.ok.injEq]
        constructor
        · rintro rfl
          exact ⟨hlong, hmarker, hip, mt octetsOf_eq_nil_iff.mp hempty, port_eq_iff.mp rfl⟩
        · intro h
          cases htext.symm.trans (addressText_eq_some_iff.mpr h.text)
          rw [port_eq_iff.mpr h.port]

theorem exists_names_iff {data : Octets} :
    (∃ address, parseReply data = .ok address) ↔
      size ≤ data.length ∧ data.take 2 = [0, 2] ∧
        ∃ content, HoldsPadded (addressField data) content ∧ content ≠ [] ∧
          ByteArray.IsValidUTF8 ⟨content.toArray⟩ := by
  simp only [parseReply_eq_ok_iff]
  constructor
  · rintro ⟨address, h⟩
    exact ⟨h.long, h.marker, _, h.text, h.nonempty, exists_octetsOf_iff.mp ⟨_, rfl⟩⟩
  · rintro ⟨hlong, hmarker, content, htext, hnonempty, hvalid⟩
    obtain ⟨ip, rfl⟩ := exists_octetsOf_iff.mpr hvalid
    exact ⟨⟨ip, _⟩, hlong, hmarker, htext, hnonempty, port_eq_iff.mp rfl⟩

theorem length_addressField_le (data : Octets) : (addressField data).length ≤ addressWidth :=
  List.length_take_le _ _

/-- The reply of a relay, of 74 bytes if the address fits into its field. -/
def reply (length : UInt16) (ssrc : UInt32) (address : Address) : Octets :=
  Octets.ofWord16 replyMarker ++ Octets.ofWord16 length ++ Octets.ofWord32 ssrc ++
    (octetsOf address.ip ++ List.replicate (addressWidth - (octetsOf address.ip).length) 0) ++
    Octets.ofWord16 address.port

section

variable {start field : Octets} (hstart : start.length = 8) (hfield : field.length = addressWidth)
include hstart hfield

theorem addressField_append (behind : Octets) :
    addressField (start ++ (field ++ behind)) = field := by
  rw [addressField, List.drop_left' hstart, List.take_left' hfield]

theorem getD_append_field (behind : Octets) (i : Nat) :
    (start ++ (field ++ behind)).getD (72 + i) 0 = behind.getD i 0 := by
  have hlength : (start ++ field).length = 72 := by
    rw [List.length_append, hstart, hfield]
    rfl
  rw [← List.append_assoc, List.getD_eq_getElem?_getD, List.getElem?_append_right (by omega),
    hlength, Nat.add_sub_cancel_left, List.getD_eq_getElem?_getD]

end

theorem length_padded {content : Octets} (hfits : content.length ≤ addressWidth) :
    (content ++ List.replicate (addressWidth - content.length) 0).length = addressWidth := by
  rw [List.length_append, List.length_replicate]
  omega

theorem names_reply {address : Address} (length : UInt16) (ssrc : UInt32) (behind : Octets)
    (hnonempty : octetsOf address.ip ≠ []) (hzero : 0 ∉ octetsOf address.ip)
    (hfits : (octetsOf address.ip).length ≤ addressWidth) :
    Names (reply length ssrc address ++ behind) address := by
  have hfield := length_padded hfits
  rw [reply, List.append_assoc, List.append_assoc]
  refine ⟨?_, rfl, ?_, hnonempty, port_eq_iff.mp ?_⟩
  · simp only [List.length_append, hfield, length_ofWord16, length_ofWord32]
    unfold size addressWidth
    omega
  · rw [addressField_append rfl hfield]
    exact holdsPadded_replicate hzero _
  · rw [getD_append_field rfl hfield _ 0, getD_append_field rfl hfield _ 1]
    exact word16_ofWord16 address.port

theorem not_names_probe (ssrc : UInt32) (behind : Octets) (address : Address) :
    ¬ Names (probe ssrc ++ behind) address := by
  intro h
  cases h.marker

/-- A datagram is read as a reply exactly when it is long enough, begins with the marker of a reply,
and its address field holds a text that is not empty in front of the first zero byte, and it is read
as that text and the two bytes behind the field. -/
theorem reply_format :
    (∀ data : Octets, (∃ address, parseReply data = .ok address) ↔
      size ≤ data.length ∧ data.take 2 = [0, 2] ∧
        ∃ content, HoldsPadded (addressField data) content ∧ content ≠ [] ∧
          ByteArray.IsValidUTF8 ⟨content.toArray⟩) ∧
    (∀ (data : Octets) (address : Address), parseReply data = .ok address →
      HoldsPadded (addressField data) (octetsOf address.ip) ∧ 0 ∉ octetsOf address.ip ∧
        (octetsOf address.ip).length ≤ addressWidth ∧
          address.port.toNat = 256 * (data.getD 72 0).toNat + (data.getD 73 0).toNat) ∧
    (∀ (length : UInt16) (ssrc : UInt32) (address : Address) (behind : Octets),
      address.ip ≠ "" → 0 ∉ octetsOf address.ip →
        (octetsOf address.ip).length ≤ addressWidth →
          parseReply (reply length ssrc address ++ behind) = .ok address) ∧
    ∀ (ssrc : UInt32) (behind : Octets),
      ¬ ∃ address, parseReply (probe ssrc ++ behind) = .ok address := by
  refine ⟨fun data => exists_names_iff, fun data address hparse => ?_, ?_, ?_⟩
  · have hnames := parseReply_eq_ok_iff.mp hparse
    have hshort := hnames.text.length_le.trans (length_addressField_le data)
    exact ⟨hnames.text, hnames.text.1, hshort, hnames.port⟩
  · intro length ssrc address behind hnonempty hzero hfits
    exact parseReply_eq_ok_iff.mpr
      (names_reply length ssrc behind (mt octetsOf_eq_nil_iff.mp hnonempty) hzero hfits)
  · rintro ssrc behind ⟨address, hparse⟩
    exact not_names_probe ssrc behind address (parseReply_eq_ok_iff.mp hparse)

/-- An address that fills its field, with nothing to end it. -/
theorem reply_format_unterminated :
    let address : Address := ⟨String.ofList (List.replicate 64 'a'), 50004⟩
    parseReply (reply 70 42 address ++ [7]) = .ok address ∧
      (octetsOf address.ip).length = addressWidth := by
  obtain ⟨-, -, hread, -⟩ := reply_format
  exact ⟨hread 70 42 _ _ (by decide) (by decide) (by decide), by decide⟩

end VoiceCall.Proofs.Packet.Discovery
