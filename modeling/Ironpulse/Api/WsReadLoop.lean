import Ironpulse.Api.WsConnection
import Ironpulse.Lib.WebSocketFrame
import Mathlib.Data.List.Induction

/-! # What the frame loop reads

The chained reads of `WsConnection::read_frame_header` (`src/api/ws_server.cpp`), one at a time, against
the frames of RFC 6455.

* **`ReadStage.next`**, **`read_done_eq`**: what the handler of a completed read does, as one decision
  about its bytes.
* **`ReadStage.Reads`**: which bytes of the current frame were read before a stage.
* **`reads_next`**, **`cut_off_of_lt`**: a completed read decides as the decoder does, and without
  enough bytes for it the decoder has no frame either. -/

namespace Ironpulse.Api

open WebSocketFrame

/-! ## (1) One completed read -/

/-- `kMaxIncomingPayload`. -/
def limit : Nat := kMaxIncomingPayload.toNat

/-- The extended length in network byte order. -/
theorem toNat_extended_length {ext : List UInt8} (h : ext.length ≤ 8) :
    (WsConnection.extended_length ext).toNat = ByteCodec.natOfBytes ext.reverse := by
  induction ext using List.reverseRecOn with
  | nil => rfl
  -- most significant byte first: one more byte shifts the value so far by eight bits
  | append_singleton ext byte ih =>
      rw [List.length_append, List.length_singleton] at h
      have ih := ih (by omega)
      have hlt : ByteCodec.natOfBytes ext.reverse < 2 ^ 56 :=
        (ByteCodec.natOfBytes_lt _).trans_le
          ((Nat.pow_le_pow_right (by decide) (by simp; omega : ext.reverse.length ≤ 7)))
      have hbyte := byte.toNat_lt
      rw [WsConnection.extended_length, List.foldl_append, List.foldl_cons, List.foldl_nil,
        UInt64.toNat_or, UInt64.toNat_shiftLeft, UInt8.toNat_toUInt64]
      change ((WsConnection.extended_length ext).toNat <<< 8) % 2 ^ 64 ||| byte.toNat = _
      rw [ih, Nat.mod_eq_of_lt (by rw [Nat.shiftLeft_eq]; omega),
        ← Nat.shiftLeft_add_eq_or_of_lt hbyte, List.reverse_append, List.reverse_singleton,
        List.singleton_append, ByteCodec.natOfBytes_cons, Nat.shiftLeft_eq]
      omega

namespace ReadStage

/-- What a completed read leads to. -/
inductive Next where
  /-- The next read of the same frame. -/
  | read (stage : ReadStage)
  /-- The frame is refused. -/
  | refuse
  /-- The frame is complete: `handle_frame`, and the header of the next one. -/
  | frame (opcode : UInt8) (payload : List UInt8)
  deriving DecidableEq

/-- The end of a header, with its length. -/
def next_with_length (opcode : UInt8) (masked : Bool) (len : UInt64) : Next :=
  if !masked || len > kMaxIncomingPayload then .refuse else .read (.mask opcode len)

/-- What a stage makes of its bytes. -/
def next (stage : ReadStage) (bytes : List UInt8) : Next :=
  match stage with
  | .header =>
      let opcode := bytes.getD 0 0 &&& 0x0F
      let masked := bytes.getD 1 0 &&& 0x80 ≠ 0
      let payload_len := bytes.getD 1 0 &&& 0x7F
      if payload_len = 126 then .read (.length opcode masked 2)
      else if payload_len = 127 then .read (.length opcode masked 8)
      else next_with_length opcode masked payload_len.toUInt64
  | .length opcode masked _ =>
      next_with_length opcode masked (WsConnection.extended_length bytes)
  | .mask opcode len => if len = 0 then .frame opcode [] else .read (.payload opcode len bytes)
  | .payload opcode _ mask_key => .frame opcode (WsConnection.unmask bytes mask_key)

/-- Behind the mask key the payload buffer is allocated. -/
def allocates : ReadStage → List Nat
  | .mask _ len => [len.toNat]
  | .header | .length _ _ _ | .payload _ _ _ => []

end ReadStage

namespace WsConnection

/-- What a handler does after such a decision. -/
def proceed (s : WsConnection) : ReadStage.Next → WsConnection
  | .read stage => s.start_read stage
  | .refuse => s.close
  | .frame opcode payload => (s.handle_frame payload opcode).read_frame_header

/-- **The handler of a read does what the read decides.** -/
theorem read_done_eq (s : WsConnection) (stage : ReadStage) (bytes : List UInt8) :
    s.read_done stage bytes =
      { s with buffers := s.buffers ++ stage.allocates }.proceed (stage.next bytes) := by
  -- both the short and the extended lengths end in the same check
  have hlength : ∀ opcode masked len, s.finish_with_length opcode masked len =
      s.proceed (ReadStage.next_with_length opcode masked len) := by
    intro opcode masked len
    unfold finish_with_length ReadStage.next_with_length
    split <;> rfl
  have hnone : ({ s with buffers := s.buffers ++ [] } : WsConnection) = s := by
    rw [List.append_nil]
  cases stage with
  | header =>
      rw [ReadStage.allocates, hnone]
      unfold read_done ReadStage.next
      dsimp only
      split
      · rfl
      · split
        · rfl
        · exact hlength ..
  | length opcode masked size =>
      rw [ReadStage.allocates, hnone]
      exact hlength ..
  | mask opcode len =>
      unfold read_done ReadStage.next
      dsimp only
      split <;> rfl
  | payload opcode len mask_key =>
      rw [ReadStage.allocates, hnone]
      rfl

end WsConnection

/-! ## (2) The position in a frame -/

/-- The first bytes of a frame whose header is accepted. -/
def Accepts (head : List UInt8) (opcode : UInt8) (len : UInt64) : Prop :=
  ∃ h : Header, (∀ rest, decodeHeader (head ++ rest) = some (h, rest)) ∧
    h.masked = true ∧ h.opcode = opcode ∧ h.length = len.toNat ∧ len.toNat ≤ limit

/-- `part` are the bytes of the current frame that were read before a stage. -/
def ReadStage.Reads (part : List UInt8) : ReadStage → Prop
  | .header => part = []
  | .length opcode masked size => ∃ first second, part = [first, second] ∧
      opcode = first &&& 0x0F ∧ masked = decide (second &&& 0x80 ≠ 0) ∧
      LengthForm.ofField (second &&& 0x7F) ≠ .seven ∧
      size = (LengthForm.ofField (second &&& 0x7F)).width
  | .mask opcode len => Accepts part opcode len
  | .payload opcode len mask_key => len ≠ 0 ∧ mask_key.length = 4 ∧
      ∃ head, part = head ++ mask_key ∧ Accepts head opcode len

/-- What a decision says about the stream, when `front` are the bytes of the frame up to it. -/
def ReadStage.Next.Decides (front : List UInt8) : ReadStage.Next → Prop
  | .read stage => stage.Reads front
  | .refuse => Ends limit front [] .refused
  | .frame opcode data =>
      if opcode = opClose then Ends limit front [(opcode, data)] .closed
      else ∀ rest, clientFrames limit (front ++ rest) =
        ((opcode, data) :: (clientFrames limit rest).1, (clientFrames limit rest).2)

/-- The length decides whether the frame is accepted. -/
theorem decides_next_with_length {first second : UInt8} {extended : List UInt8} {len : UInt64}
    (hwidth : extended.length = (LengthForm.ofField (second &&& 0x7F)).width)
    (hlen : (header first second extended).length = len.toNat) :
    (ReadStage.next_with_length (first &&& 0x0F) (second &&& 0x80 ≠ 0) len).Decides
      (first :: second :: extended) := by
  have hdec : ∀ rest, decodeHeader (first :: second :: extended ++ rest) = some (_, rest) :=
    decodeHeader_append hwidth
  have hlimit : len > kMaxIncomingPayload ↔ limit < len.toNat := UInt64.lt_iff_toNat_lt
  unfold ReadStage.next_with_length
  split
  · -- the frame is refused: unmasked, or over the limit
    rename_i hrefused
    rw [Bool.or_eq_true, decide_eq_true_eq, hlimit] at hrefused
    intro rest
    apply clientFrames_of_refused (hdec rest)
    rw [hlen]
    exact hrefused.imp (fun h => by simpa [header] using h) id
  · -- the frame is accepted: its payload is wanted next
    rename_i haccepted
    rw [Bool.or_eq_true, decide_eq_true_eq, hlimit, not_or, Nat.not_lt] at haccepted
    exact ⟨_, hdec, by simpa [header] using haccepted.1, rfl, hlen, haccepted.2⟩

/-- A complete frame. -/
theorem decides_frame {head key : List UInt8} (data : List UInt8) {opcode : UInt8} {len : UInt64}
    (hhead : Accepts head opcode len) (hkey : key.length = 4) (hdata : data.length = len.toNat) :
    (ReadStage.Next.frame opcode (WsConnection.unmask data key)).Decides
      (head ++ key ++ data) := by
  -- a whole frame is read the same way whatever comes behind it
  obtain ⟨h, hdec, hmasked, rfl, hlen, hlimit⟩ := hhead
  have hframe : ∀ rest, clientFrames limit (head ++ key ++ data ++ rest) =
      if h.opcode = opClose then ([(h.opcode, unmask key data)], .closed)
      else
        ((h.opcode, unmask key data) :: (clientFrames limit rest).1,
          (clientFrames limit rest).2) := by
    intro rest
    rw [List.append_assoc, List.append_assoc]
    exact clientFrames_of_frame (hdec _) hmasked (by rwa [hlen]) hkey (by rw [hdata, hlen])
  change if h.opcode = opClose then _ else _
  split
  · rename_i hclose
    intro rest
    rw [hframe, if_pos hclose]
    rfl
  · rename_i hother
    intro rest
    rw [hframe, if_neg hother]
    rfl

/-- **One completed read** either goes on with the same frame, refuses it or completes it. -/
theorem reads_next {stage : ReadStage} {part bytes : List UInt8} (h : stage.Reads part)
    (hlen : bytes.length = stage.wanted) : (stage.next bytes).Decides (part ++ bytes) := by
  cases stage with
  | header =>
      obtain rfl : part = [] := h
      match bytes, hlen with
      | [first, second], _ =>
          rw [List.nil_append]
          change (if second &&& 0x7F = 126 then _ else if second &&& 0x7F = 127 then _
            else ReadStage.next_with_length _ _ _ : ReadStage.Next).Decides _
          split
          · -- the length follows in two bytes
            rename_i h126
            exact ⟨first, second, rfl, rfl, rfl, by rw [h126]; decide, by rw [h126]; rfl⟩
          · split
            · -- the length follows in eight bytes
              rename_i h127
              exact ⟨first, second, rfl, rfl, rfl, by rw [h127]; decide, by rw [h127]; rfl⟩
            · rename_i h126 h127
              have hform : LengthForm.ofField (second &&& 0x7F) = .seven := by
                rw [LengthForm.ofField, if_neg h126, if_neg h127]
              apply decides_next_with_length
              · rw [hform]
                rfl
              · rw [header]
                dsimp only
                rw [hform, if_pos rfl, UInt8.toNat_toUInt64]
                rfl
  | length opcode masked size =>
      obtain ⟨first, second, rfl, rfl, rfl, hform, rfl⟩ := h
      apply decides_next_with_length hlen
      rw [header]
      dsimp only
      rw [if_neg hform, toNat_extended_length]
      rw [hlen]
      change (LengthForm.ofField (second &&& 0x7F)).width ≤ 8
      cases LengthForm.ofField (second &&& 0x7F) <;> decide
  | mask opcode len =>
      unfold ReadStage.next
      dsimp only
      split
      · -- no payload is read, so the frame ends with its mask
        rename_i hempty
        have hframe := decides_frame [] h hlen (by rw [hempty]; rfl)
        rwa [List.append_nil] at hframe
      · rename_i hne
        exact ⟨hne, hlen, part, rfl, h⟩
  | payload opcode len mask_key =>
      obtain ⟨-, hkey, head, rfl, haccepts⟩ := h
      exact decides_frame _ haccepts hkey hlen

/-- **Too few bytes** for the next read leave the frame cut off. -/
theorem cut_off_of_lt {stage : ReadStage} {part rest : List UInt8} (h : stage.Reads part)
    (hlt : rest.length < stage.wanted) : clientFrames limit (part ++ rest) = ([], .cutOff) := by
  cases stage with
  | header =>
      obtain rfl : part = [] := h
      exact clientFrames_of_header_cut (decodeHeader_of_length_lt hlt)
  | length opcode masked size =>
      obtain ⟨first, second, rfl, -, -, -, rfl⟩ := h
      exact clientFrames_of_header_cut (decodeHeader_of_lt hlt)
  | mask opcode len =>
      obtain ⟨h, hdec, hmasked, -, hlen, hlimit⟩ := h
      have hfour : rest.length < 4 := hlt
      exact clientFrames_of_payload_cut (hdec rest) hmasked (by rwa [hlen]) (by omega)
  | payload opcode len mask_key =>
      obtain ⟨-, hkey, head, rfl, h, hdec, hmasked, -, hlen, hlimit⟩ := h
      have hpayload : rest.length < len.toNat := hlt
      rw [List.append_assoc]
      exact clientFrames_of_payload_cut (hdec _) hmasked (by rwa [hlen])
        (by rw [List.length_append]; omega)

end Ironpulse.Api
