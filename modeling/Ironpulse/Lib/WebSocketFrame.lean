import Ironpulse.Lib.ByteCodec

/-! # The base framing protocol of WebSocket

The frames of RFC 6455, section 5.2, as a decoder: the FIN bit, three reserved bits and the opcode;
the mask bit and a length of 7, 16 or 64 bits in network byte order; the mask key; the payload.

* **`decodeHeader`**, **`decodeFrame`**: the frame at the front of a byte string.
* **`clientFrames`**: what a server with a limit reads from a stream, and why it stops.
* **`Parses`**, **`Ends`**: what the front of a stream determines, whatever follows. -/

namespace WebSocketFrame

open ByteCodec (natOfBytes)

/-! ## (1) One frame -/

/-- The first `n` bytes and the rest. -/
def split (n : Nat) (bytes : List UInt8) : Option (List UInt8 × List UInt8) :=
  if n ≤ bytes.length then some (bytes.take n, bytes.drop n) else none

/-- Splitting takes the front of the length asked for. -/
theorem split_append {front : List UInt8} {n : Nat} (h : front.length = n) (rest : List UInt8) :
    split n (front ++ rest) = some (front, rest) := by
  rw [split, if_pos (by simp [h]), List.take_left' h, List.drop_left' h]

/-- Too few bytes cannot be split. -/
theorem split_of_lt {n : Nat} {bytes : List UInt8} (h : bytes.length < n) : split n bytes = none :=
  if_neg (Nat.not_le.mpr h)

/-- Splitting loses nothing. -/
theorem eq_append_of_split {n : Nat} {bytes front rest : List UInt8}
    (h : split n bytes = some (front, rest)) : bytes = front ++ rest ∧ front.length = n := by
  unfold split at h
  split at h
  · rename_i hle
    cases h
    exact ⟨(List.take_append_drop n bytes).symm, List.length_take_of_le hle⟩
  · cases h

/-- How many bits hold the length. -/
inductive LengthForm where
  | seven
  | sixteen
  | sixtyFour
  deriving DecidableEq

namespace LengthForm

/-- The form that the seven bits after the mask bit announce. -/
def ofField (field : UInt8) : LengthForm :=
  if field = 126 then sixteen else if field = 127 then sixtyFour else seven

/-- The bytes of the extended length. -/
def width : LengthForm → Nat
  | seven => 0
  | sixteen => 2
  | sixtyFour => 8

/-- The form that a sender has to use. -/
def shortest (length : Nat) : LengthForm :=
  if length ≤ 125 then seven else if length ≤ 65535 then sixteen else sixtyFour

end LengthForm

/-- Everything before the mask key. -/
structure Header where
  fin : Bool
  reserved : UInt8
  opcode : UInt8
  masked : Bool
  form : LengthForm
  length : Nat
  deriving DecidableEq

/-- The header of two bytes and the extended length. -/
def header (first second : UInt8) (extended : List UInt8) : Header :=
  let form := LengthForm.ofField (second &&& 0x7F)
  { fin := first &&& 0x80 ≠ 0
    reserved := (first >>> 4) &&& 0x07
    opcode := first &&& 0x0F
    masked := second &&& 0x80 ≠ 0
    form
    length := if form = .seven then (second &&& 0x7F).toNat else natOfBytes extended.reverse }

/-- A sender uses the shortest form and keeps the most significant bit of the length clear. -/
def Header.Canonical (h : Header) : Prop := h.form = .shortest h.length ∧ h.length < 2 ^ 63

/-- The header of a frame and the bytes behind it, or `none` when the bytes end inside it. -/
def decodeHeader : List UInt8 → Option (Header × List UInt8)
  | first :: second :: bytes =>
      (split (LengthForm.ofField (second &&& 0x7F)).width bytes).map fun (extended, rest) =>
        (header first second extended, rest)
  | _ => none

/-- Each byte of the payload against a byte of the key; without a key nothing changes. -/
def unmask (key data : List UInt8) : List UInt8 :=
  data.mapIdx fun i byte => byte ^^^ key.getD (i % 4) 0

/-- Without a key nothing is masked. -/
@[simp] theorem unmask_nil (data : List UInt8) : unmask [] data = data := by
  apply List.ext_getElem
  · simp [unmask]
  · simp [unmask]

/-- A frame: its header and its payload as sent. -/
structure Frame where
  header : Header
  payload : List UInt8
  deriving DecidableEq

/-- The frame at the front of a byte string, with its payload unmasked, and what follows it. -/
def decodeFrame (bytes : List UInt8) : Option (Frame × List UInt8) :=
  (decodeHeader bytes).bind fun (header, bytes) =>
    (split (if header.masked then 4 else 0) bytes).bind fun (key, bytes) =>
      (split header.length bytes).map fun (data, rest) => (⟨header, unmask key data⟩, rest)

/-- **A complete header is decoded**, whatever comes behind it. -/
theorem decodeHeader_append {first second : UInt8} {extended : List UInt8}
    (h : extended.length = (LengthForm.ofField (second &&& 0x7F)).width) (rest : List UInt8) :
    decodeHeader (first :: second :: extended ++ rest) =
      some (header first second extended, rest) := by
  change (split _ (extended ++ rest)).map _ = _
  rw [split_append h]
  rfl

/-- Bytes that end inside the extended length are no header. -/
theorem decodeHeader_of_lt {first second : UInt8} {bytes : List UInt8}
    (h : bytes.length < (LengthForm.ofField (second &&& 0x7F)).width) :
    decodeHeader (first :: second :: bytes) = none := by
  rw [decodeHeader, split_of_lt h]
  rfl

/-- Fewer than two bytes are no header. -/
theorem decodeHeader_of_length_lt {bytes : List UInt8} (h : bytes.length < 2) :
    decodeHeader bytes = none := by
  match bytes, h with
  | [], _ => rfl
  | [_], _ => rfl

/-- A header takes at least one byte. -/
theorem length_of_decodeHeader {bytes rest : List UInt8} {h : Header}
    (hdec : decodeHeader bytes = some (h, rest)) : rest.length < bytes.length := by
  match bytes with
  | [] => cases hdec
  | [_] => cases hdec
  | first :: second :: bytes =>
      rw [decodeHeader, Option.map_eq_some_iff] at hdec
      obtain ⟨⟨extended, rest'⟩, hsplit, heq⟩ := hdec
      cases heq
      rw [(eq_append_of_split hsplit).1]
      simp
      omega

/-- The frame after a decoded header. -/
theorem decodeFrame_of_header {bytes key data rest : List UInt8} {h : Header}
    (hdec : decodeHeader bytes = some (h, key ++ (data ++ rest)))
    (hkey : key.length = if h.masked then 4 else 0) (hdata : data.length = h.length) :
    decodeFrame bytes = some (⟨h, unmask key data⟩, rest) := by
  rw [decodeFrame, hdec, Option.bind_some]
  dsimp only
  rw [split_append hkey, Option.bind_some]
  dsimp only
  rw [split_append hdata]
  rfl

/-- A frame takes bytes. -/
theorem length_of_decodeFrame {bytes rest : List UInt8} {frame : Frame}
    (hdec : decodeFrame bytes = some (frame, rest)) : rest.length < bytes.length := by
  rw [decodeFrame, Option.bind_eq_some_iff] at hdec
  obtain ⟨⟨h, bytes'⟩, hheader, hdec⟩ := hdec
  rw [Option.bind_eq_some_iff] at hdec
  obtain ⟨⟨key, bytes''⟩, hkey, hdec⟩ := hdec
  rw [Option.map_eq_some_iff] at hdec
  obtain ⟨⟨data, rest'⟩, hdata, heq⟩ := hdec
  cases heq
  have hlt := length_of_decodeHeader hheader
  have h1 := congrArg List.length (eq_append_of_split hkey).1
  have h2 := congrArg List.length (eq_append_of_split hdata).1
  rw [List.length_append] at h1 h2
  omega

/-! ## (2) The stream of a client -/

/-- The opcode of a close frame. -/
def opClose : UInt8 := 0x8

/-- Why a server stops reading a stream. -/
inductive Ending where
  /-- The last frame was a close frame. -/
  | closed
  /-- The next frame is unmasked or longer than the limit. -/
  | refused
  /-- The next frame is not complete. -/
  | cutOff
  deriving DecidableEq

/-- The opcodes and payloads of the frames that a server reads from a stream: all up to the first
close frame, or up to one that it refuses or that is cut off. -/
def clientFrames (limit : Nat) (bytes : List UInt8) : List (UInt8 × List UInt8) × Ending :=
  match decodeHeader bytes with
  | none => ([], .cutOff)
  | some (h, _) =>
      if h.masked = false ∨ limit < h.length then ([], .refused)
      else
        match _hdec : decodeFrame bytes with
        | none => ([], .cutOff)
        | some (frame, rest) =>
            let message := (frame.header.opcode, frame.payload)
            if frame.header.opcode = opClose then ([message], .closed)
            else (message :: (clientFrames limit rest).1, (clientFrames limit rest).2)
termination_by bytes.length
decreasing_by all_goals exact length_of_decodeFrame _hdec

variable {limit : Nat} {bytes rest : List UInt8} {h : Header}

/-- A stream that ends inside a header ends cut off. -/
theorem clientFrames_of_header_cut (hdec : decodeHeader bytes = none) :
    clientFrames limit bytes = ([], .cutOff) := by
  rw [clientFrames, hdec]

/-- A frame without a mask or longer than the limit is refused. -/
theorem clientFrames_of_refused (hdec : decodeHeader bytes = some (h, rest))
    (hrefused : h.masked = false ∨ limit < h.length) :
    clientFrames limit bytes = ([], .refused) := by
  rw [clientFrames, hdec]
  exact if_pos hrefused

/-- A header that is accepted leaves the rest of the frame to decide. -/
theorem clientFrames_of_accepted (hdec : decodeHeader bytes = some (h, rest))
    (hmasked : h.masked = true) (hlength : h.length ≤ limit) :
    clientFrames limit bytes =
      match decodeFrame bytes with
      | none => ([], .cutOff)
      | some (frame, rest) =>
          if frame.header.opcode = opClose then ([(frame.header.opcode, frame.payload)], .closed)
          else
            ((frame.header.opcode, frame.payload) :: (clientFrames limit rest).1,
              (clientFrames limit rest).2) := by
  have haccepted : ¬ (h.masked = false ∨ limit < h.length) := by simp [hmasked, hlength]
  rw [clientFrames, hdec]
  dsimp only
  rw [if_neg haccepted]
  split <;> rename_i heq <;> rw [heq]

/-- A stream that ends inside a payload ends cut off. -/
theorem clientFrames_of_payload_cut (hdec : decodeHeader bytes = some (h, rest))
    (hmasked : h.masked = true) (hlength : h.length ≤ limit) (hcut : rest.length < 4 + h.length) :
    clientFrames limit bytes = ([], .cutOff) := by
  have hframe : decodeFrame bytes = none := by
    rw [decodeFrame, hdec, Option.bind_some]
    dsimp only
    rw [hmasked, if_pos rfl, Option.bind_eq_none_iff]
    rintro ⟨key, bytes⟩ hkey
    obtain ⟨rfl, hfour⟩ := eq_append_of_split hkey
    rw [List.length_append] at hcut
    dsimp only
    rw [split_of_lt (by omega), Option.map_none]
  rw [clientFrames_of_accepted hdec hmasked hlength, hframe]

/-- **A whole frame is read**, and the rest behind it unless it closes the stream. -/
theorem clientFrames_of_frame {key data : List UInt8}
    (hdec : decodeHeader bytes = some (h, key ++ (data ++ rest))) (hmasked : h.masked = true)
    (hlength : h.length ≤ limit) (hkey : key.length = 4) (hdata : data.length = h.length) :
    clientFrames limit bytes =
      if h.opcode = opClose then ([(h.opcode, unmask key data)], .closed)
      else
        ((h.opcode, unmask key data) :: (clientFrames limit rest).1,
          (clientFrames limit rest).2) := by
  rw [clientFrames_of_accepted hdec hmasked hlength,
    decodeFrame_of_header hdec (by rw [hkey, hmasked, if_pos rfl]) hdata]

/-! ## (3) What the front of a stream determines -/

variable (limit) in
/-- The front of a stream consists of these frames, and reading goes on behind it. -/
def Parses (front : List UInt8) (frames : List (UInt8 × List UInt8)) : Prop :=
  ∀ rest, clientFrames limit (front ++ rest) =
    (frames ++ (clientFrames limit rest).1, (clientFrames limit rest).2)

variable (limit) in
/-- The front of a stream decides all that is read, and why it ends there. -/
def Ends (front : List UInt8) (frames : List (UInt8 × List UInt8)) (ending : Ending) : Prop :=
  ∀ rest, clientFrames limit (front ++ rest) = (frames, ending)

/-- The empty front has no frames. -/
theorem parses_nil : Parses limit [] [] := fun _ => rfl

variable {front bytes : List UInt8} {frames : List (UInt8 × List UInt8)}

/-- A front is followed by one more frame. -/
theorem Parses.frame (hfront : Parses limit front frames) {message : UInt8 × List UInt8}
    (hnext : ∀ rest, clientFrames limit (bytes ++ rest) =
      (message :: (clientFrames limit rest).1, (clientFrames limit rest).2)) :
    Parses limit (front ++ bytes) (frames ++ [message]) := by
  intro rest
  rw [List.append_assoc, hfront, hnext, List.append_assoc, List.singleton_append]

/-- A front is followed by the bytes that decide the end. -/
theorem Parses.ends {last : List (UInt8 × List UInt8)} {ending : Ending}
    (hfront : Parses limit front frames) (hnext : Ends limit bytes last ending) :
    Ends limit (front ++ bytes) (frames ++ last) ending := by
  intro rest
  rw [List.append_assoc, hfront, hnext]

end WebSocketFrame
