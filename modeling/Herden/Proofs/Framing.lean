import Herden.Runtime.Framing

/-!
# `Herden.Proofs.Framing`: messages come back as they were written

Reading puts the pieces of a stream together (`readExactOrEof_of_le`), so what `read_message` does
depends on the bytes alone: `readMessage_frame` reads one frame, `readMessage_oversized` leaves the
payload where it is, `readMessage_truncated` finds no message in a part of a frame. A run of frames
is then read one after the other (`frames_round_trip`).
-/

namespace Herden.Proofs.Framing

open Herden.Lib
open Herden.Lib.Bincode (Bytes Token Decoder Reads leBytes ofLeBytes length_leBytes
  ofLeBytes_leBytes)
open Herden.Runtime.Framing

/-! ### Reads -/

theorem bytes_ofBytes (bytes : Bytes) : (Reader.ofBytes bytes).bytes = bytes := by
  unfold Reader.ofBytes Reader.bytes
  split
  next hnil => rw [hnil]; rfl
  next => exact List.append_nil bytes

theorem readPieces_spec (n : Nat) (pieces : List Bytes) :
    (readPieces n pieces).1 = pieces.flatten.take n
      ∧ (readPieces n pieces).2.flatten = pieces.flatten.drop n := by
  fun_induction readPieces n pieces with
  | case1 pieces => exact ⟨rfl, rfl⟩
  | case2 n => exact ⟨rfl, rfl⟩
  | case3 n piece pieces hlt =>
    rw [List.flatten_cons, List.flatten_cons, List.take_append_of_le_length (Nat.le_of_lt hlt),
      List.drop_append_of_le_length (Nat.le_of_lt hlt)]
    exact ⟨rfl, rfl⟩
  | case4 n piece pieces hge bytes left heq ih =>
    rw [heq] at ih
    obtain ⟨hbytes, hleft⟩ := ih
    rw [List.flatten_cons, List.take_append, List.drop_append,
      List.take_of_length_le (Nat.le_of_not_lt hge), List.drop_of_length_le (Nat.le_of_not_lt hge)]
    exact ⟨congrArg (piece ++ ·) hbytes, hleft⟩

variable {n : Nat} {reader : Reader}

/-- Enough bytes are read in full, however they come. -/
theorem readExactOrEof_of_le (h : n ≤ reader.bytes.length) :
    ∃ left, readExactOrEof reader n = (.ok (reader.bytes.take n), left)
      ∧ left.bytes = reader.bytes.drop n := by
  obtain ⟨hbytes, hleft⟩ := readPieces_spec n reader.pieces
  refine ⟨_, Prod.ext ?_ rfl, hleft⟩
  unfold readExactOrEof
  dsimp only
  rw [hbytes]
  exact if_neg (Nat.not_lt.mpr (Nat.le_of_eq (List.length_take_of_le h).symm))

theorem readExactOrEof_of_lt (h : reader.bytes.length < n) :
    (readExactOrEof reader n).1 = .error .unexpectedEof := by
  obtain ⟨hbytes, -⟩ := readPieces_spec n reader.pieces
  unfold readExactOrEof
  dsimp only
  rw [hbytes]
  refine if_pos ?_
  rw [List.length_take]
  exact Nat.lt_of_le_of_lt (Nat.min_le_right n _) h

/-! ### Frames -/

/-- The frame around a payload. -/
def frame (payload : Bytes) : Bytes := leBytes lengthPrefixBytes payload.length ++ payload

theorem length_frame (payload : Bytes) : (frame payload).length = 4 + payload.length := by
  unfold frame
  rw [List.length_append, length_leBytes]
  rfl

section

variable {M : Type} {codec : Codec M} {maxFrameSize : Nat}

/-- What the codec writes it reads, to the end. -/
def Faithful (codec : Codec M) : Prop :=
  ∀ msg payload, codec.encode msg = .ok payload → payload.length ≤ u32Max →
    codec.decode payload = .ok (msg, payload.length)

/-- A message whose payload fits in a frame. -/
def Fits (codec : Codec M) (maxFrameSize : Nat) (msg : M) : Prop :=
  ∃ payload, codec.encode msg = .ok payload ∧ payload.length ≤ maxFrameSize
    ∧ payload.length ≤ u32Max

variable {payload rest : Bytes} {reader : Reader}

variable {msg : M} {len : Nat}

theorem writeMessage_eq (hencode : codec.encode msg = .ok payload)
    (hlength : payload.length ≤ u32Max) (writer : Bytes) :
    writeMessage codec writer msg = .ok (writer ++ frame payload) := by
  unfold writeMessage
  rw [hencode]
  change (if payload.length > u32Max then _ else _) = _
  rw [if_neg (Nat.not_lt.mpr hlength), List.append_assoc]
  rfl

/-- The length at the front of a stream. -/
theorem readMessage_header (hlen : len < 2 ^ 32)
    (hbytes : reader.bytes = leBytes lengthPrefixBytes len ++ rest) :
    ∃ left, readExactOrEof reader lengthPrefixBytes = (.ok (leBytes lengthPrefixBytes len), left)
      ∧ ofLeBytes (leBytes lengthPrefixBytes len) = len ∧ left.bytes = rest := by
  have hfront : (leBytes lengthPrefixBytes len).length = lengthPrefixBytes := length_leBytes _ _
  have hlength : lengthPrefixBytes ≤ reader.bytes.length := by
    rw [hbytes, List.length_append, hfront]
    exact Nat.le_add_right _ _
  obtain ⟨left, hread, hleft⟩ := readExactOrEof_of_le hlength
  rw [hbytes, List.take_left' hfront] at hread
  rw [hbytes, List.drop_left' hfront] at hleft
  exact ⟨left, hread, ofLeBytes_leBytes hlen, hleft⟩

/-- A frame that is too long is rejected, and its payload is not touched. -/
theorem readMessage_oversized (hlen : len < 2 ^ 32)
    (hbytes : reader.bytes = leBytes lengthPrefixBytes len ++ rest) (hmax : maxFrameSize < len) :
    (readMessage codec reader maxFrameSize).1 = .error (.oversized len maxFrameSize)
      ∧ (readMessage codec reader maxFrameSize).2.bytes = rest := by
  obtain ⟨left, hread, hvalue, hleft⟩ := readMessage_header hlen hbytes
  unfold readMessage
  rw [hread]
  dsimp only
  rw [hvalue, if_pos hmax]
  exact ⟨rfl, hleft⟩

/-- A whole frame is read, and what is behind it is left. -/
theorem readMessage_frame (hdecode : codec.decode payload = .ok (msg, payload.length))
    (hmax : payload.length ≤ maxFrameSize) (hlength : payload.length ≤ u32Max)
    (hbytes : reader.bytes = frame payload ++ rest) :
    (readMessage codec reader maxFrameSize).1 = .ok msg
      ∧ (readMessage codec reader maxFrameSize).2.bytes = rest := by
  have hsmall : payload.length < 2 ^ 32 := Nat.lt_of_le_of_lt hlength (by decide)
  unfold frame at hbytes
  rw [List.append_assoc] at hbytes
  obtain ⟨middle, hread, hvalue, hmiddle⟩ := readMessage_header hsmall hbytes
  have hroom : payload.length ≤ middle.bytes.length := by
    rw [hmiddle, List.length_append]
    exact Nat.le_add_right _ _
  obtain ⟨left, hpayload, hleft⟩ := readExactOrEof_of_le hroom
  rw [hmiddle, List.take_left] at hpayload
  rw [hmiddle, List.drop_left] at hleft
  unfold readMessage
  rw [hread]
  dsimp only
  rw [hvalue, if_neg (Nat.not_lt.mpr hmax), hpayload]
  dsimp only
  rw [hdecode]
  dsimp only
  rw [if_neg (not_not_intro rfl)]
  exact ⟨rfl, hleft⟩

/-- A part of a frame holds no message. -/
theorem readMessage_truncated (hlength : payload.length ≤ u32Max) {n : Nat}
    (hn : n < (frame payload).length) (hbytes : reader.bytes = (frame payload).take n) :
    ∃ err, (readMessage codec reader maxFrameSize).1 = .error err := by
  have hsmall : payload.length < 2 ^ 32 := Nat.lt_of_le_of_lt hlength (by decide)
  have hcut : reader.bytes.length = n := by
    rw [hbytes, List.length_take_of_le (Nat.le_of_lt hn)]
  rw [length_frame] at hn
  rcases Nat.lt_or_ge n 4 with hshort | hlong
  · -- The length itself is cut.
    have heof : (readExactOrEof reader lengthPrefixBytes).1 = .error .unexpectedEof :=
      readExactOrEof_of_lt (by rw [hcut]; exact hshort)
    unfold readMessage
    split
    next err left hread => exact ⟨err, rfl⟩
    next lenBuf left hread =>
      rw [hread] at heof
      cases heof
  · -- The payload is cut.
    have hheader : reader.bytes
        = leBytes lengthPrefixBytes payload.length ++ payload.take (n - 4) := by
      have hfront : (leBytes lengthPrefixBytes payload.length).length = 4 := length_leBytes _ _
      rw [hbytes]
      unfold frame
      rw [List.take_append, List.take_of_length_le (by omega), hfront]
    obtain ⟨middle, hread, hvalue, hmiddle⟩ := readMessage_header hsmall hheader
    have heof : (readExactOrEof middle payload.length).1 = .error .unexpectedEof := by
      apply readExactOrEof_of_lt
      rw [hmiddle, List.length_take]
      omega
    unfold readMessage
    rw [hread]
    dsimp only
    rw [hvalue]
    split
    · exact ⟨_, rfl⟩
    · split
      next err left hpayload => exact ⟨err, rfl⟩
      next bytes left hpayload =>
        rw [hpayload] at heof
        cases heof

/-! ### Streams -/

/-- Frames are written one behind the other, and read back one after the other. -/
theorem stream_spec (hfaithful : Faithful codec) {msgs : List M}
    (hfits : ∀ msg ∈ msgs, Fits codec maxFrameSize msg) :
    ∃ framed, (∀ writer, writeMessages codec writer msgs = .ok (writer ++ framed))
      ∧ ∀ (reader : Reader) (rest : Bytes), reader.bytes = framed ++ rest →
        (readMessages codec maxFrameSize msgs.length reader).1 = msgs.map .ok
          ∧ (readMessages codec maxFrameSize msgs.length reader).2.bytes = rest := by
  induction msgs with
  | nil =>
    refine ⟨[], fun writer => ?_, fun reader rest hbytes => ⟨rfl, hbytes⟩⟩
    rw [List.append_nil]
    rfl
  | cons msg later ih =>
    obtain ⟨payload, hencode, hmax, hlength⟩ := hfits msg List.mem_cons_self
    obtain ⟨framed, hwrite, hread⟩ := ih fun msg hmem => hfits msg (List.mem_cons_of_mem _ hmem)
    refine ⟨frame payload ++ framed, fun writer => ?_, fun reader rest hbytes => ?_⟩
    · have hfirst := writeMessage_eq hencode hlength writer
      unfold writeMessages at hwrite ⊢
      rw [List.foldlM_cons, hfirst, ← List.append_assoc]
      exact hwrite (writer ++ frame payload)
    · rw [List.append_assoc] at hbytes
      obtain ⟨hfirst, hleft⟩ :=
        readMessage_frame (hfaithful msg payload hencode hlength) hmax hlength hbytes
      obtain ⟨hlater, hrest⟩ := hread _ rest hleft
      exact ⟨List.cons_eq_cons.mpr ⟨hfirst, hlater⟩, hrest⟩

theorem readMessages_append (count more : Nat) (reader : Reader) :
    (readMessages codec maxFrameSize (count + more) reader).1
      = (readMessages codec maxFrameSize count reader).1
        ++ (readMessages codec maxFrameSize more
          (readMessages codec maxFrameSize count reader).2).1 := by
  induction count generalizing reader with
  | zero => rw [Nat.zero_add]; rfl
  | succ count ih =>
    rw [Nat.succ_add]
    change _ :: _ = (_ :: _) ++ _
    rw [List.cons_append, ih]
    rfl

/-- Messages within the limit are written, and reading from any reader of the frames and more bytes
returns them in order and leaves the other bytes. A length over the limit is rejected with the
payload left where it is. A stream that ends inside a frame gives the messages before it and then an
error. -/
theorem frames_round_trip (hfaithful : Faithful codec) (maxFrameSize : Nat) :
    (∀ msgs : List M, (∀ msg ∈ msgs, Fits codec maxFrameSize msg) →
        ∃ framed, writeMessages codec [] msgs = .ok framed
          ∧ (∀ (reader : Reader) (rest : Bytes), reader.bytes = framed ++ rest →
            (readMessages codec maxFrameSize msgs.length reader).1 = msgs.map .ok
              ∧ (readMessages codec maxFrameSize msgs.length reader).2.bytes = rest)
          ∧ ∀ (reader : Reader) (payload : Bytes) (n : Nat), payload.length ≤ u32Max →
            n < (frame payload).length → reader.bytes = framed ++ (frame payload).take n →
            ∃ err, (readMessages codec maxFrameSize (msgs.length + 1) reader).1
              = msgs.map .ok ++ [.error err])
      ∧ ∀ (reader : Reader) (len : Nat) (rest : Bytes), len ≤ u32Max → maxFrameSize < len →
        reader.bytes = leBytes lengthPrefixBytes len ++ rest →
        (readMessage codec reader maxFrameSize).1 = .error (.oversized len maxFrameSize)
          ∧ (readMessage codec reader maxFrameSize).2.bytes = rest := by
  constructor
  · intro msgs hfits
    obtain ⟨framed, hwrite, hread⟩ := stream_spec hfaithful hfits
    refine ⟨framed, hwrite [], hread, fun reader payload n hlength hn hbytes => ?_⟩
    obtain ⟨hmsgs, hleft⟩ := hread reader _ hbytes
    obtain ⟨err, herr⟩ := readMessage_truncated hlength hn hleft
    refine ⟨err, ?_⟩
    rw [readMessages_append, hmsgs]
    exact congrArg (msgs.map .ok ++ [·]) herr
  · intro reader len rest hlen hmax hbytes
    exact readMessage_oversized (Nat.lt_of_le_of_lt hlen (by decide)) hbytes hmax

end

/-! ### Codecs -/

/-- A byte as `bincode` writes it. -/
def byteCodec : Codec UInt8 where
  encode byte := .ok [byte]
  decode
    | [] => .error "UnexpectedEnd"
    | byte :: _ => .ok (byte, 1)

theorem frames_round_trip_bytes :
    ∃ framed, writeMessages byteCodec [] [7, 8] = .ok framed
      ∧ (readMessages byteCodec 16 2 (.ofBytes (framed ++ [9, 9]))).1 = [.ok 7, .ok 8] := by
  have hfaithful : Faithful byteCodec := by
    intro byte payload hencode _
    obtain rfl := Except.ok.inj hencode
    rfl
  have hfits : ∀ byte ∈ ([7, 8] : List UInt8), Fits byteCodec 16 byte :=
    fun byte _ => ⟨[byte], rfl, Nat.le_of_ble_eq_true rfl, Nat.le_of_ble_eq_true rfl⟩
  obtain ⟨framed, hwrite, hread, -⟩ := (frames_round_trip hfaithful 16).1 [7, 8] hfits
  exact ⟨framed, hwrite, (hread _ [9, 9] (bytes_ofBytes _)).1⟩

end Herden.Proofs.Framing
