import Herden.Lib.Bincode

/-!
# `Herden.Runtime.Framing`: messages on a stream

`write_message` and `read_message` of `protocol/wire.rs` for any message type. The codec
(`bincode`) is a parameter. A reader hands out its bytes in pieces of any size, as a socket does,
and `readExactOrEof` puts them together.
-/

namespace Herden.Runtime.Framing

open Herden.Lib
open Herden.Lib.Bincode

/-- `bincode::serde::encode_to_vec` and `bincode::serde::decode_from_slice` for one type. Decoding
returns the bytes it consumed, too. -/
structure Codec (M : Type) where
  encode : M → Except String Bytes
  decode : Bytes → Except String (M × Nat)

inductive FramingError where
  | oversized (claimed max : Nat)
  | bincode (message : String)
  | unexpectedEof

/-- What a reader still holds, in the pieces that its reads return. A read of no bytes is the end
of the stream. -/
structure Reader where
  pieces : List Bytes
  nonempty : [] ∉ pieces

def Reader.bytes (reader : Reader) : Bytes := reader.pieces.flatten

/-- The reader that returns all it holds at once. -/
def Reader.ofBytes (bytes : Bytes) : Reader :=
  if h : bytes = [] then ⟨[], List.not_mem_nil⟩
  else ⟨[bytes], fun hmem => h (List.mem_singleton.mp hmem).symm⟩

/-- The reads of `read_exact`: the bytes that came, and the pieces that are left. -/
def readPieces : Nat → List Bytes → Bytes × List Bytes
  | 0, pieces => ([], pieces)
  | _ + 1, [] => ([], [])
  | n + 1, piece :: pieces =>
      if n + 1 < piece.length then (piece.take (n + 1), piece.drop (n + 1) :: pieces)
      else
        let (bytes, pieces) := readPieces (n + 1 - piece.length) pieces
        (piece ++ bytes, pieces)

theorem readPieces_nonempty (n : Nat) (pieces : List Bytes) (h : [] ∉ pieces) :
    [] ∉ (readPieces n pieces).2 := by
  fun_induction readPieces n pieces with
  | case1 pieces => exact h
  | case2 n => exact h
  | case3 n piece pieces hlt =>
    intro hmem
    rcases List.mem_cons.mp hmem with hnil | hmem
    · have hlength := congrArg List.length hnil
      rw [List.length_nil, List.length_drop] at hlength
      omega
    · exact h (List.mem_cons_of_mem _ hmem)
  | case4 n piece pieces hge bytes left heq ih =>
    rw [heq] at ih
    exact ih fun hmem => h (List.mem_cons_of_mem _ hmem)

/-- `read_exact_or_eof` with a buffer of `n` bytes. -/
def readExactOrEof (reader : Reader) (n : Nat) : Except FramingError Bytes × Reader :=
  let bytes := (readPieces n reader.pieces).1
  (if bytes.length < n then .error .unexpectedEof else .ok bytes,
    ⟨(readPieces n reader.pieces).2, readPieces_nonempty n reader.pieces reader.nonempty⟩)

section

variable {M : Type} (codec : Codec M)

def lengthPrefixBytes : Nat := 4

def u32Max : Nat := 2 ^ 32 - 1

/-- `write_message` to a writer that does not fail. -/
def writeMessage (writer : Bytes) (msg : M) : Except FramingError Bytes := do
  let payload ← (codec.encode msg).mapError .bincode
  let len := payload.length
  if len > u32Max then
    .error (.bincode (s!"payload length {len} exceeds u32::MAX ({u32Max}), "
      ++ "would be truncated by length prefix"))
  else .ok (writer ++ leBytes lengthPrefixBytes len ++ payload)

def writeMessages (writer : Bytes) (msgs : List M) : Except FramingError Bytes :=
  msgs.foldlM (writeMessage codec) writer

/-- `read_message`. -/
def readMessage (reader : Reader) (maxFrameSize : Nat) : Except FramingError M × Reader :=
  match readExactOrEof reader lengthPrefixBytes with
  | (.error err, reader) => (.error err, reader)
  | (.ok lenBuf, reader) =>
      let claimedLen := ofLeBytes lenBuf
      if claimedLen > maxFrameSize then (.error (.oversized claimedLen maxFrameSize), reader)
      else
        match readExactOrEof reader claimedLen with
        | (.error err, reader) => (.error err, reader)
        | (.ok payload, reader) =>
            match codec.decode payload with
            | .error err => (.error (.bincode err), reader)
            | .ok (msg, consumed) =>
                if consumed ≠ claimedLen then
                  (.error (.bincode (s!"decoded {consumed} bytes but payload length was "
                    ++ s!"{claimedLen}; trailing bytes are not allowed")), reader)
                else (.ok msg, reader)

def readMessages (maxFrameSize : Nat) : Nat → Reader → List (Except FramingError M) × Reader
  | 0, reader => ([], reader)
  | count + 1, reader =>
      let (first, reader) := readMessage codec reader maxFrameSize
      let (rest, reader) := readMessages maxFrameSize count reader
      (first :: rest, reader)

end

end Herden.Runtime.Framing
