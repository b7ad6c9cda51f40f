import Herden.Runtime.Wire

/-!
# `Herden.Proofs.Surface.Wire`: reading back surface messages

Every derived decoder reads what its type writes (`Lib.Bincode.Reads`): a decoder and the
tokens of its type go through the same fields in the same order, so each proof is the chain of
the fields' own results. For a whole frame, `readMessage_writeMessage` gives back the message
and the bytes behind it.
-/

namespace Herden.Proofs.Surface

open Herden.Lib.Bincode
open Herden.Runtime.Wire

/-! ### Cells, panes and patches -/

theorem reads_cellData (cell : CellData) : Reads CellData.decode cell.tokens cell := by
  refine .of_eq (.bind (reads_string cell.symbol) <| .bind (reads_u32 cell.fg) <|
    .bind (reads_u32 cell.bg) <| .bind (reads_u16 cell.modifier) <| .bind (reads_bool cell.skip) <|
    .bind (reads_option fun index _ => reads_u32 index) (.pure cell)) ?_
  simp [CellData.tokens]

theorem reads_cursorState (cursor : CursorState) :
    Reads CursorState.decode cursor.tokens cursor := by
  refine .of_eq (.bind (reads_u16 cursor.x) <| .bind (reads_u16 cursor.y) <|
    .bind (reads_bool cursor.visible) <| .bind (reads_u8 cursor.shape) (.pure cursor)) ?_
  simp [CursorState.tokens]

theorem reads_surfaceRect (rect : SurfaceRect) : Reads SurfaceRect.decode rect.tokens rect :=
  .bind (reads_u16 rect.x) <| .bind (reads_u16 rect.y) <| .bind (reads_u16 rect.width) <|
    .bind (reads_u16 rect.height) (.pure rect)

theorem reads_scrollMetrics (metrics : PaneSurfaceScrollMetrics) :
    Reads PaneSurfaceScrollMetrics.decode metrics.tokens metrics :=
  .bind (reads_u64 metrics.offsetFromBottom) <| .bind (reads_u64 metrics.maxOffsetFromBottom) <|
    .bind (reads_u64 metrics.viewportRows) (.pure metrics)

theorem reads_pane (pane : PaneSurfacePane) : Reads PaneSurfacePane.decode pane.tokens pane := by
  refine .of_eq (.bind (reads_string pane.paneId) <| .bind (reads_u64 pane.contentRevision) <|
    .bind (reads_surfaceRect pane.rect) <| .bind (reads_surfaceRect pane.innerRect) <|
    .bind (reads_option fun rect _ => reads_surfaceRect rect) <|
    .bind (reads_option fun metrics _ => reads_scrollMetrics metrics) <|
    .bind (reads_bool pane.focused) <| .bind (reads_bool pane.mouseReporting) <|
    .bind (reads_bool pane.sgrPixelMouse) <| .bind (reads_bool pane.alternateScreenActive) <|
    .bind (reads_u32 pane.pixelWidth) <| .bind (reads_u32 pane.pixelHeight) (.pure pane)) ?_
  simp [PaneSurfacePane.tokens]

theorem length_cellData_pos (cell : CellData) : 0 < (encode cell.tokens).length :=
  length_encode_pos rfl _

theorem length_pane_pos (pane : PaneSurfacePane) : 0 < (encode pane.tokens).length :=
  length_encode_pos rfl _

theorem reads_patchRow (row : PaneSurfacePatchRow) :
    Reads PaneSurfacePatchRow.decode row.tokens row := by
  refine .of_eq (.bind (reads_u16 row.x) <| .bind (reads_u16 row.y) <|
    .bind (reads_seq (fun cell _ => length_cellData_pos cell) fun cell _ => reads_cellData cell)
      (.pure row)) ?_
  simp [PaneSurfacePatchRow.tokens]

theorem length_patchRow_pos (row : PaneSurfacePatchRow) : 0 < (encode row.tokens).length :=
  length_encode_pos rfl _

theorem reads_patch (patch : PaneSurfacePatch) :
    Reads PaneSurfacePatch.decode patch.tokens patch := by
  refine .of_eq (.bind (reads_string patch.bootId) <| .bind (reads_u64 patch.projectionRevision) <|
    .bind (reads_u64 patch.baseSurfaceRevision) <| .bind (reads_u64 patch.surfaceRevision) <|
    .bind (reads_seq (fun row _ => length_patchRow_pos row) fun row _ => reads_patchRow row) <|
    .bind (reads_seq (fun pane _ => length_pane_pos pane) fun pane _ => reads_pane pane) <|
    .bind (reads_option fun cursor _ => reads_cursorState cursor) (.pure patch)) ?_
  simp [PaneSurfacePatch.tokens]

/-! ### Frames -/

theorem reads_patchMessage (patch : PaneSurfacePatch) :
    Reads ServerMessage.decode (ServerMessage.paneSurfacePatch patch).tokens
      (.paneSurfacePatch patch) :=
  .bind (reads_u32 19) ((reads_patch patch).map ServerMessage.paneSurfacePatch)

variable {framed : Bytes} {tokens : List Token}

/-- A frame that was written is read back, with the bytes behind it left over. -/
theorem readMessage_writeMessage {M : Type} {decode : Decoder M} {message : M}
    (hreads : Reads decode tokens message) (hwrite : writeMessage tokens = .ok framed)
    {maxFrameSize : Nat} (hmax : (encode tokens).length ≤ maxFrameSize) (rest : Bytes) :
    readMessage decode (framed ++ rest) maxFrameSize = (.ok message, rest) := by
  unfold writeMessage at hwrite
  dsimp only at hwrite
  split at hwrite
  · cases hwrite
  next hlen =>
    obtain rfl := Except.ok.inj hwrite
    have hfront : (leBytes 4 (encode tokens).length ++ encode tokens ++ rest).take 4
        = leBytes 4 (encode tokens).length := by
      rw [List.append_assoc, List.take_left' (length_leBytes 4 _)]
    have hpayload : (leBytes 4 (encode tokens).length ++ encode tokens ++ rest).drop 4
        = encode tokens ++ rest := by
      rw [List.append_assoc, List.drop_left' (length_leBytes 4 _)]
    have hclaimed : ofLeBytes (leBytes 4 (encode tokens).length) = (encode tokens).length :=
      ofLeBytes_leBytes (by omega)
    have hdecode : decode ⟨encode tokens, none⟩ = .ok (message, ⟨[], none⟩) := by
      have h := hreads (by omega) [] none
      rwa [List.append_nil] at h
    unfold readMessage
    dsimp only
    rw [if_neg (by simp), hfront, hpayload, hclaimed, if_neg (by omega),
      if_neg (by rw [List.length_append]; omega), List.take_left, List.drop_left, hdecode]
    rfl

theorem length_writeMessage (h : writeMessage tokens = .ok framed) :
    framed.length = 4 + (encode tokens).length := by
  unfold writeMessage at h
  dsimp only at h
  split at h
  · cases h
  · obtain rfl := Except.ok.inj h
    rw [List.length_append, length_leBytes]

/-- A control message is at least as long as its data. -/
theorem utf8ByteSize_le_encodedSize (kind data : String) :
    data.utf8ByteSize ≤ encodedSize (ServerMessage.endpointControl kind data).tokens := by
  have hraw : data.toByteArray.data.toList.length = data.utf8ByteSize := by
    rw [Array.length_toList]
    rfl
  simp only [encodedSize, ServerMessage.tokens, strTokens, encode_cons, encode_append, encode_nil,
    Token.encode, List.length_append, List.length_nil, hraw]
  omega

end Herden.Proofs.Surface
