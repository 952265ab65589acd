import CompositorClient.Client.Basic
import CompositorClient.Proofs.Payload
import CompositorClient.Proofs.Splitting

/-! Frames that were written one after another are cut apart again, and each reads back as the
message that it was made of. -/

namespace CompositorClient

namespace Header

theorem read_encode_append (h : Header) (t : List UInt8) :
    read ((h.encode ++ t).take size) = h := by
  rw [List.take_left' h.length_encode, read, encode]
  have hread := Record.decode_encode_append Record.header h.fields []
  rw [List.append_nil] at hread
  rw [hread]
  exact ofFields_fields h

end Header

namespace Frame

def Measured (f : Frame) : Prop := f.header.length.toNat = Header.size + f.payload.length

theorem length_encode_of_measured {f : Frame} (h : f.Measured) :
    f.encode.length = f.header.length.toNat := by
  rw [length_encode, h]

end Frame

namespace FrameBuffer

theorem first_encode_append {f : Frame} (h : f.Measured) (t : List UInt8) :
    first (f.encode ++ t) = some (.ok f) := by
  have hlength : (f.encode ++ t).length = f.header.length.toNat + t.length := by
    rw [List.length_append, Frame.length_encode_of_measured h]
  have hheader : Header.read ((f.encode ++ t).take Header.size) = f.header := by
    rw [Frame.encode, List.append_assoc, Header.read_encode_append]
  have hpayload : ((f.encode ++ t).take f.header.length.toNat).drop Header.size = f.payload := by
    rw [List.take_left' (Frame.length_encode_of_measured h), Frame.encode]
    exact List.drop_left' f.header.length_encode
  have hmeasured := h
  rw [Frame.Measured] at hmeasured
  rw [first, if_neg (by omega)]
  dsimp only
  rw [hheader, if_neg (by omega), if_neg (by omega), hpayload]

theorem split_flatMap_encode {fs : List Frame} (h : ∀ f ∈ fs, f.Measured) :
    split (fs.flatMap Frame.encode) = fs.map .ok := by
  induction fs with
  | nil => exact split_of_none rfl
  | cons f fs ih =>
    obtain ⟨hf, hfs⟩ := List.forall_mem_cons.mp h
    rw [List.flatMap_cons, split_of_ok (first_encode_append hf _),
      List.drop_left' (Frame.length_encode_of_measured hf), ih hfs, List.map_cons]

/-- However the bytes of frames are fed and asked for, the frames come out, all of them in the
end. -/
theorem run_of_frames {fs : List Frame} (h : ∀ f ∈ fs, f.Measured) {ops : List Operation}
    (hfed : fed ops = fs.flatMap Frame.encode) :
    (empty.run ops).1 <+: fs.map .ok ∧ (empty.run (ops ++ [.drain])).1 = fs.map .ok := by
  have hsplit : split (fed ops) = fs.map .ok := by rw [hfed, split_flatMap_encode h]
  have hgood {is : List Item} {b : FrameBuffer} (hfollows : Follows (fed ops) is b) :
      upToError is = is := by
    cases hfollows with
    | flowing gs => exact upToError_ok gs
    | stuck gs e n _ faulty cut =>
      have hcut := cut []
      rw [List.append_nil, hsplit] at hcut
      have hmem : (.error e : Item) ∈ fs.map .ok := by
        rw [hcut]
        simp
      simp at hmem
  have hops : Follows (fed ops) (empty.run ops).1 (empty.run ops).2 := Follows.start.run ops
  refine ⟨?_, ?_⟩
  · obtain ⟨rest, hrest, -⟩ := hops.upToError_append
    rw [hgood hops, hsplit] at hrest
    exact ⟨rest, hrest⟩
  · have hdrain : Follows (fed ops) ((empty.run ops).1 ++ (empty.run ops).2.drain.1)
        (empty.run ops).2.drain.2 := by
      simpa [perform, Operation.fed] using hops.perform .drain
    have hend : (empty.run ops).2.drain.2.next.1 = none ∨
        ∃ e, .error e ∈ (empty.run ops).1 ++ (empty.run ops).2.drain.1 := by
      rcases drain_finished (empty.run ops).2 with hnone | ⟨e, he⟩
      · exact .inl hnone
      · exact .inr ⟨e, List.mem_append_right _ he⟩
    have hall := hdrain.upToError_eq hend
    rw [hgood hdrain, hsplit] at hall
    rw [run_append]
    simpa [run, perform] using hall

end FrameBuffer

/-- A payload longer than this would not fit the length field with its header. -/
def payloadLimit : Nat := 2 ^ 32 - 16

theorem length_le_flatMap_encode {α : Type} (fs : Record) (fields : α → fs.Value) (xs : List α)
    (hpos : 0 < fs.size) : xs.length ≤ ((xs.map fields).flatMap fs.encode).length := by
  rw [Record.length_flatMap_encode, List.length_map]
  exact Nat.le_mul_of_pos_right _ hpos

namespace Command

/-- A command that passes the client's check, with a payload that a frame can hold, has counts
that its fields can hold. -/
theorem wellCounted_of_length {c : Command} (checked : c.check = .ok ())
    (short : (Message.command c).encode.length < payloadLimit) : c.WellCounted := by
  rw [Message.encode, Layout.length_encode, payloadLimit] at short
  have htail := Nat.lt_of_le_of_lt (Nat.le_add_left _ _) short
  cases c with
  | drawPolygon p =>
    have hle := length_le_flatMap_encode .point Point.fields p.points (by decide)
    exact Nat.lt_trans (Nat.lt_of_le_of_lt hle htail) (by decide)
  | uploadImage i => exact Nat.lt_trans htail (by decide)
  | setWindowMeshTransform m =>
    have hle := length_le_flatMap_encode .vertex MeshVertex.fields m.vertices (by decide)
    refine ⟨Nat.lt_trans (Nat.lt_of_le_of_lt hle htail) (by decide), ?_⟩
    rw [check] at checked
    by_contra hne
    rw [if_neg hne] at checked
    cases checked
  | updateWindowMeshVertices p =>
    have hle := length_le_flatMap_encode .vertex MeshVertex.fields p.vertices (by decide)
    exact Nat.lt_trans (Nat.lt_of_le_of_lt hle htail) (by decide)
  | launchApp command =>
    have hle : (Utf8.encode command).length ≤ (Utf8.encode command ++ [0]).length := by simp
    exact Nat.lt_trans (Nat.lt_of_le_of_lt hle htail) (by decide)
  | _ => trivial

end Command

namespace Frame

theorem measured_ofMessage {m : Message} (short : m.encode.length < payloadLimit)
    (sequence : UInt32) : (ofMessage m sequence).Measured := by
  rw [payloadLimit] at short
  exact Message.toNat_countWord (by rw [Header.size]; omega)

theorem message_ofMessage {m : Message} (h : m.WellCounted) (sequence : UInt32) :
    (ofMessage m sequence).message = .ok (m.mapTexts Padded.stored Padded.terminated) := by
  have hof : (ofMessage m sequence).message = Message.decode m.type m.encode := by
    simp only [message, ofMessage, MessageType.ofCode?_code]
  have hdecode := Message.decode_encode_stored h []
  rw [List.append_nil] at hdecode
  rw [hof, hdecode, Message.stored_eq_mapTexts]

end Frame
end CompositorClient
