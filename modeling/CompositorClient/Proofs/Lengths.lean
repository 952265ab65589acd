import CompositorClient.Proofs.Acceptance
import CompositorClient.Proofs.Dialogue

/-! What the lengths in a frame say of what follows them.  The length of the frame and the count
of a list are words, filled without a check: each is the true number as long as that fits a word,
and what is left of it modulo `2 ^ 32` from there on. -/

namespace CompositorClient

namespace Tail

def count : (t : Tail) → t.Value → Nat
  | empty, _ => 0
  | text, s => (Utf8.encode s).length + 1
  | bytes, bs => bs.length
  | records _, rs => rs.length

def elementSize : Tail → Nat
  | records fs => fs.size
  | _ => 1

theorem length_encode (t : Tail) (v : t.Value) :
    (t.encode v).length = t.count v * t.elementSize := by
  cases t with
  | empty => rfl
  | text => simp [encode, count, elementSize]
  | bytes => exact (Nat.mul_one _).symm
  | records fs => exact Record.length_flatMap_encode fs v

theorem elementSize_pos {t : Tail} (h : t.Measured) : 0 < t.elementSize := by
  cases t with
  | records fs => exact h
  | empty | text | bytes => exact Nat.one_pos

end Tail

namespace MessageType

/-- Where in a payload the number of the elements behind its fields stands, if it does. -/
def countAt? : MessageType → Option Nat
  | launchApp | monitorsData | toplevelWindowsData => some 0
  | drawPolygon => some 4
  | updateWindowMeshVertices => some 8
  | uploadImage | screenCopyData => some 16
  | _ => none

theorem declared_of_countAt? {t : MessageType} {i : Nat} (h : t.countAt? = some i)
    (p : List UInt8) : t.declared p = wordAt p i * t.layout.tail.elementSize := by
  cases t with
  | launchApp | uploadImage | screenCopyData =>
    cases h
    exact (Nat.mul_one _).symm
  | drawPolygon | updateWindowMeshVertices | monitorsData | toplevelWindowsData =>
    cases h
    rfl
  | _ => cases h

end MessageType

namespace Message

def following (m : Message) : Nat := m.type.layout.tail.count m.body.2

variable {m : Message} {i : Nat}

theorem length_encode_eq (m : Message) :
    m.encode.length = m.type.fixedSize + m.following * m.type.layout.tail.elementSize := by
  rw [encode, Layout.length_encode, m.type.size_fields, Tail.length_encode, following]

theorem length_drop_fields (m : Message) :
    (m.encode.drop m.type.fixedSize).length = m.following * m.type.layout.tail.elementSize := by
  rw [List.length_drop, length_encode_eq, Nat.add_sub_cancel_left]

theorem following_le (m : Message) : m.following ≤ m.encode.length := by
  rw [length_encode_eq]
  exact Nat.le_trans (Nat.le_mul_of_pos_right _ (Tail.elementSize_pos (measured_tail m.type)))
    (Nat.le_add_left ..)

theorem toNat_countWord_mod (n : Nat) : (countWord n).toNat = n % 2 ^ 32 :=
  UInt32.toNat_ofNat'

theorem countWord_mul_elementSize {α : Type} (fs : Record) (fields : α → fs.Value) (xs : List α) :
    (countWord xs.length).toNat * fs.size = (xs.map fields).length % 2 ^ 32 * fs.size := by
  rw [toNat_countWord_mod, List.length_map]

theorem extent_of_countAt? (h : m.type.countAt? = some i) :
    (m.type.layout.extent (m.type.layout.fields.stored m.body.1)).getD 0 =
      m.following % 2 ^ 32 * m.type.layout.tail.elementSize := by
  rcases m with c | q | r | n
  · cases c with
    | drawPolygon p => exact countWord_mul_elementSize .point Point.fields p.points
    | uploadImage u => exact (toNat_countWord_mod _).trans (Nat.mul_one _).symm
    | updateWindowMeshVertices p =>
      exact countWord_mul_elementSize .vertex MeshVertex.fields p.vertices
    | launchApp command =>
      have hword : (countWord (Utf8.encode command).length + 1).toNat =
          ((Utf8.encode command).length + 1) % 2 ^ 32 := by
        rw [UInt32.toNat_add, toNat_countWord_mod, UInt32.toNat_one, Nat.mod_add_mod]
      exact hword.trans (Nat.mul_one _).symm
    | _ => cases h
  · cases q <;> cases h
  · cases r with
    | monitors ms => exact countWord_mul_elementSize .monitor Monitor.fields ms
    | screenCopy c => exact (toNat_countWord_mod _).trans (Nat.mul_one _).symm
    | toplevelWindows ts => exact countWord_mul_elementSize .toplevel Toplevel.fields ts
    | _ => cases h
  · cases n <;> cases h

theorem wordAt_countAt? (h : m.type.countAt? = some i) :
    wordAt m.encode i = m.following % 2 ^ 32 := by
  have hfields : m.type.layout.fields.decode m.encode =
      m.type.layout.fields.stored m.body.1 := by
    rw [encode]
    simpa using Layout.fields_decode_encode_append m.type.layout m.body []
  have hlength : m.type.fixedSize ≤ m.encode.length := by
    rw [length_encode_eq]
    exact Nat.le_add_right ..
  have hdeclared := MessageType.extent_eq_declared m.type hlength
  rw [hfields, extent_of_countAt? h, MessageType.declared_of_countAt? h] at hdeclared
  exact (Nat.eq_of_mul_eq_mul_right (Tail.elementSize_pos (measured_tail m.type)) hdeclared).symm

end Message

namespace Frame

theorem toNat_header_length (m : Message) (sequence : UInt32) :
    (ofMessage m sequence).header.length.toNat =
      (ofMessage m sequence).encode.length % 2 ^ 32 := by
  rw [length_encode]
  exact Message.toNat_countWord_mod _

theorem measured_ofMessage_iff (m : Message) (sequence : UInt32) :
    (ofMessage m sequence).Measured ↔ m.encode.length < payloadLimit := by
  refine ⟨fun h => ?_, fun short => measured_ofMessage short sequence⟩
  have hword : (ofMessage m sequence).header.length.toNat < 2 ^ 32 :=
    (ofMessage m sequence).header.length.toNat_lt
  rw [h, Header.size] at hword
  exact Nat.lt_sub_of_add_lt (by rwa [Nat.add_comm])

/-- The length of a frame and the counts in it, for every message.  The length is exact for the
payloads that leave the header room in a word, a count for as many elements as a word can tell;
all of them are exact when the length is.  The word for a command counts the zero behind it too,
and that last addition overflows when nothing is left of the sum. -/
theorem lengths_exact_iff (m : Message) (sequence : UInt32) :
    (ofMessage m sequence).encode.length = Header.size + m.encode.length ∧
    (ofMessage m sequence).header.length.toNat =
      (ofMessage m sequence).encode.length % 2 ^ 32 ∧
    ((ofMessage m sequence).header.length.toNat = (ofMessage m sequence).encode.length ↔
      m.encode.length < payloadLimit) ∧
    (∀ i, m.type.countAt? = some i →
      (m.encode.drop m.type.fixedSize).length =
        m.following * m.type.layout.tail.elementSize ∧
      wordAt m.encode i = m.following % 2 ^ 32 ∧
      (wordAt m.encode i = m.following ↔ m.following < 2 ^ 32) ∧
      (m.encode.length < payloadLimit → wordAt m.encode i = m.following)) ∧
    ∀ command, m = .command (.launchApp command) →
      ((countWord (Utf8.encode command).length).toNat + 1 < 2 ^ 32 ↔ wordAt m.encode 0 ≠ 0) ∧
      (m.encode.length < payloadLimit → wordAt m.encode 0 ≠ 0) := by
  refine ⟨length_encode _, toNat_header_length m sequence, ?_, fun i hi => ?_, ?_⟩
  · rw [length_encode]
    exact measured_ofMessage_iff m sequence
  · have hword := Message.wordAt_countAt? hi
    refine ⟨m.length_drop_fields, hword, ?_, fun short => ?_⟩
    · rw [hword, Nat.mod_eq_iff_lt (by decide)]
    · have hfits : m.following < 2 ^ 32 :=
        Nat.lt_of_le_of_lt m.following_le (Nat.lt_trans short (by decide))
      rw [hword, Nat.mod_eq_of_lt hfits]
  · rintro command rfl
    have hword : wordAt (Message.command (.launchApp command)).encode 0 =
        ((Utf8.encode command).length + 1) % 2 ^ 32 :=
      Message.wordAt_countAt? rfl
    have hcount := Message.toNat_countWord_mod (Utf8.encode command).length
    have hbytes : (Utf8.encode command).length + 1 ≤
        (Message.command (.launchApp command)).encode.length :=
      Message.following_le (.command (.launchApp command))
    rw [hword, hcount, payloadLimit]
    omega

end Frame

/-- With the fields of an upload and the header in front, `2 ^ 32` bytes. -/
def oversizedImage : List UInt8 := List.replicate (2 ^ 32 - 36) 0

theorem Frame.length_uploadImage {u : ImageUpload} (h : u.data.length = 2 ^ 32 - 36)
    (sequence : UInt32) :
    (ofMessage (.command (.uploadImage u)) sequence).encode.length = 2 ^ 32 := by
  have hpayload : (Message.command (.uploadImage u)).encode.length = 20 + u.data.length * 1 :=
    Message.length_encode_eq _
  rw [length_encode]
  exact congrArg (Header.size + ·) (hpayload.trans (by rw [h]))

theorem FrameBuffer.next_feed_of_header_zero {f : Frame} (h : f.header.length = 0) :
    (empty.feed f.encode).next.1 = some (.error (.malformedFrame 0)) := by
  have hheader : Header.read (f.encode.take Header.size) = f.header := by
    rw [Frame.encode, Header.read_encode_append]
  have hlength : ¬ f.encode.length < Header.size := by
    rw [Frame.length_encode]
    omega
  have hpending : (empty.feed f.encode).pending = f.encode :=
    pending_feed rfl (Nat.le_refl _) f.encode
  rw [next_eq_first rfl, hpending, first, if_neg hlength]
  dsimp only
  rw [hheader, h, if_pos (by decide)]

namespace Client

theorem uploadImage_of_current {c : Client} {conn : Connection} (current : c.current? = some conn)
    (accepting : conn.Accepting) (width height format : UInt32) (data : List UInt8) :
    (c.uploadImage width height format data).1 = .ok c.nextImage ∧
      (c.uploadImage width height format data).2.current? = some (conn.enlist [Frame.ofMessage
        (.command (.uploadImage ⟨c.nextImage, width, height, format, data⟩)) 0]) := by
  rw [uploadImage, current]
  dsimp only
  rw [Connection.send, Connection.enqueue_of_accepting accepting]
  exact ⟨rfl, current?_setCurrent ..⟩

/-- The client takes the image, and its frame of `2 ^ 32` bytes goes out with a length of zero,
at which a receiver gives the stream up. -/
theorem uploadImage_oversized :
    ((new.connect {}).2.uploadImage 0 0 0 oversizedImage).1 = .ok 1 ∧
    ∃ f : Frame, f = .ofMessage (.command (.uploadImage ⟨1, 0, 0, 0, oversizedImage⟩)) 0 ∧
      ((new.connect {}).2.uploadImage 0 0 0 oversizedImage).2.current?.map (·.outbox) =
        some [.frame f.encode] ∧
      f.encode.length = 2 ^ 32 ∧ f.header.length.toNat = 0 ∧
      (FrameBuffer.empty.feed f.encode).next.1 = some (.error (.malformedFrame 0)) := by
  obtain ⟨hresult, hcurrent⟩ := uploadImage_of_current (current?_connect new {})
    ⟨rfl, by decide⟩ 0 0 0 oversizedImage
  have hsize : oversizedImage.length = 2 ^ 32 - 36 := List.length_replicate ..
  have hlength := Frame.length_uploadImage (u := ⟨1, 0, 0, 0, oversizedImage⟩) hsize 0
  have hzero := Frame.toNat_header_length
    (.command (.uploadImage ⟨1, 0, 0, 0, oversizedImage⟩)) 0
  rw [hlength, Nat.mod_self] at hzero
  refine ⟨hresult, _, rfl, ?_, hlength, hzero, ?_⟩
  · rw [hcurrent]
    rfl
  · exact FrameBuffer.next_feed_of_header_zero (UInt32.toNat_inj.mp hzero)

end Client
end CompositorClient
