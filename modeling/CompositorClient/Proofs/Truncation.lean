import CompositorClient.Proofs.Acceptance
import CompositorClient.Proofs.Payload

/-! Written payloads that arrive cut short. The fields and the counts in them stand in front, so
what is left of a payload still asks for all of it, or, cut within its fields, for the fields. Only
the text of a drawing has no count; whatever arrives of it is taken. -/

namespace CompositorClient

namespace Layout

variable {l : Layout} {v : l.Value} {n : Nat}

/-- What is cut short asks for more than is left and for no more than there was. -/
theorem need_take_encode (h : l.Declares v) (hn : n < (l.encode v).length) :
    n < l.need ((l.encode v).take n) ∧
      l.need ((l.encode v).take n) ≤ (l.encode v).length := by
  have hleft : ((l.encode v).take n).length = n := List.length_take_of_le (Nat.le_of_lt hn)
  by_cases hfields : n < l.fields.size
  · have hneed : l.need ((l.encode v).take n) = l.fields.size := by simp [need, hleft, hfields]
    have hlength := length_encode l v
    omega
  · have hwhole : l.need (l.encode v) = (l.encode v).length := by
      simpa using need_encode_append h []
    have hdecode : l.fields.decode ((l.encode v).take n) = l.fields.decode (l.encode v) :=
      Record.decode_take (Nat.not_lt.mp hfields) _
    have hall : ¬ (l.encode v).length < l.fields.size := by omega
    have hneed : l.need ((l.encode v).take n) = l.need (l.encode v) := by
      simp [need, hleft, hfields, hall, hdecode]
    omega

end Layout

@[reducible] def Record.textDrawing : Record := [.word, .int, .int, .word, .word]

def TextDrawing.fields (d : TextDrawing) : Record.Value .textDrawing :=
  (d.windowId, d.x, d.y, d.color, d.fontSize, ())

namespace Message

theorem length_records_le {α : Type} (fs : Record) (fields : α → fs.Value) {xs : List α}
    (hfs : fs.size ≤ 412) (hxs : xs.length < 2 ^ 32) :
    ((xs.map fields).flatMap fs.encode).length ≤ 2 ^ 32 * 412 := by
  rw [Record.length_flatMap_encode, List.length_map]
  exact Nat.mul_le_mul (Nat.le_of_lt hxs) hfs

theorem length_command_tail_le {c : Command} (h : c.WellCounted) (hc : ∀ d, c ≠ .drawText d) :
    (c.type.layout.tail.encode c.body.2).length ≤ 2 ^ 32 * 412 := by
  cases c with
  | drawPolygon p => exact length_records_le .point Point.fields (by decide) h
  | uploadImage i => exact Nat.le_trans (Nat.le_of_lt h) (by decide)
  | setWindowMeshTransform m => exact length_records_le .vertex MeshVertex.fields (by decide) h.1
  | updateWindowMeshVertices p => exact length_records_le .vertex MeshVertex.fields (by decide) h
  | launchApp command =>
    have hcount : (Utf8.encode command).length < 2 ^ 32 - 1 := h
    have hlength : (Utf8.encode command ++ [0]).length ≤ 2 ^ 32 * 412 := by simp; omega
    exact hlength
  | drawText d => exact absurd rfl (hc d)
  | _ => exact Nat.zero_le _

theorem length_reply_tail_le {r : Reply} (h : r.WellCounted) :
    (r.kind.type.layout.tail.encode r.body.2).length ≤ 2 ^ 32 * 412 := by
  cases r with
  | monitors ms => exact length_records_le .monitor Monitor.fields (by decide) h
  | screenCopy c => exact Nat.le_trans (Nat.le_of_lt h) (by decide)
  | toplevelWindows ts => exact length_records_le .toplevel Toplevel.fields (by decide) h
  | _ => exact Nat.zero_le _

theorem length_tail_le {m : Message} (h : m.WellCounted) (hm : ∀ d, m ≠ .command (.drawText d)) :
    (m.type.layout.tail.encode m.body.2).length ≤ 2 ^ 32 * 412 := by
  cases m with
  | command c => exact length_command_tail_le h fun d hd => hm d (hd ▸ rfl)
  | query q => cases q <;> exact Nat.zero_le _
  | reply r => exact length_reply_tail_le h
  | notice n => cases n <;> exact Nat.zero_le _

theorem length_encode_le_maxSize {m : Message} (h : m.WellCounted)
    (hm : ∀ d, m ≠ .command (.drawText d)) : m.encode.length ≤ maxSize := by
  have hlength := Layout.length_encode m.type.layout m.body
  have htail := length_tail_le h hm
  have hfixed := m.type.fixedSize_le
  rw [← encode, m.type.size_fields] at hlength
  rw [maxSize]
  omega

theorem decode_take_encode_of_counted {m : Message} (h : m.WellCounted)
    (hm : ∀ d, m ≠ .command (.drawText d)) {n : Nat} (hn : n < m.encode.length) :
    ∃ needed, decode m.type (m.encode.take n) =
        .error (.truncatedPayload m.type.payloadName needed n) ∧
      n + 1 ≤ needed ∧ needed ≤ m.encode.length := by
  have hdeclares : m.type.layout.Declares m.body :=
    (declares_body h).resolve_right fun ⟨d, hd⟩ => hm d hd
  obtain ⟨hlow, hhigh⟩ := Layout.need_take_encode hdeclares hn
  rw [← encode, MessageType.need_eq_needed] at hlow hhigh
  have hleft : (m.encode.take n).length = n := List.length_take_of_le (Nat.le_of_lt hn)
  have hmax := length_encode_le_maxSize h hm
  have hmin : min (m.type.needed (m.encode.take n)) maxSize = m.type.needed (m.encode.take n) :=
    Nat.min_eq_left (Nat.le_trans hhigh hmax)
  refine ⟨m.type.needed (m.encode.take n), ?_, hlow, hhigh⟩
  simp [decode_eq, hleft, Nat.not_le.mpr hlow, hmin]

section

variable (d : TextDrawing) {n : Nat}

theorem encode_drawText :
    encode (.command (.drawText d)) =
      Record.encode .textDrawing d.fields ++ (Utf8.encode d.text ++ [0]) := rfl

theorem length_encode_drawText :
    (encode (.command (.drawText d))).length = 20 + (Utf8.encode d.text).length + 1 := by
  have hsize : Record.size .textDrawing = 20 := rfl
  simp [encode_drawText, Record.length_encode, hsize, Nat.add_assoc]

theorem needed_drawText (p : List UInt8) : MessageType.needed .drawText p = 20 := by
  simp [MessageType.needed, MessageType.fixedSize, MessageType.declared]

theorem decode_take_encode_drawText_of_lt (hn : n < 20) :
    decode .drawText ((encode (.command (.drawText d))).take n) =
      .error (.truncatedPayload "DrawText" 20 n) := by
  have hlength := length_encode_drawText d
  have hleft : ((encode (.command (.drawText d))).take n).length = n :=
    List.length_take_of_le (by omega)
  rw [decode_eq, needed_drawText, hleft, if_neg (Nat.not_le.mpr hn)]
  rfl

/-- Whatever has arrived of a text is taken, up to its first NUL. -/
theorem decode_take_encode_drawText (hn : 20 ≤ n)
    (hend : n < (encode (.command (.drawText d))).length) :
    decode .drawText ((encode (.command (.drawText d))).take n) =
      .ok (.command (.drawText { d with
        text := Utf8.decode (Padded.beforeNul ((Utf8.encode d.text).take (n - 20))) })) := by
  have hlength := length_encode_drawText d
  have hleft : ((encode (.command (.drawText d))).take n).length = n :=
    List.length_take_of_le (by omega)
  have hfields : Record.decode .textDrawing ((encode (.command (.drawText d))).take n) =
      d.fields := by
    rw [Record.decode_take hn, encode_drawText, Record.decode_encode_append]
    rfl
  have htail : ((encode (.command (.drawText d))).take n).drop 20 =
      (Utf8.encode d.text).take (n - 20) := by
    have hdrop : (encode (.command (.drawText d))).drop 20 = Utf8.encode d.text ++ [0] :=
      List.drop_left' (Record.length_encode .textDrawing d.fields)
    rw [List.drop_take, hdrop, List.take_append_of_le_length (by omega)]
  have hread (p : List UInt8) : (MessageType.layout .drawText).read p =
      (Record.decode .textDrawing p, Padded.decode (p.drop 20)) := rfl
  rw [decode_eq, needed_drawText, hleft, if_pos hn, hread, hfields, htail]
  rfl

end

/-- A payload cut short anywhere is refused, with the room it had and the room it asks for,
which is never more than the whole payload. A drawn text is the exception: cut behind its fields
it is a drawing with as much of the text as there is. -/
theorem decode_take_encode (m : Message) (h : m.WellCounted) {n : Nat}
    (hn : n < m.encode.length) :
    ((∀ d, m ≠ .command (.drawText d)) →
      ∃ needed, decode m.type (m.encode.take n) =
          .error (.truncatedPayload m.type.payloadName needed n) ∧
        n + 1 ≤ needed ∧ needed ≤ m.encode.length) ∧
      ∀ d, m = .command (.drawText d) →
        (n < 20 → decode .drawText (m.encode.take n) =
          .error (.truncatedPayload "DrawText" 20 n)) ∧
        (20 ≤ n → decode .drawText (m.encode.take n) =
          .ok (.command (.drawText { d with
            text := Utf8.decode (Padded.beforeNul ((Utf8.encode d.text).take (n - 20))) }))) := by
  refine ⟨fun hm => decode_take_encode_of_counted h hm hn, ?_⟩
  rintro d rfl
  constructor
  · exact decode_take_encode_drawText_of_lt d
  · exact fun hfields => decode_take_encode_drawText d hfields hn

/-- A drawing of the two characters `é!`, of which the first takes two bytes. -/
def sampleText : TextDrawing := ⟨7, 0, 0, 0xffffffff, 12, "é!"⟩

theorem decode_take_encode_samples :
    (∃ needed, decode .setWindowMeshTransform (sampleMesh.encode.take 12) =
        .error (.truncatedPayload "SetWindowMeshTransform" needed 12) ∧
      12 + 1 ≤ needed ∧ needed ≤ sampleMesh.encode.length) ∧
      decode .drawText ((encode (.command (.drawText sampleText))).take 21) =
        .ok (.command (.drawText { sampleText with text := "\uFFFD" })) := by
  constructor
  · have h : sampleMesh.WellCounted := (by decide : 2 < 2 ^ 32 ∧ 2 = 2 * 1)
    have hn : 12 < sampleMesh.encode.length := by decide
    exact (decode_take_encode sampleMesh h hn).1 fun d hd => by cases hd
  · have h : (command (.drawText sampleText)).WellCounted := trivial
    have hn : 21 < (encode (.command (.drawText sampleText))).length := by
      rw [length_encode_drawText]
      decide
    exact ((decode_take_encode (.command (.drawText sampleText)) h hn).2 _ rfl).2 (by decide)

end Message
end CompositorClient
