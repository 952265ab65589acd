import CompositorClient.Proofs.Acceptance
import CompositorClient.Proofs.Lossy
import CompositorClient.Proofs.Payload

/-! What comes out of a decoded payload, whoever made it. Its texts have no NUL in them, its
counts fit their fields, and it survives being written and read again unless a text in a field of
fixed capacity has grown past its field, which takes bytes that are no UTF-8. -/

namespace CompositorClient

namespace Field

def texts : (f : Field) → f.Value → List (Nat × String)
  | text capacity, s => [(capacity, s)]
  | _, _ => []

/-- The bytes that spell the text of a field: those before its first NUL. -/
def spelled : Field → List UInt8 → List (Nat × List UInt8)
  | text capacity, bs => [(capacity, Padded.beforeNul (bs.take capacity))]
  | _, _ => []

theorem texts_decode (f : Field) (bs : List UInt8) :
    f.texts (f.decode bs) = (f.spelled bs).map fun x => (x.1, Utf8.decode x.2) := by
  cases f <;> rfl

/-- No more bytes are taken from a field than it has, and none of them is zero. -/
theorem of_mem_spelled {f : Field} {bs : List UInt8} {x : Nat × List UInt8}
    (h : x ∈ f.spelled bs) : 0 ∉ x.2 ∧ x.2.length ≤ x.1 := by
  cases f with
  | text capacity =>
    obtain rfl := List.mem_singleton.mp h
    have hbefore := Padded.length_beforeNul_le (bs.take capacity)
    have htake := List.length_take_le capacity bs
    exact ⟨Padded.zero_not_mem_beforeNul _, Nat.le_trans hbefore htake⟩
  | _ => exact absurd h List.not_mem_nil

end Field

namespace Record

def texts : (fs : Record) → fs.Value → List (Nat × String)
  | [], _ => []
  | f :: fs, v => f.texts v.1 ++ texts fs v.2

def spelled : Record → List UInt8 → List (Nat × List UInt8)
  | [], _ => []
  | f :: fs, bs => f.spelled bs ++ spelled fs (bs.drop f.size)

def spelledMany (fs : Record) : Nat → List UInt8 → List (Nat × List UInt8)
  | 0, _ => []
  | n + 1, bs => fs.spelled bs ++ fs.spelledMany n (bs.drop fs.size)

theorem texts_decode (fs : Record) (bs : List UInt8) :
    fs.texts (fs.decode bs) = (fs.spelled bs).map fun x => (x.1, Utf8.decode x.2) := by
  induction fs generalizing bs with
  | nil => rfl
  | cons f fs ih => simp [decode, texts, spelled, Field.texts_decode, ih]

theorem texts_decodeMany (fs : Record) (n : Nat) (bs : List UInt8) :
    (fs.decodeMany n bs).flatMap fs.texts =
      (fs.spelledMany n bs).map fun x => (x.1, Utf8.decode x.2) := by
  induction n generalizing bs with
  | zero => rfl
  | succ n ih => simp [decodeMany, spelledMany, texts_decode, ih]

theorem of_mem_spelled {fs : Record} {bs : List UInt8} {x : Nat × List UInt8}
    (h : x ∈ fs.spelled bs) : 0 ∉ x.2 ∧ x.2.length ≤ x.1 := by
  induction fs generalizing bs with
  | nil => exact absurd h List.not_mem_nil
  | cons f fs ih =>
    rcases List.mem_append.mp h with hfirst | hrest
    · exact Field.of_mem_spelled hfirst
    · exact ih hrest

theorem of_mem_spelledMany {fs : Record} {n : Nat} {bs : List UInt8} {x : Nat × List UInt8}
    (h : x ∈ fs.spelledMany n bs) : 0 ∉ x.2 ∧ x.2.length ≤ x.1 := by
  induction n generalizing bs with
  | zero => exact absurd h List.not_mem_nil
  | succ n ih =>
    rcases List.mem_append.mp h with hfirst | hrest
    · exact of_mem_spelled hfirst
    · exact ih hrest

end Record

namespace Tail

def texts : (t : Tail) → t.Value → List (Nat × String)
  | records fs, rs => rs.flatMap fs.texts
  | _, _ => []

def spelled : Tail → List UInt8 → List (Nat × List UInt8)
  | records fs, bs => fs.spelledMany (bs.length / fs.size) bs
  | _, _ => []

theorem texts_decode (t : Tail) (bs : List UInt8) :
    t.texts (t.decode bs) = (t.spelled bs).map fun x => (x.1, Utf8.decode x.2) := by
  cases t with
  | records fs => exact Record.texts_decodeMany fs _ bs
  | _ => rfl

end Tail

namespace Layout

def texts (l : Layout) (v : l.Value) : List (Nat × String) :=
  l.fields.texts v.1 ++ l.tail.texts v.2

def spelled (l : Layout) (p : List UInt8) : List (Nat × List UInt8) :=
  l.fields.spelled p ++ l.tail.spelled (l.tailBytes p)

theorem texts_read (l : Layout) (p : List UInt8) :
    l.texts (l.read p) = (l.spelled p).map fun x => (x.1, Utf8.decode x.2) := by
  simp [texts, read, spelled, Record.texts_decode, Tail.texts_decode]

theorem of_mem_spelled {l : Layout} {p : List UInt8} {x : Nat × List UInt8}
    (h : x ∈ l.spelled p) : 0 ∉ x.2 ∧ x.2.length ≤ x.1 := by
  rcases List.mem_append.mp h with hfields | htail
  · exact Record.of_mem_spelled hfields
  · cases ht : l.tail with
    | records fs =>
      rw [ht] at htail
      exact Record.of_mem_spelledMany htail
    | _ =>
      rw [ht] at htail
      exact absurd htail List.not_mem_nil

theorem length_tailBytes_le (l : Layout) (p : List UInt8) : (l.tailBytes p).length ≤ p.length := by
  unfold tailBytes
  split
  · simp only [List.length_take, List.length_drop]
    omega
  · simp

theorem length_tailBytes {l : Layout} {p : List UInt8} {n : Nat} (h : l.need p ≤ p.length)
    (hn : l.extent (l.fields.decode p) = some n) : (l.tailBytes p).length = n := by
  by_cases hfields : p.length < l.fields.size
  · rw [need, if_pos hfields] at h
    omega
  · rw [need, if_neg hfields, hn, Option.getD_some] at h
    simp only [tailBytes, hn, List.length_take, List.length_drop]
    omega

end Layout

namespace Message

theorem flatMap_texts {α : Type} (fs : Record) (ofFields : fs.Value → α)
    (names : α → List (Nat × String)) (h : ∀ r, names (ofFields r) = fs.texts r)
    (rs : List fs.Value) : (rs.map ofFields).flatMap names = rs.flatMap fs.texts := by
  simp [List.flatMap_map, h]

theorem paddedTexts_ofBody (t : MessageType) (b : t.layout.Value) :
    (ofBody t b).paddedTexts = t.layout.texts b := by
  cases t with
  | drawPolygon => exact (List.flatMap_eq_nil_iff.mpr fun _ _ => rfl).symm
  | setWindowMeshTransform => exact (List.flatMap_eq_nil_iff.mpr fun _ _ => rfl).symm
  | updateWindowMeshVertices => exact (List.flatMap_eq_nil_iff.mpr fun _ _ => rfl).symm
  | monitorsData =>
    have hnames := flatMap_texts .monitor Monitor.ofFields
      (fun m => [(monitorNameCapacity, m.name)]) (fun _ => rfl) b.2
    rw [← List.map_eq_flatMap] at hnames
    exact hnames
  | toplevelWindowsData =>
    exact flatMap_texts .toplevel Toplevel.ofFields _ (fun _ => rfl) b.2
  | _ => rfl

theorem paddedTexts_ofBody_read (t : MessageType) (p : List UInt8) :
    (ofBody t (t.layout.read p)).paddedTexts =
      (t.layout.spelled p).map fun x => (x.1, Utf8.decode x.2) := by
  rw [paddedTexts_ofBody, Layout.texts_read]

theorem terminatedTexts_ofBody_read (t : MessageType) (p : List UInt8) {s : String}
    (h : s ∈ (ofBody t (t.layout.read p)).terminatedTexts) :
    s = Padded.decode (t.layout.tailBytes p) := by
  cases t with
  | drawText => exact List.mem_singleton.mp h
  | launchApp => exact List.mem_singleton.mp h
  | _ => exact absurd h List.not_mem_nil

variable {t : MessageType} {p : List UInt8}

theorem eq_ofBody_read {m : Message} (h : decode t p = .ok m) :
    m = ofBody t (t.layout.read p) ∧ t.layout.need p ≤ p.length := by
  rw [decode_eq] at h
  by_cases hroom : t.needed p ≤ p.length
  · rw [if_pos hroom, Except.ok.injEq] at h
    rw [MessageType.need_eq_needed]
    exact ⟨h.symm, hroom⟩
  · rw [if_neg hroom] at h
    cases h

theorem nul_not_mem_texts_ofBody_read (t : MessageType) (p : List UInt8) {s : String}
    (h : s ∈ (ofBody t (t.layout.read p)).texts) : '\x00' ∉ s.toList := by
  rcases List.mem_append.mp h with hpadded | hterminated
  · rw [paddedTexts_ofBody_read, List.map_map] at hpadded
    obtain ⟨x, hx, rfl⟩ := List.mem_map.mp hpadded
    exact Utf8.nul_not_mem_decode (Layout.of_mem_spelled hx).1
  · rw [terminatedTexts_ofBody_read t p hterminated]
    exact Padded.nul_not_mem_decode _

theorem fits_ofBody_read (h : ∀ x ∈ t.layout.spelled p, x.2.toByteArray.IsValidUTF8)
    {x : Nat × String} (hx : x ∈ (ofBody t (t.layout.read p)).paddedTexts) :
    (Utf8.encode x.2).length ≤ x.1 := by
  rw [paddedTexts_ofBody_read] at hx
  obtain ⟨y, hy, rfl⟩ := List.mem_map.mp hx
  have hlength := (Layout.of_mem_spelled hy).2
  rwa [← Utf8.encode_decode (h y hy)] at hlength

theorem length_vertices_read (h : (MessageType.layout .setWindowMeshTransform).need p ≤ p.length) :
    List.length ((MessageType.layout .setWindowMeshTransform).read p).2 =
      ((MessageType.layout .setWindowMeshTransform).read p).1.2.1.toNat *
        ((MessageType.layout .setWindowMeshTransform).read p).1.2.2.1.toNat := by
  have htail := Layout.length_tailBytes h rfl
  have hlength : List.length ((MessageType.layout .setWindowMeshTransform).read p).2 =
      ((MessageType.layout .setWindowMeshTransform).tailBytes p).length / 16 :=
    Record.length_decodeMany .vertex _ _
  rw [hlength, htail]
  exact Nat.mul_div_cancel _ (by decide)

theorem length_records_lt {α : Type} {fs : Record} (ofFields : fs.Value → α) {bs : List UInt8}
    (h : bs.length < 2 ^ 30) :
    ((Tail.decode (.records fs) bs).map ofFields).length < 2 ^ 32 := by
  have hlength : (Tail.decode (.records fs) bs).length = bs.length / fs.size :=
    Record.length_decodeMany fs _ bs
  have hdiv := Nat.div_le_self bs.length fs.size
  rw [List.length_map, hlength]
  omega

/-- The counts in what is read are no larger than the payload, but for a text that may have
grown to three times its length. -/
theorem wellCounted_ofBody_read (hp : p.length < 2 ^ 30) (h : t.layout.need p ≤ p.length) :
    (ofBody t (t.layout.read p)).WellCounted := by
  have htail := Layout.length_tailBytes_le t.layout p
  have hroom : (t.layout.tailBytes p).length < 2 ^ 30 := Nat.lt_of_le_of_lt htail hp
  cases t with
  | drawPolygon => exact length_records_lt Point.ofFields hroom
  | uploadImage => exact Nat.lt_trans hroom (by decide)
  | setWindowMeshTransform =>
    refine ⟨length_records_lt MeshVertex.ofFields hroom, ?_⟩
    exact (List.length_map _).trans (length_vertices_read h)
  | updateWindowMeshVertices => exact length_records_lt MeshVertex.ofFields hroom
  | launchApp =>
    have htext := Padded.length_encode_decode_le ((MessageType.layout .launchApp).tailBytes p)
    have hcount : 3 * ((MessageType.layout .launchApp).tailBytes p).length < 2 ^ 32 - 1 := by omega
    exact Nat.lt_of_le_of_lt htext hcount
  | monitorsData => exact length_records_lt Monitor.ofFields hroom
  | screenCopyData => exact Nat.lt_trans hroom (by decide)
  | toplevelWindowsData => exact length_records_lt Toplevel.ofFields hroom
  | _ => trivial

theorem decode_encode_ofBody_read (hp : p.length < 2 ^ 30) (h : t.layout.need p ≤ p.length)
    (hvalid : ∀ x ∈ t.layout.spelled p, x.2.toByteArray.IsValidUTF8) :
    decode t (ofBody t (t.layout.read p)).encode = .ok (ofBody t (t.layout.read p)) := by
  have hcounted := wellCounted_ofBody_read hp h
  have hstored := decode_encode_stored hcounted []
  rw [type_ofBody, List.append_nil, stored_eq_mapTexts] at hstored
  have hself := (mapTexts_stored_eq_self_iff (ofBody t (t.layout.read p))).mpr
    ⟨fun x hx => fits_ofBody_read hvalid hx, fun s hs => nul_not_mem_texts_ofBody_read t p hs⟩
  rw [hstored, hself]

/-- Whatever bytes a message comes from, its texts have no NUL in them and its mesh has the
vertices that the grid asks for. Written and read again it is the same message, each bit of its
numbers included, as long as the bytes of the texts in fields of fixed capacity are UTF-8; a drawn
text and a command line may hold any bytes. -/
theorem decode_encode_of_decode {t : MessageType} {p : List UInt8} {m : Message}
    (hp : p.length < 2 ^ 30) (h : decode t p = .ok m) :
    m.type = t ∧
      (∀ s ∈ m.texts, '\x00' ∉ s.toList) ∧
      (∀ mesh, m = .command (.setWindowMeshTransform mesh) →
        mesh.vertices.length = mesh.width.toNat * mesh.height.toNat) ∧
      ((∀ x ∈ t.layout.spelled p, x.2.toByteArray.IsValidUTF8) → decode t m.encode = .ok m) ∧
      (t = .drawText ∨ t = .launchApp → decode t m.encode = .ok m) := by
  obtain ⟨rfl, hneed⟩ := eq_ofBody_read h
  have hstable := decode_encode_ofBody_read hp hneed
  refine ⟨type_ofBody t _, fun s hs => nul_not_mem_texts_ofBody_read t p hs, ?_, hstable, ?_⟩
  · intro mesh hmesh
    have hcounted := wellCounted_ofBody_read hp hneed
    rw [hmesh] at hcounted
    exact hcounted.2
  · rintro (rfl | rfl)
    · exact hstable fun x hx => absurd hx List.not_mem_nil
    · exact hstable fun x hx => absurd hx List.not_mem_nil

/-- One monitor by the name `DP`: behind the name a NUL and a byte that is no UTF-8, and behind
the payload one more byte. -/
def sampleMonitors : List UInt8 :=
  [1, 0, 0, 0] ++ List.replicate 34 0 ++ ([68, 80, 0, 0xff] ++ List.replicate 28 0) ++ [9]

def sampleMonitor : Monitor := ⟨0, 0, 0, 0, 0, 0, 0, .zero, false, false, "DP"⟩

theorem decode_encode_of_decode_sampleMonitors :
    sampleMonitors.length < 2 ^ 30 ∧
      decode .monitorsData sampleMonitors = .ok (.reply (.monitors [sampleMonitor])) ∧
      (MessageType.layout .monitorsData).spelled sampleMonitors = [(32, [68, 80])] ∧
      decode .monitorsData (encode (.reply (.monitors [sampleMonitor]))) =
        .ok (.reply (.monitors [sampleMonitor])) := by
  have hlength : sampleMonitors.length < 2 ^ 30 := by decide
  have hdecode : decode .monitorsData sampleMonitors =
      .ok (.reply (.monitors [sampleMonitor])) := by rfl
  have hspelled : (MessageType.layout .monitorsData).spelled sampleMonitors =
      [(32, [68, 80])] := by rfl
  have hvalid : ∀ x ∈ (MessageType.layout .monitorsData).spelled sampleMonitors,
      x.2.toByteArray.IsValidUTF8 := by
    rw [hspelled]
    intro x hx
    obtain rfl := List.mem_singleton.mp hx
    exact ⟨['D', 'P'], rfl⟩
  have hagain := (decode_encode_of_decode hlength hdecode).2.2.2.1 hvalid
  exact ⟨hlength, hdecode, hspelled, hagain⟩

end Message
end CompositorClient
