import CompositorClient.Proofs.Cursor
import Mathlib.Algebra.Group.Nat.Defs

/-! Which payloads are taken. The room that a payload must give is counted here from its own
bytes; a payload is taken exactly when it gives that room, and the one complaint about any other
names the message type and how much room was missing. -/

namespace CompositorClient

def wordAt (p : List UInt8) (i : Nat) : Nat := Field.front 4 (p.drop i)

namespace MessageType

/-- How many bytes a payload has at least. -/
def fixedSize : MessageType → Nat
  | registerGlobalPointerEvent | registerGlobalKeyboardEvent | registerGlobalCaptureMouse => 0
  | registerGlobalCaptureKeyboard | unregisterGlobalCaptureKeyboard => 0
  | unregisterGlobalCaptureMouse | compositorShutdown | queryScreenDimensions => 0
  | queryMonitors => 0
  | batchEnd | destroyBuffer | registerPointerEvent | registerKeyboardEvent => 4
  | queryCaptureMouse | queryCaptureKeyboard | destroyImage | unregisterKeybind => 4
  | keybindEvent | windowDestroyed | unregisterClickRegion | queryWindowPosition => 4
  | queryWindowSize | queryWindowAttributes | raiseWindow | lowerWindow | focusWindow => 4
  | queryWindowLayer | queryWindowState | monitorsData | queryWindowInfo | stopAnimation => 4
  | blurWindow | clearWindowMeshTransform | queryToplevelWindows | toplevelWindowsData => 4
  | subscribeWindowEvents | unsubscribeWindowEvents | requestWindowDecorations | launchApp => 4
  | setWindowVisible => 5
  | batchBegin | setWindowOpacity | setWindowLayer | setWindowParent | setWindowState => 8
  | setWindowBlur => 9
  | windowStateChanged => 10
  | exportSurface | registerKeybind | clickRegionEvent | setWindowPosition | setWindowSize => 12
  | windowPositionData | windowSizeData | windowLayerData | windowStateData => 12
  | screenDimensionsData | setWindowMeshTransform | updateWindowMeshVertices => 12
  | windowCreated => 14
  | drawPolygon | setWindowTransform => 16
  | createBuffer | keyboardEvent | uploadImage | drawText | requestScreenCopy => 20
  | screenCopyData => 20
  | drawRect | drawCircle | importSurface | pointerEvent | registerClickRegion => 24
  | windowAttributesData | setWindowDecorations => 24
  | drawLine => 28
  | setWindowTransform3d => 40
  | drawUploadedImage => 41
  | animateWindow => 60
  | setWindowMatrix => 68
  | setScreenEffect => 257
  | windowTitleChanged => 260
  | setWindowEffect => 261
  | windowInfoData => 315

/-- How many more bytes the payload `p` declares. -/
def declared (p : List UInt8) : MessageType → Nat
  | drawPolygon => wordAt p 4 * 8
  | uploadImage | screenCopyData => wordAt p 16
  | launchApp => wordAt p 0
  | setWindowMeshTransform => wordAt p 4 * wordAt p 8 * 16
  | updateWindowMeshVertices => wordAt p 8 * 16
  | monitorsData => wordAt p 0 * 66
  | toplevelWindowsData => wordAt p 0 * 412
  | _ => 0

def needed (t : MessageType) (p : List UInt8) : Nat :=
  if p.length < t.fixedSize then t.fixedSize else t.fixedSize + t.declared p

def recordName : MessageType → Option String
  | drawPolygon => some "DrawPolygon.point"
  | setWindowMeshTransform | updateWindowMeshVertices => some "MeshVertex"
  | monitorsData => some "MonitorInfo"
  | toplevelWindowsData => some "ToplevelWindow"
  | _ => none

theorem size_fields (t : MessageType) : t.layout.fields.size = t.fixedSize := by
  cases t <;> rfl

theorem fixedSize_le (t : MessageType) : t.fixedSize ≤ 315 := by
  cases t <;> decide

theorem toNat_word_at {p : List UInt8} {i : Nat} (h : i + 4 ≤ p.length) :
    (UInt32.ofNat (Field.front 4 (p.drop i))).toNat = wordAt p i :=
  Field.toNat_ofNat_front_four (by rw [List.length_drop]; omega)

/-- The counts among the fields are words of the payload. -/
theorem extent_eq_declared (t : MessageType) {p : List UInt8} (h : t.fixedSize ≤ p.length) :
    (t.layout.extent (t.layout.fields.decode p)).getD 0 = t.declared p := by
  have hword (i : Nat) (hi : i + 4 ≤ t.fixedSize) :
      (UInt32.ofNat (Field.front 4 (p.drop i))).toNat = wordAt p i := toNat_word_at (by omega)
  have hfirst (hi : 4 ≤ t.fixedSize) :
      (UInt32.ofNat (Field.front 4 p)).toNat = wordAt p 0 := hword 0 hi
  cases t with
  | launchApp | monitorsData | toplevelWindowsData =>
    simp [layout, Record.decode, Field.decode, declared, hfirst (by decide)]
  | drawPolygon =>
    simp [layout, Record.decode, Field.decode, Field.size, declared, hword 4 (by decide)]
  | updateWindowMeshVertices =>
    simp [layout, Record.decode, Field.decode, Field.size, declared, hword 8 (by decide)]
  | setWindowMeshTransform =>
    simp [layout, Record.decode, Field.decode, Field.size, declared, hword 4 (by decide),
      hword 8 (by decide)]
  | uploadImage | screenCopyData =>
    simp [layout, Record.decode, Field.decode, Field.size, declared, hword 16 (by decide)]
  | _ => rfl

theorem need_eq_needed (t : MessageType) (p : List UInt8) : t.layout.need p = t.needed p := by
  rw [Layout.need, needed, size_fields]
  by_cases h : p.length < t.fixedSize
  · simp [h]
  · simp [h, extent_eq_declared t (Nat.not_lt.mp h)]

theorem payloadName_eq (t : MessageType) :
    t.payloadName =
      if t = queryCaptureMouse then "CaptureMouse"
      else if t = queryCaptureKeyboard then "CaptureKeyboard"
      else t.name := by
  cases t <;> rfl

theorem payloadName_ne_recordName {t u : MessageType} {kind : String}
    (h : u.recordName = some kind) : t.payloadName ≠ kind := by
  have hkind : kind ∈ ["DrawPolygon.point", "MeshVertex", "MonitorInfo", "ToplevelWindow"] := by
    cases u <;> simp_all [recordName]
  have hname : t.payloadName ∉
      ["DrawPolygon.point", "MeshVertex", "MonitorInfo", "ToplevelWindow"] := by
    cases t <;> decide
  exact fun he => hname (he ▸ hkind)

end MessageType

namespace Message

open MessageType

def scan (t : MessageType) (p : List UInt8) : Except ProtocolError Message := do
  let b ← t.layout.scan t.payloadName (t.recordName.getD t.payloadName) t.fixedSize p
  return ofBody t b

theorem decode_eq (t : MessageType) (p : List UInt8) :
    decode t p =
      if t.needed p ≤ p.length then .ok (ofBody t (t.layout.read p))
      else .error (.truncatedPayload t.payloadName (min (t.needed p) maxSize) p.length) := by
  by_cases h : t.needed p ≤ p.length
  · simp [decode, Layout.decode, need_eq_needed, h]
  · simp [decode, Layout.decode, need_eq_needed, h]

theorem scan_eq_decode (t : MessageType) {p : List UInt8} (h : p.length < maxSize) :
    scan t p = decode t p := by
  have hsize : t.layout.fields.size ≤ maxSize := by
    have hfixed := fixedSize_le t
    rw [size_fields, maxSize]
    omega
  have hscan := Layout.scan_eq t.layout hsize t.payloadName (t.recordName.getD t.payloadName) h
  rw [size_fields, need_eq_needed] at hscan
  by_cases hroom : t.needed p ≤ p.length
  · simp [scan, hscan, decode_eq, hroom, bind, Except.bind, pure, Except.pure]
  · simp [scan, hscan, decode_eq, hroom, bind, Except.bind]

/-- A payload is taken exactly when it gives the room that its type and its own counts ask for.
Every complaint is about the payload as a whole, never about a record in it: it has the name of
the type, the room asked for and the room given. A cursor that checks each step on its own finds
nothing more to complain about. -/
theorem decode_ok_iff_needed_le (t : MessageType) {p : List UInt8} (h : p.length < 2 ^ 63) :
    ((∃ m, decode t p = .ok m) ↔ t.needed p ≤ p.length) ∧
      (∀ e, decode t p = .error e ↔
        p.length < t.needed p ∧
          e = .truncatedPayload
            (if t = .queryCaptureMouse then "CaptureMouse"
              else if t = .queryCaptureKeyboard then "CaptureKeyboard"
              else t.name)
            (min (t.needed p) (2 ^ 64 - 1)) p.length) ∧
      (p.length < t.needed p → p.length < min (t.needed p) (2 ^ 64 - 1)) ∧
      (∀ (u : MessageType) kind, u.recordName = some kind → ∀ needed available,
        decode t p ≠ .error (.truncatedPayload kind needed available)) ∧
      scan t p = decode t p := by
  have hscan : scan t p = decode t p := scan_eq_decode t (by rw [maxSize]; omega)
  by_cases hroom : t.needed p ≤ p.length
  · have hdecode : decode t p = .ok (ofBody t (t.layout.read p)) := by simp [decode_eq, hroom]
    have hlt : ¬ p.length < t.needed p := Nat.not_lt.mpr hroom
    refine ⟨?_, ?_, ?_, ?_, hscan⟩
    · simp [hdecode, hroom]
    · simp [hdecode, hlt]
    · exact fun h' => absurd h' hlt
    · simp [hdecode]
  · have hdecode : decode t p =
        .error (.truncatedPayload t.payloadName (min (t.needed p) maxSize) p.length) := by
      simp [decode_eq, hroom]
    have hlt : p.length < t.needed p := Nat.not_le.mp hroom
    refine ⟨?_, ?_, ?_, ?_, hscan⟩
    · simp [hdecode, hroom]
    · intro e
      rw [← payloadName_eq, hdecode]
      simp [hlt, maxSize, eq_comm]
    · omega
    · intro u kind hkind needed available he
      rw [hdecode, Except.error.injEq, ProtocolError.truncatedPayload.injEq] at he
      exact payloadName_ne_recordName hkind he.1

/-- A mesh whose vertices would take more bytes than can be counted. -/
def vastMesh : List UInt8 := [7, 0, 0, 0] ++ List.replicate 8 0xff

theorem decode_ok_iff_needed_le_vastMesh :
    vastMesh.length < 2 ^ 63 ∧
      MessageType.setWindowMeshTransform.needed vastMesh = 12 + (2 ^ 32 - 1) * (2 ^ 32 - 1) * 16 ∧
      decode .setWindowMeshTransform vastMesh =
        .error (.truncatedPayload "SetWindowMeshTransform" (2 ^ 64 - 1) 12) := by
  have hlength : vastMesh.length < 2 ^ 63 := by decide
  have hneeded : MessageType.setWindowMeshTransform.needed vastMesh =
      12 + (2 ^ 32 - 1) * (2 ^ 32 - 1) * 16 := by decide
  refine ⟨hlength, hneeded, ?_⟩
  refine ((decode_ok_iff_needed_le .setWindowMeshTransform hlength).2.1 _).mpr ⟨?_, ?_⟩
  · decide
  · rw [hneeded]
    rfl

end Message
end CompositorClient
