import CompositorClient.Protocol.MessageType
import CompositorClient.Wire.Layout

/-! The layout of every message type. -/

namespace CompositorClient

def equationCapacity : Nat := 256
def titleCapacity : Nat := 256
def appIdCapacity : Nat := 128
def monitorNameCapacity : Nat := 32
def processNameCapacity : Nat := 255

namespace Record

@[reducible] def id : Record := [.word]
@[reducible] def position : Record := [.word, .int, .int]
@[reducible] def extent : Record := [.word, .word, .word]
@[reducible] def point : Record := [.int, .int]
@[reducible] def vertex : Record := [.single, .single, .single, .single]
@[reducible] def monitor : Record :=
  [.int, .int, .word, .word, .word, .word, .word, .single, .flag, .flag,
    .text monitorNameCapacity]
@[reducible] def toplevel : Record :=
  [.word, .int, .int, .word, .word, .flag, .flag, .gap 2, .word, .text titleCapacity,
    .text appIdCapacity]

end Record

namespace Layout

/-- Fixed fields of which `count` is the length in bytes of what follows. -/
@[reducible] def counted (fields : Record) (tail : Tail) (count : fields.Value → Nat) : Layout :=
  ⟨fields, tail, fun v => some (count v)⟩

end Layout

open Layout in
def MessageType.layout : MessageType → Layout
  | drawRect => fixed [.word, .word, .word, .word, .word, .word]
  | drawLine => fixed [.word, .int, .int, .int, .int, .word, .word]
  | drawCircle => fixed [.word, .int, .int, .word, .word, .wideFlag]
  | drawPolygon => counted [.word, .word, .word, .wideFlag] (.records .point)
      fun v => v.2.1.toNat * 8
  | batchBegin => fixed [.word, .word]
  | batchEnd => fixed .id
  | exportSurface => fixed [.word, .word, .word]
  | importSurface => fixed [.word, .word, .int, .int, .word, .word]
  | createBuffer => fixed [.word, .word, .word, .word, .word]
  | destroyBuffer => fixed .id
  | registerPointerEvent => fixed .id
  | registerKeyboardEvent => fixed .id
  | queryCaptureMouse => fixed .id
  | queryCaptureKeyboard => fixed .id
  | pointerEvent => fixed [.word, .word, .word, .word, .int, .int]
  | keyboardEvent => fixed [.word, .word, .word, .word, .word]
  | uploadImage => counted [.word, .word, .word, .word, .word] .bytes
      fun v => v.2.2.2.2.1.toNat
  | destroyImage => fixed .id
  | drawUploadedImage => fixed
      [.word, .word, .int, .int, .word, .word, .word, .word, .word, .word, .byte]
  | drawText => ⟨[.word, .int, .int, .word, .word], .text, fun _ => none⟩
  | setWindowVisible => fixed [.word, .flag]
  | registerKeybind => fixed [.word, .word, .word]
  | unregisterKeybind => fixed .id
  | keybindEvent => fixed .id
  | windowCreated => fixed [.word, .word, .word, .flag, .flag]
  | windowDestroyed => fixed .id
  | registerClickRegion => fixed [.word, .word, .int, .int, .word, .word]
  | unregisterClickRegion => fixed .id
  | clickRegionEvent => fixed [.word, .word, .word]
  | requestScreenCopy => fixed [.word, .word, .word, .word, .word]
  | screenCopyData => counted [.word, .word, .word, .word, .word] .bytes
      fun v => v.2.2.2.2.1.toNat
  | registerGlobalPointerEvent => fixed []
  | registerGlobalKeyboardEvent => fixed []
  | registerGlobalCaptureMouse => fixed []
  | registerGlobalCaptureKeyboard => fixed []
  | setWindowPosition => fixed .position
  | setWindowSize => fixed .extent
  | setWindowOpacity => fixed [.word, .single]
  | setWindowTransform => fixed [.word, .single, .single, .single]
  | compositorShutdown => fixed []
  | queryWindowPosition => fixed .id
  | queryWindowSize => fixed .id
  | queryWindowAttributes => fixed .id
  | windowPositionData => fixed .position
  | windowSizeData => fixed .extent
  | windowAttributesData => fixed [.word, .wideFlag, .single, .single, .single, .single]
  | unregisterGlobalCaptureKeyboard => fixed []
  | unregisterGlobalCaptureMouse => fixed []
  | setWindowLayer => fixed [.word, .int]
  | raiseWindow => fixed .id
  | lowerWindow => fixed .id
  | setWindowParent => fixed [.word, .word]
  | setWindowTransform3d => fixed [.word, .singles 3, .singles 3, .singles 3]
  | setWindowMatrix => fixed [.word, .singles 16]
  | setWindowState => fixed [.word, .word]
  | focusWindow => fixed .id
  | queryWindowLayer => fixed .id
  | queryWindowState => fixed .id
  | windowLayerData => fixed [.word, .int, .word]
  | windowStateData => fixed [.word, .word, .wideFlag]
  | queryScreenDimensions => fixed []
  | screenDimensionsData => fixed [.word, .word, .single]
  | queryMonitors => fixed []
  | monitorsData => counted [.word] (.records .monitor) fun v => v.1.toNat * 66
  | queryWindowInfo => fixed .id
  | windowInfoData => fixed
      [.word, .int, .int, .word, .word, .flag, .gap 3, .single, .single, .single, .single, .int,
        .word, .word, .wideFlag, .word, .text processNameCapacity]
  | setWindowBlur => fixed [.word, .single, .flag]
  | setScreenEffect => fixed [.text equationCapacity, .flag]
  | setWindowEffect => fixed [.word, .text equationCapacity, .flag]
  | animateWindow => fixed
      [.word, .word, .single, .single, .single, .single, .single, .singles 3, .singles 3, .single,
        .word]
  | stopAnimation => fixed .id
  | blurWindow => fixed .id
  | setWindowMeshTransform => counted [.word, .word, .word] (.records .vertex)
      fun v => v.2.1.toNat * v.2.2.1.toNat * 16
  | clearWindowMeshTransform => fixed .id
  | updateWindowMeshVertices => counted [.word, .word, .word] (.records .vertex)
      fun v => v.2.2.1.toNat * 16
  | queryToplevelWindows => fixed [.wideFlag]
  | toplevelWindowsData => counted [.word] (.records .toplevel) fun v => v.1.toNat * 412
  | subscribeWindowEvents => fixed [.word]
  | unsubscribeWindowEvents => fixed [.word]
  | windowTitleChanged => fixed [.word, .text titleCapacity]
  | windowStateChanged => fixed [.word, .word, .flag, .flag]
  | setWindowDecorations => fixed [.word, .flag, .gap 3, .word, .word, .word, .word]
  | requestWindowDecorations => fixed .id
  | launchApp => counted [.word] .text fun v => v.1.toNat

end CompositorClient
