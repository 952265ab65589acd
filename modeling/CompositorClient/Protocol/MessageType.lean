/-! The types a frame can have, their codes on the wire and their names. -/

namespace CompositorClient

inductive MessageType
  | drawRect | drawLine | drawCircle | drawPolygon | batchBegin | batchEnd | exportSurface
  | importSurface | createBuffer | destroyBuffer | registerPointerEvent | registerKeyboardEvent
  | queryCaptureMouse | queryCaptureKeyboard | pointerEvent | keyboardEvent | uploadImage
  | destroyImage | drawUploadedImage | drawText | setWindowVisible | registerKeybind
  | unregisterKeybind | keybindEvent | windowCreated | windowDestroyed | registerClickRegion
  | unregisterClickRegion | clickRegionEvent | requestScreenCopy | screenCopyData
  | registerGlobalPointerEvent | registerGlobalKeyboardEvent | registerGlobalCaptureMouse
  | registerGlobalCaptureKeyboard | setWindowPosition | setWindowSize | setWindowOpacity
  | setWindowTransform | compositorShutdown | queryWindowPosition | queryWindowSize
  | queryWindowAttributes | windowPositionData | windowSizeData | windowAttributesData
  | unregisterGlobalCaptureKeyboard | unregisterGlobalCaptureMouse | setWindowLayer
  | raiseWindow | lowerWindow | setWindowParent | setWindowTransform3d | setWindowMatrix
  | setWindowState | focusWindow | queryWindowLayer | queryWindowState | windowLayerData
  | windowStateData | queryScreenDimensions | screenDimensionsData | queryMonitors
  | monitorsData | queryWindowInfo | windowInfoData | setWindowBlur | setScreenEffect
  | setWindowEffect | animateWindow | stopAnimation | blurWindow | setWindowMeshTransform
  | clearWindowMeshTransform | updateWindowMeshVertices | queryToplevelWindows
  | toplevelWindowsData | subscribeWindowEvents | unsubscribeWindowEvents | windowTitleChanged
  | windowStateChanged | setWindowDecorations | requestWindowDecorations | launchApp
  deriving DecidableEq

namespace MessageType

def all : List MessageType := [
  drawRect, drawLine, drawCircle, drawPolygon, batchBegin, batchEnd, exportSurface,
  importSurface, createBuffer, destroyBuffer, registerPointerEvent, registerKeyboardEvent,
  queryCaptureMouse, queryCaptureKeyboard, pointerEvent, keyboardEvent, uploadImage,
  destroyImage, drawUploadedImage, drawText, setWindowVisible, registerKeybind,
  unregisterKeybind, keybindEvent, windowCreated, windowDestroyed, registerClickRegion,
  unregisterClickRegion, clickRegionEvent, requestScreenCopy, screenCopyData,
  registerGlobalPointerEvent, registerGlobalKeyboardEvent, registerGlobalCaptureMouse,
  registerGlobalCaptureKeyboard, setWindowPosition, setWindowSize, setWindowOpacity,
  setWindowTransform, compositorShutdown, queryWindowPosition, queryWindowSize,
  queryWindowAttributes, windowPositionData, windowSizeData, windowAttributesData,
  unregisterGlobalCaptureKeyboard, unregisterGlobalCaptureMouse, setWindowLayer, raiseWindow,
  lowerWindow, setWindowParent, setWindowTransform3d, setWindowMatrix, setWindowState,
  focusWindow, queryWindowLayer, queryWindowState, windowLayerData, windowStateData,
  queryScreenDimensions, screenDimensionsData, queryMonitors, monitorsData, queryWindowInfo,
  windowInfoData, setWindowBlur, setScreenEffect, setWindowEffect, animateWindow,
  stopAnimation, blurWindow, setWindowMeshTransform, clearWindowMeshTransform,
  updateWindowMeshVertices, queryToplevelWindows, toplevelWindowsData, subscribeWindowEvents,
  unsubscribeWindowEvents, windowTitleChanged, windowStateChanged, setWindowDecorations,
  requestWindowDecorations, launchApp]

def code : MessageType → UInt16
  | drawRect => 6
  | drawLine => 10
  | drawCircle => 11
  | drawPolygon => 12
  | batchBegin => 15
  | batchEnd => 16
  | exportSurface => 17
  | importSurface => 18
  | createBuffer => 19
  | destroyBuffer => 20
  | registerPointerEvent => 22
  | registerKeyboardEvent => 23
  | queryCaptureMouse => 24
  | queryCaptureKeyboard => 25
  | pointerEvent => 26
  | keyboardEvent => 27
  | uploadImage => 28
  | destroyImage => 29
  | drawUploadedImage => 30
  | drawText => 31
  | setWindowVisible => 32
  | registerKeybind => 33
  | unregisterKeybind => 34
  | keybindEvent => 35
  | windowCreated => 36
  | windowDestroyed => 37
  | registerClickRegion => 38
  | unregisterClickRegion => 39
  | clickRegionEvent => 40
  | requestScreenCopy => 41
  | screenCopyData => 42
  | registerGlobalPointerEvent => 43
  | registerGlobalKeyboardEvent => 44
  | registerGlobalCaptureMouse => 45
  | registerGlobalCaptureKeyboard => 46
  | setWindowPosition => 47
  | setWindowSize => 48
  | setWindowOpacity => 49
  | setWindowTransform => 50
  | compositorShutdown => 51
  | queryWindowPosition => 52
  | queryWindowSize => 53
  | queryWindowAttributes => 54
  | windowPositionData => 55
  | windowSizeData => 56
  | windowAttributesData => 57
  | unregisterGlobalCaptureKeyboard => 58
  | unregisterGlobalCaptureMouse => 59
  | setWindowLayer => 60
  | raiseWindow => 61
  | lowerWindow => 62
  | setWindowParent => 63
  | setWindowTransform3d => 64
  | setWindowMatrix => 65
  | setWindowState => 66
  | focusWindow => 67
  | queryWindowLayer => 68
  | queryWindowState => 69
  | windowLayerData => 70
  | windowStateData => 71
  | queryScreenDimensions => 72
  | screenDimensionsData => 73
  | queryMonitors => 74
  | monitorsData => 75
  | queryWindowInfo => 76
  | windowInfoData => 77
  | setWindowBlur => 78
  | setScreenEffect => 79
  | setWindowEffect => 80
  | animateWindow => 81
  | stopAnimation => 82
  | blurWindow => 83
  | setWindowMeshTransform => 84
  | clearWindowMeshTransform => 85
  | updateWindowMeshVertices => 86
  | queryToplevelWindows => 87
  | toplevelWindowsData => 88
  | subscribeWindowEvents => 89
  | unsubscribeWindowEvents => 90
  | windowTitleChanged => 91
  | windowStateChanged => 92
  | setWindowDecorations => 93
  | requestWindowDecorations => 94
  | launchApp => 95

def name : MessageType → String
  | drawRect => "DrawRect"
  | drawLine => "DrawLine"
  | drawCircle => "DrawCircle"
  | drawPolygon => "DrawPolygon"
  | batchBegin => "BatchBegin"
  | batchEnd => "BatchEnd"
  | exportSurface => "ExportSurface"
  | importSurface => "ImportSurface"
  | createBuffer => "CreateBuffer"
  | destroyBuffer => "DestroyBuffer"
  | registerPointerEvent => "RegisterPointerEvent"
  | registerKeyboardEvent => "RegisterKeyboardEvent"
  | queryCaptureMouse => "QueryCaptureMouse"
  | queryCaptureKeyboard => "QueryCaptureKeyboard"
  | pointerEvent => "PointerEvent"
  | keyboardEvent => "KeyboardEvent"
  | uploadImage => "UploadImage"
  | destroyImage => "DestroyImage"
  | drawUploadedImage => "DrawUploadedImage"
  | drawText => "DrawText"
  | setWindowVisible => "SetWindowVisible"
  | registerKeybind => "RegisterKeybind"
  | unregisterKeybind => "UnregisterKeybind"
  | keybindEvent => "KeybindEvent"
  | windowCreated => "WindowCreated"
  | windowDestroyed => "WindowDestroyed"
  | registerClickRegion => "RegisterClickRegion"
  | unregisterClickRegion => "UnregisterClickRegion"
  | clickRegionEvent => "ClickRegionEvent"
  | requestScreenCopy => "RequestScreenCopy"
  | screenCopyData => "ScreenCopyData"
  | registerGlobalPointerEvent => "RegisterGlobalPointerEvent"
  | registerGlobalKeyboardEvent => "RegisterGlobalKeyboardEvent"
  | registerGlobalCaptureMouse => "RegisterGlobalCaptureMouse"
  | registerGlobalCaptureKeyboard => "RegisterGlobalCaptureKeyboard"
  | setWindowPosition => "SetWindowPosition"
  | setWindowSize => "SetWindowSize"
  | setWindowOpacity => "SetWindowOpacity"
  | setWindowTransform => "SetWindowTransform"
  | compositorShutdown => "CompositorShutdown"
  | queryWindowPosition => "QueryWindowPosition"
  | queryWindowSize => "QueryWindowSize"
  | queryWindowAttributes => "QueryWindowAttributes"
  | windowPositionData => "WindowPositionData"
  | windowSizeData => "WindowSizeData"
  | windowAttributesData => "WindowAttributesData"
  | unregisterGlobalCaptureKeyboard => "UnregisterGlobalCaptureKeyboard"
  | unregisterGlobalCaptureMouse => "UnregisterGlobalCaptureMouse"
  | setWindowLayer => "SetWindowLayer"
  | raiseWindow => "RaiseWindow"
  | lowerWindow => "LowerWindow"
  | setWindowParent => "SetWindowParent"
  | setWindowTransform3d => "SetWindowTransform3d"
  | setWindowMatrix => "SetWindowMatrix"
  | setWindowState => "SetWindowState"
  | focusWindow => "FocusWindow"
  | queryWindowLayer => "QueryWindowLayer"
  | queryWindowState => "QueryWindowState"
  | windowLayerData => "WindowLayerData"
  | windowStateData => "WindowStateData"
  | queryScreenDimensions => "QueryScreenDimensions"
  | screenDimensionsData => "ScreenDimensionsData"
  | queryMonitors => "QueryMonitors"
  | monitorsData => "MonitorsData"
  | queryWindowInfo => "QueryWindowInfo"
  | windowInfoData => "WindowInfoData"
  | setWindowBlur => "SetWindowBlur"
  | setScreenEffect => "SetScreenEffect"
  | setWindowEffect => "SetWindowEffect"
  | animateWindow => "AnimateWindow"
  | stopAnimation => "StopAnimation"
  | blurWindow => "BlurWindow"
  | setWindowMeshTransform => "SetWindowMeshTransform"
  | clearWindowMeshTransform => "ClearWindowMeshTransform"
  | updateWindowMeshVertices => "UpdateWindowMeshVertices"
  | queryToplevelWindows => "QueryToplevelWindows"
  | toplevelWindowsData => "ToplevelWindowsData"
  | subscribeWindowEvents => "SubscribeWindowEvents"
  | unsubscribeWindowEvents => "UnsubscribeWindowEvents"
  | windowTitleChanged => "WindowTitleChanged"
  | windowStateChanged => "WindowStateChanged"
  | setWindowDecorations => "SetWindowDecorations"
  | requestWindowDecorations => "RequestWindowDecorations"
  | launchApp => "LaunchApp"

/-- How a payload of this type is called when it is too short. -/
def payloadName : MessageType → String
  | queryCaptureMouse => "CaptureMouse"
  | queryCaptureKeyboard => "CaptureKeyboard"
  | t => t.name

/-- The other codes are reserved for passing file descriptors, or for nothing. -/
def ofCode? (c : UInt16) : Option MessageType :=
  all.find? (·.code == c)

@[simp] theorem ofCode?_code (t : MessageType) : ofCode? t.code = some t := by
  cases t <;> rfl

theorem ofCode?_eq_some_iff (c : UInt16) (t : MessageType) : ofCode? c = some t ↔ t.code = c := by
  constructor
  · intro h
    simpa using List.find?_some h
  · rintro rfl
    exact ofCode?_code t

theorem code_injective {s t : MessageType} (h : s.code = t.code) : s = t := by
  have := ofCode?_code s
  rw [h, ofCode?_code] at this
  exact (Option.some.inj this).symm

end MessageType

/-- What a query can be answered with. -/
inductive ReplyKind
  | windowPosition | windowSize | windowAttributes | windowLayer | windowState
  | screenDimensions | monitors | windowInfo | screenCopy | toplevelWindows
  deriving DecidableEq

namespace ReplyKind

def all : List ReplyKind := [
  windowPosition, windowSize, windowAttributes, windowLayer, windowState,
  screenDimensions, monitors, windowInfo, screenCopy, toplevelWindows]

theorem mem_all (k : ReplyKind) : k ∈ all := by
  cases k <;> decide

def name : ReplyKind → String
  | windowPosition => "WindowPosition"
  | windowSize => "WindowSize"
  | windowAttributes => "WindowAttributes"
  | windowLayer => "WindowLayer"
  | windowState => "WindowState"
  | screenDimensions => "ScreenDimensions"
  | monitors => "Monitors"
  | windowInfo => "WindowInfo"
  | screenCopy => "ScreenCopy"
  | toplevelWindows => "ToplevelWindows"

/-- The type of the frames that carry such an answer. -/
def type : ReplyKind → MessageType
  | windowPosition => .windowPositionData
  | windowSize => .windowSizeData
  | windowAttributes => .windowAttributesData
  | windowLayer => .windowLayerData
  | windowState => .windowStateData
  | screenDimensions => .screenDimensionsData
  | monitors => .monitorsData
  | windowInfo => .windowInfoData
  | screenCopy => .screenCopyData
  | toplevelWindows => .toplevelWindowsData

def ofType? (t : MessageType) : Option ReplyKind :=
  all.find? (·.type == t)

@[simp] theorem ofType?_type (k : ReplyKind) : ofType? k.type = some k := by
  cases k <;> rfl

theorem ofType?_eq_some_iff (t : MessageType) (k : ReplyKind) :
    ofType? t = some k ↔ k.type = t := by
  constructor
  · intro h
    simpa using List.find?_some h
  · rintro rfl
    exact ofType?_type k

end ReplyKind
end CompositorClient
