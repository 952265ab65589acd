import CompositorClient.Protocol.Drawing
import CompositorClient.Protocol.Input
import CompositorClient.Protocol.MessageType
import CompositorClient.Protocol.Screen
import CompositorClient.Protocol.Window

/-! Messages, by family: commands and queries go to the compositor, replies and notices
come from it. -/

namespace CompositorClient

inductive Command
  | createBuffer (buffer : NewBuffer)
  | destroyBuffer (bufferId : UInt32)
  | drawRect (rectangle : Rectangle)
  | drawLine (line : Line)
  | drawCircle (circle : Circle)
  | drawPolygon (polygon : Polygon)
  | batchBegin (batchId expectedCommands : UInt32)
  | batchEnd (batchId : UInt32)
  | exportSurface (surface : SurfaceExport)
  | importSurface (surface : SurfaceImport)
  | registerPointerEvent (windowId : WindowId)
  | registerKeyboardEvent (windowId : WindowId)
  | captureMouse (windowId : WindowId)
  | captureKeyboard (windowId : WindowId)
  | uploadImage (image : ImageUpload)
  | destroyImage (imageId : ImageId)
  | drawUploadedImage (drawing : ImageDrawing)
  | drawText (drawing : TextDrawing)
  | setWindowVisible (windowId : WindowId) (visible : Bool)
  | registerKeybind (keybind : Keybind)
  | unregisterKeybind (keybindId : UInt32)
  | registerClickRegion (region : ClickRegion)
  | unregisterClickRegion (regionId : UInt32)
  | registerGlobalPointerEvent
  | registerGlobalKeyboardEvent
  | registerGlobalCaptureMouse
  | registerGlobalCaptureKeyboard
  | unregisterGlobalCaptureKeyboard
  | unregisterGlobalCaptureMouse
  | setWindowPosition (position : WindowPosition)
  | setWindowSize (size : WindowSize)
  | setWindowOpacity (windowId : WindowId) (opacity : Single)
  | setWindowTransform (transform : WindowTransform)
  | setWindowBlur (windowId : WindowId) (radius : Single) (enabled : Bool)
  | setScreenEffect (equation : String) (enabled : Bool)
  | setWindowEffect (windowId : WindowId) (equation : String) (enabled : Bool)
  | setWindowLayer (windowId : WindowId) (layer : Int32)
  | raiseWindow (windowId : WindowId)
  | lowerWindow (windowId : WindowId)
  | setWindowParent (windowId parentId : WindowId)
  | setWindowTransform3d (transform : WindowTransform3d)
  | setWindowMatrix (windowId : WindowId) (matrix : Vector Single 16)
  | setWindowState (windowId : WindowId) (state : WindowState)
  | focusWindow (windowId : WindowId)
  | blurWindow (windowId : WindowId)
  | animateWindow (animation : Animation)
  | stopAnimation (windowId : WindowId)
  | setWindowMeshTransform (mesh : Mesh)
  | clearWindowMeshTransform (windowId : WindowId)
  | updateWindowMeshVertices (patch : MeshPatch)
  | subscribeWindowEvents (mask : EventMask)
  | unsubscribeWindowEvents (mask : EventMask)
  | setWindowDecorations (decorations : Decorations)
  | requestWindowDecorations (windowId : WindowId)
  | launchApp (command : String)
  deriving DecidableEq

inductive Query
  | windowPosition (windowId : WindowId)
  | windowSize (windowId : WindowId)
  | windowAttributes (windowId : WindowId)
  | windowLayer (windowId : WindowId)
  | windowState (windowId : WindowId)
  | windowInfo (windowId : WindowId)
  | screenDimensions
  | monitors
  | screenCopy (request : CopyRequest)
  | toplevelWindows (visibleOnly : Bool)
  deriving DecidableEq

inductive Reply
  | windowPosition (position : WindowPosition)
  | windowSize (size : WindowSize)
  | windowAttributes (attributes : WindowAttributes)
  | windowLayer (layer : WindowLayer)
  | windowState (status : WindowStatus)
  | screenDimensions (dimensions : ScreenDimensions)
  | monitors (monitors : List Monitor)
  | windowInfo (info : WindowInfo)
  | screenCopy (copy : ScreenCopy)
  | toplevelWindows (windows : List Toplevel)
  deriving DecidableEq

inductive Notice
  | pointer (motion : PointerMotion)
  | keyboard (stroke : KeyStroke)
  | keybind (keybindId : UInt32)
  | windowCreated (window : NewWindow)
  | windowDestroyed (windowId : WindowId)
  | clickRegion (click : RegionClick)
  | compositorShutdown
  | windowTitleChanged (windowId : WindowId) (title : String)
  | windowStateChanged (change : StateChange)
  deriving DecidableEq

inductive Message
  | command (command : Command)
  | query (query : Query)
  | reply (reply : Reply)
  | notice (notice : Notice)
  deriving DecidableEq

namespace Command

def type : Command → MessageType
  | createBuffer _ => .createBuffer
  | destroyBuffer _ => .destroyBuffer
  | drawRect _ => .drawRect
  | drawLine _ => .drawLine
  | drawCircle _ => .drawCircle
  | drawPolygon _ => .drawPolygon
  | batchBegin _ _ => .batchBegin
  | batchEnd _ => .batchEnd
  | exportSurface _ => .exportSurface
  | importSurface _ => .importSurface
  | registerPointerEvent _ => .registerPointerEvent
  | registerKeyboardEvent _ => .registerKeyboardEvent
  | captureMouse _ => .queryCaptureMouse
  | captureKeyboard _ => .queryCaptureKeyboard
  | uploadImage _ => .uploadImage
  | destroyImage _ => .destroyImage
  | drawUploadedImage _ => .drawUploadedImage
  | drawText _ => .drawText
  | setWindowVisible _ _ => .setWindowVisible
  | registerKeybind _ => .registerKeybind
  | unregisterKeybind _ => .unregisterKeybind
  | registerClickRegion _ => .registerClickRegion
  | unregisterClickRegion _ => .unregisterClickRegion
  | registerGlobalPointerEvent => .registerGlobalPointerEvent
  | registerGlobalKeyboardEvent => .registerGlobalKeyboardEvent
  | registerGlobalCaptureMouse => .registerGlobalCaptureMouse
  | registerGlobalCaptureKeyboard => .registerGlobalCaptureKeyboard
  | unregisterGlobalCaptureKeyboard => .unregisterGlobalCaptureKeyboard
  | unregisterGlobalCaptureMouse => .unregisterGlobalCaptureMouse
  | setWindowPosition _ => .setWindowPosition
  | setWindowSize _ => .setWindowSize
  | setWindowOpacity _ _ => .setWindowOpacity
  | setWindowTransform _ => .setWindowTransform
  | setWindowBlur _ _ _ => .setWindowBlur
  | setScreenEffect _ _ => .setScreenEffect
  | setWindowEffect _ _ _ => .setWindowEffect
  | setWindowLayer _ _ => .setWindowLayer
  | raiseWindow _ => .raiseWindow
  | lowerWindow _ => .lowerWindow
  | setWindowParent _ _ => .setWindowParent
  | setWindowTransform3d _ => .setWindowTransform3d
  | setWindowMatrix _ _ => .setWindowMatrix
  | setWindowState _ _ => .setWindowState
  | focusWindow _ => .focusWindow
  | blurWindow _ => .blurWindow
  | animateWindow _ => .animateWindow
  | stopAnimation _ => .stopAnimation
  | setWindowMeshTransform _ => .setWindowMeshTransform
  | clearWindowMeshTransform _ => .clearWindowMeshTransform
  | updateWindowMeshVertices _ => .updateWindowMeshVertices
  | subscribeWindowEvents _ => .subscribeWindowEvents
  | unsubscribeWindowEvents _ => .unsubscribeWindowEvents
  | setWindowDecorations _ => .setWindowDecorations
  | requestWindowDecorations _ => .requestWindowDecorations
  | launchApp _ => .launchApp

end Command

namespace Query

def type : Query → MessageType
  | windowPosition _ => .queryWindowPosition
  | windowSize _ => .queryWindowSize
  | windowAttributes _ => .queryWindowAttributes
  | windowLayer _ => .queryWindowLayer
  | windowState _ => .queryWindowState
  | windowInfo _ => .queryWindowInfo
  | screenDimensions => .queryScreenDimensions
  | monitors => .queryMonitors
  | screenCopy _ => .requestScreenCopy
  | toplevelWindows _ => .queryToplevelWindows

/-- The kind of reply that answers the query. -/
def answer : Query → ReplyKind
  | windowPosition _ => .windowPosition
  | windowSize _ => .windowSize
  | windowAttributes _ => .windowAttributes
  | windowLayer _ => .windowLayer
  | windowState _ => .windowState
  | windowInfo _ => .windowInfo
  | screenDimensions => .screenDimensions
  | monitors => .monitors
  | screenCopy _ => .screenCopy
  | toplevelWindows _ => .toplevelWindows

end Query

namespace Reply

def kind : Reply → ReplyKind
  | windowPosition _ => .windowPosition
  | windowSize _ => .windowSize
  | windowAttributes _ => .windowAttributes
  | windowLayer _ => .windowLayer
  | windowState _ => .windowState
  | screenDimensions _ => .screenDimensions
  | monitors _ => .monitors
  | windowInfo _ => .windowInfo
  | screenCopy _ => .screenCopy
  | toplevelWindows _ => .toplevelWindows

end Reply

namespace Notice

def type : Notice → MessageType
  | pointer _ => .pointerEvent
  | keyboard _ => .keyboardEvent
  | keybind _ => .keybindEvent
  | windowCreated _ => .windowCreated
  | windowDestroyed _ => .windowDestroyed
  | clickRegion _ => .clickRegionEvent
  | compositorShutdown => .compositorShutdown
  | windowTitleChanged _ _ => .windowTitleChanged
  | windowStateChanged _ => .windowStateChanged

end Notice

namespace Message

def type : Message → MessageType
  | command c => c.type
  | query q => q.type
  | reply r => r.kind.type
  | notice n => n.type

/-- Only a query is answered. -/
def expectedReply : Message → Option ReplyKind
  | query q => some q.answer
  | _ => none

end Message
end CompositorClient
