import CompositorClient.Protocol.Layouts
import CompositorClient.Protocol.Message

/-! Messages as values of their layouts.  Taking a message apart and putting it together
again gives the message back; the counts are taken from the lists they count. -/

namespace CompositorClient

namespace Point

def fields (p : Point) : Record.point.Value := (p.x, p.y, ())
def ofFields : Record.point.Value → Point
  | (x, y, ()) => ⟨x, y⟩

@[simp] theorem ofFields_fields (p : Point) : ofFields p.fields = p := rfl

end Point

namespace MeshVertex

def fields (v : MeshVertex) : Record.vertex.Value := (v.x, v.y, v.u, v.v, ())
def ofFields : Record.vertex.Value → MeshVertex
  | (x, y, u, v, ()) => ⟨x, y, u, v⟩

@[simp] theorem ofFields_fields (v : MeshVertex) : ofFields v.fields = v := rfl

end MeshVertex

namespace Monitor

def fields (m : Monitor) : Record.monitor.Value :=
  (m.x, m.y, m.width, m.height, m.physicalWidth, m.physicalHeight, m.refreshRate, m.scale,
    m.enabled, m.isPrimary, m.name, ())
def ofFields : Record.monitor.Value → Monitor
  | (x, y, width, height, physicalWidth, physicalHeight, refreshRate, scale, enabled, isPrimary,
      name, ()) =>
    ⟨x, y, width, height, physicalWidth, physicalHeight, refreshRate, scale, enabled, isPrimary,
      name⟩

@[simp] theorem ofFields_fields (m : Monitor) : ofFields m.fields = m := rfl

end Monitor

namespace Toplevel

def fields (t : Toplevel) : Record.toplevel.Value :=
  (t.windowId, t.x, t.y, t.width, t.height, t.visible, t.focused, (), t.state.word, t.title,
    t.appId, ())
def ofFields : Record.toplevel.Value → Toplevel
  | (windowId, x, y, width, height, visible, focused, (), state, title, appId, ()) =>
    ⟨windowId, x, y, width, height, visible, focused, ⟨state⟩, title, appId⟩

@[simp] theorem ofFields_fields (t : Toplevel) : ofFields t.fields = t := rfl

end Toplevel

/-- A count as it stands in its four-byte field. -/
def countWord (n : Nat) : UInt32 := UInt32.ofNat n

def Command.body : (c : Command) → c.type.layout.Value
  | .createBuffer b => ((b.bufferId, b.width, b.height, b.format, b.usage, ()), ())
  | .destroyBuffer id => ((id, ()), ())
  | .drawRect r => ((r.windowId, r.x, r.y, r.width, r.height, r.color, ()), ())
  | .drawLine l => ((l.windowId, l.x0, l.y0, l.x1, l.y1, l.color, l.thickness, ()), ())
  | .drawCircle c => ((c.windowId, c.cx, c.cy, c.radius, c.color, c.fill, ()), ())
  | .drawPolygon p =>
    ((p.windowId, countWord p.points.length, p.color, p.fill, ()), p.points.map Point.fields)
  | .batchBegin id n => ((id, n, ()), ())
  | .batchEnd id => ((id, ()), ())
  | .exportSurface s => ((s.windowId, s.surfaceId, s.flags, ()), ())
  | .importSurface s => ((s.surfaceId, s.windowId, s.x, s.y, s.width, s.height, ()), ())
  | .registerPointerEvent id => ((id, ()), ())
  | .registerKeyboardEvent id => ((id, ()), ())
  | .captureMouse id => ((id, ()), ())
  | .captureKeyboard id => ((id, ()), ())
  | .uploadImage i =>
    ((i.imageId, i.width, i.height, i.format, countWord i.data.length, ()), i.data)
  | .destroyImage id => ((id, ()), ())
  | .drawUploadedImage d =>
    ((d.windowId, d.imageId, d.x, d.y, d.width, d.height, d.srcX, d.srcY, d.srcWidth, d.srcHeight,
      d.alpha, ()), ())
  | .drawText d => ((d.windowId, d.x, d.y, d.color, d.fontSize, ()), d.text)
  | .setWindowVisible id visible => ((id, visible, ()), ())
  | .registerKeybind k => ((k.keybindId, k.modifiers, k.keycode, ()), ())
  | .unregisterKeybind id => ((id, ()), ())
  | .registerClickRegion r => ((r.windowId, r.regionId, r.x, r.y, r.width, r.height, ()), ())
  | .unregisterClickRegion id => ((id, ()), ())
  | .registerGlobalPointerEvent => ((), ())
  | .registerGlobalKeyboardEvent => ((), ())
  | .registerGlobalCaptureMouse => ((), ())
  | .registerGlobalCaptureKeyboard => ((), ())
  | .unregisterGlobalCaptureKeyboard => ((), ())
  | .unregisterGlobalCaptureMouse => ((), ())
  | .setWindowPosition p => ((p.windowId, p.x, p.y, ()), ())
  | .setWindowSize s => ((s.windowId, s.width, s.height, ()), ())
  | .setWindowOpacity id opacity => ((id, opacity, ()), ())
  | .setWindowTransform t => ((t.windowId, t.scaleX, t.scaleY, t.rotation, ()), ())
  | .setWindowBlur id radius enabled => ((id, radius, enabled, ()), ())
  | .setScreenEffect equation enabled => ((equation, enabled, ()), ())
  | .setWindowEffect id equation enabled => ((id, equation, enabled, ()), ())
  | .setWindowLayer id layer => ((id, layer, ()), ())
  | .raiseWindow id => ((id, ()), ())
  | .lowerWindow id => ((id, ()), ())
  | .setWindowParent id parent => ((id, parent, ()), ())
  | .setWindowTransform3d t => ((t.windowId, t.translate, t.rotate, t.scale, ()), ())
  | .setWindowMatrix id matrix => ((id, matrix, ()), ())
  | .setWindowState id state => ((id, state.word, ()), ())
  | .focusWindow id => ((id, ()), ())
  | .blurWindow id => ((id, ()), ())
  | .animateWindow a =>
    ((a.windowId, a.duration, a.x, a.y, a.scaleX, a.scaleY, a.opacity, a.translate, a.rotate,
      a.scaleZ, a.flags.word, ()), ())
  | .stopAnimation id => ((id, ()), ())
  | .setWindowMeshTransform m =>
    ((m.windowId, m.width, m.height, ()), m.vertices.map MeshVertex.fields)
  | .clearWindowMeshTransform id => ((id, ()), ())
  | .updateWindowMeshVertices p =>
    ((p.windowId, p.start, countWord p.vertices.length, ()), p.vertices.map MeshVertex.fields)
  | .subscribeWindowEvents mask => ((mask.word, ()), ())
  | .unsubscribeWindowEvents mask => ((mask.word, ()), ())
  | .setWindowDecorations d =>
    ((d.windowId, d.serverSide, (), d.titleHeight, d.borderWidth, d.colorFocused,
      d.colorUnfocused, ()), ())
  | .requestWindowDecorations id => ((id, ()), ())
  | .launchApp command => ((countWord (Utf8.encode command).length + 1, ()), command)

def Query.body : (q : Query) → q.type.layout.Value
  | .windowPosition id => ((id, ()), ())
  | .windowSize id => ((id, ()), ())
  | .windowAttributes id => ((id, ()), ())
  | .windowLayer id => ((id, ()), ())
  | .windowState id => ((id, ()), ())
  | .windowInfo id => ((id, ()), ())
  | .screenDimensions => ((), ())
  | .monitors => ((), ())
  | .screenCopy r =>
    ((r.requestId, r.region.x, r.region.y, r.region.width, r.region.height, ()), ())
  | .toplevelWindows visibleOnly => ((visibleOnly, ()), ())

def Reply.body : (r : Reply) → r.kind.type.layout.Value
  | .windowPosition p => ((p.windowId, p.x, p.y, ()), ())
  | .windowSize s => ((s.windowId, s.width, s.height, ()), ())
  | .windowAttributes a =>
    ((a.windowId, a.visible, a.opacity, a.scaleX, a.scaleY, a.rotation, ()), ())
  | .windowLayer l => ((l.windowId, l.layer, l.parentId, ()), ())
  | .windowState s => ((s.windowId, s.state.word, s.focused, ()), ())
  | .screenDimensions d => ((d.width, d.height, d.scale, ()), ())
  | .monitors ms => ((countWord ms.length, ()), ms.map Monitor.fields)
  | .windowInfo i =>
    ((i.windowId, i.x, i.y, i.width, i.height, i.visible, (), i.opacity, i.scaleX, i.scaleY,
      i.rotation, i.layer, i.parentId, i.state.word, i.focused, i.processId, i.processName, ()),
      ())
  | .screenCopy c =>
    ((c.requestId, c.width, c.height, c.format, countWord c.data.length, ()), c.data)
  | .toplevelWindows ts => ((countWord ts.length, ()), ts.map Toplevel.fields)

def Notice.body : (n : Notice) → n.type.layout.Value
  | .pointer m => ((m.windowId, m.time, m.button, m.state, m.x, m.y, ()), ())
  | .keyboard k => ((k.windowId, k.time, k.keycode, k.state, k.modifiers, ()), ())
  | .keybind id => ((id, ()), ())
  | .windowCreated w => ((w.windowId, w.width, w.height, w.decorated, w.focused, ()), ())
  | .windowDestroyed id => ((id, ()), ())
  | .clickRegion c => ((c.regionId, c.button, c.state, ()), ())
  | .compositorShutdown => ((), ())
  | .windowTitleChanged id title => ((id, title, ()), ())
  | .windowStateChanged s => ((s.windowId, s.state.word, s.visible, s.focused, ()), ())

namespace Message

/-- The fields of a message, in the order they are written. -/
def body : (m : Message) → m.type.layout.Value
  | .command c => c.body
  | .query q => q.body
  | .reply r => r.body
  | .notice n => n.body

def ofBody : (t : MessageType) → t.layout.Value → Message
  | .drawRect, ((id, x, y, w, h, color, ()), ()) => .command (.drawRect ⟨id, x, y, w, h, color⟩)
  | .drawLine, ((id, x0, y0, x1, y1, color, thickness, ()), ()) =>
    .command (.drawLine ⟨id, x0, y0, x1, y1, color, thickness⟩)
  | .drawCircle, ((id, cx, cy, radius, color, fill, ()), ()) =>
    .command (.drawCircle ⟨id, cx, cy, radius, color, fill⟩)
  | .drawPolygon, ((id, _, color, fill, ()), points) =>
    .command (.drawPolygon ⟨id, color, fill, points.map Point.ofFields⟩)
  | .batchBegin, ((id, n, ()), ()) => .command (.batchBegin id n)
  | .batchEnd, ((id, ()), ()) => .command (.batchEnd id)
  | .exportSurface, ((id, surface, flags, ()), ()) =>
    .command (.exportSurface ⟨id, surface, flags⟩)
  | .importSurface, ((surface, id, x, y, w, h, ()), ()) =>
    .command (.importSurface ⟨surface, id, x, y, w, h⟩)
  | .createBuffer, ((id, w, h, format, usage, ()), ()) =>
    .command (.createBuffer ⟨id, w, h, format, usage⟩)
  | .destroyBuffer, ((id, ()), ()) => .command (.destroyBuffer id)
  | .registerPointerEvent, ((id, ()), ()) => .command (.registerPointerEvent id)
  | .registerKeyboardEvent, ((id, ()), ()) => .command (.registerKeyboardEvent id)
  | .queryCaptureMouse, ((id, ()), ()) => .command (.captureMouse id)
  | .queryCaptureKeyboard, ((id, ()), ()) => .command (.captureKeyboard id)
  | .pointerEvent, ((id, time, button, state, x, y, ()), ()) =>
    .notice (.pointer ⟨id, time, button, state, x, y⟩)
  | .keyboardEvent, ((id, time, keycode, state, modifiers, ()), ()) =>
    .notice (.keyboard ⟨id, time, keycode, state, modifiers⟩)
  | .uploadImage, ((id, w, h, format, _, ()), data) =>
    .command (.uploadImage ⟨id, w, h, format, data⟩)
  | .destroyImage, ((id, ()), ()) => .command (.destroyImage id)
  | .drawUploadedImage, ((id, image, x, y, w, h, srcX, srcY, srcW, srcH, alpha, ()), ()) =>
    .command (.drawUploadedImage ⟨id, image, x, y, w, h, srcX, srcY, srcW, srcH, alpha⟩)
  | .drawText, ((id, x, y, color, fontSize, ()), text) =>
    .command (.drawText ⟨id, x, y, color, fontSize, text⟩)
  | .setWindowVisible, ((id, visible, ()), ()) => .command (.setWindowVisible id visible)
  | .registerKeybind, ((id, modifiers, keycode, ()), ()) =>
    .command (.registerKeybind ⟨id, modifiers, keycode⟩)
  | .unregisterKeybind, ((id, ()), ()) => .command (.unregisterKeybind id)
  | .keybindEvent, ((id, ()), ()) => .notice (.keybind id)
  | .windowCreated, ((id, w, h, decorated, focused, ()), ()) =>
    .notice (.windowCreated ⟨id, w, h, decorated, focused⟩)
  | .windowDestroyed, ((id, ()), ()) => .notice (.windowDestroyed id)
  | .registerClickRegion, ((id, region, x, y, w, h, ()), ()) =>
    .command (.registerClickRegion ⟨id, region, x, y, w, h⟩)
  | .unregisterClickRegion, ((region, ()), ()) => .command (.unregisterClickRegion region)
  | .clickRegionEvent, ((region, button, state, ()), ()) =>
    .notice (.clickRegion ⟨region, button, state⟩)
  | .requestScreenCopy, ((request, x, y, w, h, ()), ()) =>
    .query (.screenCopy ⟨request, ⟨x, y, w, h⟩⟩)
  | .screenCopyData, ((request, w, h, format, _, ()), data) =>
    .reply (.screenCopy ⟨request, w, h, format, data⟩)
  | .registerGlobalPointerEvent, _ => .command .registerGlobalPointerEvent
  | .registerGlobalKeyboardEvent, _ => .command .registerGlobalKeyboardEvent
  | .registerGlobalCaptureMouse, _ => .command .registerGlobalCaptureMouse
  | .registerGlobalCaptureKeyboard, _ => .command .registerGlobalCaptureKeyboard
  | .setWindowPosition, ((id, x, y, ()), ()) => .command (.setWindowPosition ⟨id, x, y⟩)
  | .setWindowSize, ((id, w, h, ()), ()) => .command (.setWindowSize ⟨id, w, h⟩)
  | .setWindowOpacity, ((id, opacity, ()), ()) => .command (.setWindowOpacity id opacity)
  | .setWindowTransform, ((id, scaleX, scaleY, rotation, ()), ()) =>
    .command (.setWindowTransform ⟨id, scaleX, scaleY, rotation⟩)
  | .compositorShutdown, _ => .notice .compositorShutdown
  | .queryWindowPosition, ((id, ()), ()) => .query (.windowPosition id)
  | .queryWindowSize, ((id, ()), ()) => .query (.windowSize id)
  | .queryWindowAttributes, ((id, ()), ()) => .query (.windowAttributes id)
  | .windowPositionData, ((id, x, y, ()), ()) => .reply (.windowPosition ⟨id, x, y⟩)
  | .windowSizeData, ((id, w, h, ()), ()) => .reply (.windowSize ⟨id, w, h⟩)
  | .windowAttributesData, ((id, visible, opacity, scaleX, scaleY, rotation, ()), ()) =>
    .reply (.windowAttributes ⟨id, visible, opacity, scaleX, scaleY, rotation⟩)
  | .unregisterGlobalCaptureKeyboard, _ => .command .unregisterGlobalCaptureKeyboard
  | .unregisterGlobalCaptureMouse, _ => .command .unregisterGlobalCaptureMouse
  | .setWindowLayer, ((id, layer, ()), ()) => .command (.setWindowLayer id layer)
  | .raiseWindow, ((id, ()), ()) => .command (.raiseWindow id)
  | .lowerWindow, ((id, ()), ()) => .command (.lowerWindow id)
  | .setWindowParent, ((id, parent, ()), ()) => .command (.setWindowParent id parent)
  | .setWindowTransform3d, ((id, translate, rotate, scale, ()), ()) =>
    .command (.setWindowTransform3d ⟨id, translate, rotate, scale⟩)
  | .setWindowMatrix, ((id, matrix, ()), ()) => .command (.setWindowMatrix id matrix)
  | .setWindowState, ((id, state, ()), ()) => .command (.setWindowState id ⟨state⟩)
  | .focusWindow, ((id, ()), ()) => .command (.focusWindow id)
  | .queryWindowLayer, ((id, ()), ()) => .query (.windowLayer id)
  | .queryWindowState, ((id, ()), ()) => .query (.windowState id)
  | .windowLayerData, ((id, layer, parent, ()), ()) => .reply (.windowLayer ⟨id, layer, parent⟩)
  | .windowStateData, ((id, state, focused, ()), ()) =>
    .reply (.windowState ⟨id, ⟨state⟩, focused⟩)
  | .queryScreenDimensions, _ => .query .screenDimensions
  | .screenDimensionsData, ((w, h, scale, ()), ()) => .reply (.screenDimensions ⟨w, h, scale⟩)
  | .queryMonitors, _ => .query .monitors
  | .monitorsData, (_, ms) => .reply (.monitors (ms.map Monitor.ofFields))
  | .queryWindowInfo, ((id, ()), ()) => .query (.windowInfo id)
  | .windowInfoData,
      ((id, x, y, w, h, visible, (), opacity, scaleX, scaleY, rotation, layer, parent, state,
        focused, processId, processName, ()), ()) =>
    .reply (.windowInfo ⟨id, x, y, w, h, visible, opacity, scaleX, scaleY, rotation, layer, parent,
      ⟨state⟩, focused, processId, processName⟩)
  | .setWindowBlur, ((id, radius, enabled, ()), ()) => .command (.setWindowBlur id radius enabled)
  | .setScreenEffect, ((equation, enabled, ()), ()) =>
    .command (.setScreenEffect equation enabled)
  | .setWindowEffect, ((id, equation, enabled, ()), ()) =>
    .command (.setWindowEffect id equation enabled)
  | .animateWindow,
      ((id, duration, x, y, scaleX, scaleY, opacity, translate, rotate, scaleZ, flags, ()), ()) =>
    .command (.animateWindow ⟨id, duration, x, y, scaleX, scaleY, opacity, translate, rotate,
      scaleZ, ⟨flags⟩⟩)
  | .stopAnimation, ((id, ()), ()) => .command (.stopAnimation id)
  | .blurWindow, ((id, ()), ()) => .command (.blurWindow id)
  | .setWindowMeshTransform, ((id, w, h, ()), vs) =>
    .command (.setWindowMeshTransform ⟨id, w, h, vs.map MeshVertex.ofFields⟩)
  | .clearWindowMeshTransform, ((id, ()), ()) => .command (.clearWindowMeshTransform id)
  | .updateWindowMeshVertices, ((id, start, _, ()), vs) =>
    .command (.updateWindowMeshVertices ⟨id, start, vs.map MeshVertex.ofFields⟩)
  | .queryToplevelWindows, ((visibleOnly, ()), ()) => .query (.toplevelWindows visibleOnly)
  | .toplevelWindowsData, (_, ts) => .reply (.toplevelWindows (ts.map Toplevel.ofFields))
  | .subscribeWindowEvents, ((mask, ()), ()) => .command (.subscribeWindowEvents ⟨mask⟩)
  | .unsubscribeWindowEvents, ((mask, ()), ()) => .command (.unsubscribeWindowEvents ⟨mask⟩)
  | .windowTitleChanged, ((id, title, ()), ()) => .notice (.windowTitleChanged id title)
  | .windowStateChanged, ((id, state, visible, focused, ()), ()) =>
    .notice (.windowStateChanged ⟨id, ⟨state⟩, visible, focused⟩)
  | .setWindowDecorations,
      ((id, serverSide, (), titleHeight, borderWidth, focused, unfocused, ()), ()) =>
    .command (.setWindowDecorations ⟨id, serverSide, titleHeight, borderWidth, focused, unfocused⟩)
  | .requestWindowDecorations, ((id, ()), ()) => .command (.requestWindowDecorations id)
  | .launchApp, (_, text) => .command (.launchApp text)

@[simp] theorem ofBody_body (m : Message) : ofBody m.type m.body = m := by
  rcases m with c | q | r | n
  · cases c <;> simp [ofBody, body, Command.body, type, Command.type, Function.comp_def]
  · cases q <;> rfl
  · cases r <;> simp [ofBody, body, Reply.body, type, Reply.kind, ReplyKind.type, Function.comp_def]
  · cases n <;> rfl

@[simp] theorem type_ofBody (t : MessageType) (b : t.layout.Value) : (ofBody t b).type = t := by
  cases t <;> rfl

end Message
end CompositorClient
