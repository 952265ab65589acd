import CompositorClient.Protocol.Error
import CompositorClient.Protocol.Message

/-! What subscribers can be told.  Each notice becomes one event, but for pointer notices,
which also tell of clicks and releases; the last four kinds come from the connection. -/

namespace CompositorClient

structure ButtonChange where
  windowId : WindowId
  button : MouseButton
  x : Int32
  y : Int32
  time : UInt32
  deriving DecidableEq

inductive Event
  | pointer (motion : PointerMotion)
  | globalPointer (motion : PointerMotion)
  | click (change : ButtonChange)
  | release (change : ButtonChange)
  | keyboard (stroke : KeyStroke)
  | keybind (keybindId : UInt32)
  | windowCreated (window : NewWindow)
  | windowDestroyed (windowId : WindowId)
  | clickRegion (click : RegionClick)
  | windowTitleChanged (windowId : WindowId) (title : String)
  | windowStateChanged (change : StateChange)
  | compositorShutdown
  | connected
  | closed
  | transportError (text : String)
  | protocolViolation (error : ProtocolError)
  deriving DecidableEq

inductive EventKind
  | pointer | globalPointer | click | release | keyboard | keybind | windowCreated
  | windowDestroyed | clickRegion | windowTitleChanged | windowStateChanged
  | compositorShutdown | connected | closed | transportError | protocolViolation
  deriving DecidableEq

def Event.kind : Event → EventKind
  | pointer _ => .pointer
  | globalPointer _ => .globalPointer
  | click _ => .click
  | release _ => .release
  | keyboard _ => .keyboard
  | keybind _ => .keybind
  | windowCreated _ => .windowCreated
  | windowDestroyed _ => .windowDestroyed
  | clickRegion _ => .clickRegion
  | windowTitleChanged _ _ => .windowTitleChanged
  | windowStateChanged _ => .windowStateChanged
  | compositorShutdown => .compositorShutdown
  | connected => .connected
  | closed => .closed
  | transportError _ => .transportError
  | protocolViolation _ => .protocolViolation

namespace PointerMotion

/-- The click or release that the motion tells of: one of three buttons, state 1 or 0. -/
def buttonEvents (m : PointerMotion) : List Event :=
  match MouseButton.ofCode? m.button with
  | none => []
  | some button =>
    let change : ButtonChange := ⟨m.windowId, button, m.x, m.y, m.time⟩
    if m.state = 1 then [.click change] else if m.state = 0 then [.release change] else []

def events (m : PointerMotion) : List Event :=
  if m.windowId = rootWindow then [.globalPointer m] else .pointer m :: m.buttonEvents

end PointerMotion

def Notice.events : Notice → List Event
  | pointer m => m.events
  | keyboard k => [.keyboard k]
  | keybind id => [.keybind id]
  | windowCreated w => [.windowCreated w]
  | windowDestroyed id => [.windowDestroyed id]
  | clickRegion c => [.clickRegion c]
  | compositorShutdown => [.compositorShutdown]
  | windowTitleChanged id title => [.windowTitleChanged id title]
  | windowStateChanged s => [.windowStateChanged s]

end CompositorClient
