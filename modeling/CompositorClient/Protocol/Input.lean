import CompositorClient.Protocol.Word

/-! What input commands and events carry. -/

namespace CompositorClient

structure Keybind where
  keybindId : UInt32
  modifiers : UInt32
  keycode : UInt32
  deriving DecidableEq

structure ClickRegion where
  windowId : WindowId
  regionId : UInt32
  x : Int32
  y : Int32
  width : UInt32
  height : UInt32
  deriving DecidableEq

/-- Motion or a button transition: state 1 is pressed, 0 released. -/
structure PointerMotion where
  windowId : WindowId
  time : UInt32
  button : UInt32
  state : UInt32
  x : Int32
  y : Int32
  deriving DecidableEq

structure KeyStroke where
  windowId : WindowId
  time : UInt32
  keycode : UInt32
  state : UInt32
  modifiers : UInt32
  deriving DecidableEq

structure RegionClick where
  regionId : UInt32
  button : UInt32
  state : UInt32
  deriving DecidableEq

end CompositorClient
