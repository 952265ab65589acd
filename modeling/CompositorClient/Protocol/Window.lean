import CompositorClient.Protocol.Word

/-! What commands and replies about windows carry. -/

namespace CompositorClient

structure WindowPosition where
  windowId : WindowId
  x : Int32
  y : Int32
  deriving DecidableEq

structure WindowSize where
  windowId : WindowId
  width : UInt32
  height : UInt32
  deriving DecidableEq

/-- Scale and rotation in the plane, in degrees. -/
structure WindowTransform where
  windowId : WindowId
  scaleX : Single
  scaleY : Single
  rotation : Single
  deriving DecidableEq

structure WindowTransform3d where
  windowId : WindowId
  translate : Vector Single 3
  rotate : Vector Single 3
  scale : Vector Single 3
  deriving DecidableEq

/-- Carries every target; `flags` says which of them move. -/
structure Animation where
  windowId : WindowId
  duration : UInt32
  x : Single
  y : Single
  scaleX : Single
  scaleY : Single
  opacity : Single
  translate : Vector Single 3
  rotate : Vector Single 3
  scaleZ : Single
  flags : AnimationFlags
  deriving DecidableEq

structure MeshVertex where
  x : Single
  y : Single
  u : Single
  v : Single
  deriving DecidableEq

/-- A grid of `width * height` vertices, row by row. -/
structure Mesh where
  windowId : WindowId
  width : UInt32
  height : UInt32
  vertices : List MeshVertex
  deriving DecidableEq

structure MeshPatch where
  windowId : WindowId
  start : UInt32
  vertices : List MeshVertex
  deriving DecidableEq

structure Decorations where
  windowId : WindowId
  serverSide : Bool
  titleHeight : UInt32
  borderWidth : UInt32
  colorFocused : UInt32
  colorUnfocused : UInt32
  deriving DecidableEq

structure WindowAttributes where
  windowId : WindowId
  visible : Bool
  opacity : Single
  scaleX : Single
  scaleY : Single
  rotation : Single
  deriving DecidableEq

/-- A `parentId` of zero means the root. -/
structure WindowLayer where
  windowId : WindowId
  layer : Int32
  parentId : WindowId
  deriving DecidableEq

structure WindowStatus where
  windowId : WindowId
  state : WindowState
  focused : Bool
  deriving DecidableEq

structure WindowInfo where
  windowId : WindowId
  x : Int32
  y : Int32
  width : UInt32
  height : UInt32
  visible : Bool
  opacity : Single
  scaleX : Single
  scaleY : Single
  rotation : Single
  layer : Int32
  parentId : WindowId
  state : WindowState
  focused : Bool
  processId : UInt32
  processName : String
  deriving DecidableEq

structure Toplevel where
  windowId : WindowId
  x : Int32
  y : Int32
  width : UInt32
  height : UInt32
  visible : Bool
  focused : Bool
  state : WindowState
  title : String
  appId : String
  deriving DecidableEq

structure NewWindow where
  windowId : WindowId
  width : UInt32
  height : UInt32
  decorated : Bool
  focused : Bool
  deriving DecidableEq

structure StateChange where
  windowId : WindowId
  state : WindowState
  visible : Bool
  focused : Bool
  deriving DecidableEq

end CompositorClient
