import CompositorClient.Protocol.Word

/-! What queries and replies about the screen carry. -/

namespace CompositorClient

structure ScreenRegion where
  x : UInt32
  y : UInt32
  width : UInt32
  height : UInt32
  deriving DecidableEq

/-- What is captured when no region is named. -/
def ScreenRegion.default : ScreenRegion := ⟨0, 0, 1920, 1080⟩

structure CopyRequest where
  requestId : UInt32
  region : ScreenRegion := ScreenRegion.default
  deriving DecidableEq

structure ScreenCopy where
  requestId : UInt32
  width : UInt32
  height : UInt32
  format : UInt32
  data : List UInt8
  deriving DecidableEq

/-- The bounding box of all monitors. -/
structure ScreenDimensions where
  width : UInt32
  height : UInt32
  scale : Single
  deriving DecidableEq

/-- Sizes in pixels and millimetres; the refresh rate in thousandths of a hertz. -/
structure Monitor where
  x : Int32
  y : Int32
  width : UInt32
  height : UInt32
  physicalWidth : UInt32
  physicalHeight : UInt32
  refreshRate : UInt32
  scale : Single
  enabled : Bool
  isPrimary : Bool
  name : String
  deriving DecidableEq

end CompositorClient
