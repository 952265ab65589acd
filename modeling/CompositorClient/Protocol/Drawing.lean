import CompositorClient.Protocol.Word

/-! What drawing commands carry. -/

namespace CompositorClient

structure NewBuffer where
  bufferId : UInt32
  width : UInt32
  height : UInt32
  format : UInt32
  usage : UInt32
  deriving DecidableEq

structure Rectangle where
  windowId : WindowId
  x : UInt32
  y : UInt32
  width : UInt32
  height : UInt32
  color : UInt32
  deriving DecidableEq

structure Line where
  windowId : WindowId
  x0 : Int32
  y0 : Int32
  x1 : Int32
  y1 : Int32
  color : UInt32
  thickness : UInt32
  deriving DecidableEq

structure Circle where
  windowId : WindowId
  cx : Int32
  cy : Int32
  radius : UInt32
  color : UInt32
  fill : Bool
  deriving DecidableEq

structure Point where
  x : Int32
  y : Int32
  deriving DecidableEq

structure Polygon where
  windowId : WindowId
  color : UInt32
  fill : Bool
  points : List Point
  deriving DecidableEq

structure ImageUpload where
  imageId : ImageId
  width : UInt32
  height : UInt32
  format : UInt32
  data : List UInt8
  deriving DecidableEq

/-- Zero sizes leave the choice to the compositor, which draws the whole image. -/
structure ImageDrawing where
  windowId : WindowId
  imageId : ImageId
  x : Int32
  y : Int32
  width : UInt32 := 0
  height : UInt32 := 0
  srcX : UInt32 := 0
  srcY : UInt32 := 0
  srcWidth : UInt32 := 0
  srcHeight : UInt32 := 0
  alpha : UInt8 := 255
  deriving DecidableEq

def defaultFontSize : UInt32 := 12

structure TextDrawing where
  windowId : WindowId
  x : Int32
  y : Int32
  color : UInt32
  fontSize : UInt32 := defaultFontSize
  text : String
  deriving DecidableEq

structure SurfaceExport where
  windowId : WindowId
  surfaceId : UInt32
  flags : UInt32
  deriving DecidableEq

structure SurfaceImport where
  surfaceId : UInt32
  windowId : WindowId
  x : Int32
  y : Int32
  width : UInt32
  height : UInt32
  deriving DecidableEq

end CompositorClient
