import CompositorClient.Protocol.Window

/-! The targets of one animation, each given or left out.  A group's flag is set when any of
its targets is given; a target left out is sent as the value that changes nothing. -/

namespace CompositorClient

structure AnimationTargets where
  windowId : WindowId
  duration : UInt32
  x : Option Single := none
  y : Option Single := none
  scaleX : Option Single := none
  scaleY : Option Single := none
  opacity : Option Single := none
  translate : Option (Vector Single 3) := none
  rotate : Option (Vector Single 3) := none
  scaleZ : Option Single := none
  deriving DecidableEq

namespace AnimationTargets

def withPosition (t : AnimationTargets) (x y : Single) : AnimationTargets :=
  { t with x := some x, y := some y }

def withScale (t : AnimationTargets) (x y : Single) : AnimationTargets :=
  { t with scaleX := some x, scaleY := some y }

def withOpacity (t : AnimationTargets) (opacity : Single) : AnimationTargets :=
  { t with opacity := some opacity }

def withTranslation (t : AnimationTargets) (v : Vector Single 3) : AnimationTargets :=
  { t with translate := some v }

def withRotation (t : AnimationTargets) (v : Vector Single 3) : AnimationTargets :=
  { t with rotate := some v }

def withScaleZ (t : AnimationTargets) (z : Single) : AnimationTargets :=
  { t with scaleZ := some z }

def flagIf (given : Bool) (bit : UInt32) : UInt32 := if given then bit else 0

def flags (t : AnimationTargets) : AnimationFlags :=
  ⟨flagIf (t.x.isSome || t.y.isSome) AnimationFlags.position
    ||| flagIf (t.scaleX.isSome || t.scaleY.isSome) AnimationFlags.scale
    ||| flagIf t.opacity.isSome AnimationFlags.opacity
    ||| flagIf t.translate.isSome AnimationFlags.translate3d
    ||| flagIf t.rotate.isSome AnimationFlags.rotate3d
    ||| flagIf t.scaleZ.isSome AnimationFlags.scale3d⟩

def still : Vector Single 3 := #v[.zero, .zero, .zero]

def build (t : AnimationTargets) : Animation where
  windowId := t.windowId
  duration := t.duration
  x := t.x.getD .zero
  y := t.y.getD .zero
  scaleX := t.scaleX.getD .one
  scaleY := t.scaleY.getD .one
  opacity := t.opacity.getD .one
  translate := t.translate.getD still
  rotate := t.rotate.getD still
  scaleZ := t.scaleZ.getD .one
  flags := t.flags

end AnimationTargets
end CompositorClient
