import CompositorClient.Wire.Single

/-! Identifiers, flag words and numbers with a fixed meaning. -/

namespace CompositorClient

abbrev WindowId := UInt32
abbrev ImageId := UInt32

/-- The window that pointer events name when they belong to no window. -/
def rootWindow : WindowId := 0

/-- Four bytes a pixel, blue first in memory. -/
def formatArgb8888 : UInt32 := 0x34325241

structure WindowState where
  word : UInt32
  deriving DecidableEq

structure EventMask where
  word : UInt32
  deriving DecidableEq

structure AnimationFlags where
  word : UInt32
  deriving DecidableEq

namespace AnimationFlags

def position : UInt32 := 1
def scale : UInt32 := 2
def opacity : UInt32 := 4
def translate3d : UInt32 := 8
def rotate3d : UInt32 := 16
def scale3d : UInt32 := 32

end AnimationFlags

inductive MouseButton
  | left | right | middle
  deriving DecidableEq

namespace MouseButton

def all : List MouseButton := [left, right, middle]

def code : MouseButton → UInt32
  | left => 0x110
  | right => 0x111
  | middle => 0x112

def ofCode? (c : UInt32) : Option MouseButton :=
  all.find? (·.code == c)

theorem ofCode?_eq_some_iff (c : UInt32) (b : MouseButton) : ofCode? c = some b ↔ b.code = c := by
  constructor
  · intro h
    simpa using List.find?_some h
  · rintro rfl
    cases b <;> rfl

end MouseButton

end CompositorClient
