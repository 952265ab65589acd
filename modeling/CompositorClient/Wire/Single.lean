/-! Single-precision numbers, held by their 32 bits so that every bit pattern, each NaN
included, passes through unchanged.  `agrees` is the numeric comparison. -/

namespace CompositorClient

structure Single where
  bits : UInt32
  deriving DecidableEq, Repr

namespace Single

def zero : Single := ⟨0⟩
def one : Single := ⟨0x3f800000⟩

/-- The bits without the sign. -/
def magnitude (x : Single) : UInt32 := x.bits &&& 0x7fffffff

def isNaN (x : Single) : Bool := 0x7f800000 < x.magnitude
def isZero (x : Single) : Bool := x.magnitude == 0

/-- A NaN agrees with nothing, and the two zeros agree. -/
def agrees (x y : Single) : Bool :=
  !x.isNaN && !y.isNaN && (x.bits == y.bits || x.isZero && y.isZero)

end Single
end CompositorClient
