/-! Little-endian numbers: the `n` low bytes of a number, least significant first, and
the number that a byte string spells. -/

namespace CompositorClient.LittleEndian

def bytes : Nat → Nat → List UInt8
  | 0, _ => []
  | n + 1, v => UInt8.ofNat v :: bytes n (v / 256)

@[simp] theorem length_bytes (n v : Nat) : (bytes n v).length = n := by
  induction n generalizing v <;> simp_all [bytes]

def value : List UInt8 → Nat
  | [] => 0
  | b :: bs => b.toNat + 256 * value bs

/-- How many numbers `n` bytes can spell. -/
def bound : Nat → Nat
  | 0 => 1
  | n + 1 => 256 * bound n

theorem value_lt (bs : List UInt8) : value bs < bound bs.length := by
  induction bs with
  | nil => simp [value, bound]
  | cons b bs ih =>
    have hb := b.toNat_lt
    simp only [value, List.length_cons, bound]
    omega

theorem value_bytes (n v : Nat) : value (bytes n v) = v % bound n := by
  induction n generalizing v with
  | zero => simp [bytes, value, bound, Nat.mod_one]
  | succ n ih =>
    have hb : (UInt8.ofNat v).toNat = v % 256 := by simp
    rw [bytes, value, ih, hb, bound, Nat.mod_mul]

theorem bytes_value (bs : List UInt8) : bytes bs.length (value bs) = bs := by
  induction bs with
  | nil => rfl
  | cons b bs ih =>
    have hb := b.toNat_lt
    have hd : (b.toNat + 256 * value bs) / 256 = value bs := by omega
    have hm : UInt8.ofNat (b.toNat + 256 * value bs) = b := by
      apply UInt8.toNat_inj.mp
      rw [UInt8.toNat_ofNat']
      omega
    simp only [List.length_cons, value, bytes, hd, hm, ih]

end CompositorClient.LittleEndian
