import CompositorClient.Proofs.Padded
import CompositorClient.Wire.Layout
import Mathlib.Tactic.Common

/-! Reading a layout undoes writing it, whatever bytes follow.  Each part of a layout has one
lemma on its length and one on its reading; the lemma for a whole is put together from them. -/

namespace CompositorClient

namespace Field

theorem front_bytes_append (n v : Nat) (t : List UInt8) :
    front n (LittleEndian.bytes n v ++ t) = v % LittleEndian.bound n := by
  have h : (LittleEndian.bytes n v ++ t).take n = LittleEndian.bytes n v :=
    List.take_left' (LittleEndian.length_bytes n v)
  rw [front, h, LittleEndian.value_bytes]

theorem front_bytes_append_of_lt {n v : Nat} (h : v < LittleEndian.bound n) (t : List UInt8) :
    front n (LittleEndian.bytes n v ++ t) = v := by
  rw [front_bytes_append, Nat.mod_eq_of_lt h]

theorem front_word_append (w : UInt32) (t : List UInt8) :
    UInt32.ofNat (front 4 (LittleEndian.bytes 4 w.toNat ++ t)) = w := by
  rw [front_bytes_append_of_lt (n := 4) w.toNat_lt, UInt32.ofNat_toNat]

theorem front_byte_append (b : UInt8) (t : List UInt8) : front 1 (b :: t) = b.toNat := by
  simp [front, LittleEndian.value]

theorem length_flatMap_single (xs : List Single) :
    (xs.flatMap fun x => LittleEndian.bytes 4 x.bits.toNat).length = 4 * xs.length := by
  induction xs with
  | nil => rfl
  | cons x xs ih =>
    rw [List.flatMap_cons, List.length_append, ih, LittleEndian.length_bytes, List.length_cons]
    omega

theorem length_encode (f : Field) (v : f.Value) : (f.encode v).length = f.size := by
  cases f with
  | byte => rfl
  | half => exact LittleEndian.length_bytes 2 _
  | word => exact LittleEndian.length_bytes 4 _
  | int => exact LittleEndian.length_bytes 4 _
  | single => exact LittleEndian.length_bytes 4 _
  | flag => rfl
  | wideFlag => exact LittleEndian.length_bytes 4 _
  | singles n =>
    rw [encode, length_flatMap_single, Vector.length_toList, size]
  | gap n => exact List.length_replicate
  | text capacity => exact Padded.length_encode capacity v

theorem front_drop_flatMap (xs : List Single) (i : Nat) (hi : i < xs.length) (t : List UInt8) :
    UInt32.ofNat (front 4
      (((xs.flatMap fun x => LittleEndian.bytes 4 x.bits.toNat) ++ t).drop (4 * i))) =
      xs[i].bits := by
  induction xs generalizing i with
  | nil => exact absurd hi (Nat.not_lt_zero i)
  | cons x xs ih =>
    rw [List.flatMap_cons, List.append_assoc]
    cases i with
    | zero => exact front_word_append x.bits _
    | succ i =>
      have hlen := LittleEndian.length_bytes 4 x.bits.toNat
      rw [Nat.mul_succ, Nat.add_comm, ← List.drop_drop, List.drop_left' hlen,
        ih i (Nat.lt_of_succ_lt_succ hi), List.getElem_cons_succ]

theorem decode_encode_append (f : Field) (v : f.Value) (t : List UInt8) :
    f.decode (f.encode v ++ t) = f.stored v := by
  cases f with
  | byte =>
    rw [encode, List.singleton_append, decode, front_byte_append, UInt8.ofNat_toNat]
    rfl
  | half =>
    rw [encode, decode, front_bytes_append_of_lt (n := 2) (UInt16.toNat_lt v), UInt16.ofNat_toNat]
    rfl
  | word => exact front_word_append v t
  | int =>
    rw [encode, decode, front_word_append]
    exact Int32.toInt32_toUInt32 v
  | single => exact congrArg Single.mk (front_word_append v.bits t)
  | flag =>
    rw [encode, List.singleton_append, decode, front_byte_append]
    cases v <;> rfl
  | wideFlag =>
    cases v <;> rfl
  | singles n =>
    refine Vector.ext fun i hi => ?_
    have h := front_drop_flatMap v.toList i (by simpa using hi) t
    rw [Vector.getElem_toList] at h
    rw [decode, Vector.getElem_ofFn]
    exact congrArg Single.mk h
  | gap n => rfl
  | text capacity =>
    have h : (encode (.text capacity) v ++ t).take capacity = Padded.encode capacity v :=
      List.take_left' (Padded.length_encode capacity v)
    rw [decode, h, Padded.decode_encode]
    rfl

theorem front_take {n k : Nat} (h : n ≤ k) (bs : List UInt8) :
    front n (bs.take k) = front n bs := by
  rw [front, List.take_take, Nat.min_eq_left h, front]

theorem decode_take_size (f : Field) (bs : List UInt8) :
    f.decode (bs.take f.size) = f.decode bs := by
  cases f with
  | singles n =>
    refine Vector.ext fun i hi => ?_
    have hroom : 4 ≤ 4 * n - 4 * i := by omega
    simp only [decode, size, Vector.getElem_ofFn, List.drop_take, front_take hroom]
  | gap n => rfl
  | text capacity => rw [decode, size, List.take_take, Nat.min_self, decode]
  | _ => simp [decode, size, front_take]

theorem decode_take {f : Field} {n : Nat} (h : f.size ≤ n) (bs : List UInt8) :
    f.decode (bs.take n) = f.decode bs := by
  rw [← decode_take_size, List.take_take, Nat.min_eq_left h, decode_take_size]

/-- Fields in which every byte string of their size spells a value of its own. -/
def Exact : Field → Prop
  | byte | half | word | int | single => True
  | _ => False

theorem front_lt_bound (n : Nat) {bs : List UInt8} (h : n ≤ bs.length) :
    front n bs < LittleEndian.bound n := by
  have hv := LittleEndian.value_lt (bs.take n)
  rwa [List.length_take_of_le h] at hv

theorem bytes_front (n : Nat) {bs : List UInt8} (h : n ≤ bs.length) :
    LittleEndian.bytes n (front n bs) = bs.take n := by
  have hb := LittleEndian.bytes_value (bs.take n)
  rwa [List.length_take_of_le h] at hb

theorem toNat_ofNat_front_four {bs : List UInt8} (h : 4 ≤ bs.length) :
    (UInt32.ofNat (front 4 bs)).toNat = front 4 bs := by
  rw [UInt32.toNat_ofNat']
  exact Nat.mod_eq_of_lt (front_lt_bound 4 h)

theorem encode_decode {f : Field} (hf : f.Exact) {bs : List UInt8} (h : f.size ≤ bs.length) :
    f.encode (f.decode bs) = bs.take f.size := by
  cases f with
  | byte =>
    have hn : (UInt8.ofNat (front 1 bs)).toNat = front 1 bs := by
      rw [UInt8.toNat_ofNat']
      exact Nat.mod_eq_of_lt (front_lt_bound 1 h)
    have hb := bytes_front 1 h
    rw [← hn] at hb
    rw [encode, decode, size, ← hb, LittleEndian.bytes, LittleEndian.bytes, UInt8.ofNat_toNat]
  | half =>
    have hn : (UInt16.ofNat (front 2 bs)).toNat = front 2 bs := by
      rw [UInt16.toNat_ofNat']
      exact Nat.mod_eq_of_lt (front_lt_bound 2 h)
    rw [encode, decode, hn]
    exact bytes_front 2 h
  | word =>
    rw [encode, decode, toNat_ofNat_front_four h]
    exact bytes_front 4 h
  | int =>
    rw [encode, decode, UInt32.toUInt32_toInt32, toNat_ofNat_front_four h]
    exact bytes_front 4 h
  | single =>
    rw [encode, decode, toNat_ofNat_front_four h]
    exact bytes_front 4 h
  | _ => exact hf.elim

end Field

namespace Record

theorem length_encode (fs : Record) (v : fs.Value) : (fs.encode v).length = fs.size := by
  induction fs with
  | nil => rfl
  | cons f fs ih => rw [encode, List.length_append, Field.length_encode, ih, size]

theorem decode_encode_append (fs : Record) (v : fs.Value) (t : List UInt8) :
    fs.decode (fs.encode v ++ t) = fs.stored v := by
  induction fs with
  | nil => rfl
  | cons f fs ih =>
    have hd : (f.encode v.1 ++ (encode fs v.2 ++ t)).drop f.size = encode fs v.2 ++ t :=
      List.drop_left' (Field.length_encode f v.1)
    rw [encode, List.append_assoc, decode, Field.decode_encode_append, hd, ih, stored]

theorem decode_take {fs : Record} {n : Nat} (h : fs.size ≤ n) (bs : List UInt8) :
    fs.decode (bs.take n) = fs.decode bs := by
  induction fs generalizing n bs with
  | nil => rfl
  | cons f fs ih =>
    rw [size] at h
    have hrest : decode fs ((bs.take n).drop f.size) = decode fs (bs.drop f.size) := by
      rw [List.drop_take]
      exact ih (by omega) _
    rw [decode, Field.decode_take (by omega), hrest, decode]

theorem length_flatMap_encode (fs : Record) (rs : List fs.Value) :
    (rs.flatMap fs.encode).length = rs.length * fs.size := by
  induction rs with
  | nil => rw [List.flatMap_nil, List.length_nil, List.length_nil, Nat.zero_mul]
  | cons r rs ih =>
    rw [List.flatMap_cons, List.length_append, length_encode, ih, List.length_cons,
      Nat.succ_mul, Nat.add_comm]

theorem decodeMany_flatMap_encode (fs : Record) (rs : List fs.Value) :
    fs.decodeMany rs.length (rs.flatMap fs.encode) = rs.map fs.stored := by
  induction rs with
  | nil => rfl
  | cons r rs ih =>
    have hd : (fs.encode r ++ rs.flatMap fs.encode).drop fs.size = rs.flatMap fs.encode :=
      List.drop_left' (length_encode fs r)
    rw [List.flatMap_cons, List.length_cons, decodeMany, decode_encode_append, hd, ih,
      List.map_cons]

theorem encode_decode {fs : Record} (hf : ∀ f ∈ fs, f.Exact) {bs : List UInt8}
    (h : fs.size ≤ bs.length) : fs.encode (fs.decode bs) = bs.take fs.size := by
  induction fs generalizing bs with
  | nil => rfl
  | cons f fs ih =>
    rw [size] at h
    obtain ⟨hfirst, hrest⟩ := List.forall_mem_cons.mp hf
    have hd : size fs ≤ (bs.drop f.size).length := by
      rw [List.length_drop]
      omega
    rw [decode, encode, Field.encode_decode hfirst (by omega), ih hrest hd, size, List.take_add]

end Record

namespace Tail

/-- The records of a tail take some room each, so that their number shows in its length. -/
def Measured : Tail → Prop
  | records fs => 0 < fs.size
  | _ => True

theorem decode_encode (t : Tail) (ht : t.Measured) (v : t.Value) :
    t.decode (t.encode v) = t.stored v := by
  cases t with
  | empty => rfl
  | text => exact Padded.decode_terminated v []
  | bytes => rfl
  | records fs =>
    rw [encode, decode, Record.length_flatMap_encode, Nat.mul_div_cancel _ ht,
      Record.decodeMany_flatMap_encode, stored]

end Tail

namespace Layout

variable {l : Layout} {v : l.Value}

theorem length_encode (l : Layout) (v : l.Value) :
    (l.encode v).length = l.fields.size + (l.tail.encode v.2).length := by
  rw [encode, List.length_append, Record.length_encode]

theorem fields_decode_encode_append (l : Layout) (v : l.Value) (t : List UInt8) :
    l.fields.decode (l.encode v ++ t) = l.fields.stored v.1 := by
  rw [encode, List.append_assoc, Record.decode_encode_append]

theorem drop_encode_append (l : Layout) (v : l.Value) (t : List UInt8) :
    (l.encode v ++ t).drop l.fields.size = l.tail.encode v.2 ++ t := by
  rw [encode, List.append_assoc]
  exact List.drop_left' (Record.length_encode _ _)

def Declares (l : Layout) (v : l.Value) : Prop :=
  l.extent (l.fields.stored v.1) = some (l.tail.encode v.2).length

theorem need_encode_append (h : l.Declares v) (t : List UInt8) :
    l.need (l.encode v ++ t) = (l.encode v).length := by
  have hlen := length_encode l v
  have hn : ¬ (l.encode v ++ t).length < l.fields.size := by
    rw [List.length_append]
    omega
  rw [need, if_neg hn, fields_decode_encode_append, h, Option.getD_some, hlen]

theorem decode_encode_append (h : l.Declares v) (hm : l.tail.Measured) (t : List UInt8) :
    l.decode (l.encode v ++ t) = .ok (l.stored v) := by
  have htail : l.tailBytes (l.encode v ++ t) = l.tail.encode v.2 := by
    rw [tailBytes, fields_decode_encode_append, h]
    dsimp only
    rw [drop_encode_append]
    exact List.take_left
  have hread : l.read (l.encode v ++ t) = l.stored v := by
    rw [read, fields_decode_encode_append, htail, Tail.decode_encode _ hm, stored]
  rw [decode, need_encode_append h, if_pos (by simp), hread]

/-- A tail of no declared length is read to its end; only its reader can tell what belongs to
the text and what follows. -/
theorem decode_encode_append_of_open (h : l.extent (l.fields.stored v.1) = none)
    (t : List UInt8) (ht : l.tail.decode (l.tail.encode v.2 ++ t) = l.tail.stored v.2) :
    l.decode (l.encode v ++ t) = .ok (l.stored v) := by
  have hlen := length_encode l v
  have htail : l.tailBytes (l.encode v ++ t) = l.tail.encode v.2 ++ t := by
    rw [tailBytes, fields_decode_encode_append, h]
    exact drop_encode_append l v t
  have hneed : l.need (l.encode v ++ t) ≤ (l.encode v ++ t).length := by
    have hn : ¬ (l.encode v ++ t).length < l.fields.size := by
      rw [List.length_append]
      omega
    rw [need, if_neg hn, fields_decode_encode_append, h]
    exact Nat.not_lt.mp hn
  rw [decode, if_pos hneed, read, fields_decode_encode_append, htail, ht, stored]

end Layout
end CompositorClient
