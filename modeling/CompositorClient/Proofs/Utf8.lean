import CompositorClient.Text.Utf8
import Mathlib.Tactic.Common

/-! Reading UTF-8 undoes writing it: the reader, started between characters, takes exactly the
bytes of one character, however many there are, and is then between characters again. -/

namespace CompositorClient.Utf8

theorem push_mk (low high more code : Nat) (b : UInt8) :
    Partial.push ⟨low, high, more, code⟩ b = code * 64 + (b.toNat - 0x80) := rfl

theorem accepts_of_le {p : Partial} {b : UInt8} (lo : p.low ≤ b.toNat) (hi : b.toNat ≤ p.high) :
    p.accepts b = true := by
  rw [Partial.accepts, decide_eq_true lo, decide_eq_true hi, Bool.and_true]

theorem decodeFrom_start {b : UInt8} {p : Partial} (h : start b = ([], some p))
    (bs : List UInt8) : decodeFrom none (b :: bs) = decodeFrom (some p) bs := by
  rw [decodeFrom_cons, step, h, List.nil_append]

theorem decodeFrom_more {p : Partial} {b : UInt8} {n : Nat} (h : p.more = n + 1)
    (lo : p.low ≤ b.toNat) (hi : b.toNat ≤ p.high) (bs : List UInt8) :
    decodeFrom (some p) (b :: bs) = decodeFrom (some ⟨0x80, 0xBF, n, p.push b⟩) bs := by
  have hs : step (some p) b = ([], some ⟨0x80, 0xBF, n, p.push b⟩) := by
    simp only [step, accepts_of_le lo hi, if_true, h]
  rw [decodeFrom_cons, hs, List.nil_append]

theorem decodeFrom_last {p : Partial} {b : UInt8} (h : p.more = 0) (lo : p.low ≤ b.toNat)
    (hi : b.toNat ≤ p.high) (bs : List UInt8) :
    decodeFrom (some p) (b :: bs) = Char.ofNat (p.push b) :: decodeFrom none bs := by
  have hs : step (some p) b = ([Char.ofNat (p.push b)], none) := by
    simp only [step, accepts_of_le lo hi, if_true, h]
  rw [decodeFrom_cons, hs, List.singleton_append]

theorem decodeFrom_one {a : UInt8} (ha : a.toNat < 0x80) (bs : List UInt8) :
    decodeFrom none (a :: bs) = Char.ofNat a.toNat :: decodeFrom none bs := by
  have hs : start a = ([Char.ofNat a.toNat], none) := if_pos ha
  rw [decodeFrom_cons, step, hs, List.singleton_append]

theorem decodeFrom_two {a b : UInt8} (ha : 0xC2 ≤ a.toNat) (ha' : a.toNat < 0xE0)
    (hb : 0x80 ≤ b.toNat) (hb' : b.toNat ≤ 0xBF) (bs : List UInt8) :
    decodeFrom none (a :: b :: bs) =
      Char.ofNat ((a.toNat - 0xC0) * 64 + (b.toNat - 0x80)) :: decodeFrom none bs := by
  have hs : start a = ([], some ⟨0x80, 0xBF, 0, a.toNat - 0xC0⟩) := by
    rw [start, if_neg (by omega), if_neg (by omega), if_pos ha']
  rw [decodeFrom_start hs, decodeFrom_last rfl hb hb', push_mk]

theorem decodeFrom_three {a b c : UInt8} (ha : 0xE0 ≤ a.toNat) (ha' : a.toNat < 0xF0)
    (hb : (if a.toNat = 0xE0 then 0xA0 else 0x80) ≤ b.toNat)
    (hb' : b.toNat ≤ if a.toNat = 0xED then 0x9F else 0xBF)
    (hc : 0x80 ≤ c.toNat) (hc' : c.toNat ≤ 0xBF) (bs : List UInt8) :
    decodeFrom none (a :: b :: c :: bs) =
      Char.ofNat (((a.toNat - 0xE0) * 64 + (b.toNat - 0x80)) * 64 + (c.toNat - 0x80))
        :: decodeFrom none bs := by
  have hs : start a = ([], some ⟨if a.toNat = 0xE0 then 0xA0 else 0x80,
      if a.toNat = 0xED then 0x9F else 0xBF, 1, a.toNat - 0xE0⟩) := by
    rw [start, if_neg (by omega), if_neg (by omega), if_neg (by omega), if_pos ha']
  rw [decodeFrom_start hs, decodeFrom_more rfl hb hb', decodeFrom_last rfl hc hc', push_mk,
    push_mk]

theorem decodeFrom_four {a b c d : UInt8} (ha : 0xF0 ≤ a.toNat) (ha' : a.toNat < 0xF5)
    (hb : (if a.toNat = 0xF0 then 0x90 else 0x80) ≤ b.toNat)
    (hb' : b.toNat ≤ if a.toNat = 0xF4 then 0x8F else 0xBF)
    (hc : 0x80 ≤ c.toNat) (hc' : c.toNat ≤ 0xBF) (hd : 0x80 ≤ d.toNat) (hd' : d.toNat ≤ 0xBF)
    (bs : List UInt8) :
    decodeFrom none (a :: b :: c :: d :: bs) =
      Char.ofNat ((((a.toNat - 0xF0) * 64 + (b.toNat - 0x80)) * 64 + (c.toNat - 0x80)) * 64
        + (d.toNat - 0x80)) :: decodeFrom none bs := by
  have hs : start a = ([], some ⟨if a.toNat = 0xF0 then 0x90 else 0x80,
      if a.toNat = 0xF4 then 0x8F else 0xBF, 2, a.toNat - 0xF0⟩) := by
    rw [start, if_neg (by omega), if_neg (by omega), if_neg (by omega), if_neg (by omega),
      if_pos ha']
  rw [decodeFrom_start hs, decodeFrom_more rfl hb hb', decodeFrom_more rfl hc hc',
    decodeFrom_last rfl hd hd', push_mk, push_mk, push_mk]

theorem toNat_ofNat_of_lt {n : Nat} (h : n < 256) : (UInt8.ofNat n).toNat = n := by
  rw [UInt8.toNat_ofNat', Nat.mod_eq_of_lt h]

/-- The narrow ranges of the second byte cost no character: they rule out overlong forms, the
gap between the two parts of `Char.valid`, and numbers past its end. -/
theorem decodeFrom_encodeChar (c : Char) (bs : List UInt8) :
    decodeFrom none (String.utf8EncodeChar c ++ bs) = c :: decodeFrom none bs := by
  have hv : c.val.toNat < 0xD800 ∨ 0xDFFF < c.val.toNat ∧ c.val.toNat < 0x110000 := c.valid
  have hc : Char.ofNat c.val.toNat = c := Char.ofNat_toNat c
  fun_cases String.utf8EncodeChar c with
  | case1 v h =>
    have h0 := toNat_ofNat_of_lt (n := v) (by omega)
    rw [List.singleton_append, decodeFrom_one (by omega), h0, hc]
  | case2 v h h' =>
    have h0 := toNat_ofNat_of_lt (n := v / 64 % 0x20 + 0xc0) (by omega)
    have h1 := toNat_ofNat_of_lt (n := v % 0x40 + 0x80) (by omega)
    have hn : (v / 64 % 0x20 + 0xc0 - 0xC0) * 64 + (v % 0x40 + 0x80 - 0x80) = v := by omega
    rw [List.cons_append, List.singleton_append,
      decodeFrom_two (by omega) (by omega) (by omega) (by omega), h0, h1, hn, hc]
  | case3 v h h' h'' =>
    have h0 := toNat_ofNat_of_lt (n := v / 4096 % 0x10 + 0xe0) (by omega)
    have h1 := toNat_ofNat_of_lt (n := v / 64 % 0x40 + 0x80) (by omega)
    have h2 := toNat_ofNat_of_lt (n := v % 0x40 + 0x80) (by omega)
    have hn : ((v / 4096 % 0x10 + 0xe0 - 0xE0) * 64 + (v / 64 % 0x40 + 0x80 - 0x80)) * 64
        + (v % 0x40 + 0x80 - 0x80) = v := by omega
    rw [List.cons_append, List.cons_append, List.singleton_append,
      decodeFrom_three (by omega) (by omega) (by split <;> omega) (by split <;> omega) (by omega)
        (by omega), h0, h1, h2, hn, hc]
  | case4 v h h' h'' =>
    have h0 := toNat_ofNat_of_lt (n := v / 262144 % 8 + 0xf0) (by omega)
    have h1 := toNat_ofNat_of_lt (n := v / 4096 % 0x40 + 0x80) (by omega)
    have h2 := toNat_ofNat_of_lt (n := v / 64 % 0x40 + 0x80) (by omega)
    have h3 := toNat_ofNat_of_lt (n := v % 0x40 + 0x80) (by omega)
    have hn : (((v / 262144 % 8 + 0xf0 - 0xF0) * 64 + (v / 4096 % 0x40 + 0x80 - 0x80)) * 64
        + (v / 64 % 0x40 + 0x80 - 0x80)) * 64 + (v % 0x40 + 0x80 - 0x80) = v := by omega
    rw [List.cons_append, List.cons_append, List.cons_append, List.singleton_append,
      decodeFrom_four (by omega) (by omega) (by split <;> omega) (by split <;> omega) (by omega)
        (by omega) (by omega) (by omega), h0, h1, h2, h3, hn, hc]

theorem decodeFrom_encodeChars (cs : List Char) (bs : List UInt8) :
    decodeFrom none (encodeChars cs ++ bs) = cs ++ decodeFrom none bs := by
  induction cs with
  | nil => rfl
  | cons c cs ih =>
    rw [encodeChars_cons, List.append_assoc, decodeFrom_encodeChar, ih, List.cons_append]

@[simp] theorem decodeChars_encodeChars (cs : List Char) : decodeChars (encodeChars cs) = cs := by
  have h := decodeFrom_encodeChars cs []
  rwa [List.append_nil, decodeFrom_none_nil, List.append_nil] at h

@[simp] theorem decode_encodeChars (cs : List Char) :
    decode (encodeChars cs) = String.ofList cs := by
  rw [decode, decodeChars_encodeChars]

theorem zero_mem_encodeChar_iff (c : Char) :
    (0 : UInt8) ∈ String.utf8EncodeChar c ↔ c = '\x00' := by
  have hc : c.val.toNat = 0 ↔ c = '\x00' :=
    ⟨fun h => Char.ext (UInt32.toNat_inj.mp h), fun h => h ▸ rfl⟩
  have hz {n : Nat} (h : n < 256) : (0 : UInt8) = UInt8.ofNat n ↔ n = 0 := by
    rw [← UInt8.toNat_inj, toNat_ofNat_of_lt h]
    exact eq_comm
  fun_cases String.utf8EncodeChar c with
  | case1 v h => rw [List.mem_singleton, hz (by omega), hc]
  | case2 v h h' =>
    simp only [List.mem_cons, List.not_mem_nil, or_false]
    rw [hz (by omega), hz (by omega), ← hc]
    omega
  | case3 v h h' h'' =>
    simp only [List.mem_cons, List.not_mem_nil, or_false]
    rw [hz (by omega), hz (by omega), hz (by omega), ← hc]
    omega
  | case4 v h h' h'' =>
    simp only [List.mem_cons, List.not_mem_nil, or_false]
    rw [hz (by omega), hz (by omega), hz (by omega), hz (by omega), ← hc]
    omega

end CompositorClient.Utf8
