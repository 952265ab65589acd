import CompositorClient.Proofs.Padded
import Mathlib.Algebra.Group.Nat.Defs

/-! What the lenient reader makes of any bytes at all. It holds no more than one unfinished
character, whose number is known to lie between two bounds: never at NUL, never in the gap
between the two parts of `Char.valid`, never past its end. -/

namespace CompositorClient.Utf8

namespace Partial

/-- The least number the unfinished character can have. -/
def least (p : Partial) : Nat := (p.code * 64 + (p.low - 0x80)) * 64 ^ p.more

/-- The first number past those it can have. -/
def bound (p : Partial) : Nat := (p.code * 64 + (p.high - 0x80) + 1) * 64 ^ p.more

/-- However the character goes on, it is one, and not NUL. -/
structure Sound (p : Partial) : Prop where
  least_pos : 0 < p.least
  between : p.bound ≤ 0xD800 ∨ 0xE000 ≤ p.least ∧ p.bound ≤ 0x110000

variable {p : Partial} {b : UInt8}

theorem le_push (h : p.low ≤ b.toNat) : p.code * 64 + (p.low - 0x80) ≤ p.push b :=
  Nat.add_le_add_left (Nat.sub_le_sub_right h 0x80) _

theorem push_le (h : b.toNat ≤ p.high) : p.push b ≤ p.code * 64 + (p.high - 0x80) :=
  Nat.add_le_add_left (Nat.sub_le_sub_right h 0x80) _

theorem least_of_any (n code : Nat) : least ⟨0x80, 0xBF, n, code⟩ = code * 64 ^ (n + 1) := by
  simp [least, Nat.pow_succ', Nat.mul_assoc]

theorem bound_of_any (n code : Nat) :
    bound ⟨0x80, 0xBF, n, code⟩ = (code + 1) * 64 ^ (n + 1) := by
  have hcode : code * 64 + (0xBF - 0x80) + 1 = (code + 1) * 64 := by omega
  simp only [bound, hcode, Nat.pow_succ', Nat.mul_assoc]

/-- The next byte only narrows the bounds. -/
theorem Sound.push (h : p.Sound) {n : Nat} (hmore : p.more = n + 1) (hlow : p.low ≤ b.toNat)
    (hhigh : b.toNat ≤ p.high) : Sound ⟨0x80, 0xBF, n, p.push b⟩ := by
  have hleast : p.least ≤ least ⟨0x80, 0xBF, n, p.push b⟩ := by
    rw [least_of_any, least, hmore]
    exact Nat.mul_le_mul_right _ (le_push hlow)
  have hbound : bound ⟨0x80, 0xBF, n, p.push b⟩ ≤ p.bound := by
    rw [bound_of_any, bound, hmore]
    exact Nat.mul_le_mul_right _ (Nat.succ_le_succ (push_le hhigh))
  have hpos := h.least_pos
  have hbetween := h.between
  exact ⟨by omega, by omega⟩

/-- The last byte settles a number between the bounds. -/
theorem Sound.finish (h : p.Sound) (hmore : p.more = 0) (hlow : p.low ≤ b.toNat)
    (hhigh : b.toNat ≤ p.high) : Nat.isValidChar (p.push b) ∧ p.push b ≠ 0 := by
  have hleast : p.least = p.code * 64 + (p.low - 0x80) := by simp [least, hmore]
  have hbound : p.bound = p.code * 64 + (p.high - 0x80) + 1 := by simp [bound, hmore]
  have hle := le_push hlow
  have hge := push_le hhigh
  have hpos := h.least_pos
  have hbetween := h.between
  simp only [Nat.isValidChar]
  omega

end Partial

theorem toNat_ofNat_of_valid {n : Nat} (h : Nat.isValidChar n) : (Char.ofNat n).toNat = n := by
  rw [Char.ofNat, dif_pos h]
  rfl

theorem ofNat_ne_nul {n : Nat} (h : Nat.isValidChar n) (hn : n ≠ 0) : Char.ofNat n ≠ '\x00' := by
  intro he
  have hval := toNat_ofNat_of_valid h
  rw [he] at hval
  exact hn hval.symm

theorem sound_two {n : Nat} (h : 0xC2 ≤ n) (h' : n < 0xE0) :
    Partial.Sound ⟨0x80, 0xBF, 0, n - 0xC0⟩ := by
  constructor
  · simp only [Partial.least]
    omega
  · simp only [Partial.least, Partial.bound]
    omega

/-- Three spell numbers from 0x800 up to 0xFFFF, and the narrow range after 0xED keeps them out of
the gap. -/
theorem sound_three {n : Nat} (h : 0xE0 ≤ n) (h' : n < 0xF0) :
    Partial.Sound
      ⟨if n = 0xE0 then 0xA0 else 0x80, if n = 0xED then 0x9F else 0xBF, 1, n - 0xE0⟩ := by
  constructor
  · by_cases hfirst : n = 0xE0 <;> simp only [Partial.least, hfirst, if_true, if_false] <;> omega
  · by_cases hfirst : n = 0xE0
    · simp [Partial.least, Partial.bound, hfirst]
    by_cases hgap : n = 0xED
    · simp [Partial.least, Partial.bound, hgap]
    · simp only [Partial.least, Partial.bound, hfirst, hgap, if_false]
      omega

theorem sound_four {n : Nat} (h : 0xF0 ≤ n) (h' : n < 0xF5) :
    Partial.Sound
      ⟨if n = 0xF0 then 0x90 else 0x80, if n = 0xF4 then 0x8F else 0xBF, 2, n - 0xF0⟩ := by
  constructor
  · by_cases hfirst : n = 0xF0 <;> simp only [Partial.least, hfirst, if_true, if_false] <;> omega
  · by_cases hfirst : n = 0xF0
    · simp [Partial.least, Partial.bound, hfirst]
    by_cases hlast : n = 0xF4
    · simp [Partial.least, Partial.bound, hlast]
    · simp only [Partial.least, Partial.bound, hfirst, hlast, if_false]
      omega

theorem sound_start {b : UInt8} {p : Partial} (h : (start b).2 = some p) : p.Sound := by
  simp only [start] at h
  by_cases h1 : b.toNat < 0x80
  · simp [h1] at h
  by_cases h2 : b.toNat < 0xC2
  · simp [h1, h2] at h
  by_cases h3 : b.toNat < 0xE0
  · simp only [h1, h2, h3, if_false, if_true, Option.some.injEq] at h
    exact h ▸ sound_two (by omega) h3
  by_cases h4 : b.toNat < 0xF0
  · simp only [h1, h2, h3, h4, if_false, if_true, Option.some.injEq] at h
    exact h ▸ sound_three (by omega) h4
  by_cases h5 : b.toNat < 0xF5
  · simp only [h1, h2, h3, h4, h5, if_false, if_true, Option.some.injEq] at h
    exact h ▸ sound_four (by omega) h5
  · simp [h1, h2, h3, h4, h5] at h

theorem nul_not_mem_start {b : UInt8} (hb : b ≠ 0) : '\x00' ∉ (start b).1 := by
  have hreplacement : '\x00' ∉ [replacement] := by decide
  have hb' : b.toNat ≠ 0 := fun h => hb (UInt8.toNat_inj.mp h)
  simp only [start]
  split
  · have hvalid : Nat.isValidChar b.toNat := Or.inl (by omega)
    simpa [eq_comm] using ofNat_ne_nul hvalid hb'
  repeat' split
  all_goals first | exact hreplacement | simp

/-- A byte other than zero yields no NUL, and leaves a sound character unfinished or none. -/
theorem step_sound {q : Option Partial} (hq : ∀ p ∈ q, p.Sound) {b : UInt8} (hb : b ≠ 0) :
    '\x00' ∉ (step q b).1 ∧ ∀ p ∈ (step q b).2, p.Sound := by
  cases q with
  | none => exact ⟨nul_not_mem_start hb, fun p hp => sound_start hp⟩
  | some p =>
    have hp : p.Sound := hq p rfl
    by_cases haccepts : p.accepts b = true
    · obtain ⟨hlow, hhigh⟩ : p.low ≤ b.toNat ∧ b.toNat ≤ p.high := by
        simpa [Partial.accepts] using haccepts
      cases hmore : p.more with
      | zero =>
        obtain ⟨hvalid, hpos⟩ := hp.finish hmore hlow hhigh
        have hne := ofNat_ne_nul hvalid hpos
        simpa [step, haccepts, hmore, eq_comm] using hne
      | succ n =>
        have hsound := hp.push hmore hlow hhigh
        simpa [step, haccepts, hmore] using hsound
    · have hnul := nul_not_mem_start hb
      have hreplacement : '\x00' ≠ replacement := by decide
      simp only [step, haccepts]
      exact ⟨by simp [hnul, hreplacement], fun p hp => sound_start hp⟩

theorem nul_not_mem_decodeFrom {q : Option Partial} (hq : ∀ p ∈ q, p.Sound) {bs : List UInt8}
    (h : 0 ∉ bs) : '\x00' ∉ decodeFrom q bs := by
  induction bs generalizing q with
  | nil =>
    have hreplacement : '\x00' ∉ [replacement] := by decide
    cases q with
    | none => simp
    | some p => exact hreplacement
  | cons b bs ih =>
    obtain ⟨hb, hbs⟩ := List.ne_and_not_mem_of_not_mem_cons h
    obtain ⟨hnul, hnext⟩ := step_sound hq (Ne.symm hb)
    rw [decodeFrom_cons, List.mem_append, not_or]
    exact ⟨hnul, ih hnext hbs⟩

/-- No bytes but a zero byte read as NUL, overlong forms of it included. -/
theorem nul_not_mem_decode {bs : List UInt8} (h : 0 ∉ bs) : '\x00' ∉ (decode bs).toList := by
  rw [decode, String.toList_ofList]
  exact nul_not_mem_decodeFrom (by simp) h

/-- How many bytes are set aside for an unfinished character. -/
def pending : Option Partial → Nat
  | none => 0
  | some _ => 3

@[simp] theorem pending_none : pending none = 0 := rfl
@[simp] theorem pending_some (p : Partial) : pending (some p) = 3 := rfl

@[simp] theorem utf8Size_replacement : replacement.utf8Size = 3 := by decide

theorem length_start_le (b : UInt8) :
    (encodeChars (start b).1).length + pending (start b).2 ≤ 3 := by
  simp only [start]
  split
  · have hval := toNat_ofNat_of_valid (n := b.toNat) (Or.inl (by omega))
    have hsize : (Char.ofNat b.toNat).utf8Size = 1 := by
      rw [Char.utf8Size_eq_one_iff, UInt32.le_iff_toNat_le]
      exact Nat.le_trans (Nat.le_of_eq hval) (by simp; omega)
    simp [hsize]
  repeat' split
  all_goals simp

/-- Three bytes for each byte read pay for all that it can bring to an end. -/
theorem length_step_le (q : Option Partial) (b : UInt8) :
    (encodeChars (step q b).1).length + pending (step q b).2 ≤ 3 + pending q := by
  have hstart := length_start_le b
  cases q with
  | none => exact hstart
  | some p =>
    by_cases haccepts : p.accepts b = true
    · cases hmore : p.more with
      | zero =>
        have hsize := (Char.ofNat (p.push b)).utf8Size_le_four
        simp [step, haccepts, hmore]
        omega
      | succ n => simp [step, haccepts, hmore]
    · simp [step, haccepts]
      omega

theorem length_decodeFrom_le (q : Option Partial) (bs : List UInt8) :
    (encodeChars (decodeFrom q bs)).length ≤ 3 * bs.length + pending q := by
  induction bs generalizing q with
  | nil => cases q <;> simp
  | cons b bs ih =>
    have hstep := length_step_le q b
    have hrest := ih (step q b).2
    simp only [decodeFrom_cons, encodeChars_append, List.length_append, List.length_cons]
    omega

/-- Each byte that reads as no character costs three to write again. -/
theorem length_encode_decode_le (bs : List UInt8) :
    (encode (decode bs)).length ≤ 3 * bs.length := by
  simpa [encode, decode, decodeChars] using length_decodeFrom_le none bs

/-- Valid bytes are written again as they were. -/
theorem encode_decode {bs : List UInt8} (h : bs.toByteArray.IsValidUTF8) :
    encode (decode bs) = bs := by
  obtain ⟨cs, hcs⟩ := h
  have hbs : bs = encodeChars cs := List.toByteArray_inj.mp hcs
  rw [hbs, decode_encodeChars, encode, String.toList_ofList]

end CompositorClient.Utf8

namespace CompositorClient.Padded

theorem zero_not_mem_beforeNul (bs : List UInt8) : 0 ∉ beforeNul bs := by
  intro h
  simpa using List.mem_takeWhile_imp h

theorem length_beforeNul_le (bs : List UInt8) : (beforeNul bs).length ≤ bs.length :=
  (List.takeWhile_prefix _).length_le

theorem nul_not_mem_decode (bs : List UInt8) : '\x00' ∉ (decode bs).toList :=
  Utf8.nul_not_mem_decode (zero_not_mem_beforeNul bs)

theorem length_encode_decode_le (bs : List UInt8) :
    (Utf8.encode (decode bs)).length ≤ 3 * bs.length :=
  calc (Utf8.encode (decode bs)).length ≤ 3 * (beforeNul bs).length :=
        Utf8.length_encode_decode_le _
    _ ≤ 3 * bs.length := Nat.mul_le_mul_left 3 (length_beforeNul_le bs)

end CompositorClient.Padded
