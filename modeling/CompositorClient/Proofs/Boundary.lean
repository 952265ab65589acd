import CompositorClient.Proofs.Lossy

/-! Where a text may be cut. A byte tells by itself whether it continues a character, so a search
from the capacity of a field back to the first byte that does not finds the end of the longest
prefix that fits, and it finds it before it would leave the text. -/

namespace CompositorClient.Utf8

/-- The bytes of a character behind its first. -/
def continues (b : UInt8) : Bool := 0x80 ≤ b.toNat && b.toNat < 0xC0

/-- Both ends of a text are boundaries, and so is every place where a character begins. -/
def isBoundary (bs : List UInt8) (i : Nat) : Bool :=
  i == 0 || i == bs.length || bs[i]?.any fun b => !continues b

/-- Goes back from `i` to a boundary; there is nowhere to go from zero. -/
def seekBack (bs : List UInt8) : Nat → Option Nat
  | 0 => if isBoundary bs 0 then some 0 else none
  | i + 1 => if isBoundary bs (i + 1) then some (i + 1) else seekBack bs i

theorem continues_iff (b : UInt8) : continues b = true ↔ 0x80 ≤ b.toNat ∧ b.toNat < 0xC0 := by
  simp [continues]

theorem isBoundary_iff (bs : List UInt8) (i : Nat) :
    isBoundary bs i = true ↔
      i = 0 ∨ i = bs.length ∨ ∃ b, bs[i]? = some b ∧ continues b = false := by
  cases h : bs[i]? <;> simp [isBoundary, h, or_assoc]

/-- A character is written as one byte that continues none and others that do. -/
theorem encodeChar_eq_cons (c : Char) :
    ∃ first more, String.utf8EncodeChar c = first :: more ∧ continues first = false ∧
      ∀ b ∈ more, continues b = true := by
  have hmore (n : Nat) : continues (UInt8.ofNat (n % 0x40 + 0x80)) = true := by
    have hbyte := toNat_ofNat_of_lt (n := n % 0x40 + 0x80) (by omega)
    rw [continues_iff, hbyte]
    omega
  have hfirst {n : Nat} (h : n < 256) (hn : n < 0x80 ∨ 0xC0 ≤ n) :
      continues (UInt8.ofNat n) = false := by
    rw [Bool.eq_false_iff, ne_eq, continues_iff, toNat_ofNat_of_lt h]
    omega
  have hv : c.val.toNat < 0xD800 ∨ 0xDFFF < c.val.toNat ∧ c.val.toNat < 0x110000 := c.valid
  fun_cases String.utf8EncodeChar c with
  | case1 v h =>
    refine ⟨_, _, rfl, hfirst (by omega) (by omega), ?_⟩
    simp
  | case2 v h h' =>
    refine ⟨_, _, rfl, hfirst (by omega) (by omega), ?_⟩
    simp only [List.forall_mem_singleton, hmore]
  | case3 v h h' h'' =>
    refine ⟨_, _, rfl, hfirst (by omega) (by omega), ?_⟩
    simp only [List.forall_mem_cons, hmore, List.not_mem_nil, false_imp_iff, implies_true, and_self]
  | case4 v h h' h'' =>
    refine ⟨_, _, rfl, hfirst (by omega) (by omega), ?_⟩
    simp only [List.forall_mem_cons, hmore, List.not_mem_nil, false_imp_iff, implies_true, and_self]

theorem isBoundary_length_encodeChars (p rest : List Char) :
    isBoundary (encodeChars (p ++ rest)) (encodeChars p).length = true := by
  rw [isBoundary_iff]
  cases rest with
  | nil => simp
  | cons c rest =>
    obtain ⟨first, more, hc, hfirst, -⟩ := encodeChar_eq_cons c
    exact .inr (.inr ⟨first, by simp [hc], hfirst⟩)

theorem exists_prefix_of_getElem? {cs : List Char} {i : Nat} {b : UInt8}
    (h : (encodeChars cs)[i]? = some b) (hb : continues b = false) :
    ∃ p, p <+: cs ∧ (encodeChars p).length = i := by
  induction cs generalizing i with
  | nil => simp at h
  | cons c cs ih =>
    obtain ⟨first, more, hc, -, hmore⟩ := encodeChar_eq_cons c
    rw [encodeChars_cons] at h
    by_cases hi : i < (String.utf8EncodeChar c).length
    · rw [List.getElem?_append_left hi, hc] at h
      cases i with
      | zero => exact ⟨[], List.nil_prefix, rfl⟩
      | succ i =>
        have hcontinues := hmore b (List.mem_of_getElem? h)
        simp [hcontinues] at hb
    · rw [List.getElem?_append_right (Nat.not_lt.mp hi)] at h
      obtain ⟨p, hp, hlength⟩ := ih h
      refine ⟨c :: p, List.cons_prefix_cons.mpr ⟨rfl, hp⟩, ?_⟩
      rw [encodeChars_cons, List.length_append, hlength]
      omega

theorem isBoundary_encodeChars_iff (cs : List Char) (i : Nat) :
    isBoundary (encodeChars cs) i = true ↔ ∃ p, p <+: cs ∧ (encodeChars p).length = i := by
  constructor
  · rw [isBoundary_iff]
    rintro (rfl | rfl | ⟨b, hbyte, hb⟩)
    · exact ⟨[], List.nil_prefix, rfl⟩
    · exact ⟨cs, List.prefix_refl cs, rfl⟩
    · exact exists_prefix_of_getElem? hbyte hb
  · rintro ⟨p, ⟨rest, rfl⟩, rfl⟩
    exact isBoundary_length_encodeChars p rest

/-- The search finds the greatest boundary at or before the place it starts from. -/
theorem seekBack_eq_some {bs : List UInt8} {i j : Nat} (hj : isBoundary bs j = true) (hle : j ≤ i)
    (hgreatest : ∀ k, isBoundary bs k = true → k ≤ i → k ≤ j) : seekBack bs i = some j := by
  induction i with
  | zero =>
    obtain rfl : j = 0 := by omega
    simp [seekBack, hj]
  | succ i ih =>
    by_cases hi : isBoundary bs (i + 1) = true
    · have hij := hgreatest (i + 1) hi (Nat.le_refl _)
      obtain rfl : j = i + 1 := by omega
      simp [seekBack, hi]
    · have hne : j ≠ i + 1 := fun he => hi (he ▸ hj)
      rw [seekBack, if_neg hi]
      -- One step back passes no boundary.
      apply ih
      · omega
      · intro k hk hki
        exact hgreatest k hk (by omega)

/-- Every byte read brings at most one character, but for the one that was unfinished before. -/
theorem length_decodeFrom_le_add (q : Option Partial) (bs : List UInt8) :
    (decodeFrom q bs).length ≤ bs.length + q.toList.length := by
  induction bs generalizing q with
  | nil => cases q <;> simp
  | cons b bs ih =>
    have hstart : (start b).1.length + (start b).2.toList.length = 1 := by
      simp only [start]
      repeat' split
      all_goals rfl
    have hstep : (step q b).1.length + (step q b).2.toList.length ≤ 1 + q.toList.length := by
      cases q with
      | none => simp [step, hstart]
      | some p =>
        simp only [step]
        repeat' split
        all_goals simp
        omega
    have hrest := ih (step q b).2
    simp only [decodeFrom_cons, List.length_append, List.length_cons]
    omega

theorem length_decode_le (bs : List UInt8) : (decode bs).length ≤ bs.length := by
  simpa [decode, decodeChars] using length_decodeFrom_le_add none bs

end CompositorClient.Utf8

namespace CompositorClient.Padded

open Utf8

def cut (s : String) (room : Nat) : Option (List UInt8) :=
  let bytes := Utf8.encode s
  if bytes.length ≤ room then some bytes else (seekBack bytes room).map fun i => bytes.take i

/-- Appends a field to `buf`: as much of the text as fits, then zeros.  A text longer than its
field would leave less than nothing to fill. -/
def write (buf : List UInt8) (s : String) (capacity : Nat) : Option (List UInt8) := do
  let bytes ← cut s capacity
  let filled := buf ++ bytes
  if bytes.length ≤ capacity then
    some (filled.rightpad (filled.length + (capacity - bytes.length)) 0)
  else none

/-- The end of what is kept of a text is the boundary that the search finds. -/
theorem seekBack_encode (s : String) (capacity : Nat) :
    seekBack (Utf8.encode s) capacity = some (encodeChars (fit capacity s.toList)).length := by
  apply seekBack_eq_some
  · rw [Utf8.encode, isBoundary_encodeChars_iff]
    exact ⟨_, fit_isPrefix capacity s.toList, rfl⟩
  · exact length_encodeChars_fit_le capacity s.toList
  · intro k hk hle
    obtain ⟨p, hp, rfl⟩ := (isBoundary_encodeChars_iff s.toList k).mp hk
    obtain ⟨rest, hrest⟩ := prefix_fit hp hle
    simp [← hrest]

theorem cut_eq (s : String) (room : Nat) : cut s room = some (encodeChars (fit room s.toList)) := by
  simp only [cut]
  split
  · next h => rw [(fit_eq_self_iff room s.toList).mpr h, Utf8.encode]
  · obtain ⟨rest, hrest⟩ := fit_isPrefix room s.toList
    have htake : (Utf8.encode s).take (encodeChars (fit room s.toList)).length =
        encodeChars (fit room s.toList) := by
      rw [Utf8.encode]
      nth_rewrite 2 [← hrest]
      simp
    simp [seekBack_encode, htake]

/-- Four bytes would cut the second `é` in two. -/
example : cut "aéé" 4 = some [0x61, 0xC3, 0xA9] := by rfl

/-- Filling a field step by step gives what the codec writes. -/
theorem write_eq (buf : List UInt8) (s : String) (capacity : Nat) :
    write buf s capacity = some (buf ++ encode capacity s) := by
  have hle := length_encodeChars_fit_le capacity s.toList
  simp [write, cut_eq, hle, encode, List.rightpad]

theorem lt_length_of_fit {capacity : Nat} {cs rest : List Char} {c : Char}
    (h : cs = fit capacity cs ++ c :: rest) :
    capacity < (encodeChars (fit capacity cs ++ [c])).length := by
  rw [← Nat.not_le]
  intro hle
  have hprefix : fit capacity cs ++ [c] <+: cs := ⟨rest, by simp [← h]⟩
  have hlength := (prefix_fit hprefix hle).length_le
  rw [List.length_append, List.length_singleton] at hlength
  omega

theorem length_decode_le (f : List UInt8) : (decode f).length ≤ f.length :=
  Nat.le_trans (Utf8.length_decode_le _) (length_beforeNul_le f)

/-- A field takes the whole characters that fit, found by a search that always ends, and zeros
behind them; it reads back as what stands before the first NUL among them.  Whatever bytes a field
holds, its text has no NUL, no more characters than the field has bytes, and is told by the bytes
before the first zero. -/
theorem field_keeps_longest_prefix (s : String) (capacity : Nat) (buf : List UInt8) :
    (∃ p rest, s.toList = p ++ rest ∧ Longest capacity s.toList p ∧
      (∀ c cs, rest = c :: cs → capacity < (encodeChars (p ++ [c])).length) ∧
      seekBack (Utf8.encode s) capacity = some (encodeChars p).length ∧
      encode capacity s =
        encodeChars p ++ List.replicate (capacity - (encodeChars p).length) 0 ∧
      decode (encode capacity s) = String.ofList (p.takeWhile (· ≠ '\x00'))) ∧
    write buf s capacity = some (buf ++ encode capacity s) ∧
    (encode capacity s).length = capacity ∧
    ∀ f : List UInt8, '\x00' ∉ (decode f).toList ∧ (decode f).length ≤ f.length ∧
      ∀ g, f.takeWhile (· ≠ 0) = g.takeWhile (· ≠ 0) → decode f = decode g := by
  obtain ⟨rest, hrest⟩ := fit_isPrefix capacity s.toList
  refine ⟨⟨fit capacity s.toList, rest, hrest.symm, longest_fit capacity s.toList, ?_,
    seekBack_encode s capacity, rfl, decode_encode capacity s⟩, write_eq buf s capacity,
    length_encode capacity s, fun f => ⟨nul_not_mem_decode f, length_decode_le f, ?_⟩⟩
  · rintro c cs rfl
    exact lt_length_of_fit hrest.symm
  · intro g hg
    exact congrArg Utf8.decode hg

end CompositorClient.Padded
