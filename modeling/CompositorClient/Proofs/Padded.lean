import CompositorClient.Proofs.Utf8
import CompositorClient.Text.Padded
import Mathlib.Data.List.TakeWhile

/-! What a text is after it has been written and read back, and when that is the text itself. -/

namespace CompositorClient.Padded

open Utf8

/-- `p` is the longest prefix of `cs` whose encoding takes at most `room` bytes. -/
def Longest (room : Nat) (cs p : List Char) : Prop :=
  p <+: cs ∧ (encodeChars p).length ≤ room ∧
    ∀ q, q <+: cs → (encodeChars q).length ≤ room → q.length ≤ p.length

theorem prefix_fit {room : Nat} {cs q : List Char} (hq : q <+: cs)
    (hr : (encodeChars q).length ≤ room) : q <+: fit room cs := by
  induction cs generalizing room q with
  | nil =>
    rw [List.prefix_nil.mp hq]
    exact List.nil_prefix
  | cons c cs ih =>
    cases q with
    | nil => exact List.nil_prefix
    | cons d ds =>
      obtain ⟨rfl, hds⟩ := List.cons_prefix_cons.mp hq
      rw [encodeChars_cons, List.length_append, String.length_utf8EncodeChar] at hr
      rw [fit, if_pos (by omega)]
      exact List.cons_prefix_cons.mpr ⟨rfl, ih hds (by omega)⟩

theorem longest_fit (room : Nat) (cs : List Char) : Longest room cs (fit room cs) :=
  ⟨fit_isPrefix room cs, length_encodeChars_fit_le room cs,
    fun _ hq hr => (prefix_fit hq hr).length_le⟩

theorem fit_eq_self_iff (room : Nat) (cs : List Char) :
    fit room cs = cs ↔ (encodeChars cs).length ≤ room := by
  constructor
  · intro h
    simpa only [h] using length_encodeChars_fit_le room cs
  · intro h
    exact (fit_isPrefix room cs).eq_of_length_le (prefix_fit (List.prefix_refl cs) h).length_le

theorem charsBeforeNul_isPrefix (cs : List Char) : charsBeforeNul cs <+: cs :=
  List.takeWhile_prefix _

theorem charsBeforeNul_eq_self_iff (cs : List Char) :
    charsBeforeNul cs = cs ↔ '\x00' ∉ cs := by
  rw [charsBeforeNul, List.takeWhile_eq_self_iff]
  constructor
  · intro h hmem
    simpa using h _ hmem
  · intro h c hc
    have hne : c ≠ '\x00' := fun he => h (he ▸ hc)
    simpa using hne

@[simp] theorem toList_stored (capacity : Nat) (s : String) :
    (stored capacity s).toList = charsBeforeNul (fit capacity s.toList) :=
  String.toList_ofList

@[simp] theorem toList_terminated (s : String) :
    (terminated s).toList = charsBeforeNul s.toList :=
  String.toList_ofList

theorem terminated_eq_self_iff (s : String) : terminated s = s ↔ '\x00' ∉ s.toList := by
  rw [← String.toList_inj, toList_terminated, charsBeforeNul_eq_self_iff]

theorem stored_eq_self_iff (capacity : Nat) (s : String) :
    stored capacity s = s ↔ (Utf8.encode s).length ≤ capacity ∧ '\x00' ∉ s.toList := by
  rw [← String.toList_inj, toList_stored, Utf8.encode, ← fit_eq_self_iff]
  constructor
  · intro h
    -- both cuts only shorten, so neither cut anything
    have hfit : fit capacity s.toList = s.toList := by
      refine (fit_isPrefix capacity s.toList).eq_of_length_le ?_
      simpa only [h] using (charsBeforeNul_isPrefix (fit capacity s.toList)).length_le
    rw [hfit] at h
    exact ⟨hfit, (charsBeforeNul_eq_self_iff _).mp h⟩
  · rintro ⟨hfit, hnul⟩
    rw [hfit, charsBeforeNul_eq_self_iff]
    exact hnul

/-- Bytes and characters agree on where the first NUL is. -/
theorem beforeNul_encodeChars_append (cs : List Char) {t : List UInt8} (ht : beforeNul t = []) :
    beforeNul (encodeChars cs ++ t) = encodeChars (charsBeforeNul cs) := by
  induction cs with
  | nil => exact ht
  | cons c cs ih =>
    by_cases hc : c = '\x00'
    · subst hc
      rfl
    · have hb : ∀ b ∈ String.utf8EncodeChar c, decide (b ≠ 0) = true := by
        intro b hb
        refine decide_eq_true fun hz => hc ?_
        exact (zero_mem_encodeChar_iff c).mp (hz ▸ hb)
      have hcs : charsBeforeNul (c :: cs) = c :: charsBeforeNul cs :=
        List.takeWhile_cons_of_pos (decide_eq_true hc)
      rw [hcs, encodeChars_cons, encodeChars_cons, List.append_assoc, beforeNul,
        List.takeWhile_append_of_pos hb]
      exact congrArg _ ih

theorem beforeNul_replicate (n : Nat) : beforeNul (List.replicate n 0) = [] := by
  cases n <;> rfl

theorem decode_encodeChars_append (cs : List Char) {t : List UInt8} (ht : beforeNul t = []) :
    decode (encodeChars cs ++ t) = String.ofList (charsBeforeNul cs) := by
  rw [decode, beforeNul_encodeChars_append cs ht, decode_encodeChars]

theorem decode_encode (capacity : Nat) (s : String) :
    decode (encode capacity s) = stored capacity s :=
  decode_encodeChars_append _ (beforeNul_replicate _)

/-- What follows the NUL behind a text is never looked at. -/
theorem decode_terminated (s : String) (t : List UInt8) :
    decode (Utf8.encode s ++ 0 :: t) = terminated s :=
  decode_encodeChars_append _ rfl

end CompositorClient.Padded
