import CompositorClient.Proofs.Stability
import Mathlib.Logic.Relation

/-! Bytes that carry no meaning. A payload may be changed wherever its fields leave room for it: in
the gaps between them, behind the NUL that ends a text, in a byte that raises a flag, and behind
the end of its layout. What it is read as stays the same. -/

namespace CompositorClient

namespace Padded

theorem beforeNul_append_zero (s t : List UInt8) : beforeNul (s ++ 0 :: t) = beforeNul s := by
  induction s with
  | nil => rfl
  | cons b s ih =>
    by_cases hb : b = 0
    · simp [beforeNul, hb]
    · simpa [beforeNul, hb] using ih

theorem decode_append_zero (s t : List UInt8) : decode (s ++ 0 :: t) = decode s := by
  rw [decode, beforeNul_append_zero, decode]

end Padded

namespace Field

/-- Whether some bytes of the field may be changed. -/
def isLoose : Field → Bool
  | flag | wideFlag | gap _ | text _ => true
  | byte | half | word | int | single | singles _ => false

/-- Two fillings of a field that say the same. -/
def Alike : Field → List UInt8 → List UInt8 → Prop
  | gap _, _, _ => True
  | text _, x, y => ∃ s u v, x = s ++ 0 :: u ∧ y = s ++ 0 :: v
  | flag, x, y | wideFlag, x, y => (∃ b ∈ x, b ≠ 0) ∧ ∃ b ∈ y, b ≠ 0
  | byte, x, y | half, x, y | word, x, y | int, x, y | single, x, y => x = y
  | singles _, x, y => x = y

theorem front_eq_zero_iff {n : Nat} {bs : List UInt8} (h : bs.length ≤ n) :
    front n bs = 0 ↔ ∀ b ∈ bs, b = 0 := by
  rw [front, List.take_of_length_le h]
  clear h
  induction bs with
  | nil => simp [LittleEndian.value]
  | cons b bs ih =>
    have hb : b.toNat = 0 ↔ b = 0 := by simp [← UInt8.toNat_inj]
    rw [LittleEndian.value, List.forall_mem_cons, ← ih, ← hb]
    omega

theorem front_ne_zero {n : Nat} {bs : List UInt8} (h : bs.length ≤ n) (hb : ∃ b ∈ bs, b ≠ 0) :
    (front n bs != 0) = true := by
  obtain ⟨b, hmem, hne⟩ := hb
  rw [bne_iff_ne, ne_eq, front_eq_zero_iff h]
  exact fun hzero => hne (hzero b hmem)

theorem Alike.decode_eq {f : Field} {x y : List UInt8} (h : f.Alike x y) (hx : x.length ≤ f.size)
    (hy : y.length ≤ f.size) : f.decode y = f.decode x := by
  cases f with
  | gap n => rfl
  | text capacity =>
    obtain ⟨s, u, v, rfl, rfl⟩ := h
    rw [size] at hx hy
    rw [decode, decode, List.take_of_length_le hx, List.take_of_length_le hy,
      Padded.decode_append_zero, Padded.decode_append_zero]
  | flag | wideFlag =>
    rw [size] at hx hy
    rw [decode, decode, front_ne_zero hx h.1, front_ne_zero hy h.2]
  | byte | half | word | int | single | singles => exact congrArg _ h.symm

/-- The field at place `i` of `p` is filled another way in `q`, and nothing else is changed. -/
structure Rewrites (f : Field) (i : Nat) (p q : List UInt8) : Prop where
  inside : i + f.size ≤ p.length
  length_eq : q.length = p.length
  before : q.take i = p.take i
  alike : f.Alike ((p.drop i).take f.size) ((q.drop i).take f.size)
  behind : q.drop (i + f.size) = p.drop (i + f.size)

theorem rewrites_append {f : Field} {i : Nat} {a x y b : List UInt8} (place : a.length = i)
    (fills : x.length = f.size) (refills : y.length = f.size) (alike : f.Alike x y) :
    f.Rewrites i (a ++ (x ++ b)) (a ++ (y ++ b)) where
  inside := by simp [place, fills]
  length_eq := by simp [fills, refills]
  before := by rw [List.take_left' place, List.take_left' place]
  alike := by
    rw [List.drop_left' place, List.drop_left' place, List.take_left' fills,
      List.take_left' refills]
    exact alike
  behind := by
    rw [← List.drop_drop, ← List.drop_drop, List.drop_left' place, List.drop_left' place,
      List.drop_left' fills, List.drop_left' refills]

namespace Rewrites

variable {f : Field} {i n : Nat} {p q : List UInt8}

theorem take_eq (h : f.Rewrites i p q) (hn : n ≤ i) : q.take n = p.take n := by
  have htake (bs : List UInt8) : bs.take n = (bs.take i).take n := by
    rw [List.take_take, Nat.min_eq_left hn]
  rw [htake q, htake p, h.before]

theorem drop_eq (h : f.Rewrites i p q) (hn : i + f.size ≤ n) : q.drop n = p.drop n := by
  obtain ⟨k, rfl⟩ := Nat.exists_eq_add_of_le hn
  have hbehind := congrArg (List.drop k) h.behind
  rwa [List.drop_drop, List.drop_drop] at hbehind

theorem drop (h : f.Rewrites (n + i) p q) : f.Rewrites i (p.drop n) (q.drop n) where
  inside := by
    have hinside := h.inside
    rw [List.length_drop]
    omega
  length_eq := by rw [List.length_drop, List.length_drop, h.length_eq]
  before := by
    have hbefore := congrArg (List.drop n) h.before
    simpa [List.drop_take] using hbefore
  alike := by simpa [List.drop_drop] using h.alike
  behind := by simpa [List.drop_drop, Nat.add_assoc] using h.behind

theorem take (h : f.Rewrites i p q) (hn : i + f.size ≤ n) :
    f.Rewrites i (p.take n) (q.take n) where
  inside := by
    have hinside := h.inside
    rw [List.length_take]
    omega
  length_eq := by rw [List.length_take, List.length_take, h.length_eq]
  before := by
    have hi : i ≤ n := by omega
    simpa [List.take_take, hi] using h.before
  alike := by
    have hroom : f.size ≤ n - i := by omega
    simpa [List.drop_take, List.take_take, hroom] using h.alike
  behind := by
    rw [List.drop_take, List.drop_take, h.behind]

theorem decode_eq (h : f.Rewrites 0 p q) : f.decode q = f.decode p := by
  rw [← decode_take_size f q, ← decode_take_size f p]
  exact h.alike.decode_eq (List.length_take_le ..) (List.length_take_le ..)

end Rewrites
end Field

namespace Record

def places : Record → List (Nat × Field)
  | [] => []
  | f :: fs => (0, f) :: (places fs).map fun x => (f.size + x.1, x.2)

variable {fs : Record} {f : Field} {i : Nat} {p q : List UInt8}

theorem add_size_le_of_mem_places (h : (i, f) ∈ places fs) : i + f.size ≤ fs.size := by
  induction fs generalizing i with
  | nil => simp [places] at h
  | cons g fs ih =>
    rw [places, List.mem_cons, List.mem_map] at h
    rw [size]
    rcases h with hfirst | ⟨x, hx, heq⟩
    · simp only [Prod.mk.injEq] at hfirst
      rw [hfirst.1, hfirst.2]
      omega
    · obtain ⟨rfl, rfl⟩ := Prod.mk.inj heq
      have hle := ih hx
      omega

theorem decode_eq_of_rewrites (h : f.Rewrites i p q) (hi : (i, f) ∈ places fs) :
    fs.decode q = fs.decode p := by
  induction fs generalizing i p q with
  | nil => rfl
  | cons g fs ih =>
    rw [places, List.mem_cons, List.mem_map] at hi
    rw [decode, decode]
    rcases hi with hfirst | ⟨x, hx, heq⟩
    · obtain ⟨rfl, rfl⟩ := Prod.mk.inj hfirst
      rw [h.decode_eq, h.drop_eq (by omega)]
    · obtain ⟨rfl, rfl⟩ := Prod.mk.inj heq
      rw [← Field.decode_take_size g q, h.take_eq (by omega), Field.decode_take_size, ih h.drop hx]

theorem decodeMany_eq_of_rewrites {n k : Nat} (hk : k < n)
    (h : f.Rewrites (k * fs.size + i) p q) (hi : (i, f) ∈ places fs) :
    fs.decodeMany n q = fs.decodeMany n p := by
  induction n generalizing k p q with
  | zero => rfl
  | succ n ih =>
    have hroom := add_size_le_of_mem_places hi
    rw [decodeMany, decodeMany]
    cases k with
    | zero =>
      rw [Nat.zero_mul, Nat.zero_add] at h
      rw [decode_eq_of_rewrites h hi, h.drop_eq hroom]
    | succ k =>
      have hplace : (k + 1) * fs.size + i = fs.size + (k * fs.size + i) := by
        rw [Nat.succ_mul]
        omega
      rw [hplace] at h
      -- The change is behind the first record, which is read as before.
      have hfirst : fs.decode q = fs.decode p := by
        rw [← decode_take (Nat.le_refl fs.size) q, h.take_eq (by omega),
          decode_take (Nat.le_refl _)]
      rw [hfirst, ih (Nat.lt_of_succ_lt_succ hk) h.drop]

theorem decode_append_of_size_le {a : List UInt8} (h : fs.size ≤ a.length) (u : List UInt8) :
    fs.decode (a ++ u) = fs.decode a := by
  rw [← decode_take h, List.take_left]

end Record

namespace Layout

variable {l : Layout} {f : Field} {i n : Nat} {p q : List UInt8}

theorem need_congr (hlength : q.length = p.length)
    (hfields : l.fields.decode q = l.fields.decode p) : l.need q = l.need p := by
  rw [need, need, hlength, hfields]

theorem decode_congr (hlength : q.length = p.length)
    (hfields : l.fields.decode q = l.fields.decode p)
    (htail : l.tail.decode (l.tailBytes q) = l.tail.decode (l.tailBytes p)) :
    l.decode q = l.decode p := by
  rw [decode, decode, need_congr hlength hfields, hlength, read, read, hfields, htail]

/-- A field in front of the tail is filled another way. -/
theorem decode_eq_of_rewrites (h : f.Rewrites i p q) (hi : (i, f) ∈ l.fields.places) :
    l.decode q = l.decode p := by
  have hfields := Record.decode_eq_of_rewrites h hi
  have hbytes : l.tailBytes q = l.tailBytes p := by
    rw [tailBytes, tailBytes, hfields, h.drop_eq (Record.add_size_le_of_mem_places hi)]
  exact decode_congr h.length_eq hfields (by rw [hbytes])

theorem size_le_need (l : Layout) (p : List UInt8) : l.fields.size ≤ l.need p := by
  rw [need]
  split <;> omega

theorem fields_eq_of_rewrites (h : f.Rewrites (l.fields.size + i) p q) :
    l.fields.decode q = l.fields.decode p := by
  rw [← Record.decode_take (Nat.le_refl l.fields.size) q, h.take_eq (Nat.le_add_right ..),
    Record.decode_take (Nat.le_refl _)]

theorem rewrites_tailBytes (h : f.Rewrites (l.fields.size + i) p q)
    (hn : l.extent (l.fields.decode p) = some n) (hroom : i + f.size ≤ n) :
    f.Rewrites i (l.tailBytes p) (l.tailBytes q) := by
  rw [tailBytes, tailBytes, fields_eq_of_rewrites h, hn]
  exact h.drop.take hroom

theorem need_append_of_size_le {a : List UInt8} (hfit : l.fields.size ≤ a.length)
    (u : List UInt8) :
    l.need (a ++ u) = l.fields.size + (l.extent (l.fields.decode a)).getD 0 := by
  have hall : ¬ (a ++ u).length < l.fields.size := by
    rw [List.length_append]
    omega
  rw [need, if_neg hall, Record.decode_append_of_size_le hfit]

/-- What stands behind all that a layout declares is not looked at. -/
theorem decode_append_of_whole {a u : List UInt8} (whole : a.length = l.need (a ++ u))
    (hn : l.extent (l.fields.decode (a ++ u)) = some n) (v : List UInt8) :
    l.decode (a ++ v) = l.decode (a ++ u) := by
  have hfit : l.fields.size ≤ a.length := whole ▸ l.size_le_need (a ++ u)
  have hread (w : List UInt8) := Record.decode_append_of_size_le hfit w
  rw [hread] at hn
  have hneed (w : List UInt8) : l.need (a ++ w) = a.length := by
    rw [whole, need_append_of_size_le hfit, need_append_of_size_le hfit]
  have hbytes (w : List UInt8) : l.tailBytes (a ++ w) = a.drop l.fields.size := by
    have hsize : (a.drop l.fields.size).length = n := by
      have hlength := hneed u
      rw [need_append_of_size_le hfit, hn, Option.getD_some] at hlength
      rw [List.length_drop]
      omega
    rw [tailBytes, hread, hn]
    dsimp only
    rw [List.drop_append_of_le_length hfit, List.take_left' hsize]
  have hroom (w : List UInt8) : l.need (a ++ w) ≤ (a ++ w).length := by
    rw [hneed, List.length_append]
    exact Nat.le_add_right ..
  rw [decode, decode, if_pos (hroom v), if_pos (hroom u), read, read, hread, hread, hbytes, hbytes]

/-- A field of record `k` is filled another way. -/
theorem decode_eq_of_rewrites_record {fields rs : Record} {extent : fields.Value → Option Nat}
    {k : Nat} (hroom : need ⟨fields, .records rs, extent⟩ p ≤ p.length) (hrs : 0 < rs.size)
    (hn : extent (fields.decode p) = some (n * rs.size)) (hk : k < n) (hi : (i, f) ∈ rs.places)
    (h : f.Rewrites (fields.size + (k * rs.size + i)) p q) :
    decode ⟨fields, .records rs, extent⟩ q = decode ⟨fields, .records rs, extent⟩ p := by
  have hlast : k * rs.size + i + f.size ≤ n * rs.size := by
    have hend := Record.add_size_le_of_mem_places hi
    have hrecords := Nat.mul_le_mul_right rs.size (Nat.succ_le_of_lt hk)
    rw [Nat.succ_mul] at hrecords
    omega
  -- The count stands in front of the records, so a change within them leaves their number.
  have hbytes := rewrites_tailBytes (l := ⟨fields, .records rs, extent⟩) h hn hlast
  have hcount : (tailBytes ⟨fields, .records rs, extent⟩ p).length / rs.size = n := by
    rw [length_tailBytes hroom hn, Nat.mul_div_cancel _ hrs]
  have hrecords := Record.decodeMany_eq_of_rewrites hk hbytes hi
  refine decode_congr h.length_eq (fields_eq_of_rewrites h) ?_
  simpa only [Tail.decode, hbytes.length_eq, hcount] using hrecords

/-- The bytes behind a NUL in a text of declared length are others. -/
theorem decode_eq_of_rewrites_text {fields : Record} {extent : fields.Value → Option Nat}
    (hn : extent (fields.decode p) = some n) (h : (Field.text n).Rewrites fields.size p q) :
    decode ⟨fields, .text, extent⟩ q = decode ⟨fields, .text, extent⟩ p := by
  have hfields : fields.decode q = fields.decode p :=
    fields_eq_of_rewrites (l := ⟨fields, .text, extent⟩) (i := 0) h
  have htext := (h.drop (n := fields.size)).decode_eq
  refine decode_congr h.length_eq hfields ?_
  simp only [tailBytes, hfields, hn]
  exact htext

theorem decode_append_zero (fields : Record) {a : List UInt8} (hfit : fields.size ≤ a.length)
    (u v : List UInt8) :
    decode ⟨fields, .text, fun _ => none⟩ (a ++ 0 :: v) =
      decode ⟨fields, .text, fun _ => none⟩ (a ++ 0 :: u) := by
  have hread (w : List UInt8) : read ⟨fields, .text, fun _ => none⟩ (a ++ w) =
      (fields.decode a, Padded.decode (a.drop fields.size ++ w)) := by
    rw [read, Record.decode_append_of_size_le hfit, tailBytes, List.drop_append_of_le_length hfit]
    rfl
  have hroom (w : List UInt8) :
      need ⟨fields, .text, fun _ => none⟩ (a ++ w) ≤ (a ++ w).length := by
    rw [need_append_of_size_le hfit, Option.getD_none, List.length_append]
    exact Nat.le_add_right_of_le hfit
  rw [decode, decode, if_pos (hroom _), if_pos (hroom _), hread, hread,
    Padded.decode_append_zero, Padded.decode_append_zero]

end Layout

namespace MessageType

def looseFields : MessageType → List (Nat × Field)
  | queryToplevelWindows => [(0, .wideFlag)]
  | setWindowVisible => [(4, .flag)]
  | windowAttributesData => [(4, .wideFlag)]
  | windowTitleChanged => [(4, .text 256)]
  | setWindowDecorations => [(4, .flag), (5, .gap 3)]
  | setWindowBlur => [(8, .flag)]
  | windowStateData => [(8, .wideFlag)]
  | windowStateChanged => [(8, .flag), (9, .flag)]
  | drawPolygon => [(12, .wideFlag)]
  | windowCreated => [(12, .flag), (13, .flag)]
  | drawCircle => [(20, .wideFlag)]
  | windowInfoData => [(20, .flag), (21, .gap 3), (52, .wideFlag), (60, .text 255)]
  | setScreenEffect => [(0, .text 256), (256, .flag)]
  | setWindowEffect => [(4, .text 256), (260, .flag)]
  | _ => []

def looseInRecord : MessageType → List (Nat × Field)
  | monitorsData => [(32, .flag), (33, .flag), (34, .text 32)]
  | toplevelWindowsData =>
    [(20, .flag), (21, .flag), (22, .gap 2), (28, .text 256), (284, .text 128)]
  | _ => []

/-- No loose field has been forgotten. -/
theorem looseFields_eq (t : MessageType) :
    t.looseFields = t.layout.fields.places.filter (·.2.isLoose) := by
  cases t <;> rfl

theorem looseInRecord_eq {t : MessageType} {fs : Record} (h : t.layout.tail = .records fs) :
    t.looseInRecord = fs.places.filter (·.2.isLoose) := by
  cases t with
  | drawPolygon | setWindowMeshTransform | updateWindowMeshVertices => cases h; rfl
  | monitorsData | toplevelWindowsData => cases h; rfl
  | _ => cases h

/-- The loose fields of a payload, with their places: those in front, those of the records it
counts, and the command line that it gives the length of. -/
inductive Loose (t : MessageType) (p : List UInt8) : Nat → Field → Prop
  | field {i f} (loose : (i, f) ∈ t.looseFields) : Loose t p i f
  | monitor {k i f} (lists : t = .monitorsData) (counted : k < wordAt p 0)
      (loose : (i, f) ∈ t.looseInRecord) : Loose t p (4 + (k * 66 + i)) f
  | toplevel {k i f} (lists : t = .toplevelWindowsData) (counted : k < wordAt p 0)
      (loose : (i, f) ∈ t.looseInRecord) : Loose t p (4 + (k * 412 + i)) f
  | command (launches : t = .launchApp) : Loose t p 4 (.text (wordAt p 0))

/-- One change of a payload that is none of its meaning. -/
inductive Alters (t : MessageType) : List UInt8 → List UInt8 → Prop
  | field {p q i f} (loose : t.Loose p i f) (rewrites : f.Rewrites i p q) : Alters t p q
  | behind {a u} (v : List UInt8) (counted : t ≠ .drawText)
      (whole : a.length = t.needed (a ++ u)) : Alters t (a ++ u) (a ++ v)
  | drawnText {a u} (v : List UInt8) (draws : t = .drawText) (fields : 20 ≤ a.length) :
      Alters t (a ++ 0 :: u) (a ++ 0 :: v)

variable {t : MessageType} {p q : List UInt8} {i : Nat} {f : Field}

theorem mem_places_of_loose (h : (i, f) ∈ t.looseFields) : (i, f) ∈ t.layout.fields.places := by
  rw [looseFields_eq] at h
  exact (List.mem_filter.mp h).1

theorem mem_places_of_loose_record {fs : Record} (h : (i, f) ∈ t.looseInRecord)
    (hfs : t.layout.tail = .records fs) : (i, f) ∈ fs.places := by
  rw [looseInRecord_eq hfs] at h
  exact (List.mem_filter.mp h).1

theorem exists_extent (h : t ≠ .drawText) (v : t.layout.fields.Value) :
    ∃ n, t.layout.extent v = some n := by
  cases t with
  | drawText => exact absurd rfl h
  | _ => exact ⟨_, rfl⟩

theorem extent_eq_some_declared (h : t ≠ .drawText) (hp : t.layout.need p ≤ p.length) :
    t.layout.extent (t.layout.fields.decode p) = some (t.declared p) := by
  have hfit : t.fixedSize ≤ p.length := by
    rw [← size_fields]
    exact Nat.le_trans (t.layout.size_le_need p) hp
  have hdeclared := extent_eq_declared t hfit
  obtain ⟨n, hn⟩ := exists_extent h (t.layout.fields.decode p)
  rw [hn] at hdeclared ⊢
  exact congrArg some hdeclared

theorem Loose.layout_decode_eq (h : t.Loose p i f) (hp : t.layout.need p ≤ p.length)
    (hpq : f.Rewrites i p q) : t.layout.decode q = t.layout.decode p := by
  cases h with
  | field loose => exact Layout.decode_eq_of_rewrites hpq (mem_places_of_loose loose)
  | monitor lists counted loose =>
    subst lists
    exact Layout.decode_eq_of_rewrites_record hp (by decide)
      (extent_eq_some_declared (by decide) hp) counted (mem_places_of_loose_record loose rfl) hpq
  | toplevel lists counted loose =>
    subst lists
    exact Layout.decode_eq_of_rewrites_record hp (by decide)
      (extent_eq_some_declared (by decide) hp) counted (mem_places_of_loose_record loose rfl) hpq
  | command launches =>
    subst launches
    exact Layout.decode_eq_of_rewrites_text (extent_eq_some_declared (by decide) hp) hpq

theorem Alters.layout_decode_eq (h : t.Alters p q) (hp : t.layout.need p ≤ p.length) :
    t.layout.decode q = t.layout.decode p := by
  cases h with
  | field loose rewrites => exact loose.layout_decode_eq hp rewrites
  | behind v counted whole =>
    rw [← need_eq_needed] at whole
    exact Layout.decode_append_of_whole whole (extent_eq_some_declared counted hp) v
  | drawnText v draws fields =>
    subst draws
    exact Layout.decode_append_zero [.word, .int, .int, .word, .word] fields _ v

end MessageType

namespace Message

variable {t : MessageType} {p q : List UInt8} {m : Message}

theorem decode_of_alters (h : t.Alters p q) (hp : decode t p = .ok m) : decode t q = .ok m := by
  obtain ⟨rfl, hneed⟩ := eq_ofBody_read hp
  have hread : t.layout.decode p = .ok (t.layout.read p) := by rw [Layout.decode, if_pos hneed]
  rw [decode, h.layout_decode_eq hneed, hread]

/-- A payload that is taken stays the same message through any number of changes to its slack. -/
theorem decode_of_slack_altered {t : MessageType} {p q : List UInt8} {m : Message}
    (hp : decode t p = .ok m) (hpq : Relation.ReflTransGen t.Alters p q) : decode t q = .ok m := by
  induction hpq with
  | refl => exact hp
  | tail _ step ih => exact decode_of_alters step ih

/-- Two monitors. The second is enabled by the byte `raised`, and its name is `A`. -/
def twoMonitors (raised unread : UInt8) (rest : List UInt8) : List UInt8 :=
  ([2, 0, 0, 0] ++ List.replicate 98 0) ++
    ([raised] ++ ([0] ++ (([0x41] ++ 0 :: unread :: List.replicate 29 0) ++ rest)))

set_option maxRecDepth 2000 in
/-- Its flag is raised by another bit, a byte stands behind its name and one behind the list. -/
theorem decode_twoMonitors_altered :
    ∃ m, decode .monitorsData (twoMonitors 1 0 []) = .ok m ∧
      decode .monitorsData (twoMonitors 0x80 9 [5]) = .ok m ∧
      m = .reply (.monitors [⟨0, 0, 0, 0, 0, 0, 0, ⟨0⟩, false, false, ""⟩,
        ⟨0, 0, 0, 0, 0, 0, 0, ⟨0⟩, true, false, "A"⟩]) := by
  have hflag : MessageType.monitorsData.Alters (twoMonitors 1 0 []) (twoMonitors 0x80 0 []) := by
    refine .field (.monitor (k := 1) (i := 32) (f := .flag) rfl (by decide) (by decide)) ?_
    exact Field.rewrites_append (f := .flag) (by decide) rfl rfl
      ⟨⟨1, by decide⟩, ⟨0x80, by decide⟩⟩
  have hname : MessageType.monitorsData.Alters (twoMonitors 0x80 0 []) (twoMonitors 0x80 9 []) := by
    refine .field (.monitor (k := 1) (i := 34) (f := .text 32) rfl (by decide) (by decide)) ?_
    exact Field.rewrites_append (f := .text 32) (i := 104)
      (a := ([2, 0, 0, 0] ++ List.replicate 98 0) ++ [0x80, 0]) (by decide) rfl rfl
      ⟨[0x41], 0 :: List.replicate 29 0, 9 :: List.replicate 29 0, rfl, rfl⟩
  have hrest : MessageType.monitorsData.Alters (twoMonitors 0x80 9 []) (twoMonitors 0x80 9 [5]) :=
    .behind (a := twoMonitors 0x80 9 []) (u := []) [5] (by decide) (by decide +kernel)
  have hall := ((Relation.ReflTransGen.single hflag).tail hname).tail hrest
  exact ⟨_, rfl, decode_of_slack_altered rfl hall, rfl⟩

end Message
end CompositorClient
