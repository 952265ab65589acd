import CompositorClient.Protocol.Message

/-! The windows a client has made and not destroyed, each with the geometry last asked for.
The compositor may have given a window another geometry; nothing that is sent depends on the
table.  The table also mints the ids, which run through all words but zero. -/

namespace CompositorClient

structure Geometry where
  x : Int32
  y : Int32
  width : UInt32
  height : UInt32
  deriving DecidableEq

abbrev WindowEntry := WindowId × Geometry

namespace WindowEntry

def Ascending (es : List WindowEntry) : Prop := es.Pairwise (·.1 < ·.1)

/-- Puts an entry in its place, or in that of the entry with its id. -/
def put (id : WindowId) (g : Geometry) : List WindowEntry → List WindowEntry
  | [] => [(id, g)]
  | e :: es =>
    if id < e.1 then (id, g) :: e :: es
    else if id = e.1 then (id, g) :: es
    else e :: put id g es

def find (id : WindowId) : List WindowEntry → Option Geometry
  | [] => none
  | e :: es => if id = e.1 then some e.2 else find id es

/-- Changes the geometry of one window, if it is there. -/
def modify (id : WindowId) (f : Geometry → Geometry) (es : List WindowEntry) : List WindowEntry :=
  es.map fun e => if e.1 = id then (e.1, f e.2) else e

def remove (id : WindowId) (es : List WindowEntry) : List WindowEntry :=
  es.filter fun e => e.1 ≠ id

theorem mem_put {id : WindowId} {g : Geometry} {es : List WindowEntry} {e : WindowEntry}
    (h : e ∈ put id g es) : e = (id, g) ∨ e ∈ es := by
  induction es with
  | nil => simpa [put] using h
  | cons a as ih =>
    rw [put] at h
    split at h
    · simpa using h
    · split at h
      · rcases List.mem_cons.mp h with h | h
        · exact .inl h
        · exact .inr (List.mem_cons_of_mem _ h)
      · rcases List.mem_cons.mp h with h | h
        · exact .inr (by simp [h])
        · exact (ih h).imp_right (List.mem_cons_of_mem _)

theorem Ascending.put {es : List WindowEntry} (h : Ascending es) (id : WindowId) (g : Geometry) :
    Ascending (put id g es) := by
  induction es with
  | nil => simp [WindowEntry.put, Ascending]
  | cons a as ih =>
    obtain ⟨ha, has⟩ := List.pairwise_cons.mp h
    rw [WindowEntry.put]
    split
    · next hlt =>
      refine List.pairwise_cons.mpr ⟨fun e he => ?_, h⟩
      rcases List.mem_cons.mp he with rfl | he
      · exact hlt
      · exact UInt32.lt_trans hlt (ha e he)
    · next hlt =>
      split
      · next heq => exact List.pairwise_cons.mpr ⟨fun e he => heq ▸ ha e he, has⟩
      · next hne =>
        refine List.pairwise_cons.mpr ⟨fun e he => ?_, ih has⟩
        rcases mem_put he with rfl | he
        · exact UInt32.lt_of_le_of_ne (UInt32.not_lt.mp hlt) (Ne.symm hne)
        · exact ha e he

theorem Ascending.modify {es : List WindowEntry} (h : Ascending es) (id : WindowId)
    (f : Geometry → Geometry) : Ascending (modify id f es) := by
  refine List.pairwise_map.mpr (h.imp fun {a b} hab => ?_)
  split <;> split <;> exact hab

theorem Ascending.remove {es : List WindowEntry} (h : Ascending es) (id : WindowId) :
    Ascending (remove id es) :=
  h.filter _

@[simp] theorem find_put_self (id : WindowId) (g : Geometry) (es : List WindowEntry) :
    find id (put id g es) = some g := by
  induction es with
  | nil => simp [put, find]
  | cons a as ih =>
    rw [put]
    split
    · simp [find]
    · split
      · simp [find]
      · next hne => simp [find, hne, ih]

theorem find_put_of_ne {id id' : WindowId} (h : id' ≠ id) (g : Geometry) (es : List WindowEntry) :
    find id' (put id g es) = find id' es := by
  induction es with
  | nil => simp [put, find, h]
  | cons a as ih =>
    rw [put]
    split
    · simp [find, h]
    · split
      · next heq => simp [find, h, ← heq]
      · simp [find, ih]

@[simp] theorem find_modify_self (id : WindowId) (f : Geometry → Geometry)
    (es : List WindowEntry) : find id (modify id f es) = (find id es).map f := by
  induction es with
  | nil => rfl
  | cons a as ih =>
    by_cases h : a.1 = id
    · simp [modify, find, h]
    · simpa [modify, find, h, Ne.symm h] using ih

theorem find_modify_of_ne {id id' : WindowId} (h : id' ≠ id) (f : Geometry → Geometry)
    (es : List WindowEntry) : find id' (modify id f es) = find id' es := by
  induction es with
  | nil => rfl
  | cons a as ih =>
    by_cases ha : a.1 = id
    · simpa [modify, find, ha, h] using ih
    · simp only [modify, List.map_cons, if_neg ha, find]
      split
      · rfl
      · exact ih

@[simp] theorem find_remove_self (id : WindowId) (es : List WindowEntry) :
    find id (remove id es) = none := by
  induction es with
  | nil => rfl
  | cons a as ih =>
    by_cases h : a.1 = id
    · simpa [remove, h] using ih
    · simpa [remove, find, h, Ne.symm h] using ih

theorem find_remove_of_ne {id id' : WindowId} (h : id' ≠ id) (es : List WindowEntry) :
    find id' (remove id es) = find id' es := by
  induction es with
  | nil => rfl
  | cons a as ih =>
    by_cases ha : a.1 = id
    · simpa [remove, find, ha, h] using ih
    · simp only [remove, ne_eq, ha, not_false_eq_true, decide_true, List.filter_cons_of_pos, find]
      split
      · rfl
      · exact ih

theorem find_isSome_iff (id : WindowId) (es : List WindowEntry) :
    (find id es).isSome ↔ id ∈ es.map (·.1) := by
  induction es with
  | nil => simp [find]
  | cons a as ih =>
    by_cases h : id = a.1
    · simp [find, h]
    · rw [find, if_neg h, ih]
      simp [h]

end WindowEntry

structure WindowTable where
  nextId : WindowId := 1
  entries : List WindowEntry := []
  ascending : WindowEntry.Ascending entries := by exact List.Pairwise.nil

namespace WindowTable

def empty : WindowTable := {}

/-- The id after `id`, leaving zero out. -/
def following (id : WindowId) : WindowId :=
  if id + 1 = 0 then 1 else id + 1

def allocate (t : WindowTable) : WindowId × WindowTable :=
  (t.nextId, { t with nextId := following t.nextId })

def insert (t : WindowTable) (id : WindowId) (g : Geometry) : WindowTable where
  nextId := t.nextId
  entries := WindowEntry.put id g t.entries
  ascending := t.ascending.put id g

def erase (t : WindowTable) (id : WindowId) : WindowTable where
  nextId := t.nextId
  entries := WindowEntry.remove id t.entries
  ascending := t.ascending.remove id

def get? (t : WindowTable) (id : WindowId) : Option Geometry :=
  WindowEntry.find id t.entries

def modify (t : WindowTable) (id : WindowId) (f : Geometry → Geometry) : WindowTable where
  nextId := t.nextId
  entries := WindowEntry.modify id f t.entries
  ascending := t.ascending.modify id f

def move (t : WindowTable) (id : WindowId) (x y : Int32) : WindowTable :=
  t.modify id fun g => { g with x, y }

def resize (t : WindowTable) (id : WindowId) (width height : UInt32) : WindowTable :=
  t.modify id fun g => { g with width, height }

def size (t : WindowTable) : Nat := t.entries.length

def isEmpty (t : WindowTable) : Bool := t.entries.isEmpty

/-- In ascending order. -/
def ids (t : WindowTable) : List WindowId := t.entries.map (·.1)

@[simp] theorem get?_insert_self (t : WindowTable) (id : WindowId) (g : Geometry) :
    (t.insert id g).get? id = some g :=
  WindowEntry.find_put_self id g t.entries

theorem get?_insert_of_ne (t : WindowTable) {id id' : WindowId} (h : id' ≠ id) (g : Geometry) :
    (t.insert id g).get? id' = t.get? id' :=
  WindowEntry.find_put_of_ne h g t.entries

@[simp] theorem get?_erase_self (t : WindowTable) (id : WindowId) : (t.erase id).get? id = none :=
  WindowEntry.find_remove_self id t.entries

theorem get?_erase_of_ne (t : WindowTable) {id id' : WindowId} (h : id' ≠ id) :
    (t.erase id).get? id' = t.get? id' :=
  WindowEntry.find_remove_of_ne h t.entries

theorem isSome_get?_iff (t : WindowTable) (id : WindowId) : (t.get? id).isSome ↔ id ∈ t.ids :=
  WindowEntry.find_isSome_iff id t.entries

theorem ids_ascending (t : WindowTable) : t.ids.Pairwise (· < ·) :=
  List.pairwise_map.mpr t.ascending

/-- What the table keeps of a command that has been queued. -/
def record (t : WindowTable) : Command → WindowTable
  | .destroyBuffer id => t.erase id
  | .setWindowPosition p => t.move p.windowId p.x p.y
  | .setWindowSize s => t.resize s.windowId s.width s.height
  | _ => t

end WindowTable
end CompositorClient
