import CompositorClient.Proofs.Layout
import CompositorClient.Protocol.Payload
import Mathlib.Algebra.Group.Nat.Defs

/-! Every message reads back as it was written, but for its texts: those in fields of fixed
capacity keep what fits, and all of them end at their first NUL. -/

namespace CompositorClient

namespace Command

/-- Applies `padded` to each text in a field of fixed capacity and `terminated` to each that
is written in full with a NUL behind it. -/
def mapTexts (padded : Nat → String → String) (terminated : String → String) : Command → Command
  | setScreenEffect equation enabled => setScreenEffect (padded equationCapacity equation) enabled
  | setWindowEffect id equation enabled =>
    setWindowEffect id (padded equationCapacity equation) enabled
  | drawText d => drawText { d with text := terminated d.text }
  | launchApp command => launchApp (terminated command)
  | c => c

/-- The texts in fields of fixed capacity, with their capacities. -/
def paddedTexts : Command → List (Nat × String)
  | setScreenEffect equation _ => [(equationCapacity, equation)]
  | setWindowEffect _ equation _ => [(equationCapacity, equation)]
  | _ => []

def terminatedTexts : Command → List String
  | drawText d => [d.text]
  | launchApp command => [command]
  | _ => []

/-- Each count fits its field, and a mesh has the vertices that its grid asks for. -/
def WellCounted : Command → Prop
  | drawPolygon p => p.points.length < 2 ^ 32
  | uploadImage i => i.data.length < 2 ^ 32
  | setWindowMeshTransform m =>
    m.vertices.length < 2 ^ 32 ∧ m.vertices.length = m.width.toNat * m.height.toNat
  | updateWindowMeshVertices p => p.vertices.length < 2 ^ 32
  | launchApp command => (Utf8.encode command).length < 2 ^ 32 - 1
  | _ => True

end Command

namespace Monitor

def mapName (padded : Nat → String → String) (m : Monitor) : Monitor :=
  { m with name := padded monitorNameCapacity m.name }

theorem mapName_eq_self_iff (padded : Nat → String → String) (m : Monitor) :
    m.mapName padded = m ↔ padded monitorNameCapacity m.name = m.name :=
  ⟨fun h => congrArg name h, fun h => by rw [mapName, h]⟩

end Monitor

namespace Toplevel

def mapTexts (padded : Nat → String → String) (t : Toplevel) : Toplevel :=
  { t with title := padded titleCapacity t.title, appId := padded appIdCapacity t.appId }

theorem mapTexts_eq_self_iff (padded : Nat → String → String) (t : Toplevel) :
    t.mapTexts padded = t ↔
      padded titleCapacity t.title = t.title ∧ padded appIdCapacity t.appId = t.appId :=
  ⟨fun h => ⟨congrArg title h, congrArg appId h⟩, fun h => by rw [mapTexts, h.1, h.2]⟩

end Toplevel

namespace Reply

def mapTexts (padded : Nat → String → String) : Reply → Reply
  | monitors ms => monitors (ms.map (·.mapName padded))
  | windowInfo i => windowInfo { i with processName := padded processNameCapacity i.processName }
  | toplevelWindows ts => toplevelWindows (ts.map (·.mapTexts padded))
  | r => r

def paddedTexts : Reply → List (Nat × String)
  | monitors ms => ms.map fun m => (monitorNameCapacity, m.name)
  | windowInfo i => [(processNameCapacity, i.processName)]
  | toplevelWindows ts => ts.flatMap fun t => [(titleCapacity, t.title), (appIdCapacity, t.appId)]
  | _ => []

def WellCounted : Reply → Prop
  | monitors ms => ms.length < 2 ^ 32
  | screenCopy c => c.data.length < 2 ^ 32
  | toplevelWindows ts => ts.length < 2 ^ 32
  | _ => True

end Reply

namespace Notice

def mapTexts (padded : Nat → String → String) : Notice → Notice
  | windowTitleChanged id title => windowTitleChanged id (padded titleCapacity title)
  | n => n

def paddedTexts : Notice → List (Nat × String)
  | windowTitleChanged _ title => [(titleCapacity, title)]
  | _ => []

end Notice

namespace Message

def mapTexts (padded : Nat → String → String) (terminated : String → String) : Message → Message
  | command c => command (c.mapTexts padded terminated)
  | query q => query q
  | reply r => reply (r.mapTexts padded)
  | notice n => notice (n.mapTexts padded)

def paddedTexts : Message → List (Nat × String)
  | command c => c.paddedTexts
  | query _ => []
  | reply r => r.paddedTexts
  | notice n => n.paddedTexts

def terminatedTexts : Message → List String
  | command c => c.terminatedTexts
  | _ => []

def texts (m : Message) : List String :=
  m.paddedTexts.map (·.2) ++ m.terminatedTexts

def WellCounted : Message → Prop
  | command c => c.WellCounted
  | query _ => True
  | reply r => r.WellCounted
  | notice _ => True

end Message

theorem map_eq_self_iff {α : Type} {f : α → α} {xs : List α} :
    xs.map f = xs ↔ ∀ x ∈ xs, f x = x := by
  rw [← List.map_inj_left (g := fun x => x), List.map_id']

namespace Message

theorem toNat_countWord {n : Nat} (h : n < 2 ^ 32) : (countWord n).toNat = n := by
  rw [countWord, UInt32.toNat_ofNat', Nat.mod_eq_of_lt h]

theorem measured_tail (t : MessageType) : t.layout.tail.Measured := by
  cases t with
  | drawPolygon => exact (by decide : 0 < Record.size .point)
  | setWindowMeshTransform => exact (by decide : 0 < Record.size .vertex)
  | updateWindowMeshVertices => exact (by decide : 0 < Record.size .vertex)
  | monitorsData => exact (by decide : 0 < Record.size .monitor)
  | toplevelWindowsData => exact (by decide : 0 < Record.size .toplevel)
  | _ => trivial

/-- How long a list of records is, once it has been counted. -/
theorem countWord_mul_size {α : Type} (fs : Record) (fields : α → fs.Value) {xs : List α}
    (h : xs.length < 2 ^ 32) :
    (countWord xs.length).toNat * fs.size = ((xs.map fields).flatMap fs.encode).length := by
  rw [toNat_countWord h, Record.length_flatMap_encode, List.length_map]

theorem declares_command {c : Command} (h : c.WellCounted) :
    c.type.layout.Declares c.body ∨ ∃ d, c = .drawText d := by
  cases c with
  | drawPolygon p => exact .inl (congrArg some (countWord_mul_size .point Point.fields h))
  | uploadImage i => exact .inl (congrArg some (toNat_countWord h))
  | setWindowMeshTransform m =>
    have hlen := Record.length_flatMap_encode .vertex (m.vertices.map MeshVertex.fields)
    rw [List.length_map, h.2] at hlen
    exact .inl (congrArg some hlen.symm)
  | updateWindowMeshVertices p =>
    exact .inl (congrArg some (countWord_mul_size .vertex MeshVertex.fields h))
  | launchApp command =>
    have hn : (countWord (Utf8.encode command).length).toNat = (Utf8.encode command).length :=
      toNat_countWord (Nat.lt_of_lt_of_le h (by decide))
    have h1 : (Utf8.encode command).length + 1 < 2 ^ 32 := Nat.add_lt_of_lt_sub h
    have hlen : (countWord (Utf8.encode command).length + 1).toNat =
        (Utf8.encode command ++ [0]).length := by
      rw [UInt32.toNat_add, hn, List.length_append]
      exact Nat.mod_eq_of_lt h1
    exact .inl (congrArg some hlen)
  | drawText d => exact .inr ⟨d, rfl⟩
  | _ => exact .inl rfl

theorem declares_reply {r : Reply} (h : r.WellCounted) : r.kind.type.layout.Declares r.body := by
  cases r with
  | monitors ms => exact congrArg some (countWord_mul_size .monitor Monitor.fields h)
  | screenCopy c => exact congrArg some (toNat_countWord h)
  | toplevelWindows ts => exact congrArg some (countWord_mul_size .toplevel Toplevel.fields h)
  | _ => rfl

theorem declares_body {m : Message} (h : m.WellCounted) :
    m.type.layout.Declares m.body ∨ ∃ d, m = .command (.drawText d) := by
  cases m with
  | command c => exact (declares_command h).imp_right fun ⟨d, hd⟩ => ⟨d, hd ▸ rfl⟩
  | query q => cases q <;> exact .inl rfl
  | reply r => exact .inl (declares_reply h)
  | notice n => cases n <;> exact .inl rfl

theorem layout_decode_encode_append {m : Message} (h : m.WellCounted) (t : List UInt8) :
    m.type.layout.decode (m.encode ++ t) = .ok (m.type.layout.stored m.body) := by
  rcases declares_body h with hd | ⟨d, rfl⟩
  · exact Layout.decode_encode_append hd (measured_tail m.type) t
  · -- the text runs to the end of the payload, and its NUL alone keeps `t` out of it
    refine Layout.decode_encode_append_of_open rfl t ?_
    have ht : Utf8.encode d.text ++ [0] ++ t = Utf8.encode d.text ++ 0 :: t := by
      rw [List.append_assoc, List.singleton_append]
    exact (congrArg Padded.decode ht).trans (Padded.decode_terminated d.text t)

theorem decode_encode_stored {m : Message} (h : m.WellCounted) (t : List UInt8) :
    decode m.type (m.encode ++ t) = .ok m.stored := by
  rw [decode, layout_decode_encode_append h]
  rfl

theorem map_stored {α : Type} {fs : Record} {fields : α → fs.Value} {ofFields : fs.Value → α}
    {f : α → α} (h : ∀ x, ofFields (fs.stored (fields x)) = f x) (xs : List α) :
    ((xs.map fields).map fs.stored).map ofFields = xs.map f := by
  rw [List.map_map, List.map_map]
  exact List.map_congr_left fun x _ => h x

theorem points_stored (ps : List Point) :
    ((ps.map Point.fields).map (Record.stored .point)).map Point.ofFields = ps :=
  (map_stored (fun _ => rfl) ps).trans (List.map_id ps)

theorem vertices_stored (vs : List MeshVertex) :
    ((vs.map MeshVertex.fields).map (Record.stored .vertex)).map MeshVertex.ofFields = vs :=
  (map_stored (fun _ => rfl) vs).trans (List.map_id vs)

theorem stored_eq_mapTexts (m : Message) :
    m.stored = m.mapTexts Padded.stored Padded.terminated := by
  rcases m with c | q | r | n
  · cases c with
    | drawPolygon p =>
      exact congrArg (fun ps => command (.drawPolygon { p with points := ps }))
        (points_stored p.points)
    | setWindowMeshTransform m =>
      exact congrArg (fun vs => command (.setWindowMeshTransform { m with vertices := vs }))
        (vertices_stored m.vertices)
    | updateWindowMeshVertices p =>
      exact congrArg (fun vs => command (.updateWindowMeshVertices { p with vertices := vs }))
        (vertices_stored p.vertices)
    | _ => rfl
  · cases q <;> rfl
  · cases r with
    | monitors ms =>
      exact congrArg (fun ms => reply (.monitors ms)) (map_stored (fun _ => rfl) ms)
    | toplevelWindows ts =>
      exact congrArg (fun ts => reply (.toplevelWindows ts)) (map_stored (fun _ => rfl) ts)
    | _ => rfl
  · cases n <;> rfl

end Message

section

variable (padded : Nat → String → String) (terminated : String → String)

theorem Command.mapTexts_eq_self_iff (c : Command) :
    c.mapTexts padded terminated = c ↔
      (∀ p ∈ c.paddedTexts, padded p.1 p.2 = p.2) ∧ ∀ s ∈ c.terminatedTexts, terminated s = s := by
  cases c with
  | drawText d => cases d; simp [mapTexts, paddedTexts, terminatedTexts]
  | _ => simp [mapTexts, paddedTexts, terminatedTexts]

theorem Reply.mapTexts_eq_self_iff (r : Reply) :
    r.mapTexts padded = r ↔ ∀ p ∈ r.paddedTexts, padded p.1 p.2 = p.2 := by
  cases r with
  | monitors ms =>
    simp [mapTexts, paddedTexts, map_eq_self_iff, Monitor.mapName_eq_self_iff]
  | windowInfo i => cases i; simp [mapTexts, paddedTexts]
  | toplevelWindows ts =>
    rw [mapTexts, toplevelWindows.injEq, map_eq_self_iff, paddedTexts]
    simp only [List.forall_mem_flatMap, List.forall_mem_cons, List.not_mem_nil, false_imp_iff,
      forall_true_iff, and_true, Toplevel.mapTexts_eq_self_iff]
  | _ => simp [mapTexts, paddedTexts]

theorem Notice.mapTexts_eq_self_iff (n : Notice) :
    n.mapTexts padded = n ↔ ∀ p ∈ n.paddedTexts, padded p.1 p.2 = p.2 := by
  cases n <;> simp [mapTexts, paddedTexts]

theorem Message.mapTexts_eq_self_iff (m : Message) :
    m.mapTexts padded terminated = m ↔
      (∀ p ∈ m.paddedTexts, padded p.1 p.2 = p.2) ∧ ∀ s ∈ m.terminatedTexts, terminated s = s := by
  cases m with
  | command c =>
    rw [mapTexts, command.injEq, Command.mapTexts_eq_self_iff]
    rfl
  | query q => simp [mapTexts, paddedTexts, terminatedTexts]
  | reply r => simp [mapTexts, paddedTexts, terminatedTexts, Reply.mapTexts_eq_self_iff]
  | notice n => simp [mapTexts, paddedTexts, terminatedTexts, Notice.mapTexts_eq_self_iff]

end

namespace Message

theorem mapTexts_stored_eq_self_iff (m : Message) :
    m.mapTexts Padded.stored Padded.terminated = m ↔
      (∀ p ∈ m.paddedTexts, (Utf8.encode p.2).length ≤ p.1) ∧
        ∀ s ∈ m.texts, '\x00' ∉ s.toList := by
  rw [mapTexts_eq_self_iff, texts]
  simp only [Padded.stored_eq_self_iff, Padded.terminated_eq_self_iff, forall_and,
    List.forall_mem_append, List.forall_mem_map, and_assoc]

/-- Decoding what was encoded, with any bytes behind it, gives the message back with its texts
cut, and nothing is cut exactly when every text fits and none has a NUL in it. -/
theorem decode_message_encode_append (m : Message) (h : m.WellCounted) (t : List UInt8) :
    decode m.type (m.encode ++ t) = .ok (m.mapTexts Padded.stored Padded.terminated) ∧
      (∀ capacity s, ∃ p, Padded.Longest capacity s.toList p ∧
        (Padded.stored capacity s).toList = p.takeWhile (· ≠ '\x00')) ∧
      (∀ s, (Padded.terminated s).toList = s.toList.takeWhile (· ≠ '\x00')) ∧
      (m.mapTexts Padded.stored Padded.terminated = m ↔
        (∀ p ∈ m.paddedTexts, (Utf8.encode p.2).length ≤ p.1) ∧
          ∀ s ∈ m.texts, '\x00' ∉ s.toList) := by
  refine ⟨?_, fun capacity s => ?_, Padded.toList_terminated, mapTexts_stored_eq_self_iff m⟩
  · rw [decode_encode_stored h, stored_eq_mapTexts]
  · exact ⟨_, Padded.longest_fit capacity s.toList, Padded.toList_stored capacity s⟩

/-- A mesh of two vertices, the first with two NaNs. -/
def sampleMesh : Message :=
  .command (.setWindowMeshTransform
    ⟨7, 2, 1, [⟨⟨0x7fc00001⟩, .one, ⟨0xffc00000⟩, .zero⟩, ⟨.one, .zero, .one, ⟨0x80000000⟩⟩]⟩)

theorem decode_message_encode_append_mesh :
    sampleMesh.WellCounted ∧
      decode .setWindowMeshTransform (sampleMesh.encode ++ [1, 2, 3]) = .ok sampleMesh :=
  have h : sampleMesh.WellCounted := by
    exact (by decide : 2 < 2 ^ 32 ∧ 2 = 2 * 1)
  ⟨h, (decode_message_encode_append sampleMesh h [1, 2, 3]).1⟩

end Message
end CompositorClient
