import CompositorClient.Proofs.Payload
import CompositorClient.Protocol.AnimationTargets
import Mathlib.Data.List.Induction

/-! What an animation is told to do, call by call. The targets come in six groups, each with a flag
of its own, and a call sets all of its group. So the last call of a group has its way, and what
other groups were told, before or after, does not matter to it. -/

namespace CompositorClient

inductive TargetGroup
  | position | scale | opacity | translate | rotate | scaleZ
  deriving DecidableEq

namespace TargetGroup

def bit : TargetGroup → Nat
  | position => 0
  | scale => 1
  | opacity => 2
  | translate => 3
  | rotate => 4
  | scaleZ => 5

@[reducible] def Value : TargetGroup → Type
  | position | scale => Single × Single
  | opacity | scaleZ => Single
  | translate | rotate => Vector Single 3

def neutral : (g : TargetGroup) → g.Value
  | position => (.zero, .zero)
  | scale => (.one, .one)
  | opacity | scaleZ => .one
  | translate | rotate => AnimationTargets.still

theorem exists_iff {P : TargetGroup → Prop} :
    (∃ g, P g) ↔
      P position ∨ P scale ∨ P opacity ∨ P translate ∨ P rotate ∨ P scaleZ := by
  constructor
  · rintro ⟨g, hg⟩
    cases g <;> simp [hg]
  · rintro (h | h | h | h | h | h) <;> exact ⟨_, h⟩

end TargetGroup

abbrev TargetCall := (g : TargetGroup) × g.Value

def TargetCall.gives? (c : TargetCall) (g : TargetGroup) : Option g.Value :=
  if h : c.1 = g then some (h ▸ c.2) else none

def Animation.target (a : Animation) : (g : TargetGroup) → g.Value
  | .position => (a.x, a.y)
  | .scale => (a.scaleX, a.scaleY)
  | .opacity => a.opacity
  | .translate => a.translate
  | .rotate => a.rotate
  | .scaleZ => a.scaleZ

namespace AnimationTargets

def call (t : AnimationTargets) : TargetCall → AnimationTargets
  | ⟨.position, v⟩ => t.withPosition v.1 v.2
  | ⟨.scale, v⟩ => t.withScale v.1 v.2
  | ⟨.opacity, v⟩ => t.withOpacity v
  | ⟨.translate, v⟩ => t.withTranslation v
  | ⟨.rotate, v⟩ => t.withRotation v
  | ⟨.scaleZ, v⟩ => t.withScaleZ v

/-- The targets after `calls`, with none given before. -/
def ofCalls (windowId : WindowId) (duration : UInt32) (calls : List TargetCall) :
    AnimationTargets :=
  calls.foldl call { windowId, duration }

def Given (t : AnimationTargets) : TargetGroup → Prop
  | .position => t.x.isSome ∨ t.y.isSome
  | .scale => t.scaleX.isSome ∨ t.scaleY.isSome
  | .opacity => t.opacity.isSome
  | .translate => t.translate.isSome
  | .rotate => t.rotate.isSome
  | .scaleZ => t.scaleZ.isSome

theorem given_call (t : AnimationTargets) (c : TargetCall) (g : TargetGroup) :
    (t.call c).Given g ↔ c.1 = g ∨ t.Given g := by
  obtain ⟨h, v⟩ := c
  cases h <;> cases g <;>
    simp [call, Given, withPosition, withScale, withOpacity, withTranslation, withRotation,
      withScaleZ]

theorem target_call (t : AnimationTargets) (c : TargetCall) (g : TargetGroup) :
    (t.call c).build.target g = (c.gives? g).getD (t.build.target g) := by
  obtain ⟨g', v⟩ := c
  cases g' <;> cases g <;> rfl

theorem call_comm {c d : TargetCall} (h : c.1 ≠ d.1) (t : AnimationTargets) :
    (t.call c).call d = (t.call d).call c := by
  obtain ⟨g, v⟩ := c
  obtain ⟨g', w⟩ := d
  cases g <;> cases g' <;> first | exact absurd rfl h | rfl

section

variable (windowId : WindowId) (duration : UInt32) (calls : List TargetCall)

theorem ofCalls_concat (c : TargetCall) :
    ofCalls windowId duration (calls ++ [c]) = (ofCalls windowId duration calls).call c := by
  simp [ofCalls]

theorem given_ofCalls_iff (g : TargetGroup) :
    (ofCalls windowId duration calls).Given g ↔ ∃ c ∈ calls, c.1 = g := by
  induction calls using List.reverseRecOn with
  | nil => cases g <;> simp [ofCalls, Given]
  | append_singleton calls c ih =>
    rw [ofCalls_concat, given_call, ih]
    simp [or_and_right, exists_or, or_comm]

theorem target_ofCalls (g : TargetGroup) :
    (ofCalls windowId duration calls).build.target g =
      (calls.filterMap (·.gives? g)).getLast?.getD g.neutral := by
  -- From the end, where the call stands that decides.
  induction calls using List.reverseRecOn with
  | nil => cases g <;> rfl
  | append_singleton calls c ih =>
    rw [ofCalls_concat, target_call, ih, List.filterMap_append, List.getLast?_append]
    cases h : c.gives? g <;> simp [h]

theorem addressed_ofCalls :
    (ofCalls windowId duration calls).windowId = windowId ∧
      (ofCalls windowId duration calls).duration = duration := by
  induction calls using List.reverseRecOn with
  | nil => exact ⟨rfl, rfl⟩
  | append_singleton calls c ih =>
    obtain ⟨g, v⟩ := c
    rw [ofCalls_concat]
    cases g <;> exact ih

theorem ofCalls_swap (before after : List TargetCall) {c d : TargetCall} (h : c.1 ≠ d.1) :
    ofCalls windowId duration (before ++ c :: d :: after) =
      ofCalls windowId duration (before ++ d :: c :: after) := by
  simp [ofCalls, call_comm h]

end

theorem testBit_flagIf (bit : UInt32) (k : Nat) (h : bit.toNat = 2 ^ k) (given : Bool) (i : Nat) :
    (flagIf given bit).toNat.testBit i = true ↔ k = i ∧ given = true := by
  cases given <;> simp [flagIf, h, Nat.testBit_two_pow]

/-- A flag is raised exactly when a target of its group is given, and no bit is set but flags. -/
theorem testBit_flags_iff (t : AnimationTargets) (i : Nat) :
    t.build.flags.word.toNat.testBit i = true ↔ ∃ g : TargetGroup, g.bit = i ∧ t.Given g := by
  have hposition := testBit_flagIf AnimationFlags.position 0 rfl
  have hscale := testBit_flagIf AnimationFlags.scale 1 rfl
  have hopacity := testBit_flagIf AnimationFlags.opacity 2 rfl
  have htranslate := testBit_flagIf AnimationFlags.translate3d 3 rfl
  have hrotate := testBit_flagIf AnimationFlags.rotate3d 4 rfl
  have hscaleZ := testBit_flagIf AnimationFlags.scale3d 5 rfl
  rw [TargetGroup.exists_iff]
  simp only [build, flags, UInt32.toNat_or, Nat.testBit_or, Bool.or_eq_true, hposition, hscale,
    hopacity, htranslate, hrotate, hscaleZ, TargetGroup.bit, Given, or_assoc]

/-- An animation has nothing that its payload could not keep. -/
theorem decode_encode_animation (a : Animation) (t : List UInt8) :
    Message.decode .animateWindow (Message.encode (.command (.animateWindow a)) ++ t) =
      .ok (.command (.animateWindow a)) := by
  have hstored := Message.stored_eq_mapTexts (.command (.animateWindow a))
  have hdecode := Message.decode_encode_stored (m := .command (.animateWindow a)) trivial t
  rw [hstored] at hdecode
  exact hdecode

/-- The animation that a run of calls builds has the flags of the groups called, and of no other,
and for each group what its last call gave, or what changes nothing; neighbours of different groups
may change places. It arrives as it was sent. Targets given one by one raise the flag of their
group as well. -/
theorem build_follows_last_calls (windowId : WindowId) (duration : UInt32)
    (calls : List TargetCall) :
    let a := (ofCalls windowId duration calls).build
    a.windowId = windowId ∧ a.duration = duration ∧
    (∀ i, a.flags.word.toNat.testBit i = true ↔ ∃ c ∈ calls, c.1.bit = i) ∧
    (∀ g, a.target g = (calls.filterMap (·.gives? g)).getLast?.getD g.neutral) ∧
    (∀ before c d after, calls = before ++ c :: d :: after → c.1 ≠ d.1 →
      (ofCalls windowId duration (before ++ d :: c :: after)).build = a) ∧
    (Message.encode (.command (.animateWindow a))).length = 60 ∧
    (∀ t, Message.decode .animateWindow (Message.encode (.command (.animateWindow a)) ++ t) =
      .ok (.command (.animateWindow a))) ∧
    ∀ (t : AnimationTargets) i,
      t.build.flags.word.toNat.testBit i = true ↔ ∃ g : TargetGroup, g.bit = i ∧ t.Given g := by
  intro a
  obtain ⟨hid, hduration⟩ := addressed_ofCalls windowId duration calls
  refine ⟨hid, hduration, fun i => ?_, target_ofCalls windowId duration calls, ?_, ?_,
    decode_encode_animation a, testBit_flags_iff⟩
  · simp only [a, testBit_flags_iff, given_ofCalls_iff]
    constructor
    · rintro ⟨g, hbit, c, hc, rfl⟩
      exact ⟨c, hc, hbit⟩
    · rintro ⟨c, hc, hbit⟩
      exact ⟨c.1, hbit, c, hc, rfl⟩
  · rintro before c d after rfl h
    exact congrArg build (ofCalls_swap windowId duration before after h).symm
  · exact Layout.length_encode _ _

/-- Moved twice and faded once in between. -/
example :
    let calls : List TargetCall :=
      [⟨.position, (.one, .one)⟩, ⟨.opacity, .zero⟩, ⟨.position, (.zero, .one)⟩]
    (ofCalls 4 300 calls).build =
      ⟨4, 300, .zero, .one, .one, .one, .zero, still, still, .one, ⟨0b101⟩⟩ := by
  rfl

end AnimationTargets
end CompositorClient
