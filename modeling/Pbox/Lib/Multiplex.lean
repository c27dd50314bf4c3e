import Mathlib.Data.List.Basic

/-! Many sequences over one stream: each frame may carry an item for one key, and a receiver sees
for a key the items of its frames in the order of the stream. -/

namespace Pbox.Lib.Multiplex

variable {Frame Key Item : Type*} [DecidableEq Key]

/-- What the frames carry for one key. -/
def forKey (carries : Frame → Option (Key × Item)) (key : Key) (frames : List Frame) : List Item :=
  frames.filterMap fun frame =>
    (carries frame).bind fun owned => if owned.1 = key then some owned.2 else none

variable {carries : Frame → Option (Key × Item)} {key other : Key} {item : Item} {frame : Frame}
  {frames : List Frame}

@[simp] theorem forKey_append (back : List Frame) :
    forKey carries key (frames ++ back) = forKey carries key frames ++ forKey carries key back :=
  List.filterMap_append

@[simp] theorem forKey_nil : forKey carries key [] = [] := rfl

theorem forKey_own (owned : carries frame = some (key, item)) :
    forKey carries key (frame :: frames) = item :: forKey carries key frames := by
  simp [forKey, owned]

theorem forKey_foreign (owned : carries frame = some (other, item)) (different : other ≠ key) :
    forKey carries key (frame :: frames) = forKey carries key frames := by
  simp [forKey, owned, different]

theorem forKey_none (none : carries frame = none) :
    forKey carries key (frame :: frames) = forKey carries key frames := by
  simp [forKey, none]

end Pbox.Lib.Multiplex
