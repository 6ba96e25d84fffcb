import FlickDrop.Foundations.Runs

/-!
# A slot that is written once

The contract of first-wins protocols: a slot comes into being, one value is written into
it or it is closed unwritten, and at some point it is dropped.  Whatever else a protocol
does, its steps are steps of this machine under some view of its state.
-/

namespace FlickDrop
namespace Foundations

inductive Slot (Value : Type*) where
  | unborn
  | free
  | taken (value : Value)
  | shut
  | gone

/-- A step of the slot, with the value it writes. -/
inductive SlotStep {Value : Type*} : Slot Value → Option Value → Slot Value → Prop
  | stay (s : Slot Value) : SlotStep s none s
  | create : SlotStep .unborn none .free
  | take (value : Value) : SlotStep .free (some value) (.taken value)
  | close : SlotStep .free none .shut
  | drop (s : Slot Value) : SlotStep s none .gone

section

variable {Value : Type*} {s s' : Slot Value} {trace : List (Option Value × Slot Value)}

/-- The values written along a run. -/
def writes (trace : List (Option Value × Slot Value)) : List Value :=
  (labels trace).filterMap id

/-- What the state says about the past. -/
def Slot.Past : Slot Value → List Value → Prop
  | .unborn, past | .free, past | .shut, past => past = []
  | .taken value, past => past = [value]
  | .gone, past => past.length ≤ 1

theorem Slot.Past.length_le {past : List Value} (h : s.Past past) : past.length ≤ 1 := by
  cases s with
  | unborn | free | shut =>
    have hnil : past = [] := h
    simp [hnil]
  | taken value =>
    have hone : past = [value] := h
    simp [hone]
  | gone => exact h

theorem SlotStep.past {past : List Value} {label : Option Value} (h : SlotStep s label s')
    (hpast : s.Past past) : s'.Past (past ++ label.toList) := by
  cases h with
  | stay => simpa using hpast
  | create | close => simpa [Slot.Past] using hpast
  | take value =>
    have hnil : past = [] := hpast
    simp [Slot.Past, hnil]
  | drop =>
    show (past ++ []).length ≤ 1
    rw [List.append_nil]
    exact hpast.length_le

/-- **One write.** -/
theorem past_of_run (hrun : Run SlotStep .unborn trace s) : s.Past (writes trace) := by
  refine Run.history_invariant (fun trace s => s.Past (writes trace)) rfl ?_ hrun
  intro trace s label s' _ hpast hstep
  have hwrites : writes (trace ++ [(label, s')]) = writes trace ++ label.toList := by
    cases label <;> simp [writes]
  rw [hwrites]
  exact hstep.past hpast

end

end Foundations
end FlickDrop
