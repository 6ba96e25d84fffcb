import FlickDrop.Foundations.Runs

/-!
# The life of a secret

What the service is for: a secret is created, perhaps uploaded, and ends once.  It is
opened, locked after too many wrong proofs, cancelled by its sender or reclaimed, and
nothing follows but the removal of what is left.  The tables refine this machine.
-/

namespace FlickDrop
namespace Secrets

open Foundations

inductive Life where
  | unborn
  | pending
  | active
  /-- opened or locked, the metadata is still there -/
  | consumed
  | gone
  deriving DecidableEq, Repr

inductive Terminal where
  | opened
  | locked
  | cancelled
  | reclaimed
  deriving DecidableEq, Repr

inductive Event where
  | silent
  | created
  | activated
  | terminal (t : Terminal)
  deriving DecidableEq, Repr

/-- The terminal transition an event is, if any. -/
def Event.terminals : Event → List Terminal
  | .terminal t => [t]
  | .silent | .created | .activated => []

inductive LifeStep : Life → Event → Life → Prop
  | stay (life : Life) : LifeStep life .silent life
  | create : LifeStep .unborn .created .active
  | createLarge : LifeStep .unborn .created .pending
  | activate : LifeStep .pending .activated .active
  | openSecret : LifeStep .active (.terminal .opened) .consumed
  | lock : LifeStep .active (.terminal .locked) .consumed
  | cancel {life : Life} (hlive : life = .pending ∨ life = .active) :
      LifeStep life (.terminal .cancelled) .gone
  | reclaim {life : Life} (hlive : life = .pending ∨ life = .active) :
      LifeStep life (.terminal .reclaimed) .gone
  | purge : LifeStep .consumed .silent .gone

/-- The secret has ended. -/
def Life.ended (life : Life) : Prop := life = .consumed ∨ life = .gone

theorem LifeStep.silent_of_ended {life life' : Life} {event : Event} (h : LifeStep life event life')
    (hended : life.ended) : event = .silent ∧ life'.ended := by
  cases h with
  | stay => exact ⟨rfl, hended⟩
  | purge => exact ⟨rfl, Or.inr rfl⟩
  | cancel hlive | reclaim hlive =>
    rcases hended with rfl | rfl <;> rcases hlive with hlive | hlive <;> cases hlive
  | create | createLarge | activate | openSecret | lock =>
    rcases hended with hended | hended <;> cases hended

theorem LifeStep.ended_of_terminal {life life' : Life} {event : Event}
    (h : LifeStep life event life') (hterminal : event.terminals ≠ []) : life'.ended := by
  cases h with
  | openSecret | lock => exact Or.inl rfl
  | cancel | reclaim => exact Or.inr rfl
  | stay | create | createLarge | activate | purge => exact absurd rfl hterminal

/-- A secret ends at most once. -/
theorem terminals_le_one {trace : List (Event × Life)} {life₀ life : Life}
    (hrun : Run LifeStep life₀ trace life) :
    ((labels trace).flatMap Event.terminals).length ≤ 1 := by
  refine Run.count_le_one (fun _ => True) Life.ended Event.terminals trivial
    (fun _ _ _ _ _ => trivial) ?_ ?_ ?_ ?_ hrun
  · intro _ event _ _ _
    cases event <;> simp [Event.terminals]
  · intro _ event _ _ hstep hended
    rw [(hstep.silent_of_ended hended).1]
    rfl
  · exact fun _ _ _ _ hstep hterminal => hstep.ended_of_terminal hterminal
  · exact fun _ _ _ _ hstep hended => (hstep.silent_of_ended hended).2

/-- After the end every event is silent. -/
theorem silent_after_end {trace : List (Event × Life)} {life₀ life : Life}
    (hrun : Run LifeStep life₀ trace life) (hended : life₀.ended) :
    ∀ event ∈ labels trace, event = .silent := by
  have hboth : life.ended ∧ ∀ event ∈ labels trace, event = .silent := by
    refine Run.history_invariant
      (fun trace life => life.ended ∧ ∀ event ∈ labels trace, event = .silent)
      ⟨hended, by simp⟩ ?_ hrun
    intro trace life event life' _ hpast hstep
    obtain ⟨hsilent, hlater⟩ := hstep.silent_of_ended hpast.1
    refine ⟨hlater, ?_⟩
    intro other hother
    rw [labels_append, List.mem_append] at hother
    rcases hother with hother | hother
    · exact hpast.2 other hother
    · rw [labels_cons, labels_nil, List.mem_singleton] at hother
      rw [hother, hsilent]
  exact hboth.2

end Secrets
end FlickDrop
