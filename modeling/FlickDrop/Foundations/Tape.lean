import Mathlib.Data.List.Infix
import FlickDrop.Foundations.Runs

/-!
# One-shot streams

A tape carries one message from a producer to a consumer.  The producer hands the
message over once; the consumer gets it in chunks of any size, in order; the end of the
stream is seen, and the producer told how much was delivered, only when all of it was.
This is what a reliable byte stream is for, whatever it is made of.
-/

namespace FlickDrop
namespace Foundations

variable {α : Type*}

structure Tape (α : Type*) where
  message : Option (List α)
  delivered : List α

def Tape.blank : Tape α := ⟨none, []⟩

inductive TapeEvent (α : Type*) where
  | quiet
  /-- the producer hands its message over -/
  | accept (message : List α)
  | deliver (chunk : List α)
  /-- the consumer sees the end of the stream -/
  | finish
  /-- the producer is told how much was delivered -/
  | report (count : Nat)

inductive TapeStep : Tape α → TapeEvent α → Tape α → Prop
  | quiet {t : Tape α} : TapeStep t .quiet t
  | accept {t : Tape α} (message : List α) (hnone : t.message = none) :
      TapeStep t (.accept message) { t with message := some message }
  | deliver {t : Tape α} {message : List α} (chunk : List α) (hmessage : t.message = some message)
      (hwithin : t.delivered ++ chunk <+: message) :
      TapeStep t (.deliver chunk) { t with delivered := t.delivered ++ chunk }
  | finish {t : Tape α} (hwhole : t.message = some t.delivered) : TapeStep t .finish t
  | report {t : Tape α} {count : Nat} (hwhole : t.message = some t.delivered)
      (hcount : count = t.delivered.length) : TapeStep t (.report count) t

def TapeEvent.accepted : TapeEvent α → List (List α)
  | .accept message => [message]
  | .quiet | .deliver _ | .finish | .report _ => []

def TapeEvent.chunk : TapeEvent α → List α
  | .deliver chunk => chunk
  | .quiet | .accept _ | .finish | .report _ => []

/-- The tape holds what the events say, and never more than the message. -/
structure Tape.Records (t : Tape α) (events : List (TapeEvent α)) : Prop where
  accepted : events.flatMap TapeEvent.accepted = t.message.toList
  delivered : events.flatMap TapeEvent.chunk = t.delivered
  within : t.delivered <+: t.message.getD []

theorem Tape.Records.step {t t' : Tape α} {events : List (TapeEvent α)} {event : TapeEvent α}
    (h : t.Records events) (hstep : TapeStep t event t') : t'.Records (events ++ [event]) := by
  have haccepted :
      (events ++ [event]).flatMap TapeEvent.accepted = t.message.toList ++ event.accepted := by
    rw [List.flatMap_append, h.accepted, List.flatMap_singleton]
  have hdelivered : (events ++ [event]).flatMap TapeEvent.chunk = t.delivered ++ event.chunk := by
    rw [List.flatMap_append, h.delivered, List.flatMap_singleton]
  cases hstep with
  | quiet | finish | report =>
    refine ⟨haccepted.trans ?_, hdelivered.trans ?_, h.within⟩
    · exact List.append_nil _
    · exact List.append_nil _
  | accept message hnone =>
    have hempty : t.delivered = [] := by
      have hwithin := h.within
      rw [hnone] at hwithin
      exact List.prefix_nil.mp hwithin
    refine ⟨?_, hdelivered.trans (List.append_nil _), ?_⟩
    · rw [haccepted, hnone]
      rfl
    · show t.delivered <+: message
      rw [hempty]
      exact List.nil_prefix
  | deliver chunk hmessage hwithin =>
    refine ⟨haccepted.trans (List.append_nil _), hdelivered, ?_⟩
    show t.delivered ++ chunk <+: t.message.getD []
    rw [hmessage]
    exact hwithin

theorem Tape.records_of_run {trace : List (TapeEvent α × Tape α)} {t : Tape α}
    (hrun : Run TapeStep Tape.blank trace t) : t.Records (labels trace) := by
  refine Run.history_invariant (fun trace t => t.Records (labels trace)) ?_ ?_ hrun
  · exact ⟨rfl, rfl, List.nil_prefix⟩
  · intro trace s event s' _ hpast hstep
    rw [labels_append]
    exact hpast.step hstep

/-- **Integrity.**  One message, delivered in order; its end is seen and its length
reported when it was delivered as a whole. -/
theorem Tape.integrity {trace : List (TapeEvent α × Tape α)} {t : Tape α}
    (hrun : Run TapeStep Tape.blank trace t) :
    ((labels trace).flatMap TapeEvent.accepted).length ≤ 1 ∧
    (labels trace).flatMap TapeEvent.chunk <+:
    ((labels trace).flatMap TapeEvent.accepted).flatten := by
  have h := Tape.records_of_run hrun
  rw [h.accepted, h.delivered]
  have hwithin := h.within
  cases hmessage : t.message with
  | none =>
    rw [hmessage] at hwithin
    exact ⟨Nat.zero_le _, hwithin⟩
  | some message =>
    rw [hmessage] at hwithin
    refine ⟨Nat.le_refl _, ?_⟩
    show t.delivered <+: message ++ []
    rw [List.append_nil]
    exact hwithin

/-- The two events that mean the message is through. -/
theorem Tape.whole {front back : List (TapeEvent α × Tape α)} {event : TapeEvent α}
    {t after : Tape α} (hrun : Run TapeStep Tape.blank (front ++ (event, after) :: back) t)
    (hevent : event = .finish ∨ ∃ count, event = .report count) :
    (labels front).flatMap TapeEvent.accepted = [(labels front).flatMap TapeEvent.chunk] ∧
    ∀ count, event = .report count → count = ((labels front).flatMap TapeEvent.chunk).length := by
  obtain ⟨before, hfront, hstep, -⟩ := hrun.split
  have h := Tape.records_of_run hfront
  rw [h.accepted, h.delivered]
  cases hstep with
  | quiet => rcases hevent with hno | ⟨count, hno⟩ <;> cases hno
  | accept message hnone => rcases hevent with hno | ⟨count, hno⟩ <;> cases hno
  | deliver chunk hmessage hwithin => rcases hevent with hno | ⟨count, hno⟩ <;> cases hno
  | finish hwhole =>
    rw [hwhole]
    exact ⟨rfl, fun count hno => by cases hno⟩
  | report hwhole hcount =>
    rw [hwhole]
    refine ⟨rfl, ?_⟩
    rintro count ⟨⟩
    exact hcount

end Foundations
end FlickDrop
