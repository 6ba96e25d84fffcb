import Mathlib.Data.List.Basic
import FlickDrop.Foundations.Runs

/-!
# A client that talks to a service

A client is a `Script`: it sends one call at a time, waits for the reply and goes on with
it, until it has a result or gives up.  In a dialogue the service goes on with its own
steps at any time, a call is executed at one of them, and its reply arrives later or not
at all.

The rule for scripts: if every reply means something, and the script draws its result
from replies that mean enough, then the result is good.  What replies mean may speak
about the whole run of the service, so about what happens after the client is done.
-/

namespace FlickDrop
namespace Foundations

inductive Script (Call Reply Result : Type*) where
  | done (result : Result)
  | throw
  | call (c : Call) (next : Reply → Script Call Reply Result)

/-- The result of the script is good if replies mean what they say. -/
inductive Script.Safe {Call Reply Result : Type*} (Means : Call → Reply → Prop)
    (Good : Result → Prop) : Script Call Reply Result → Prop
  | done {result : Result} (hgood : Good result) : Safe Means Good (.done result)
  | throw : Safe Means Good .throw
  | call {c : Call} {next : Reply → Script Call Reply Result}
      (hnext : ∀ reply, Means c reply → Safe Means Good (next reply)) :
      Safe Means Good (.call c next)

/-- The service, the rest of the script, and the reply that is on its way. -/
structure Dialogue (State Call Reply Result : Type*) where
  state : State
  script : Script Call Reply Result
  pending : Option Reply

/-- A step of a dialogue; the label is that of the service, if it moved. -/
inductive DialogueStep {State Label Call Reply Result : Type*}
    (step : State → Label → State → Prop) (exec : Call → State → Label → Reply → State → Prop) :
    Dialogue State Call Reply Result → Option Label → Dialogue State Call Reply Result → Prop
  /-- the service does something else -/
  | service {s s' : State} {label : Label} {script : Script Call Reply Result}
      {pending : Option Reply} (hstep : step s label s') :
      DialogueStep step exec ⟨s, script, pending⟩ (some label) ⟨s', script, pending⟩
  | execute {s s' : State} {label : Label} {c : Call} {next : Reply → Script Call Reply Result}
      {reply : Reply} (hexec : exec c s label reply s') :
      DialogueStep step exec ⟨s, .call c next, none⟩ (some label) ⟨s', .call c next, some reply⟩
  | arrive {s : State} {c : Call} {next : Reply → Script Call Reply Result} {reply : Reply} :
      DialogueStep step exec ⟨s, .call c next, some reply⟩ none ⟨s, next reply, none⟩
  /-- the client is aborted -/
  | abort {s : State} {script : Script Call Reply Result} {pending : Option Reply} :
      DialogueStep step exec ⟨s, script, pending⟩ none ⟨s, .throw, none⟩

/-- What the service did during a dialogue. -/
def serviceTrace {State Label Call Reply Result : Type*}
    (trace : List (Option Label × Dialogue State Call Reply Result)) : List (Label × State) :=
  trace.filterMap fun entry => entry.1.map fun label => (label, entry.2.state)

section

variable {State Label Call Reply Result : Type*} {step : State → Label → State → Prop}
  {exec : Call → State → Label → Reply → State → Prop}
  {d₀ d : Dialogue State Call Reply Result}
  {trace : List (Option Label × Dialogue State Call Reply Result)}

@[simp] theorem serviceTrace_snoc_none :
    serviceTrace (trace ++ [(none, d)]) = serviceTrace trace := by
  simp [serviceTrace]

@[simp] theorem serviceTrace_snoc_some (label : Label) :
    serviceTrace (trace ++ [(some label, d)]) = serviceTrace trace ++ [(label, d.state)] := by
  simp [serviceTrace]

/-- A dialogue is a run of the service. -/
theorem Run.service (hexec : ∀ c s label reply s', exec c s label reply s' → step s label s')
    (hrun : Run (DialogueStep step exec) d₀ trace d) :
    Run step d₀.state (serviceTrace trace) d.state := by
  induction hrun with
  | nil => exact Run.nil
  | snoc hprefix hlast ih =>
    cases hlast with
    | service hstep =>
      rw [serviceTrace_snoc_some]
      exact Run.snoc ih hstep
    | execute hcall =>
      rw [serviceTrace_snoc_some]
      exact Run.snoc ih (hexec _ _ _ _ _ hcall)
    | arrive | abort =>
      rw [serviceTrace_snoc_none]
      exact ih

/-- The script is safe, and the reply on its way means what it says. -/
structure Dialogue.Sound (Means : Call → Reply → Prop) (Good : Result → Prop)
    (d : Dialogue State Call Reply Result) : Prop where
  script : d.script.Safe Means Good
  pending : ∀ c next reply, d.script = .call c next → d.pending = some reply → Means c reply

/-- **The rule for scripts.**  A call that is executed anywhere in the run of the service has
a reply with its meaning; then the dialogue is sound at its end.  `rest` is what the
service does afterwards. -/
theorem Dialogue.sound_of_run {Means : Call → Reply → Prop} {Good : Result → Prop}
    (hexec : ∀ c s label reply s', exec c s label reply s' → step s label s')
    (hinit : d₀.script.Safe Means Good) (hidle : d₀.pending = none)
    (hrun : Run (DialogueStep step exec) d₀ trace d) {rest : List (Label × State)} {final : State}
    (hrest : Run step d.state rest final)
    (hmeans : ∀ front back c s label reply s',
      serviceTrace trace ++ rest = front ++ (label, s') :: back →
      Run step d₀.state front s → exec c s label reply s' → Run step s' back final →
      Means c reply) :
    d.Sound Means Good := by
  -- the induction is on the dialogue; the steps it takes off move over to the rest
  induction hrun generalizing rest with
  | nil =>
    refine ⟨hinit, ?_⟩
    intro c next reply _ hpending
    rw [hidle] at hpending
    cases hpending
  | snoc hprefix hlast ih =>
    have hservice := hprefix.service hexec
    cases hlast with
    | service hstep =>
      rw [serviceTrace_snoc_some, List.append_assoc] at hmeans
      have hsound := ih ((Run.nil.snoc hstep).append hrest) hmeans
      exact ⟨hsound.script, hsound.pending⟩
    | execute hcall =>
      rw [serviceTrace_snoc_some, List.append_assoc] at hmeans
      have hstep := hexec _ _ _ _ _ hcall
      have hsound := ih ((Run.nil.snoc hstep).append hrest) hmeans
      refine ⟨hsound.script, ?_⟩
      rintro c next reply ⟨⟩ ⟨⟩
      exact hmeans _ rest _ _ _ _ _ rfl hservice hcall hrest
    | arrive =>
      rw [serviceTrace_snoc_none] at hmeans
      have hsound := ih hrest hmeans
      refine ⟨?_, nofun⟩
      cases hsound.script with
      | call hnext => exact hnext _ (hsound.pending _ _ _ rfl rfl)
    | abort => exact ⟨Script.Safe.throw, nofun⟩

end

end Foundations
end FlickDrop
