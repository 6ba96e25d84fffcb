import Mathlib.Data.List.Induction
import Mathlib.Logic.Function.Basic

/-!
# Runs of a labelled transition system

Every concurrent component of this development is a labelled transition system:
a state type, a label type (what an observer sees of one atomic step) and a step
relation.  An interleaving of any number of parties is a `Run`, the sequence of
labels with the state each of them leads to, oldest first.

Four rules carry all later inductions:

* `Run.invariant` for state invariants;
* `Run.history_invariant` for facts that relate the state to the past labels;
* `Run.simulate` for refinement of a run by a more abstract one;
* `Run.stable` together with `Run.split` for "once this, then that for ever".

`Run.count_le_one` and `Run.nodup_set` package the "at most once" arguments that several
protocols of the development share.
-/

namespace FlickDrop
namespace Foundations

/-- A run from `s₀`: the labels taken so far, each with the state it reached,
and the current state. -/
inductive Run {State Label : Type*} (step : State → Label → State → Prop)
    (s₀ : State) : List (Label × State) → State → Prop
  | nil : Run step s₀ [] s₀
  | snoc {trace : List (Label × State)} {s s' : State} {label : Label}
      (hrun : Run step s₀ trace s) (hstep : step s label s') :
      Run step s₀ (trace ++ [(label, s')]) s'

/-- The labels of a trace, oldest first. -/
def labels {State Label : Type*} (trace : List (Label × State)) : List Label :=
  trace.map Prod.fst

@[simp] theorem labels_nil {State Label : Type*} :
    labels ([] : List (Label × State)) = [] := rfl

@[simp] theorem labels_append {State Label : Type*} (front back : List (Label × State)) :
    labels (front ++ back) = labels front ++ labels back := by
  simp [labels]

@[simp] theorem labels_cons {State Label : Type*} (label : Label) (s : State)
    (rest : List (Label × State)) :
    labels ((label, s) :: rest) = label :: labels rest := rfl

/-! ### Parties

The parties of a system keep their local state in slots. -/

/-- An update of one slot: what a slot holds afterwards is new, or was there in another
slot. -/
theorem update_cases {Slot Value : Type*} [DecidableEq Slot] {slots : Slot → Option Value}
    {slot slot' : Slot} {value : Option Value} {found : Value}
    (h : Function.update slots slot value slot' = some found) :
    slot' = slot ∧ value = some found ∨ slot' ≠ slot ∧ slots slot' = some found := by
  rw [Function.update_apply] at h
  split at h
  · rename_i heq
    exact Or.inl ⟨heq, h⟩
  · rename_i hne
    exact Or.inr ⟨hne, h⟩

section Rules

variable {State Label : Type*} {step : State → Label → State → Prop}
variable {s₀ s : State} {trace : List (Label × State)} {label : Label}

/-- A property that every step preserves holds at the end of every run. -/
theorem Run.invariant (Inv : State → Prop) (hinit : Inv s₀)
    (hstep : ∀ s label s', Inv s → step s label s' → Inv s')
    (hrun : Run step s₀ trace s) : Inv s := by
  induction hrun with
  | nil => exact hinit
  | snoc _ hlast ih => exact hstep _ _ _ ih hlast

/-- The same rule when the invariant also speaks about the labels so far. -/
theorem Run.history_invariant (Inv : List (Label × State) → State → Prop)
    (hinit : Inv [] s₀)
    (hstep : ∀ trace s label s', Run step s₀ trace s → Inv trace s →
      step s label s' → Inv (trace ++ [(label, s')]) s')
    (hrun : Run step s₀ trace s) : Inv trace s := by
  induction hrun with
  | nil => exact hinit
  | snoc hprefix hlast ih => exact hstep _ _ _ _ hprefix ih hlast

/-- A run is a run of any larger step relation. -/
theorem Run.mono {step' : State → Label → State → Prop}
    (hmono : ∀ s label s', step s label s' → step' s label s') (hrun : Run step s₀ trace s) :
    Run step' s₀ trace s := by
  induction hrun with
  | nil => exact Run.nil
  | snoc _ hlast ih => exact Run.snoc ih (hmono _ _ _ hlast)

/-- Two runs that meet compose. -/
theorem Run.append {mid : State} {later : List (Label × State)}
    (hfront : Run step s₀ trace mid) (hback : Run step mid later s) :
    Run step s₀ (trace ++ later) s := by
  induction hback with
  | nil => simpa using hfront
  | snoc _ hlast ih =>
    rw [← List.append_assoc]
    exact Run.snoc ih hlast

/-- A run can be cut before any of its labels: a run up to there, the step
itself, and a run of what follows. -/
theorem Run.split {front back : List (Label × State)} {after : State}
    (hrun : Run step s₀ (front ++ (label, after) :: back) s) :
    ∃ before, Run step s₀ front before ∧ step before label after ∧
      Run step after back s := by
  induction back using List.reverseRecOn generalizing s with
  | nil =>
    generalize hwhole : front ++ [(label, after)] = whole at hrun
    cases hrun with
    | nil => simp at hwhole
    | snoc hprefix hlast =>
      obtain ⟨hfront, hentry⟩ := List.append_inj' hwhole rfl
      simp only [List.cons.injEq, Prod.mk.injEq, and_true] at hentry
      obtain ⟨rfl, rfl⟩ := hentry
      subst hfront
      exact ⟨_, hprefix, hlast, Run.nil⟩
  | append_singleton middle entry ih =>
    generalize hwhole : front ++ (label, after) :: (middle ++ [entry]) = whole at hrun
    cases hrun with
    | nil => simp at hwhole
    | snoc hprefix hlast =>
      rw [← List.cons_append, ← List.append_assoc] at hwhole
      obtain ⟨hfront, hentry⟩ := List.append_inj' hwhole rfl
      simp only [List.cons.injEq, and_true] at hentry
      subst hfront hentry
      obtain ⟨before, hbefore, hstep, hafter⟩ := ih hprefix
      exact ⟨before, hbefore, hstep, Run.snoc hafter hlast⟩

/-- The state recorded with the last label is the current one; more generally a
property established at some point and kept by every step holds at the end. -/
theorem Run.stable (Inv Kept : State → Prop) (hinv : Inv s₀)
    (hinvStep : ∀ s label s', Inv s → step s label s' → Inv s')
    (hkept : Kept s₀)
    (hkeptStep : ∀ s label s', Inv s → Kept s → step s label s' → Kept s')
    (hrun : Run step s₀ trace s) : Kept s := by
  have hboth : Inv s ∧ Kept s := by
    refine Run.invariant (fun s => Inv s ∧ Kept s) ⟨hinv, hkept⟩ ?_ hrun
    intro s label s' hs hstep
    exact ⟨hinvStep _ _ _ hs.1 hstep, hkeptStep _ _ _ hs.1 hs.2 hstep⟩
  exact hboth.2

/-- Refinement: a run whose steps are steps of another system under a view of states and
labels is a run of that system. -/
theorem Run.simulate {AState ALabel : Type*} {astep : AState → ALabel → AState → Prop}
    (Inv : State → Prop) (view : State → AState) (name : Label → ALabel) (hinit : Inv s₀)
    (hinvStep : ∀ s label s', Inv s → step s label s' → Inv s')
    (hsim : ∀ s label s', Inv s → step s label s' → astep (view s) (name label) (view s'))
    (hrun : Run step s₀ trace s) :
    Run astep (view s₀) (trace.map fun entry => (name entry.1, view entry.2)) (view s) := by
  induction hrun with
  | nil => exact Run.nil
  | snoc hprefix hlast ih =>
    rw [List.map_append]
    exact Run.snoc ih (hsim _ _ _ (Run.invariant Inv hinit hinvStep hprefix) hlast)

/-- A transition of a given kind occurs in the trace that starts in a given state. -/
def Happened (event : State → State → Prop) : State → List (Label × State) → Prop
  | _, [] => False
  | s, (_, s') :: rest => event s s' ∨ Happened event s' rest

/-- What a run has seen after one more step. -/
theorem Run.happened_snoc {event : State → State → Prop} {s' : State} (hrun : Run step s₀ trace s) :
    Happened event s₀ (trace ++ [(label, s')]) ↔ Happened event s₀ trace ∨ event s s' := by
  induction trace generalizing s₀ with
  | nil =>
    generalize hnil : ([] : List (Label × State)) = trace at hrun
    cases hrun with
    | nil => simp [Happened]
    | snoc hprefix hlast => simp at hnil
  | cons entry rest ih =>
    have hfirst : Run step s₀ ([] ++ (entry.1, entry.2) :: rest) _ := hrun
    obtain ⟨before, hbefore, -, hrest⟩ := hfirst.split
    simp only [List.cons_append, Happened, ih hrest, or_assoc]

/-- "At most once": if a marked step always leads to a closed state, a closed
state stays closed, and no marked step starts in a closed state, then a run
carries at most one mark.  `marks` may count several marks on one label. -/
theorem Run.count_le_one (Inv Closed : State → Prop) {Mark : Type*}
    (marks : Label → List Mark) (hinit : Inv s₀)
    (hinvStep : ∀ s label s', Inv s → step s label s' → Inv s')
    (hsingle : ∀ s label s', Inv s → step s label s' → (marks label).length ≤ 1)
    (hopen : ∀ s label s', Inv s → step s label s' → Closed s → marks label = [])
    (hcloses : ∀ s label s', Inv s → step s label s' → marks label ≠ [] → Closed s')
    (hstays : ∀ s label s', Inv s → step s label s' → Closed s → Closed s')
    (hrun : Run step s₀ trace s) :
    ((labels trace).flatMap marks).length ≤ 1 := by
  -- The induction also needs that a mark in the past means the state is closed.
  have hstrong : ((labels trace).flatMap marks).length ≤ 1 ∧
      ((labels trace).flatMap marks ≠ [] → Closed s) := by
    refine Run.history_invariant
      (fun trace s => ((labels trace).flatMap marks).length ≤ 1 ∧
        ((labels trace).flatMap marks ≠ [] → Closed s)) ⟨by simp, by simp⟩ ?_ hrun
    intro trace s label s' hprefix hpast hstep
    have hs : Inv s := Run.invariant Inv hinit hinvStep hprefix
    simp only [labels_append, labels_cons, labels_nil, List.flatMap_append,
      List.flatMap_cons, List.flatMap_nil, List.append_nil, List.length_append]
    by_cases hmarked : (labels trace).flatMap marks = []
    · rw [hmarked]
      refine ⟨by simpa using hsingle s label s' hs hstep, ?_⟩
      intro hne
      exact hcloses s label s' hs hstep (by simpa using hne)
    · have hclosed : Closed s := hpast.2 hmarked
      have hnone : marks label = [] := hopen s label s' hs hstep hclosed
      refine ⟨by simpa [hnone] using hpast.1, ?_⟩
      intro _
      exact hstays s label s' hs hstep hclosed
  exact hstrong.1

/-- "Set once": if a latch that a step sets was not set before, is set afterwards and stays
set, then no latch is set twice in a run. -/
theorem Run.nodup_set {Latch : Type*} (Inv : State → Prop) (set : State → Latch → Prop)
    (sets : Label → Option Latch) (hinit : Inv s₀)
    (hinvStep : ∀ s label s', Inv s → step s label s' → Inv s')
    (hsets : ∀ s label s' latch, Inv s → step s label s' → sets label = some latch →
      ¬ set s latch ∧ set s' latch)
    (hstays : ∀ s label s' latch, Inv s → step s label s' → set s latch → set s' latch)
    (hrun : Run step s₀ trace s) : ((labels trace).filterMap sets).Nodup := by
  -- The latches of the past are set now, so the next one is another.
  have hpast : Inv s ∧ ((labels trace).filterMap sets).Nodup ∧
      ∀ latch ∈ (labels trace).filterMap sets, set s latch := by
    refine Run.history_invariant (fun trace s => Inv s ∧ ((labels trace).filterMap sets).Nodup ∧
      ∀ latch ∈ (labels trace).filterMap sets, set s latch) ⟨hinit, List.nodup_nil, by simp⟩ ?_ hrun
    rintro trace s label s' - ⟨hinv, hnodup, hset⟩ hstep
    refine ⟨hinvStep s label s' hinv hstep, ?_⟩
    have hkept : ∀ latch ∈ (labels trace).filterMap sets, set s' latch :=
      fun latch hlatch => hstays s label s' latch hinv hstep (hset latch hlatch)
    rw [labels_append, labels_cons, labels_nil, List.filterMap_append]
    cases hlabel : sets label with
    | none =>
      rw [List.filterMap_cons_none hlabel, List.filterMap_nil, List.append_nil]
      exact ⟨hnodup, hkept⟩
    | some latch =>
      obtain ⟨hunset, hnow⟩ := hsets s label s' latch hinv hstep hlabel
      rw [List.filterMap_cons_some hlabel, List.filterMap_nil]
      refine ⟨?_, ?_⟩
      · refine List.nodup_append.mpr ⟨hnodup, List.pairwise_singleton _ latch, ?_⟩
        rintro old hold _ hnew rfl
        rw [List.mem_singleton.mp hnew] at hold
        exact hunset (hset latch hold)
      · intro other hother
        rcases List.mem_append.mp hother with hold | hnew
        · exact hkept other hold
        · obtain rfl := List.mem_singleton.mp hnew
          exact hnow
  exact hpast.2.1

end Rules

end Foundations
end FlickDrop
