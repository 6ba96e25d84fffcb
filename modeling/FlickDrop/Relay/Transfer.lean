import FlickDrop.Relay.Isolation

/-!
# Established transfers

Once a receiver and a sender have been accepted on a session, the session should end
with them: the lifetime given at `Init` bounds the rendezvous only.  `Init`,
`WaitReceiver` and a second `Send` keep to that.  The cleaner does not: it removes
every session whose lifetime has passed, streaming or not, and nothing reads
`maxTransferDuration`.  What holds is that a transfer is left alone as long as no tick
of the cleaner comes after the session's lifetime.
-/

namespace FlickDrop
namespace Relay

open Foundations

section

variable {Digest : Type}

/-- Both parties have been accepted. -/
def Session.established (s : Session Digest) : Bool :=
  s.receiverReady && s.senderReady

/-- The steps that belong to neither party of a transfer. -/
def Label.outside : Label Digest → Bool
  | .tick | .init _ | .clean _ | .wait _ | .rejectedSend _ _ _ => true
  | .close | .receive _ _ | .send _ _ | .receiver _ | .sender _ => false

/-- No tick of the cleaner is later than the lifetime of a session on which both
parties have been accepted. -/
def TransfersUnexpired (w : World Digest) (label : Label Digest) : Prop :=
  ∀ now, label = .clean now → ∀ hash id s, (hash, id) ∈ w.coord.table →
    w.coord.heap id = some s → s.established = true → now ≤ s.expiresAt

/-- `done` and the pipe of session `id` are as they were. -/
def SameEnds (c c' : Coordinator Digest) (id : Nat) : Prop :=
  (c'.heap id).map Session.done = (c.heap id).map Session.done ∧
    (c'.heap id).map Session.pipe = (c.heap id).map Session.pipe

theorem sameEnds_of_heap {c c' : Coordinator Digest} {id : Nat} (h : c'.heap id = c.heap id) :
    SameEnds c c' id := by
  rw [SameEnds, h]
  exact ⟨rfl, rfl⟩

/-- A change that leaves `done` and the pipe alone. -/
theorem sameEnds_modify (c : Coordinator Digest) (target id : Nat)
    {change : Session Digest → Session Digest} (hdone : ∀ s, (change s).done = s.done)
    (hpipe : ∀ s, (change s).pipe = s.pipe) : SameEnds c (c.modify target change) id := by
  by_cases heq : id = target
  · subst heq
    have hheap : (c.modify id change).heap id = (c.heap id).map change :=
      Function.update_self _ _ _
    rw [SameEnds, hheap]
    cases c.heap id with
    | none => exact ⟨rfl, rfl⟩
    | some s => exact ⟨congrArg some (hdone s), congrArg some (hpipe s)⟩
  · exact sameEnds_of_heap (Function.update_of_ne heq _ _)

variable [DecidableEq Digest]

/-- A `Send` that is turned away may have replaced the metadata, and nothing else. -/
theorem sameEnds_connectSender {c c' : Coordinator Digest} {hash : Digest}
    {metadata : SessionMetadata} {err : Err} {owner : Option Nat}
    (h : c.connectSender hash metadata = (c', .error (err, owner))) (id : Nat) :
    SameEnds c c' id := by
  rcases connectSender_cases h with ⟨rfl, -⟩ |
    ⟨found, s, described, -, -, rfl, ⟨-, rfl, -⟩ | ⟨-, -, hno⟩⟩
  · exact sameEnds_of_heap rfl
  · apply sameEnds_modify
    · exact fun _ => rfl
    · exact fun _ => rfl
  · cases hno

/-- The cleaner closes lapsed sessions of the table only. -/
theorem cleanExpired_heap {c : Coordinator Digest} (hunique : Table.UniqueKey Prod.fst c.table)
    {now id : Nat} (hlive : ∀ hash, (hash, id) ∈ c.table → c.lapsed now id = false) :
    (c.cleanExpired now).heap id = c.heap id := by
  -- The loop ranges over the first table while the table shrinks under it.
  have hloop : ∀ (entries : List (Digest × Nat)) (c' : Coordinator Digest),
      entries ⊆ c.table → c'.table.Sublist c.table → c'.heap id = c.heap id →
      (entries.foldl (fun c entry =>
        if c.lapsed now entry.2 then c.removeLocked entry.1 .expired else c) c').heap id =
        c.heap id := by
    intro entries
    induction entries with
    | nil => exact fun c' _ _ hheap => hheap
    | cons entry rest ih =>
      intro c' hsub htable hheap
      have hentry : entry ∈ c.table := hsub List.mem_cons_self
      have hrest : rest ⊆ c.table := fun e he => hsub (List.mem_cons_of_mem _ he)
      rw [List.foldl_cons]
      split
      · rename_i hlapsed
        have hunique' : Table.UniqueKey Prod.fst c'.table :=
          hunique.sublist (htable.map Prod.fst)
        refine ih _ hrest ((narrows_removeLocked c' entry.1 .expired).table.trans htable) ?_
        rw [← hheap]
        refine (untouched_removeLocked hunique' ?_ .expired).1
        intro hfound
        -- The entry of `entry.1` is still the one the loop looks at.
        have hsame : (entry.1, id) ∈ c.table :=
          htable.subset ((find_eq_some hunique').mp hfound)
        have hid : some id = some entry.2 := by
          rw [← (find_eq_some hunique).mpr hsame]
          exact (find_eq_some hunique).mpr hentry
        have hfalse := hlive entry.1 hsame
        rw [Option.some.inj hid] at hfalse hheap
        rw [Coordinator.lapsed, hheap] at hlapsed
        rw [Coordinator.lapsed] at hfalse
        rw [hfalse] at hlapsed
        cases hlapsed
      · exact ih c' hrest htable hheap
  exact hloop c.table c (List.Subset.refl _) (List.Sublist.refl _) rfl

variable {opts : Options} {sha256 : List Char → Digest}

/-- A step from outside leaves `done` and the pipe of an established session alone. -/
theorem Sound.sameEnds {w w' : World Digest} {label : Label Digest} (h : Sound w.coord)
    (hstep : Step opts sha256 w label w') (houtside : label.outside = true)
    (hunexpired : TransfersUnexpired w label) {id : Nat} {s : Session Digest}
    (hs : w.coord.heap id = some s) (hestablished : s.established = true) :
    SameEnds w.coord w'.coord id := by
  cases hstep <;> simp only [Label.outside, Bool.false_eq_true] at houtside
  case init codes salt hinit =>
      apply sameEnds_of_heap
      apply (h.init hinit).2.2
      intro heq
      rw [heq, h.fresh _ (Nat.le_refl _)] at hs
      cases hs
  case clean now hnow =>
      apply sameEnds_of_heap
      apply cleanExpired_heap h.unique
      intro hash hentry
      have hle := hunexpired now rfl hash id s hentry hs hestablished
      simp only [Coordinator.lapsed, hs, decide_eq_false_iff_not]
      omega
  case sendRefused raw metadata hcode hconnect => exact sameEnds_connectSender hconnect id
  all_goals exact sameEnds_of_heap rfl

/-- **Established transfers.**  In every run in which no tick of the cleaner is later
than the lifetime of a session in the table with both parties accepted: no tick, no
`Init`, no `WaitReceiver` and no `Send` that is turned away closes the `done` channel
or an end of the pipe of a session on which both parties have been accepted. -/
theorem transfer_not_torn_down {clock : Nat} {trace : List (Label Digest × World Digest)}
    {w w' : World Digest} {label : Label Digest} {s : Session Digest}
    (hrun : Run (fun w label w' => Step opts sha256 w label w' ∧ TransfersUnexpired w label)
      (World.start clock) trace w)
    (hstep : Step opts sha256 w label w' ∧ TransfersUnexpired w label)
    (houtside : label.outside = true) (id : Nat) (hs : w.coord.heap id = some s)
    (hestablished : s.established = true) :
    ∃ s', w'.coord.heap id = some s' ∧ s'.done = s.done ∧ s'.pipe = s.pipe := by
  have hsound : Sound w.coord := by
    refine Run.invariant (fun w => Sound w.coord) Sound.empty ?_ hrun
    intro w label w' h hstep
    exact h.step hstep.1
  obtain ⟨hdone, hpipe⟩ := hsound.sameEnds hstep.1 houtside hstep.2 hs hestablished
  rw [hs] at hdone hpipe
  obtain ⟨s', hs', hdone'⟩ := Option.map_eq_some_iff.mp hdone
  refine ⟨s', hs', hdone', ?_⟩
  rw [hs'] at hpipe
  exact Option.some.inj hpipe

end

/-- A tick within the lifetime leaves an established transfer alone. -/
theorem transfer_not_torn_down_in_time :
    ∃ (trace : List (Label (List Char) × World (List Char))) (w w' : World (List Char))
      (s s' : Session (List Char)),
      Run (Step (newOptions 0 0 0) id) (World.start 0) trace w ∧
      Step (newOptions 0 0 0) id w (.clean 0) w' ∧
      w.coord.heap 0 = some s ∧ s.established = true ∧
      w'.coord.heap 0 = some s' ∧ s'.done = s.done ∧ s'.pipe = s.pipe := by
  have hnot : ∀ (w : World (List Char)) label, (∀ now, label ≠ .clean now) →
      TransfersUnexpired w label := fun w label hlabel now heq => absurd heq (hlabel now)
  have hrun : Run (fun w label w' =>
      Step (newOptions 0 0 0) id w label w' ∧ TransfersUnexpired w label) (World.start 0) _ _ :=
    ((Run.nil.snoc ⟨.init [sampleCode] [] rfl, hnot _ _ (by simp)⟩).snoc
      ⟨.receiveBegin 0 "123456" rfl normalizeCode_sample rfl, hnot _ _ (by simp)⟩).snoc
      ⟨.sendBegin 1 "123456" ⟨"text", ""⟩ rfl normalizeCode_sample rfl, hnot _ _ (by simp)⟩
  have hplain : Run (Step (newOptions 0 0 0) id) (World.start 0) _ _ :=
    ((Run.nil.snoc (.init [sampleCode] [] rfl)).snoc
      (.receiveBegin 0 "123456" rfl normalizeCode_sample rfl)).snoc
      (.sendBegin 1 "123456" ⟨"text", ""⟩ rfl normalizeCode_sample rfl)
  have hzero : ∀ w : World (List Char), TransfersUnexpired w (.clean 0) := by
    intro w now hnow hash id s _ _ _
    cases hnow
    exact Nat.zero_le _
  obtain ⟨s', hs', hsame⟩ :=
    transfer_not_torn_down hrun ⟨.clean 0 (Nat.le_refl _), hzero _⟩ rfl 0 rfl rfl
  exact ⟨_, _, _, _, s', hplain, .clean 0 (Nat.le_refl _), rfl, rfl, hs', hsame⟩

/-- **A transfer cut off.**  Both parties are accepted at once and stream; one tick of
the cleaner after three minutes, with seven of the ten minutes of `maxTransferDuration`
left, closes `done` and both ends of the pipe under them. -/
theorem transfer_cut_off :
    ∃ (trace : List (Label (List Char) × World (List Char))) (w w' : World (List Char))
      (now : Nat) (s s' : Session (List Char)),
      Run (Step (newOptions 0 0 0) id) (World.start 0) trace w ∧
      w.coord.heap 0 = some s ∧ s.established = true ∧ w.clock < s.expiresAt ∧
      s.done = false ∧ s.pipe.closed = false ∧
      w.calls 0 = some (.streaming sampleCode 0 [] ⟨"text", ""⟩ []) ∧
      w.calls 1 = some (.copying sampleCode 0 []) ∧
      Run (Step (newOptions 0 0 0) id) w
        [(.tick, { w with clock := now }), (.clean now, w')] w' ∧
      now - w.clock < (newOptions 0 0 0).maxTransferDuration ∧ w'.calls = w.calls ∧
      w'.coord.heap 0 = some s' ∧ s'.done = true ∧ s'.pipe.rerr = some .expired ∧
      s'.pipe.werr = some .expired := by
  have hrun : Run (Step (newOptions 0 0 0) id) (World.start 0) _ _ :=
    ((((Run.nil.snoc (.init [sampleCode] [] rfl)).snoc
      (.receiveBegin 0 "123456" rfl normalizeCode_sample rfl)).snoc
      (.sendBegin 1 "123456" ⟨"text", ""⟩ rfl normalizeCode_sample rfl)).snoc
      (.receiveConnected 0 rfl rfl rfl)).snoc
      (.sendConnected 1 rfl rfl rfl)
  exact ⟨_, _, _, 3 * minute + 1, _, _, hrun, rfl, rfl, by decide, rfl, rfl, rfl, rfl,
    (Run.nil.snoc (.tick (Nat.zero_le _))).snoc (.clean (3 * minute + 1) (Nat.le_refl _)),
    by decide, rfl, rfl, rfl, rfl, rfl⟩

end Relay
end FlickDrop
