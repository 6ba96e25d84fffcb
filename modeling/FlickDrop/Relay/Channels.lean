import FlickDrop.Relay.Gates

/-!
# The channels of the relay

What holds of the coordinator whenever its lock is free: the map is within its capacity, it
has no burned session, and a session outside it is closed, so nobody waits for it.  And what
holds throughout: no channel is closed twice.
-/

namespace FlickDrop
namespace Relay
namespace Locks

open Foundations
open Streams (Closing)

section

variable {Digest : Type} [DecidableEq Digest] {opts : Options} {sha256 : List Char → Digest}
variable {w w' : World Digest} {t : Tid} {pc pc' : Option (Pc Digest)} {s s' : Session Digest}
  {c c' : Coordinator Digest} {codes : List (List Char)} {salt : List UInt8} {code : List Char}
  {label : Option Channel} {channel : Channel} {now : Nat}

theorem Goes.quiet (h : Goes sha256 w pc pc') :
    (∀ old, pc = some old → old.Quiet) ∧ ∀ new, pc' = some new → new.Quiet := by
  cases h <;> constructor <;> rintro _ ⟨⟩ <;>
    first | exact ⟨rfl, rfl, trivial⟩ | exact quiet_cleanup _ _

theorem Writes.quiet {id : Nat} (h : Writes sha256 w id s pc s' pc') :
    (∀ old, pc = some old → old.Quiet) ∧ ∀ new, pc' = some new → new.Quiet := by
  cases h <;> constructor <;> rintro _ ⟨⟩ <;> exact ⟨rfl, rfl, trivial⟩

/-- What a write outside `closeOnce` leaves alone. -/
theorem Writes.keeps {id : Nat} (h : Writes sha256 w id s pc s' pc') :
    Keeps s s' ∧ s'.burned = s.burned ∧ s'.receiverReady = s.receiverReady ∧
      s'.senderReady = s.senderReady := by
  cases h with
  | sendAgain => exact ⟨⟨rfl, rfl, (fun h => h), fun h => h⟩, rfl, rfl, rfl⟩
  | closeFailed => exact ⟨keeps_closeWriter s _, rfl, rfl, rfl⟩
  | sendDone => exact ⟨keeps_closeWriter s _, rfl, rfl, rfl⟩
  | readerClose cause => exact ⟨keeps_closeReader s cause, rfl, rfl, rfl⟩
  | failedAttempt => exact ⟨⟨rfl, rfl, (fun h => h), fun h => h⟩, rfl, rfl, rfl⟩

/-! ### The map -/

/-- `Init` stays within the capacity. -/
theorem TableInv.init (h : TableInv opts c)
    (hinit : c.init opts sha256 codes salt now = .ok (c', code)) : TableInv opts c' := by
  obtain ⟨hsound, htable, hothers⟩ := h.sound.init hinit
  obtain ⟨-, hheap⟩ := init_ok hinit
  refine ⟨hsound, ?_, ?_⟩
  · have hroom : c.table.length < opts.maxConcurrent := by
      by_contra hfull
      rw [Coordinator.init, if_pos (Nat.le_of_not_lt hfull)] at hinit
      cases hinit
    rw [htable, List.length_append]
    exact hroom
  · intro hash id s hin hs
    rw [htable] at hin
    rcases List.mem_append.mp hin with hold | hnew
    · -- an id of the map is allocated, and the one that `Init` hands out was not
      have hne : id ≠ c.next := by
        rintro rfl
        have hsome := h.sound.allocated _ hold
        rw [h.sound.fresh c.next (Nat.le_refl _)] at hsome
        cases hsome
      rw [hothers id hne] at hs
      exact h.keyed hash id s hold hs
    · cases List.mem_singleton.mp hnew
      rw [hheap, Function.update_self] at hs
      obtain rfl := Option.some.inj hs
      rfl

theorem Inv.init (h : Inv opts w)
    (hinit : w.coord.init opts sha256 codes salt w.clock = .ok (c, code)) :
    Inv opts
      { w with
        coord := c
        receiverOnce := Function.update w.receiverOnce w.coord.next .idle
        senderOnce := Function.update w.senderOnce w.coord.next .idle
        closeOnce := Function.update w.closeOnce w.coord.next .idle } := by
  obtain ⟨-, htable, hothers⟩ := h.table.sound.init hinit
  obtain ⟨hnext, hheap⟩ := init_ok hinit
  -- a session after `Init` is the new one, which is in no `closeOnce`, or was there before
  have hfresh : ∀ {id : Nat} {s : Session Digest}, c.heap id = some s →
      id = w.coord.next ∧ s = Session.fresh (sha256 code) salt w.clock opts.ttl ∨
        id ≠ w.coord.next ∧ w.coord.heap id = some s := by
    intro id s hs
    rw [hheap] at hs
    rcases update_cases hs with ⟨hid, hsome⟩ | hold
    · exact Or.inl ⟨hid, (Option.some.inj hsome).symm⟩
    · exact Or.inr hold
  refine ⟨⟨h.threads.locked, h.threads.whole, ?_, h.threads.cleaner⟩, h.table.init hinit,
    ⟨?_, ?_, ?_, ?_, ?_⟩⟩
  · intro t pc id hat hinside
    obtain ⟨hrunning, hid⟩ := h.threads.inside t pc id hat hinside
    dsimp only
    rw [Function.update_of_ne (Nat.ne_of_lt hid), hnext]
    exact ⟨hrunning, Nat.lt_succ_of_lt hid⟩
  · intro id s hs
    dsimp only
    rcases hfresh hs with ⟨rfl, rfl⟩ | ⟨hne, hold⟩
    · rw [Function.update_self]
      exact Gate.idle rfl
    · rw [Function.update_of_ne hne]
      exact h.sessions.gate id s hold
  · intro id s hs
    dsimp only
    rw [htable]
    rcases hfresh hs with ⟨rfl, -⟩ | ⟨hne, hold⟩
    · exact Or.inl ⟨sha256 code, by simp⟩
    · rw [Function.update_of_ne hne]
      rcases h.sessions.gone id s hold with ⟨hash, hin⟩ | hrest
      · exact Or.inl ⟨hash, List.mem_append_left _ hin⟩
      · exact Or.inr hrest
  · intro hash id s hin hs hburned
    dsimp only at hin
    rw [htable] at hin
    rcases hfresh hs with ⟨-, rfl⟩ | ⟨hne, hold⟩
    · cases hburned
    · rcases List.mem_append.mp hin with hin | hin
      · exact h.sessions.burned hash id s hin hold hburned
      · cases List.mem_singleton.mp hin
        exact absurd rfl hne
  · intro id s hs hidle
    dsimp only at hidle
    rcases hfresh hs with ⟨-, rfl⟩ | ⟨hne, hold⟩
    · rfl
    · rw [Function.update_of_ne hne] at hidle
      exact h.sessions.receiver id s hold hidle
  · intro id s hs hidle
    dsimp only at hidle
    rcases hfresh hs with ⟨-, rfl⟩ | ⟨hne, hold⟩
    · rfl
    · rw [Function.update_of_ne hne] at hidle
      exact h.sessions.sender id s hold hidle

/-- **A removal**: the session leaves the map, and the holder of the lock is on its way to
the `closeOnce`. -/
theorem Inv.remove {v : Visit Digest} {todo : List (Visit Digest)} {exit : Exit} {id : Nat}
    (h : Inv opts w) (hat : w.threads t = some (.visiting (v :: todo) exit))
    (hfound : w.coord.find v.hash = some id) :
    Inv opts
      { w.setThread t (some (.doOnce id (Streams.removal v.cause) (.removal todo exit))) with
        coord := { w.coord with
          table := Table.delete (fun entry => decide (entry.1 = v.hash)) w.coord.table } } := by
  have hheld : w.mu = some t := h.threads.locked t _ hat rfl
  have hmem : ∀ {hash : Digest} {id' : Nat},
      (hash, id') ∈ Table.delete (fun entry => decide (entry.1 = v.hash)) w.coord.table ↔
        (hash, id') ∈ w.coord.table ∧ hash ≠ v.hash := by
    intro hash id'
    simp [Table.delete, List.mem_filter]
  -- a thread at any other place is not the one that moves
  have hother : ∀ t' old, w.threads t' = some old → (∀ todo exit, old ≠ .visiting todo exit) →
      Function.update w.threads t
        (some (.doOnce id (Streams.removal v.cause) (.removal todo exit))) t' = some old := by
    intro t' old hold hnot
    have hne : t' ≠ t := by
      rintro rfl
      exact hnot _ _ (Option.some.inj (hold.symm.trans hat))
    rw [Function.update_of_ne hne, hold]
  refine ⟨?_, ⟨?_, ?_, ?_⟩, ⟨?_, ?_, ?_, h.sessions.receiver, h.sessions.sender⟩⟩
  · refine h.threads.update rfl (fun _ _ hheld => hheld) (fun _ _ _ hrunning => hrunning) rfl
      (h.threads.cleaner_update (Or.inr ⟨_, hat⟩)) ?_
    rintro _ ⟨⟩
    exact ⟨fun _ => hheld, ends_removal v.cause, fun id' hinside => by cases hinside⟩
  · exact h.table.sound.narrow ⟨List.filter_sublist, fun _ => rfl, rfl⟩
  · exact Nat.le_trans (List.length_filter_le _ _) h.table.capacity
  · exact fun hash id' s hin hs => h.table.keyed hash id' s (hmem.mp hin).1 hs
  · intro id' s hs
    refine (h.sessions.gate id' s hs).keep (Keeps.refl s) ?_
    intro t' old hold hinside
    refine hother t' old hold ?_
    rintro todo exit rfl
    cases hinside
  · intro id' s hs
    dsimp only
    rcases h.sessions.gone id' s hs with ⟨hash, hin⟩ | hfinished | ⟨t', old, hold, hremoves⟩
    · by_cases hhash : hash = v.hash
      · -- this is the session that leaves
        subst hhash
        have hid := (find_eq_some h.table.sound.unique).mpr hin
        obtain rfl := Option.some.inj (hid.symm.trans hfound)
        exact Or.inr (Or.inr ⟨t, _, Function.update_self t _ _, rfl⟩)
      · exact Or.inl ⟨hash, hmem.mpr ⟨hin, hhash⟩⟩
    · exact Or.inr (Or.inl hfinished)
    · refine Or.inr (Or.inr ⟨t', old, hother t' old hold ?_, hremoves⟩)
      rintro todo exit rfl
      cases hremoves
  · intro hash id' s hin hs hburned
    obtain ⟨hin, hhash⟩ := hmem.mp hin
    obtain ⟨t', cause, todo', exit', hvisit⟩ := h.sessions.burned hash id' s hin hs hburned
    -- the thread that is about to remove the burned session visits another hash
    have hne : t' ≠ t := by
      rintro rfl
      rw [hat] at hvisit
      cases hvisit
      exact hhash rfl
    refine ⟨t', cause, todo', exit', ?_⟩
    show Function.update w.threads t _ t' = _
    rw [Function.update_of_ne hne, hvisit]

/-! ### Runs -/

theorem Inv.start (clock : Nat) : Inv opts (World.start clock : World Digest) := by
  have hat : ∀ t pc, (World.start clock : World Digest).threads t = some pc → pc = .select := by
    intro t pc hpc
    have hupdate : Function.update (fun _ => none) Tid.cleaner (some .select) t = some pc := hpc
    rcases update_cases hupdate with ⟨-, hsome⟩ | ⟨-, hnone⟩
    · exact (Option.some.inj hsome).symm
    · cases hnone
  refine ⟨⟨?_, ?_, ?_, ?_⟩, ⟨Sound.empty, Nat.zero_le _, ?_⟩, ⟨?_, ?_, ?_, ?_, ?_⟩⟩
  · intro t pc hpc hlocked
    rw [hat t pc hpc] at hlocked
    cases hlocked
  · intro t pc hpc
    rw [hat t pc hpc]
    trivial
  · intro t pc id hpc hinside
    rw [hat t pc hpc] at hinside
    cases hinside
  · exact fun hdone => by cases hdone
  · exact fun hash id s hin => by cases hin
  · exact fun id s hs => by cases hs
  · exact fun id s hs => by cases hs
  · exact fun hash id s hin => by cases hin
  · exact fun id s hs => by cases hs
  · exact fun id s hs => by cases hs

/-- A `Once` that was just run is not idle, and the others are as they were. -/
theorem idle_of_finished {onces : Nat → Once} {id id' : Nat}
    (h : Function.update onces id .finished id' = .idle) : id' ≠ id ∧ onces id' = .idle := by
  rw [Function.update_apply] at h
  split at h
  · cases h
  rename_i hne
  exact ⟨hne, h⟩

theorem call_ne_cleaner (pid : Nat) : Tid.call pid ≠ .cleaner := fun heq => by cases heq

theorem Inv.step (h : Inv opts w) (hstep : Step opts sha256 w label w') : Inv opts w' := by
  have hnone : ∀ old : Pc Digest, none = some old → old.Quiet := fun _ heq => by cases heq
  cases hstep with
  | tick hclock => exact h.aside _ w.coord.stopped
  | init codes salt hfree hinit => exact h.init hinit
  | goes pid hat hgoes =>
    exact h.quiet (h.kept rfl rfl rfl rfl) hat rfl hgoes.quiet.1 rfl rfl hgoes.quiet.2
  | writes pid hat hheap hwrites =>
    obtain ⟨hkeeps, hburned, hreceiver, hsender⟩ := hwrites.keeps
    refine h.quiet ?_ hat rfl hwrites.quiet.1 rfl rfl hwrites.quiet.2
    exact h.kept_write hheap rfl hkeeps (fun hnow => Or.inl (hburned ▸ hnow)) rfl
      (fun _ hidle => ⟨hidle, fun _ => hreceiver⟩) (fun _ hidle => ⟨hidle, fun _ => hsender⟩)
  | receiveBegin pid raw hat hfree hcode hfound hheap hburned honce =>
    refine h.quiet ?_ hat rfl hnone rfl rfl (by rintro _ ⟨⟩; exact ⟨rfl, rfl, trivial⟩)
    refine h.kept_write hheap rfl ⟨rfl, rfl, (fun h => h), fun h => h⟩ Or.inl rfl ?_
      (fun _ hidle => ⟨hidle, fun _ => rfl⟩)
    intro id' hidle
    obtain ⟨hne, hbefore⟩ := idle_of_finished hidle
    exact ⟨hbefore, fun heq => absurd heq hne⟩
  | sendBegin pid raw metadata hat hfree hcode hfound hheap hburned honce =>
    refine h.quiet ?_ hat rfl hnone rfl rfl (by rintro _ ⟨⟩; exact ⟨rfl, rfl, trivial⟩)
    refine h.kept_write hheap rfl ⟨rfl, rfl, (fun h => h), fun h => h⟩ Or.inl rfl
      (fun _ hidle => ⟨hidle, fun _ => rfl⟩) ?_
    intro id' hidle
    obtain ⟨hne, hbefore⟩ := idle_of_finished hidle
    exact ⟨hbefore, fun heq => absurd heq hne⟩
  | burnSession pid hat hfree =>
    exact h.lock (h.kept rfl rfl rfl rfl) hat rfl (by rintro _ ⟨⟩; exact ⟨rfl, rfl, trivial⟩)
      hfree rfl rfl (Or.inl (call_ne_cleaner pid))
  | burn pid raw hat hfree hcode hfound hheap hmany =>
    refine h.lock ?_ hat rfl hnone hfree rfl rfl (Or.inl (call_ne_cleaner pid))
    refine h.kept_write hheap rfl ⟨rfl, rfl, (fun h => h), fun h => h⟩ (fun _ => Or.inr ?_) rfl
      (fun _ hidle => ⟨hidle, fun _ => rfl⟩) (fun _ hidle => ⟨hidle, fun _ => rfl⟩)
    intro hash hin
    -- the session is burned and its removal is the next visit, under the same lock
    have hown := (find_eq_some h.table.sound.unique).mp hfound
    obtain rfl := h.table.hash_unique hin hown
    exact ⟨_, _, _, rfl⟩
  | close pid hat hfree hopen horder =>
    exact (h.aside w.clock true).lock ((h.aside w.clock true).kept rfl rfl rfl rfl) hat rfl
      hnone hfree rfl rfl (Or.inl (call_ne_cleaner pid))
  | clean now hat hfree hnow horder =>
    exact h.lock (h.kept rfl rfl rfl rfl) hat rfl (by rintro _ ⟨⟩; exact ⟨rfl, rfl, trivial⟩)
      hfree rfl rfl (Or.inr ⟨_, hat⟩)
  | stop hat hstopped =>
    refine h.move (h.kept rfl rfl rfl rfl) hat rfl ?_ (by rintro _ ⟨⟩; rfl)
      (fun _ _ hheld => hheld) ?_ (fun _ heq => by cases heq)
    · exact Pc.Quiet.leaves (by rintro _ ⟨⟩; exact ⟨rfl, rfl, trivial⟩)
    · intro _
      show Function.update w.threads .cleaner none .cleaner = none
      rw [Function.update_self]
  | absent t hat hfound =>
    refine h.pass hat (fun _ id hin => ?_)
    rw [(find_eq_some h.table.sound.unique).mpr hin] at hfound
    cases hfound
  | young t hat hfound hnow hyoung =>
    -- only the cleaner passes an entry by, and it visits with a time
    refine h.pass hat (fun hunconditional => ?_)
    rw [hnow] at hunconditional
    cases hunconditional
  | remove t hat hfound hlapsed => exact h.remove hat hfound
  | unlock t hat => exact h.unlock hat
  | onceEnter t hat hheap honce => exact h.onceEnter hat hheap honce
  | onceSkip t hat honce => exact h.onceSkip hat honce
  | onceDone t hat hheap => exact h.onceDone hat hheap
  | onceClose t hat hheap => exact h.onceClose hat hheap
  | onceLeave t hat => exact h.onceLeave hat

/-- **Every state of every run.** -/
theorem inv_of_run {clock : Nat} {trace : List (Option Channel × World Digest)}
    (hrun : Run (Step opts sha256) (World.start clock) trace w) : Inv opts w :=
  Run.invariant (Inv opts) (Inv.start clock) (fun _ _ _ h hstep => h.step hstep) hrun

/-! ### Channels stay closed -/

theorem Writes.grows {id : Nat} (h : Writes sha256 w id s pc s' pc') : Grows s s' := by
  obtain ⟨hkeeps, -, hreceiver, hsender⟩ := h.keeps
  exact ⟨fun hready => hreceiver.trans hready, fun hready => hsender.trans hready,
    fun hdone => hkeeps.done.trans hdone⟩

theorem Step.grows (h : Inv opts w) (hstep : Step opts sha256 w label w') (id : Nat)
    (s : Session Digest) (hs : w.coord.heap id = some s) :
    ∃ s', w'.coord.heap id = some s' ∧ Grows s s' := by
  cases hstep with
  | init codes salt hfree hinit =>
    have hne : id ≠ w.coord.next := by
      rintro rfl
      rw [h.table.sound.fresh _ (Nat.le_refl _)] at hs
      cases hs
    exact ⟨s, ((h.table.sound.init hinit).2.2 id hne).trans hs, Grows.refl s⟩
  | writes pid hat hheap hwrites => exact grows_update hheap hwrites.grows id s hs
  | receiveBegin pid raw hat hfree hcode hfound hheap =>
    refine grows_update hheap ?_ id s hs
    exact ⟨fun _ => rfl, fun hready => hready, fun hdone => hdone⟩
  | sendBegin pid raw metadata hat hfree hcode hfound hheap =>
    refine grows_update hheap ?_ id s hs
    exact ⟨fun hready => hready, fun _ => rfl, fun hdone => hdone⟩
  | burn pid raw hat hfree hcode hfound hheap =>
    refine grows_update hheap ?_ id s hs
    exact ⟨fun hready => hready, fun hready => hready, fun hdone => hdone⟩
  | onceDone t hat hheap =>
    refine grows_update hheap ?_ id s hs
    exact ⟨fun hready => hready, fun hready => hready, fun _ => rfl⟩
  | onceClose t hat hheap =>
    refine grows_update hheap ?_ id s hs
    exact ⟨fun hready => hready, fun hready => hready, fun hdone => hdone⟩
  | _ => exact ⟨s, hs, Grows.refl s⟩

theorem init_stopped (h : c.init opts sha256 codes salt now = .ok (c', code)) :
    c'.stopped = c.stopped := by
  unfold Coordinator.init at h
  split at h
  · cases h
  split at h
  · cases h
  cases h
  rfl

/-- **A closed channel stays closed.** -/
theorem Step.closed (h : Inv opts w) (hstep : Step opts sha256 w label w')
    (hclosed : w.closed channel = true) : w'.closed channel = true := by
  have hgrows := hstep.grows h
  cases channel with
  | receiverReady id => exact any_grows hgrows (fun _ _ hgrown => hgrown.receiverReady) hclosed
  | senderReady id => exact any_grows hgrows (fun _ _ hgrown => hgrown.senderReady) hclosed
  | done id => exact any_grows hgrows (fun _ _ hgrown => hgrown.done) hclosed
  | stopClean =>
    cases hstep with
    | init codes salt hfree hinit => exact (init_stopped hinit).trans hclosed
    | close => rfl
    | _ => exact hclosed
  | cleanDone =>
    cases hstep with
    | stop => rfl
    | _ => exact hclosed

omit [DecidableEq Digest] in
/-- A write that sets a flag of its session. -/
theorem any_set {heap : Nat → Option (Session Digest)} {id : Nat} {flag : Session Digest → Bool}
    (hheap : heap id = some s) (hopen : flag s = false) (hset : flag s' = true) :
    (heap id).any flag = false ∧ (Function.update heap id (some s') id).any flag = true := by
  rw [hheap, Function.update_self]
  exact ⟨hopen, hset⟩

/-- **A step closes an open channel.** -/
theorem Step.closes (h : Inv opts w) (hstep : Step opts sha256 w (some channel) w') :
    w.closed channel = false ∧ w'.closed channel = true := by
  cases hstep with
  -- the rendezvous channels are closed under a `Once` that was idle
  | @receiveBegin id s code pid raw hat hfree hcode hfound hheap hburned honce =>
    exact any_set hheap (h.sessions.receiver id s hheap honce) rfl
  | @sendBegin id s code pid raw metadata hat hfree hcode hfound hheap hburned honce =>
    exact any_set hheap (h.sessions.sender id s hheap honce) rfl
  | close pid hat hfree hopen horder => exact ⟨hopen, rfl⟩
  | stop hat hstopped =>
    refine ⟨?_, rfl⟩
    -- the cleaner is still there
    show w.cleanDone = false
    cases hdone : w.cleanDone with
    | false => rfl
    | true =>
      rw [h.threads.cleaner hdone] at hat
      cases hat
  | @onceDone id s closes back t hat hheap => exact any_set hheap (h.entered hat hheap) rfl

/-! ### The free lock -/

theorem Inv.closed_outside (h : Inv opts w) (hfree : w.mu = none) {id : Nat}
    (hheap : w.coord.heap id = some s) (hout : ∀ hash, w.coord.find hash ≠ some id) :
    ClosedSession s := by
  rcases h.sessions.gone id s hheap with ⟨hash, hin⟩ | hfinished | ⟨t, pc, hat, hremoves⟩
  · exact absurd ((find_eq_some h.table.sound.unique).mpr hin) (hout hash)
  · have hgate := h.sessions.gate id s hheap
    rw [hfinished] at hgate
    cases hgate with
    | finished hclosed => exact hclosed
  · -- a thread between the map and the `closeOnce` holds the lock
    exact absurd (Pc.locked_of_removes hremoves) (h.threads.unlocked hfree hat)

theorem Inv.unburned_inside (h : Inv opts w) (hfree : w.mu = none) {hash : Digest} {id : Nat}
    (hfound : w.coord.find hash = some id) (hheap : w.coord.heap id = some s) :
    s.burned = false := by
  cases hburned : s.burned with
  | false => rfl
  | true =>
    have hin := (find_eq_some h.table.sound.unique).mp hfound
    obtain ⟨t, cause, todo, exit, hat⟩ := h.sessions.burned hash id s hin hheap hburned
    exact absurd rfl (h.threads.unlocked hfree hat)

/-! ### The removal in one piece -/

/-- A visit in one piece: `removeLocked`, which `cleanExpired` calls for expired sessions only. -/
def Visit.run (v : Visit Digest) (c : Coordinator Digest) : Coordinator Digest :=
  match v.lapsedAt, c.find v.hash with
  | some now, some id => if c.lapsed now id then c.removeLocked v.hash v.cause else c
  | _, _ => c.removeLocked v.hash v.cause

/-- **The table of the relay.**  In every run no channel is closed twice.  Whenever the lock
is free, the map is within its capacity, every session outside it has its `done` channel and
both ends of its pipe closed, so that no thread is blocked on it, and no session in it is
burned. -/
theorem relay_table_invariant {clock : Nat} {trace : List (Option Channel × World Digest)}
    (hrun : Run (Step opts sha256) (World.start clock) trace w) :
    ((labels trace).filterMap id).Nodup ∧
    (w.mu = none →
      w.coord.table.length ≤ opts.maxConcurrent ∧
      (∀ id s, w.coord.heap id = some s → (∀ hash, w.coord.find hash ≠ some id) →
        (s.done = true ∧ s.pipe.rerr.isSome ∧ s.pipe.werr.isSome) ∧
        ∀ t pc, w.threads t = some pc → pc.session = some id → pc.blocked s = false) ∧
      ∀ hash id s, w.coord.find hash = some id → w.coord.heap id = some s → s.burned = false) := by
  have hinv : Inv opts w := inv_of_run hrun
  refine ⟨?_, fun hfree => ⟨hinv.table.capacity, ?_, ?_⟩⟩
  · refine Run.nodup_set (Inv opts) (fun w channel => w.closed channel = true) id
      (Inv.start clock) (fun _ _ _ h hstep => h.step hstep) ?_
      (fun _ _ _ _ h hstep hclosed => hstep.closed h hclosed) hrun
    rintro w label w' channel h hstep rfl
    obtain ⟨hopen, hclosed⟩ := Step.closes h hstep
    exact ⟨by rw [hopen]; decide, hclosed⟩
  · intro id s hheap hout
    have hclosed := hinv.closed_outside hfree hheap hout
    exact ⟨hclosed, fun t pc _ _ => hclosed.not_blocked pc⟩
  · exact fun hash id s hfound hheap => hinv.unburned_inside hfree hfound hheap

end

/-- A receiver gives up; while its cleanup closure is in `closeOnce`, `Close` takes the
session out of the map and waits for the closure with the lock in its hand. -/
theorem relay_table_invariant_close_races_cleanup :
    ∃ (trace : List (Option Channel × World (List Char))) (w : World (List Char))
      (s : Session (List Char)),
      Run (Step (newOptions 0 0 0) id) (World.start 0) trace w ∧ w.mu = none ∧
      w.coord.heap 0 = some s ∧
      (labels trace).filterMap id = [.receiverReady 0, .stopClean, .done 0, .cleanDone] ∧
      w.coord.table.length ≤ 100 ∧ s.done = true ∧ s.pipe.rerr.isSome ∧ s.pipe.werr.isSome := by
  have hmet : Run (Step (newOptions 0 0 0) id) (World.start 0) _ _ :=
    (((((Run.nil.snoc (.init [sampleCode] [] rfl rfl)).snoc
      (.receiveBegin 0 "123456" rfl rfl normalizeCode_sample rfl rfl rfl rfl)).snoc
      (.goes 0 rfl .receiveCancelled)).snoc
      (.onceEnter (.call 0) rfl rfl rfl)).snoc
      (.close 1 rfl rfl rfl (List.Perm.refl _))).snoc
      (.remove (.call 1) rfl rfl (fun _ hnone => by cases hnone))
  have hclosed := ((((((hmet.snoc
      (.onceDone (.call 0) rfl rfl)).snoc
      (.onceClose (.call 0) rfl rfl)).snoc
      (.onceClose (.call 0) rfl rfl)).snoc
      (.onceLeave (.call 0) rfl)).snoc
      (.onceSkip (.call 1) rfl rfl)).snoc
      (.unlock (.call 1) rfl)).snoc
      (.stop rfl rfl)
  have hrun := ((hclosed.snoc
      (.burnSession 0 rfl rfl)).snoc
      (.absent (.call 0) rfl rfl)).snoc
      (.unlock (.call 0) rfl)
  obtain ⟨hcapacity, hgone, -⟩ := (relay_table_invariant hrun).2 rfl
  obtain ⟨hsession, -⟩ := hgone 0 _ rfl (fun hash hfound => by cases hfound)
  exact ⟨_, _, _, hrun, rfl, rfl, rfl, hcapacity, hsession⟩

end Locks
end Relay
end FlickDrop
