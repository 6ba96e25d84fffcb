import FlickDrop.Relay.Locks

/-!
# The gates of the relay

What every step of the relay keeps.  While the lock is held the map and the sessions need
not agree, so the invariant also follows the holder.  A session that has left the map is
closed, or the holder is on its way to the session's `closeOnce`; a burned session in the
map is the next one the holder removes.  The `closeOnce` of a session is the gate to its
channels: its state says how far the session is closed.

The steps of threads come in three kinds, and each has its lemma: moves outside `closeOnce`
(`Inv.move`), steps inside it (`Inv.inner`) and, in `Relay/Channels.lean`, the steps that
change the map.
-/

namespace FlickDrop
namespace Relay
namespace Locks

open Foundations
open Streams (Closing)

section

variable {Digest : Type}

/-! ### Places -/

def Back.locked : Back Digest → Bool
  | .removal _ _ => true
  | .cleanup _ => false

/-- The places of the thread that holds the lock. -/
def Pc.locked : Pc Digest → Bool
  | .visiting _ _ => true
  | .doOnce _ _ back | .closeDone _ _ back | .closing _ _ back => back.locked
  | _ => false

/-- The session whose `closeOnce` a thread is running. -/
def Pc.inside : Pc Digest → Option Nat
  | .closeDone id _ _ | .closing id _ _ => some id
  | _ => none

/-- The session the holder of the lock has taken out of the map and is about to close. -/
def Pc.removes : Pc Digest → Option Nat
  | .doOnce id _ (.removal _ _) | .closeDone id _ (.removal _ _)
  | .closing id _ (.removal _ _) => some id
  | _ => none

/-- After `closes` both ends of the pipe are closed. -/
def Ends (closes : List Closing) (p : Pipe) : Prop :=
  (p.rerr.isSome ∨ ∃ cause, .reader cause ∈ closes) ∧
    (p.werr.isSome ∨ ∃ cause, .writer cause ∈ closes)

theorem ends_removal (cause : Cause) (p : Pipe) : Ends (Streams.removal cause) p :=
  ⟨Or.inr ⟨cause, by simp [Streams.removal]⟩, Or.inr ⟨cause, by simp [Streams.removal]⟩⟩

theorem ends_cleanup (p : Pipe) : Ends Streams.cleanup p :=
  ⟨Or.inr ⟨.eof, by simp [Streams.cleanup]⟩, Or.inr ⟨.eof, by simp [Streams.cleanup]⟩⟩

theorem Ends.mono {closes : List Closing} {p p' : Pipe} (h : Ends closes p)
    (hrerr : p.rerr.isSome → p'.rerr.isSome) (hwerr : p.werr.isSome → p'.werr.isSome) :
    Ends closes p' :=
  ⟨h.1.imp hrerr id, h.2.imp hwerr id⟩

/-- One close is made. -/
theorem Ends.run {next : Closing} {closes : List Closing} {p : Pipe} (h : Ends (next :: closes) p) :
    Ends closes (next.run p) := by
  obtain ⟨hreader, hwriter⟩ := h
  cases next with
  | reader cause =>
    refine ⟨Or.inl (by simp [Closing.run, Pipe.closeReader]), hwriter.imp id ?_⟩
    rintro ⟨other, hother⟩
    exact ⟨other, (List.mem_cons.mp hother).resolve_left (fun heq => by cases heq)⟩
  | writer cause =>
    refine ⟨hreader.imp id ?_, Or.inl (by simp [Closing.run, Pipe.closeWriter])⟩
    rintro ⟨other, hother⟩
    exact ⟨other, (List.mem_cons.mp hother).resolve_left (fun heq => by cases heq)⟩

/-- A body of `closeOnce` that has not closed anything yet closes both ends. -/
def Pc.Whole : Pc Digest → Prop
  | .doOnce _ closes _ | .closeDone _ closes _ => ∀ p, Ends closes p
  | _ => True

theorem Back.pc_inside (back : Back Digest) : back.pc.inside = none := by
  cases back <;> rfl

theorem Back.pc_locked (back : Back Digest) : back.pc.locked = back.locked := by
  cases back <;> rfl

theorem Back.pc_whole (back : Back Digest) : back.pc.Whole := by
  cases back <;> trivial

/-- A place without the lock from which a thread runs no `closeOnce`. -/
structure Pc.Quiet (pc : Pc Digest) : Prop where
  locked : pc.locked = false
  inside : pc.inside = none
  whole : pc.Whole

theorem quiet_cleanup (id : Nat) (hash : Digest) :
    (Pc.doOnce id Streams.cleanup (.cleanup hash)).Quiet :=
  ⟨rfl, rfl, ends_cleanup⟩

theorem Pc.locked_of_removes {pc : Pc Digest} {id : Nat} (h : pc.removes = some id) :
    pc.locked = true := by
  unfold Pc.removes at h
  split at h <;> first | rfl | cases h

/-! ### Sessions -/

/-- Nobody can wait for this session. -/
def ClosedSession (s : Session Digest) : Prop :=
  s.done = true ∧ s.pipe.rerr.isSome ∧ s.pipe.werr.isSome

theorem ClosedSession.not_blocked {s : Session Digest} (h : ClosedSession s) (pc : Pc Digest) :
    pc.blocked s = false := by
  obtain ⟨hdone, hrerr, -⟩ := h
  cases pc <;> simp [Pc.blocked, Pipe.closed, hdone, hrerr]

/-- What a write outside `closeOnce` keeps: the hash, `done`, and that an end of the pipe is
closed. -/
structure Keeps (s s' : Session Digest) : Prop where
  codeHash : s'.codeHash = s.codeHash
  done : s'.done = s.done
  rerr : s.pipe.rerr.isSome → s'.pipe.rerr.isSome
  werr : s.pipe.werr.isSome → s'.pipe.werr.isSome

theorem Keeps.refl (s : Session Digest) : Keeps s s := ⟨rfl, rfl, id, id⟩

theorem keeps_closeWriter (s : Session Digest) (cause : Cause) :
    Keeps s { s with pipe := s.pipe.closeWriter cause } :=
  ⟨rfl, rfl, id, fun _ => by simp [Pipe.closeWriter]⟩

theorem keeps_closeReader (s : Session Digest) (cause : Cause) :
    Keeps s { s with pipe := s.pipe.closeReader cause } :=
  ⟨rfl, rfl, fun _ => by simp [Pipe.closeReader], id⟩

/-- The channels of a session only get closed. -/
structure Grows (s s' : Session Digest) : Prop where
  receiverReady : s.receiverReady = true → s'.receiverReady = true
  senderReady : s.senderReady = true → s'.senderReady = true
  done : s.done = true → s'.done = true

theorem Grows.refl (s : Session Digest) : Grows s s := ⟨id, id, id⟩

theorem grows_update {heap : Nat → Option (Session Digest)} {id : Nat} {s s' : Session Digest}
    (hheap : heap id = some s) (hgrows : Grows s s') (id' : Nat) (old : Session Digest)
    (hold : heap id' = some old) :
    ∃ new, Function.update heap id (some s') id' = some new ∧ Grows old new := by
  by_cases hid : id' = id
  · subst hid
    obtain rfl := Option.some.inj (hheap.symm.trans hold)
    exact ⟨s', Function.update_self id' _ _, hgrows⟩
  · exact ⟨old, by rw [Function.update_of_ne hid, hold], Grows.refl old⟩

/-- A flag that sessions keep once it is up. -/
theorem any_grows {heap heap' : Nat → Option (Session Digest)} {id : Nat}
    {flag : Session Digest → Bool}
    (hgrows : ∀ id s, heap id = some s → ∃ s', heap' id = some s' ∧ Grows s s')
    (hflag : ∀ s s', Grows s s' → flag s = true → flag s' = true)
    (hup : (heap id).any flag = true) : (heap' id).any flag = true := by
  cases hs : heap id with
  | none =>
    rw [hs] at hup
    cases hup
  | some s =>
    rw [hs] at hup
    obtain ⟨s', hs', hgrown⟩ := hgrows id s hs
    rw [hs']
    exact hflag s s' hgrown hup

/-- The state of a `closeOnce` says how far its session is closed. -/
inductive Gate (threads : Tid → Option (Pc Digest)) (id : Nat) (s : Session Digest) : Once → Prop
  | idle (hdone : s.done = false) : Gate threads id s .idle
  | entered {t : Tid} {closes : List Closing} {back : Back Digest}
      (hat : threads t = some (.closeDone id closes back)) (hdone : s.done = false) :
      Gate threads id s (.running t)
  | closing {t : Tid} {closes : List Closing} {back : Back Digest}
      (hat : threads t = some (.closing id closes back)) (hdone : s.done = true)
      (hends : Ends closes s.pipe) : Gate threads id s (.running t)
  | finished (hclosed : ClosedSession s) : Gate threads id s .finished

/-- The gate of a session does not depend on threads outside its `closeOnce`. -/
theorem Gate.keep {threads threads' : Tid → Option (Pc Digest)} {id : Nat}
    {s s' : Session Digest} {once : Once} (h : Gate threads id s once) (hkeeps : Keeps s s')
    (hthreads : ∀ t pc, threads t = some pc → pc.inside = some id → threads' t = some pc) :
    Gate threads' id s' once := by
  cases h with
  | idle hdone => exact Gate.idle (hkeeps.done.trans hdone)
  | entered hat hdone => exact Gate.entered (hthreads _ _ hat rfl) (hkeeps.done.trans hdone)
  | closing hat hdone hends =>
    exact Gate.closing (hthreads _ _ hat rfl) (hkeeps.done.trans hdone)
      (hends.mono hkeeps.rerr hkeeps.werr)
  | finished hclosed =>
    exact Gate.finished ⟨hkeeps.done.trans hclosed.1, hkeeps.rerr hclosed.2.1,
      hkeeps.werr hclosed.2.2⟩

/-! ### The invariant -/

/-- The threads: only the holder stands at a locked place, a `closeOnce` is run by the thread
inside it, and a cleaner that closed `cleanDone` is gone. -/
structure ThreadInv (w : World Digest) : Prop where
  locked : ∀ t pc, w.threads t = some pc → pc.locked = true → w.mu = some t
  whole : ∀ t pc, w.threads t = some pc → pc.Whole
  inside : ∀ t pc id, w.threads t = some pc → pc.inside = some id →
    w.closeOnce id = .running t ∧ id < w.coord.next
  cleaner : w.cleanDone = true → w.threads .cleaner = none

/-- The map, within the capacity of the coordinator. -/
structure TableInv (opts : Options) (c : Coordinator Digest) : Prop where
  sound : Sound c
  capacity : c.table.length ≤ opts.maxConcurrent
  keyed : ∀ hash id s, (hash, id) ∈ c.table → c.heap id = some s → s.codeHash = hash

/-- The sessions: how far each is closed, whether it may be outside the map, and whether it
may be burned and inside. -/
structure SessionInv (w : World Digest) : Prop where
  gate : ∀ id s, w.coord.heap id = some s → Gate w.threads id s (w.closeOnce id)
  gone : ∀ id s, w.coord.heap id = some s → (∃ hash, (hash, id) ∈ w.coord.table) ∨
    w.closeOnce id = .finished ∨ ∃ t pc, w.threads t = some pc ∧ pc.removes = some id
  burned : ∀ hash id s, (hash, id) ∈ w.coord.table → w.coord.heap id = some s → s.burned = true →
    ∃ t cause todo exit, w.threads t = some (.visiting (⟨hash, cause, none⟩ :: todo) exit)
  receiver : ∀ id s, w.coord.heap id = some s → w.receiverOnce id = .idle → s.receiverReady = false
  sender : ∀ id s, w.coord.heap id = some s → w.senderOnce id = .idle → s.senderReady = false

structure Inv (opts : Options) (w : World Digest) : Prop where
  threads : ThreadInv w
  table : TableInv opts w.coord
  sessions : SessionInv w

variable {opts : Options} {w w' : World Digest} {t : Tid} {pc pc' : Option (Pc Digest)}
  {exit : Exit} {todo : List (Visit Digest)} {c : Coordinator Digest} {back : Back Digest}

/-- A thread that is there was not stopped with the cleaner. -/
theorem ThreadInv.cleaner_update (h : ThreadInv w)
    (hat : t ≠ .cleaner ∨ ∃ pc, w.threads t = some pc) (hdone : w.cleanDone = true) :
    Function.update w.threads t pc' .cleaner = none := by
  have hgone := h.cleaner hdone
  have hne : Tid.cleaner ≠ t := by
    rintro rfl
    rcases hat with hat | ⟨pc, hat⟩
    · exact hat rfl
    · rw [hgone] at hat
      cases hat
  rw [Function.update_of_ne hne]
  exact hgone

/-- No thread is in a locked section. -/
theorem ThreadInv.unlocked (h : ThreadInv w) (hfree : w.mu = none) {pc : Pc Digest}
    (hat : w.threads t = some pc) : pc.locked ≠ true := by
  intro hlocked
  rw [h.locked t pc hat hlocked] at hfree
  cases hfree

/-- Thread `t` moves to `pc'`; for the others nothing changes. -/
theorem ThreadInv.update (h : ThreadInv w)
    (hthreads : w'.threads = Function.update w.threads t pc')
    (hmu : ∀ t', t' ≠ t → w.mu = some t' → w'.mu = some t')
    (honce : ∀ t' id, t' ≠ t → w.closeOnce id = .running t' → w'.closeOnce id = .running t')
    (hnext : w'.coord.next = w.coord.next)
    (hcleaner : w'.cleanDone = true → w'.threads .cleaner = none)
    (hnew : ∀ pc, pc' = some pc → (pc.locked = true → w'.mu = some t) ∧ pc.Whole ∧
      ∀ id, pc.inside = some id → w'.closeOnce id = .running t ∧ id < w.coord.next) :
    ThreadInv w' where
  locked := by
    intro t' pc hat hlocked
    rw [hthreads] at hat
    rcases update_cases hat with ⟨rfl, hpc⟩ | ⟨hne, hold⟩
    · exact (hnew pc hpc).1 hlocked
    · exact hmu t' hne (h.locked t' pc hold hlocked)
  whole := by
    intro t' pc hat
    rw [hthreads] at hat
    rcases update_cases hat with ⟨-, hpc⟩ | ⟨-, hold⟩
    · exact (hnew pc hpc).2.1
    · exact h.whole t' pc hold
  inside := by
    intro t' pc id hat hinside
    rw [hthreads] at hat
    rw [hnext]
    rcases update_cases hat with ⟨rfl, hpc⟩ | ⟨hne, hold⟩
    · exact (hnew pc hpc).2.2 id hinside
    · obtain ⟨hrunning, hid⟩ := h.inside t' pc id hold hinside
      exact ⟨honce t' id hne hrunning, hid⟩
  cleaner := hcleaner

/-- What thread `t` may leave behind when it moves on to `pc'`: a session it removed is
closed or still its own, and a burned session it was to remove is out of the map. -/
structure Leaves (w w' : World Digest) (pc pc' : Option (Pc Digest)) : Prop where
  removes : ∀ old id, pc = some old → old.removes = some id →
    w'.closeOnce id = .finished ∨ ∃ new, pc' = some new ∧ new.removes = some id
  visits : ∀ hash cause todo exit id, pc = some (.visiting (⟨hash, cause, none⟩ :: todo) exit) →
    (hash, id) ∉ w.coord.table

/-- Thread `t` moves to `pc'` and the map stays as it is. -/
theorem SessionInv.update (h : SessionInv w)
    (hthreads : w'.threads = Function.update w.threads t pc') (hat : w.threads t = pc)
    (hleaves : Leaves w w' pc pc') (htable : w'.coord.table = w.coord.table)
    (hheap : ∀ id s', w'.coord.heap id = some s' → ∃ s, w.coord.heap id = some s ∧
      (s'.burned = true → s.burned = true ∨ ∀ hash, (hash, id) ∈ w.coord.table →
        ∃ cause todo exit, pc' = some (.visiting (⟨hash, cause, none⟩ :: todo) exit)))
    (honce : ∀ id, w.closeOnce id = .finished → w'.closeOnce id = .finished)
    (hgate : ∀ id s', w'.coord.heap id = some s' → Gate w'.threads id s' (w'.closeOnce id))
    (hreceiver : ∀ id s', w'.coord.heap id = some s' → w'.receiverOnce id = .idle →
      s'.receiverReady = false)
    (hsender : ∀ id s', w'.coord.heap id = some s' → w'.senderOnce id = .idle →
      s'.senderReady = false) : SessionInv w' where
  gate := hgate
  gone := by
    intro id s' hs'
    obtain ⟨s, hs, -⟩ := hheap id s' hs'
    rw [htable, hthreads]
    rcases h.gone id s hs with hin | hfinished | ⟨t', old, hold, hremoves⟩
    · exact Or.inl hin
    · exact Or.inr (Or.inl (honce id hfinished))
    · by_cases heq : t' = t
      · -- the thread that moves is the one that took the session out of the map
        subst heq
        rcases hleaves.removes old id (hat.symm.trans hold) hremoves with
          hfinished | ⟨new, hnew, hid⟩
        · exact Or.inr (Or.inl hfinished)
        · exact Or.inr (Or.inr ⟨t', new, by rw [Function.update_self, hnew], hid⟩)
      · exact Or.inr (Or.inr ⟨t', old, by rw [Function.update_of_ne heq, hold], hremoves⟩)
  burned := by
    intro hash id s' hin hs' hburned
    rw [htable] at hin
    rw [hthreads]
    obtain ⟨s, hs, hwas⟩ := hheap id s' hs'
    rcases hwas hburned with hbefore | hnew
    · obtain ⟨t', cause, todo, exit, hvisit⟩ := h.burned hash id s hin hs hbefore
      -- had it been this thread, the session would be out of the map by now
      have hne : t' ≠ t := by
        rintro rfl
        exact hleaves.visits hash cause todo exit id (hat.symm.trans hvisit) hin
      exact ⟨t', cause, todo, exit, by rw [Function.update_of_ne hne, hvisit]⟩
    · obtain ⟨cause, todo, exit, hpc⟩ := hnew hash hin
      exact ⟨t, cause, todo, exit, by rw [Function.update_self, hpc]⟩
  receiver := hreceiver
  sender := hsender

theorem Pc.Quiet.leaves (hquiet : ∀ old, pc = some old → old.Quiet) : Leaves w w' pc pc' where
  removes := by
    intro old id hold hremoves
    have hlocked := Pc.locked_of_removes hremoves
    rw [(hquiet old hold).locked] at hlocked
    cases hlocked
  visits := by
    intro hash cause todo exit id hold
    cases (hquiet _ hold).locked

/-- A write that keeps the hash of its session. -/
theorem TableInv.write {id : Nat} {s s' : Session Digest} (h : TableInv opts c)
    (hheap : c.heap id = some s) (hhash : s'.codeHash = s.codeHash) :
    TableInv opts { c with heap := Function.update c.heap id (some s') } where
  sound := by
    refine h.sound.narrow ⟨List.Sublist.refl _, ?_, rfl⟩
    intro other
    show (Function.update c.heap id (some s') other).isSome = _
    rw [Function.update_apply]
    split
    · rename_i heq
      rw [heq, hheap]
      rfl
    · rfl
  capacity := h.capacity
  keyed := by
    intro hash other new hin hnew
    rcases update_cases hnew with ⟨rfl, hsome⟩ | ⟨-, hold⟩
    · obtain rfl := Option.some.inj hsome
      exact hhash.trans (h.keyed hash other s hin hheap)
    · exact h.keyed hash other new hin hold

/-- A session is in the map under one hash only. -/
theorem TableInv.hash_unique (h : TableInv opts c) {hash hash' : Digest} {id : Nat}
    (hin : (hash, id) ∈ c.table) (hin' : (hash', id) ∈ c.table) : hash = hash' := by
  obtain ⟨s, hs⟩ := Option.isSome_iff_exists.mp (h.sound.allocated _ hin)
  exact (h.keyed hash id s hin hs).symm.trans (h.keyed hash' id s hin' hs)

/-- A step that leaves the map and every `closeOnce` as they are, and of a session at most
burns one that thread `t`, now at `pc'`, removes next. -/
structure Kept (opts : Options) (w w' : World Digest) (pc' : Option (Pc Digest)) : Prop where
  table : TableInv opts w'.coord
  entries : w'.coord.table = w.coord.table
  next : w'.coord.next = w.coord.next
  once : w'.closeOnce = w.closeOnce
  heap : ∀ id s', w'.coord.heap id = some s' → ∃ s, w.coord.heap id = some s ∧ Keeps s s' ∧
    (s'.burned = true → s.burned = true ∨ ∀ hash, (hash, id) ∈ w.coord.table →
      ∃ cause todo exit, pc' = some (.visiting (⟨hash, cause, none⟩ :: todo) exit))
  receiver : ∀ id s', w'.coord.heap id = some s' → w'.receiverOnce id = .idle →
    s'.receiverReady = false
  sender : ∀ id s', w'.coord.heap id = some s' → w'.senderOnce id = .idle →
    s'.senderReady = false

/-- The step touches no session. -/
theorem Inv.kept (h : Inv opts w) (hcoord : w'.coord = w.coord)
    (hreceiver : w'.receiverOnce = w.receiverOnce) (hsender : w'.senderOnce = w.senderOnce)
    (hclose : w'.closeOnce = w.closeOnce) : Kept opts w w' pc' where
  table := hcoord ▸ h.table
  entries := by rw [hcoord]
  next := by rw [hcoord]
  once := hclose
  heap := by
    rw [hcoord]
    exact fun id s hs => ⟨s, hs, Keeps.refl s, Or.inl⟩
  receiver := by
    rw [hcoord, hreceiver]
    exact h.sessions.receiver
  sender := by
    rw [hcoord, hsender]
    exact h.sessions.sender

/-- **A move outside `closeOnce`.** -/
theorem Inv.move (h : Inv opts w) (hkept : Kept opts w w' pc') (hat : w.threads t = pc)
    (hthreads : w'.threads = Function.update w.threads t pc') (hleaves : Leaves w w' pc pc')
    (houtside : ∀ old, pc = some old → old.inside = none)
    (hmu : ∀ t', t' ≠ t → w.mu = some t' → w'.mu = some t')
    (hcleaner : w'.cleanDone = true → w'.threads .cleaner = none)
    (hnew : ∀ new, pc' = some new → (new.locked = true → w'.mu = some t) ∧ new.Whole ∧
      new.inside = none) : Inv opts w' where
  threads := by
    refine h.threads.update hthreads hmu (by rw [hkept.once]; exact fun _ _ _ => id) hkept.next
      hcleaner ?_
    intro new hpc
    obtain ⟨hlocked, hwhole, hinside⟩ := hnew new hpc
    refine ⟨hlocked, hwhole, fun id hid => ?_⟩
    rw [hinside] at hid
    cases hid
  table := hkept.table
  sessions := by
    refine h.sessions.update hthreads hat hleaves hkept.entries ?_
      (by rw [hkept.once]; exact fun _ => id) ?_ hkept.receiver hkept.sender
    · intro id s' hs'
      obtain ⟨s, hs, -, hburned⟩ := hkept.heap id s' hs'
      exact ⟨s, hs, hburned⟩
    · intro id s' hs'
      obtain ⟨s, hs, hkeeps, -⟩ := hkept.heap id s' hs'
      rw [hkept.once, hthreads]
      refine (h.sessions.gate id s hs).keep hkeeps ?_
      intro t' old hold hinside
      have hne : t' ≠ t := by
        rintro rfl
        rw [houtside old (hat.symm.trans hold)] at hinside
        cases hinside
      rw [Function.update_of_ne hne, hold]

/-- A call moves between quiet places. -/
theorem Inv.quiet {pid : Nat} (h : Inv opts w) (hkept : Kept opts w w' pc')
    (hat : w.threads (.call pid) = pc)
    (hthreads : w'.threads = Function.update w.threads (.call pid) pc')
    (hold : ∀ old, pc = some old → old.Quiet) (hmu : w'.mu = w.mu)
    (hcleaner : w'.cleanDone = w.cleanDone) (hnew : ∀ new, pc' = some new → new.Quiet) :
    Inv opts w' := by
  refine h.move hkept hat hthreads (Pc.Quiet.leaves hold) (fun old hpc => (hold old hpc).inside)
    (by rw [hmu]; exact fun _ _ => id) ?_ ?_
  · intro hdone
    rw [hthreads]
    exact h.threads.cleaner_update (Or.inl (fun heq => by cases heq)) (hcleaner ▸ hdone)
  · intro new hpc
    refine ⟨?_, (hnew new hpc).whole, (hnew new hpc).inside⟩
    rw [(hnew new hpc).locked]
    exact fun hlocked => by cases hlocked

/-- A thread takes the free lock. -/
theorem Inv.lock (h : Inv opts w) (hkept : Kept opts w w' (some (.visiting todo exit)))
    (hat : w.threads t = pc)
    (hthreads : w'.threads = Function.update w.threads t (some (.visiting todo exit)))
    (hold : ∀ old, pc = some old → old.Quiet) (hfree : w.mu = none) (hmu : w'.mu = some t)
    (hcleaner : w'.cleanDone = w.cleanDone) (hthere : t ≠ .cleaner ∨ ∃ pc, w.threads t = some pc) :
    Inv opts w' := by
  refine h.move hkept hat hthreads (Pc.Quiet.leaves hold) (fun old hpc => (hold old hpc).inside)
    ?_ ?_ ?_
  · intro t' _ hheld
    rw [hfree] at hheld
    cases hheld
  · intro hdone
    rw [hthreads]
    exact h.threads.cleaner_update hthere (hcleaner ▸ hdone)
  · rintro _ ⟨⟩
    exact ⟨fun _ => hmu, trivial, rfl⟩

/-- The holder of the lock goes on with its visits.  The entry it passes is not that of a
burned session. -/
theorem Inv.pass {v : Visit Digest} (h : Inv opts w)
    (hat : w.threads t = some (.visiting (v :: todo) exit))
    (hpassed : v.lapsedAt = none → ∀ id, (v.hash, id) ∉ w.coord.table) :
    Inv opts (w.setThread t (some (.visiting todo exit))) := by
  have hheld : w.mu = some t := h.threads.locked t _ hat rfl
  refine h.move (h.kept rfl rfl rfl rfl) hat rfl ⟨?_, ?_⟩ ?_ (fun _ _ => id) ?_ ?_
  · rintro _ id ⟨⟩ hremoves
    cases hremoves
  · rintro hash cause rest exit' id hvisiting
    cases hvisiting
    exact hpassed rfl id
  · rintro _ ⟨⟩
    rfl
  · exact h.threads.cleaner_update (Or.inr ⟨_, hat⟩)
  · rintro _ ⟨⟩
    exact ⟨fun _ => hheld, trivial, rfl⟩

/-- The lock is released. -/
theorem Inv.unlock (h : Inv opts w) (hat : w.threads t = some (.visiting [] exit)) :
    Inv opts { w.setThread t exit.pc with mu := none } := by
  have hheld : w.mu = some t := h.threads.locked t _ hat rfl
  refine h.move (h.kept rfl rfl rfl rfl) hat rfl ⟨?_, ?_⟩ ?_ ?_ ?_ ?_
  · rintro _ id ⟨⟩ hremoves
    cases hremoves
  · rintro hash cause rest exit' id hvisiting
    cases hvisiting
  · rintro _ ⟨⟩
    rfl
  · intro t' hne hother
    rw [hheld] at hother
    exact absurd (Option.some.inj hother).symm hne
  · exact h.threads.cleaner_update (Or.inr ⟨_, hat⟩)
  · intro new hpc
    cases exit <;> cases hpc <;> exact ⟨(fun hlocked => by cases hlocked), trivial, rfl⟩

/-! ### `closeOnce` -/

/-- The places around `closeOnce` hold the lock where they go back to it. -/
theorem ThreadInv.back_held {pc : Pc Digest} (h : ThreadInv w) (hat : w.threads t = some pc)
    (hlocked : pc.locked = back.locked) (hback : back.pc.locked = true) : w.mu = some t := by
  rw [back.pc_locked] at hback
  exact h.locked t pc hat (hlocked.trans hback)

/-- `Do` returns at once: the session is closed. -/
theorem Inv.onceSkip {id : Nat} {closes : List Closing} (h : Inv opts w)
    (hat : w.threads t = some (.doOnce id closes back)) (honce : w.closeOnce id = .finished) :
    Inv opts (w.setThread t (some back.pc)) := by
  refine h.move (h.kept rfl rfl rfl rfl) hat rfl ⟨?_, ?_⟩ ?_ (fun _ _ hheld => hheld)
    (h.threads.cleaner_update (Or.inr ⟨_, hat⟩)) ?_
  · rintro _ id' ⟨⟩ hremoves
    left
    cases back with
    | removal todo exit =>
      cases hremoves
      exact honce
    | cleanup hash => cases hremoves
  · rintro hash cause rest exit' id hvisiting
    cases hvisiting
  · rintro _ ⟨⟩
    rfl
  · rintro _ ⟨⟩
    exact ⟨h.threads.back_held hat rfl, back.pc_whole, back.pc_inside⟩

/-- The steps of a thread through the `closeOnce` of a session: its place and the state of
the `Once`, before and after. -/
inductive Inner (t : Tid) (id : Nat) : Pc Digest → Once → Pc Digest → Once → Prop
  | enter (closes : List Closing) (back : Back Digest) :
      Inner t id (.doOnce id closes back) .idle (.closeDone id closes back) (.running t)
  | done (closes : List Closing) (back : Back Digest) :
      Inner t id (.closeDone id closes back) (.running t) (.closing id closes back) (.running t)
  | close (next : Closing) (closes : List Closing) (back : Back Digest) :
      Inner t id (.closing id (next :: closes) back) (.running t) (.closing id closes back)
        (.running t)
  | leave (back : Back Digest) : Inner t id (.closing id [] back) (.running t) back.pc .finished

section

variable {id : Nat} {old new : Pc Digest} {once once' : Once} {closes : List Closing}
  {back : Back Digest} {s s' : Session Digest}

theorem Inner.locked (h : Inner t id old once new once') : new.locked = old.locked := by
  cases h with
  | leave back => exact back.pc_locked
  | _ => rfl

theorem Inner.whole (h : Inner t id old once new once') (hwhole : old.Whole) : new.Whole := by
  cases h with
  | enter closes back => exact hwhole
  | leave back => exact back.pc_whole
  | _ => trivial

/-- The thread is in no other `closeOnce`, and while it is in this one it runs it. -/
theorem Inner.inside (h : Inner t id old once new once') {id' : Nat} :
    (old.inside = some id' → id' = id) ∧
    (new.inside = some id' → id' = id ∧ once' = .running t) := by
  cases h with
  | leave back =>
    rw [back.pc_inside]
    exact ⟨fun hold => (Option.some.inj hold).symm, fun hnew => by cases hnew⟩
  | enter closes back =>
    exact ⟨(fun hold => by cases hold), fun hnew => ⟨(Option.some.inj hnew).symm, rfl⟩⟩
  | _ =>
    exact ⟨fun hold => (Option.some.inj hold).symm,
      fun hnew => ⟨(Option.some.inj hnew).symm, rfl⟩⟩

theorem Inner.leaves (h : Inner t id old once new once') (honce : w'.closeOnce id = once') :
    Leaves w w' (some old) (some new) where
  removes := by
    rintro _ id' ⟨⟩ hremoves
    cases h with
    | leave back =>
      left
      cases back with
      | removal todo exit =>
        cases hremoves
        exact honce
      | cleanup hash => cases hremoves
    | enter closes back | done closes back | close next closes back =>
      right
      cases back with
      | removal todo exit => exact ⟨_, rfl, hremoves⟩
      | cleanup hash => cases hremoves
  visits := by
    rintro hash cause todo exit id' ⟨⟩
    cases h

/-- Before the step no other thread runs the `Once`, and it is not over. -/
theorem Inner.mine (h : Inner t id old once new once') :
    once ≠ .finished ∧ ∀ t', t' ≠ t → once ≠ .running t' := by
  cases h with
  | enter closes back => exact ⟨(fun heq => by cases heq), fun _ _ heq => by cases heq⟩
  | _ => exact ⟨(fun heq => by cases heq), fun t' hne heq => hne (Once.running.inj heq).symm⟩

/-- **A step in `closeOnce`** of session `id`. -/
theorem Inv.inner (h : Inv opts w) (hinner : Inner t id old once new once')
    (hat : w.threads t = some old) (hthreads : w'.threads = Function.update w.threads t (some new))
    (honce : w.closeOnce id = once) (honce' : w'.closeOnce = Function.update w.closeOnce id once')
    (hmu : w'.mu = w.mu) (hcleaner : w'.cleanDone = w.cleanDone)
    (hreceiver : w'.receiverOnce = w.receiverOnce) (hsender : w'.senderOnce = w.senderOnce)
    (htable : TableInv opts w'.coord) (hentries : w'.coord.table = w.coord.table)
    (hnext : w'.coord.next = w.coord.next) (hid : id < w.coord.next)
    (hothers : ∀ id', id' ≠ id → w'.coord.heap id' = w.coord.heap id')
    (hself : ∀ s', w'.coord.heap id = some s' → ∃ s, w.coord.heap id = some s ∧
      (s'.burned = s.burned ∧ s'.receiverReady = s.receiverReady ∧ s'.senderReady = s.senderReady) ∧
      Gate w'.threads id s' once') : Inv opts w' := by
  obtain ⟨hopen, hmine⟩ := hinner.mine
  have hnow : w'.closeOnce id = once' := by rw [honce', Function.update_self]
  have hheap : ∀ id' s', w'.coord.heap id' = some s' → ∃ s, w.coord.heap id' = some s ∧
      s'.burned = s.burned ∧ s'.receiverReady = s.receiverReady ∧
      s'.senderReady = s.senderReady := by
    intro id' s' hs'
    by_cases hid : id' = id
    · subst hid
      obtain ⟨s, hs, hflags, -⟩ := hself s' hs'
      exact ⟨s, hs, hflags⟩
    · rw [hothers id' hid] at hs'
      exact ⟨s', hs', rfl, rfl, rfl⟩
  refine ⟨?_, htable, ?_⟩
  · refine h.threads.update hthreads (by rw [hmu]; exact fun _ _ hheld => hheld) ?_ hnext ?_ ?_
    · intro t' id' hne hrunning
      have hid : id' ≠ id := by
        rintro rfl
        exact hmine t' hne (honce.symm.trans hrunning)
      rw [honce', Function.update_of_ne hid, hrunning]
    · intro hdone
      rw [hthreads]
      exact h.threads.cleaner_update (Or.inr ⟨_, hat⟩) (hcleaner ▸ hdone)
    · rintro _ ⟨⟩
      refine ⟨fun hlocked => ?_, hinner.whole (h.threads.whole t old hat), fun id' hinside => ?_⟩
      · rw [hmu]
        exact h.threads.locked t old hat (hinner.locked ▸ hlocked)
      · obtain ⟨rfl, hrunning⟩ := hinner.inside.2 hinside
        exact ⟨hnow.trans hrunning, hid⟩
  · refine h.sessions.update hthreads hat (hinner.leaves hnow) hentries ?_ ?_ ?_ ?_ ?_
    · intro id' s' hs'
      obtain ⟨s, hs, hburned, -⟩ := hheap id' s' hs'
      exact ⟨s, hs, fun hnow => Or.inl (hburned ▸ hnow)⟩
    · intro id' hfinished
      have hid : id' ≠ id := by
        rintro rfl
        exact hopen (honce.symm.trans hfinished)
      rw [honce', Function.update_of_ne hid, hfinished]
    · intro id' s' hs'
      by_cases hid : id' = id
      · subst hid
        obtain ⟨s, -, -, hgate⟩ := hself s' hs'
        rw [hnow]
        exact hgate
      · rw [hothers id' hid] at hs'
        rw [honce', Function.update_of_ne hid, hthreads]
        refine (h.sessions.gate id' s' hs').keep (Keeps.refl s') ?_
        -- thread `t` is in no other `closeOnce`
        intro t' pc hpc hinside
        have hne : t' ≠ t := by
          rintro rfl
          obtain rfl := Option.some.inj (hpc.symm.trans hat)
          exact hid (hinner.inside.1 hinside)
        rw [Function.update_of_ne hne, hpc]
    · intro id' s' hs' hidle
      obtain ⟨s, hs, -, hready, -⟩ := hheap id' s' hs'
      rw [hready]
      exact h.sessions.receiver id' s hs (hreceiver ▸ hidle)
    · intro id' s' hs' hidle
      obtain ⟨s, hs, -, -, hready⟩ := hheap id' s' hs'
      rw [hready]
      exact h.sessions.sender id' s hs (hsender ▸ hidle)

/-- In the body, before its first close. -/
theorem Inv.entered (h : Inv opts w) (hat : w.threads t = some (.closeDone id closes back))
    (hheap : w.coord.heap id = some s) : s.done = false := by
  have hgate := h.sessions.gate id s hheap
  rw [(h.threads.inside t _ id hat rfl).1] at hgate
  cases hgate with
  | entered _ hdone => exact hdone
  | closing hat' => rw [hat] at hat'; cases hat'

/-- In the body, after its first close. -/
theorem Inv.closing (h : Inv opts w) (hat : w.threads t = some (.closing id closes back))
    (hheap : w.coord.heap id = some s) : s.done = true ∧ Ends closes s.pipe := by
  have hgate := h.sessions.gate id s hheap
  rw [(h.threads.inside t _ id hat rfl).1] at hgate
  cases hgate with
  | entered hat' => rw [hat] at hat'; cases hat'
  | closing hat' hdone hends =>
    rw [hat] at hat'
    cases hat'
    exact ⟨hdone, hends⟩

theorem Inv.onceEnter (h : Inv opts w) (hat : w.threads t = some (.doOnce id closes back))
    (hheap : w.coord.heap id = some s) (honce : w.closeOnce id = .idle) :
    Inv opts
      { w.setThread t (some (.closeDone id closes back)) with
        closeOnce := Function.update w.closeOnce id (.running t) } := by
  have hid : id < w.coord.next := by
    by_contra hge
    rw [h.table.sound.fresh id (Nat.le_of_not_lt hge)] at hheap
    cases hheap
  refine h.inner (.enter closes back) hat rfl honce rfl rfl rfl rfl rfl h.table rfl rfl hid
    (fun _ _ => rfl) ?_
  intro s' hs'
  have hgate := h.sessions.gate id s' hs'
  rw [honce] at hgate
  cases hgate with
  | idle hdone =>
    exact ⟨s', hs', ⟨rfl, rfl, rfl⟩, Gate.entered (Function.update_self t _ _) hdone⟩

/-- The thread that runs `closeOnce` writes to the session. -/
theorem Inv.onceWrite (h : Inv opts w) (hinner : Inner t id old (.running t) new (.running t))
    (hat : w.threads t = some old) (hinside : old.inside = some id)
    (hheap : w.coord.heap id = some s) (hhash : s'.codeHash = s.codeHash)
    (hflags : s'.burned = s.burned ∧ s'.receiverReady = s.receiverReady ∧
      s'.senderReady = s.senderReady)
    (hgate : Gate (Function.update w.threads t (some new)) id s' (.running t)) :
    Inv opts ((w.setSession id s').setThread t (some new)) := by
  obtain ⟨honce, hid⟩ := h.threads.inside t _ id hat hinside
  refine h.inner hinner hat rfl honce ?_ rfl rfl rfl rfl (h.table.write hheap hhash) rfl rfl hid
    (fun id' hne => Function.update_of_ne hne _ _) ?_
  · rw [← honce, Function.update_eq_self]
    rfl
  · intro found hfound
    obtain rfl := Option.some.inj ((Function.update_self id _ _).symm.trans hfound)
    exact ⟨s, hheap, hflags, hgate⟩

theorem Inv.onceDone (h : Inv opts w) (hat : w.threads t = some (.closeDone id closes back))
    (hheap : w.coord.heap id = some s) :
    Inv opts
      ((w.setSession id { s with done := true }).setThread t (some (.closing id closes back))) :=
  h.onceWrite (.done closes back) hat rfl hheap rfl ⟨rfl, rfl, rfl⟩
    (Gate.closing (Function.update_self t _ _) rfl (h.threads.whole t _ hat s.pipe))

theorem Inv.onceClose {next : Closing} (h : Inv opts w)
    (hat : w.threads t = some (.closing id (next :: closes) back))
    (hheap : w.coord.heap id = some s) :
    Inv opts
      ((w.setSession id { s with pipe := next.run s.pipe }).setThread t
        (some (.closing id closes back))) := by
  obtain ⟨hdone, hends⟩ := h.closing hat hheap
  exact h.onceWrite (.close next closes back) hat rfl hheap rfl ⟨rfl, rfl, rfl⟩
    (Gate.closing (Function.update_self t _ _) hdone hends.run)

theorem Inv.onceLeave (h : Inv opts w) (hat : w.threads t = some (.closing id [] back)) :
    Inv opts
      { w.setThread t (some back.pc) with
        closeOnce := Function.update w.closeOnce id .finished } := by
  obtain ⟨honce, hid⟩ := h.threads.inside t _ id hat rfl
  refine h.inner (.leave back) hat rfl honce rfl rfl rfl rfl rfl h.table rfl rfl hid
    (fun _ _ => rfl) ?_
  intro s' hs'
  obtain ⟨hdone, hreader, hwriter⟩ := h.closing hat hs'
  -- no close is left, so both ends are closed
  have hrerr := hreader.resolve_right (fun ⟨_, hmem⟩ => by cases hmem)
  have hwerr := hwriter.resolve_right (fun ⟨_, hmem⟩ => by cases hmem)
  exact ⟨s', hs', ⟨rfl, rfl, rfl⟩, Gate.finished ⟨hdone, hrerr, hwerr⟩⟩

end

/-! ### Writes -/

/-- A write to one session that closes nothing. -/
theorem Inv.kept_write {id : Nat} {s s' : Session Digest} (h : Inv opts w)
    (hheap : w.coord.heap id = some s)
    (hcoord : w'.coord = { w.coord with heap := Function.update w.coord.heap id (some s') })
    (hkeeps : Keeps s s')
    (hburned : s'.burned = true → s.burned = true ∨ ∀ hash, (hash, id) ∈ w.coord.table →
      ∃ cause todo exit, pc' = some (.visiting (⟨hash, cause, none⟩ :: todo) exit))
    (hclose : w'.closeOnce = w.closeOnce)
    (hreceiver : ∀ id', w'.receiverOnce id' = .idle → w.receiverOnce id' = .idle ∧
      (id' = id → s'.receiverReady = s.receiverReady))
    (hsender : ∀ id', w'.senderOnce id' = .idle → w.senderOnce id' = .idle ∧
      (id' = id → s'.senderReady = s.senderReady)) : Kept opts w w' pc' where
  table := by
    rw [hcoord]
    exact h.table.write hheap hkeeps.codeHash
  entries := by rw [hcoord]
  next := by rw [hcoord]
  once := hclose
  heap := by
    intro id' new hnew
    rw [hcoord] at hnew
    rcases update_cases hnew with ⟨rfl, hsome⟩ | ⟨-, hold⟩
    · obtain rfl := Option.some.inj hsome
      exact ⟨s, hheap, hkeeps, hburned⟩
    · exact ⟨new, hold, Keeps.refl new, Or.inl⟩
  receiver := by
    intro id' new hnew hidle
    obtain ⟨hbefore, hsame⟩ := hreceiver id' hidle
    rw [hcoord] at hnew
    rcases update_cases hnew with ⟨rfl, hsome⟩ | ⟨-, hold⟩
    · obtain rfl := Option.some.inj hsome
      rw [hsame rfl]
      exact h.sessions.receiver id' s hheap hbefore
    · exact h.sessions.receiver id' new hold hbefore
  sender := by
    intro id' new hnew hidle
    obtain ⟨hbefore, hsame⟩ := hsender id' hidle
    rw [hcoord] at hnew
    rcases update_cases hnew with ⟨rfl, hsome⟩ | ⟨-, hold⟩
    · obtain rfl := Option.some.inj hsome
      rw [hsame rfl]
      exact h.sessions.sender id' s hheap hbefore
    · exact h.sessions.sender id' new hold hbefore

/-- The invariant speaks neither of the clock nor of `stopClean`. -/
theorem Inv.aside (h : Inv opts w) (clock : Nat) (stopped : Bool) :
    Inv opts { w with clock := clock, coord := { w.coord with stopped := stopped } } :=
  ⟨⟨h.threads.locked, h.threads.whole, h.threads.inside, h.threads.cleaner⟩,
    ⟨⟨h.table.sound.unique, h.table.sound.allocated, h.table.sound.fresh⟩, h.table.capacity,
      h.table.keyed⟩,
    ⟨h.sessions.gate, h.sessions.gone, h.sessions.burned, h.sessions.receiver, h.sessions.sender⟩⟩

end

end Locks
end Relay
end FlickDrop
