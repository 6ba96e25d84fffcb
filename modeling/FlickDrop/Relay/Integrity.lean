import FlickDrop.Relay.Isolation
import FlickDrop.Relay.Streams

/-!
# Integrity of the relayed streams

The stream of a session is a one-shot tape: the body of the one accepted `Send` reaches
the one accepted receiver in order, a clean end of stream is read only after all of it,
and `Send` reports success only then.  Five places close the ends of a pipe, some with
`io.EOF`; what keeps a truncated stream from looking complete is that a closer closes the
writer with `io.EOF` only when the reader is closed already or the whole body was read.
-/

namespace FlickDrop
namespace Relay
namespace Streams

open Foundations

section

variable {Digest : Type} {cause : Cause}

/-! ### What holds of one session -/

/-- How many bytes of the body the receiver has and how many are on offer. -/
def Sender.Balanced (pending received : List UInt8) : Sender Digest → Prop
  | .absent | .waiting _ _ => received = [] ∧ pending = []
  | .copying _ body sent => received = sent ∧ pending = [] ∧ sent <+: body
  | .writing _ body sent chunk => received ++ pending = sent ++ chunk ∧ sent ++ chunk <+: body
  | .failing _ body _ | .burning _ body | .returned body => received <+: body ∧ pending = []

/-- A list of closes that never closes the writer with `io.EOF` before the reader. -/
def Ordered : Bool → List Closing → Prop
  | _, [] => True
  | _, .reader _ :: rest => Ordered true rest
  | readerClosed, .writer cause :: rest =>
    (cause = .eof → readerClosed = true) ∧ Ordered readerClosed rest

structure Intact (s : Session Digest) (l : Link Digest) : Prop where
  balanced : l.sender.Balanced s.pipe.pending l.receiver.received
  absent : s.senderReady = false → l.sender = .absent
  vacant : s.receiverReady = false → l.receiver = .absent
  ordered : Ordered s.pipe.rerr.isSome l.closing
  failing : ∀ hash body, l.sender = .failing hash body .eof → s.pipe.rerr.isSome = true
  clean : s.pipe.rerr = none → s.pipe.werr = some .eof → l.sender = .returned l.receiver.received

theorem Ordered.readerClosed {closes : List Closing} {readerClosed : Bool}
    (h : Ordered readerClosed closes) : Ordered true closes := by
  induction closes generalizing readerClosed with
  | nil => trivial
  | cons next rest ih =>
    cases next with
    | reader cause => exact h
    | writer cause => exact ⟨fun _ => rfl, ih h.2⟩

theorem ordered_removal (hcause : cause ≠ .eof) (readerClosed : Bool) :
    Ordered readerClosed (removal cause) :=
  ⟨fun heof => absurd heof hcause, trivial⟩

theorem ordered_cleanup (readerClosed : Bool) : Ordered readerClosed cleanup :=
  ⟨fun _ => rfl, trivial⟩

theorem eof_of_or {first : Option Cause} (h : first.or (some cause) = some .eof) :
    first = some .eof ∨ cause = .eof := by
  cases first with
  | none => exact .inr (Option.some.inj h)
  | some earlier => exact .inl h

/-- Only a `Write` in progress offers bytes. -/
theorem Sender.Balanced.writing {sender : Sender Digest} {pending received : List UInt8}
    (h : sender.Balanced pending received) (hoffered : pending ≠ []) :
    ∃ hash body sent chunk, sender = .writing hash body sent chunk := by
  cases sender with
  | writing hash body sent chunk => exact ⟨hash, body, sent, chunk, rfl⟩
  | absent | waiting | failing | burning | returned => exact absurd h.2 hoffered
  | copying => exact absurd h.2.1 hoffered

variable {s : Session Digest} {l : Link Digest} {clock : Nat} {p : Pipe}

/-- A session whose sender has not returned has no clean end. -/
theorem Intact.unclean (h : Intact s l) (hsender : ∀ body, l.sender ≠ .returned body)
    (hrerr : s.pipe.rerr = none) : s.pipe.werr ≠ some .eof :=
  fun hwerr => hsender _ (h.clean hrerr hwerr)

/-- The sender moves on; the reading end stays as it is. -/
theorem Intact.sender (h : Intact s l) {phase : Sender Digest} (pipe : Pipe)
    (hrerr : pipe.rerr = s.pipe.rerr) (hpresent : l.sender ≠ .absent)
    (hbalanced : phase.Balanced pipe.pending l.receiver.received)
    (hfailing : ∀ hash body, phase = .failing hash body .eof → pipe.rerr.isSome = true)
    (hclean : pipe.rerr = none → pipe.werr = some .eof → phase = .returned l.receiver.received) :
    Intact { s with pipe := pipe } { l with sender := phase } where
  balanced := hbalanced
  absent := fun hready => absurd (h.absent hready) hpresent
  vacant := h.vacant
  ordered := by
    show Ordered pipe.rerr.isSome l.closing
    rw [hrerr]
    exact h.ordered
  failing := hfailing
  clean := hclean

/-- A `Send` is in progress. -/
def Sender.sending : Sender Digest → Bool
  | .absent | .returned _ => false
  | .waiting _ _ | .copying _ _ _ | .writing _ _ _ _ | .failing _ _ _ | .burning _ _ => true

theorem Sender.ne_of_sending {sender idle : Sender Digest} (h : sender.sending = true)
    (hidle : idle.sending = false) : sender ≠ idle := by
  rintro rfl
  rw [h] at hidle
  cases hidle

/-- The same with both ends as they are. -/
theorem Intact.phase (h : Intact s l) {phase : Sender Digest} (pending : List UInt8)
    (hsending : l.sender.sending = true)
    (hbalanced : phase.Balanced pending l.receiver.received)
    (hfailing : ∀ hash body, phase = .failing hash body .eof → s.pipe.rerr.isSome = true) :
    Intact { s with pipe.pending := pending } { l with sender := phase } := by
  refine h.sender { s.pipe with pending := pending } rfl (Sender.ne_of_sending hsending rfl)
    hbalanced hfailing fun hrerr hwerr => absurd hwerr (h.unclean ?_ hrerr)
  exact fun body => Sender.ne_of_sending hsending rfl

theorem Intact.receiver (h : Intact s l) (receiver : Receiver Digest)
    (hpresent : l.receiver ≠ .absent) (hreceived : receiver.received = l.receiver.received) :
    Intact s { l with receiver := receiver } where
  balanced := by
    show l.sender.Balanced s.pipe.pending receiver.received
    rw [hreceived]
    exact h.balanced
  absent := h.absent
  vacant := fun hready => absurd (h.vacant hready) hpresent
  ordered := h.ordered
  failing := h.failing
  clean := by
    show _ → _ → l.sender = .returned receiver.received
    rw [hreceived]
    exact h.clean

theorem Intact.closeReader (h : Intact s l) (cause : Cause) :
    Intact { s with pipe := s.pipe.closeReader cause } l := by
  have hclosed : (s.pipe.closeReader cause).rerr.isSome = true := by
    show (s.pipe.rerr.or (some cause)).isSome = true
    cases s.pipe.rerr <;> rfl
  refine ⟨h.balanced, h.absent, h.vacant, ?_, fun _ _ _ => hclosed, ?_⟩
  · show Ordered (s.pipe.closeReader cause).rerr.isSome l.closing
    rw [hclosed]
    exact h.ordered.readerClosed
  · intro hopen
    have hopen : (s.pipe.closeReader cause).rerr = none := hopen
    rw [hopen] at hclosed
    cases hclosed

theorem Intact.closeWriter (h : Intact s l) (cause : Cause)
    (hcause : cause = .eof → s.pipe.rerr.isSome = true) :
    Intact { s with pipe := s.pipe.closeWriter cause } l := by
  refine ⟨h.balanced, h.absent, h.vacant, h.ordered, h.failing, ?_⟩
  intro hopen hwerr
  have hopen : s.pipe.rerr = none := hopen
  rcases eof_of_or hwerr with hearlier | heof
  · exact h.clean hopen hearlier
  · have hclosed := hcause heof
    rw [hopen] at hclosed
    cases hclosed

theorem Intact.beginClose (h : Intact s l) {closes : List Closing}
    (hordered : Ordered s.pipe.rerr.isSome closes) :
    Intact (beginClose closes s l).1 (beginClose closes s l).2 := by
  rw [Streams.beginClose]
  split
  · exact h
  · exact ⟨h.balanced, h.absent, h.vacant, hordered, h.failing, h.clean⟩

theorem Intact.beginCleanup (h : Intact s l) (hash : Digest) :
    Intact (beginCleanup hash s l).1 (beginCleanup hash s l).2 := by
  have hpushed : Intact s { l with cleanups := hash :: l.cleanups } :=
    ⟨h.balanced, h.absent, h.vacant, h.ordered, h.failing, h.clean⟩
  exact hpushed.beginClose (ordered_cleanup _)

/-- A write that fails with `io.EOF` met a closed reader. -/
theorem rerr_of_writeCloseError (h : writeCloseError p = .eof) : p.rerr.isSome = true := by
  rw [writeCloseError] at h
  split at h
  · rename_i hrerr
    rw [hrerr]
    rfl
  · cases h

/-- A read that ends with `io.EOF` met an open reader and a writer closed cleanly. -/
theorem ends_of_readCloseError (h : readCloseError p = .eof) :
    p.rerr = none ∧ p.werr = some .eof := by
  rw [readCloseError] at h
  split at h
  · rename_i hrerr hwerr
    rw [h] at hwerr
    exact ⟨hrerr, hwerr⟩
  · cases h

theorem Intact.session (h : Intact s l) {s' : Session Digest} (hpipe : s'.pipe = s.pipe)
    (hsender : s'.senderReady = s.senderReady) (hreceiver : s'.receiverReady = s.receiverReady) :
    Intact s' l := by
  constructor
  · rw [hpipe]
    exact h.balanced
  · rw [hsender]
    exact h.absent
  · rw [hreceiver]
    exact h.vacant
  · rw [hpipe]
    exact h.ordered
  · rw [hpipe]
    exact h.failing
  · rw [hpipe]
    exact h.clean

/-- **Step lemma**, for the parties of a session. -/
theorem Action.intact {event : Event} {result : Session Digest × Link Digest}
    (hact : Action clock s l event result) (h : Intact s l) : Intact result.1 result.2 := by
  have hbalanced := h.balanced
  cases hact with
  | closeNext hclosing =>
    rename_i next rest
    have hordered := h.ordered
    rw [hclosing] at hordered
    have hrest : Intact s { l with closing := [] } :=
      ⟨h.balanced, h.absent, h.vacant, trivial, h.failing, h.clean⟩
    cases next with
    | reader cause =>
      have hclosed := hrest.closeReader cause
      refine ⟨hclosed.balanced, hclosed.absent, hclosed.vacant, ?_, hclosed.failing, hclosed.clean⟩
      -- the reader is closed from here on
      show Ordered (s.pipe.rerr.or (some cause)).isSome rest
      have hsome : (s.pipe.rerr.or (some cause)).isSome = true := by cases s.pipe.rerr <;> rfl
      rw [hsome]
      exact hordered
    | writer cause =>
      have hclosed := hrest.closeWriter cause hordered.1
      exact ⟨hclosed.balanced, hclosed.absent, hclosed.vacant, hordered.2, hclosed.failing,
        hclosed.clean⟩
  | receiveConnected hat hready =>
    exact h.receiver _ (by rw [hat]; intro hno; cases hno) (by rw [hat]; rfl)
  | receiveClosed hat hdone =>
    exact h.receiver _ (by rw [hat]; intro hno; cases hno) (by rw [hat]; rfl)
  | receiveCancelled hat =>
    rename_i hash
    exact (h.receiver .failed (by rw [hat]; intro hno; cases hno) (by rw [hat]; rfl)).beginCleanup
      hash
  | read n hat hoffered =>
    rename_i hash received
    obtain ⟨hash', body, sent, chunk, hwriting⟩ := hbalanced.writing hoffered
    have hunclean := h.unclean (fun body => by rw [hwriting]; intro hno; cases hno)
    rw [hwriting, hat] at hbalanced
    refine ⟨?_, h.absent, ?_, h.ordered, h.failing,
      fun hrerr hwerr => absurd hwerr (hunclean hrerr)⟩
    · show l.sender.Balanced (s.pipe.pending.drop n) (received ++ s.pipe.pending.take n)
      rw [hwriting]
      refine ⟨?_, hbalanced.2⟩
      rw [List.append_assoc, List.take_append_drop]
      exact hbalanced.1
    · intro hready
      rw [h.vacant hready] at hat
      cases hat
  | readEnd hat hclosed => exact h
  | readerClose cause hat => exact h.closeReader cause
  | cleanup hat =>
    rename_i hash received
    exact h.beginCleanup hash
  | sendConnected hat hready =>
    rw [hat] at hbalanced
    exact h.phase s.pipe.pending (by rw [hat]; rfl)
      ⟨hbalanced.1, hbalanced.2, List.nil_prefix⟩ (fun _ _ hno => by cases hno)
  | sendClosed hat hdone =>
    rw [hat] at hbalanced
    exact h.phase s.pipe.pending (by rw [hat]; rfl)
      ⟨hbalanced.1 ▸ List.nil_prefix, hbalanced.2⟩ (fun _ _ hno => by cases hno)
  | sendCancelled hat =>
    rw [hat] at hbalanced
    exact h.phase s.pipe.pending (by rw [hat]; rfl)
      ⟨hbalanced.1 ▸ List.nil_prefix, hbalanced.2⟩ (fun _ _ hno => by cases hno)
  | sendExpired hat hexpired =>
    rw [hat] at hbalanced
    exact h.phase s.pipe.pending (by rw [hat]; rfl)
      ⟨hbalanced.1 ▸ List.nil_prefix, hbalanced.2⟩ (fun _ _ hno => by cases hno)
  | copyRead chunk hat hsome hbody =>
    rw [hat] at hbalanced
    exact h.phase chunk (by rw [hat]; rfl)
      ⟨by rw [hbalanced.1], hbody⟩ (fun _ _ hno => by cases hno)
  | copyWritten hat hread =>
    rw [hat, hread] at hbalanced
    exact h.phase s.pipe.pending (by rw [hat]; rfl)
      ⟨(List.append_nil _).symm.trans hbalanced.1, hread, hbalanced.2⟩ (fun _ _ hno => by cases hno)
  | writeFailed hat hclosed =>
    rw [hat] at hbalanced
    refine h.phase [] (by rw [hat]; rfl) ⟨?_, rfl⟩ ?_
    · exact (List.prefix_append _ _).trans (hbalanced.1 ▸ hbalanced.2)
    · intro hash body heof
      simp only [Sender.failing.injEq] at heof
      exact rerr_of_writeCloseError heof.2.2
  | bodyFailed text hat =>
    rw [hat] at hbalanced
    exact h.phase s.pipe.pending (by rw [hat]; rfl)
      ⟨hbalanced.1 ▸ hbalanced.2.2, hbalanced.2.1⟩ (fun _ _ hno => by cases hno)
  | closeFailed hat =>
    rename_i hash body cause
    rw [hat] at hbalanced
    have hclosed := h.closeWriter cause fun heof => h.failing hash body (heof ▸ hat)
    exact hclosed.phase s.pipe.pending (by rw [hat]; rfl) hbalanced (fun _ _ hno => by cases hno)
  | sendDone hat =>
    rename_i hash body
    rw [hat] at hbalanced
    refine h.sender (s.pipe.closeWriter .eof) rfl (Sender.ne_of_sending (by rw [hat]; rfl) rfl)
      ⟨?_, hbalanced.2.1⟩ (fun _ _ hno => by cases hno) ?_
    · rw [hbalanced.1]
    · exact fun _ _ => congrArg Sender.returned hbalanced.1.symm

/-! ### The stream as a tape -/

def Link.tape (l : Link Digest) : Tape UInt8 := ⟨l.sender.body, l.receiver.received⟩

def Event.onTape : Event → TapeEvent UInt8
  | .sender body => .accept body
  | .received bytes => .deliver bytes
  | .ended .eof => .finish
  | .sent n => .report n
  | .silent | .receiver | .cleaned | .ended _ => .quiet

theorem tapeStep_quiet {t t' : Tape UInt8} {event : Event} (hevent : event.onTape = .quiet)
    (heq : t' = t) : TapeStep t event.onTape t' := by
  rw [hevent, heq]
  exact .quiet

theorem beginClose_tape (closes : List Closing) (s : Session Digest) (l : Link Digest) :
    (beginClose closes s l).2.tape = l.tape := by
  rw [beginClose]
  split <;> rfl

/-- **Simulation**, for the parties of a session. -/
theorem Action.onTape {event : Event} {result : Session Digest × Link Digest}
    (hact : Action clock s l event result) (h : Intact s l) :
    TapeStep l.tape event.onTape result.2.tape := by
  have hbalanced := h.balanced
  cases hact with
  | closeNext hclosing => exact .quiet
  | receiveConnected hat hready | receiveClosed hat hdone =>
    exact tapeStep_quiet rfl (by simp only [Link.tape, hat, Receiver.received])
  | receiveCancelled hat =>
    refine tapeStep_quiet rfl ((beginClose_tape _ _ _).trans ?_)
    simp only [Link.tape, hat, Receiver.received]
  | read n hat hoffered =>
    rename_i hash received
    obtain ⟨hash', body, sent, chunk, hwriting⟩ := hbalanced.writing hoffered
    rw [hwriting, hat] at hbalanced
    have hbalanced : received ++ s.pipe.pending = sent ++ chunk ∧ sent ++ chunk <+: body :=
      hbalanced
    have htape : l.tape = ⟨some body, received⟩ := by
      simp only [Link.tape, hwriting, hat, Sender.body, Receiver.received]
    have hafter : Link.tape { l with
        receiver := .connected hash (received ++ s.pipe.pending.take n) } =
        ⟨some body, received ++ s.pipe.pending.take n⟩ := by
      simp only [Link.tape, hwriting, Sender.body, Receiver.received]
    rw [htape, hafter]
    refine .deliver (s.pipe.pending.take n) rfl ?_
    -- what is read now is a front part of what is on offer
    have hfront : received ++ s.pipe.pending.take n <+: received ++ s.pipe.pending :=
      (List.prefix_append_right_inj received).mpr (List.take_prefix n _)
    exact hfront.trans (hbalanced.1 ▸ hbalanced.2)
  | readEnd hat hclosed =>
    by_cases heof : readCloseError s.pipe = .eof
    · rw [heof]
      obtain ⟨hrerr, hwerr⟩ := ends_of_readCloseError heof
      refine .finish ?_
      simp only [Link.tape, h.clean hrerr hwerr, Sender.body]
    · refine tapeStep_quiet ?_ rfl
      generalize readCloseError s.pipe = cause at heof
      cases cause with
      | eof => exact absurd rfl heof
      | closedPipe | sessionClosed | sessionBurned | expired | contextEnded | copy => rfl
  | readerClose cause hat => exact .quiet
  | cleanup hat => exact tapeStep_quiet rfl (beginClose_tape _ _ _)
  | sendConnected hat _ | sendClosed hat _ | sendCancelled hat | sendExpired hat _
  | copyRead _ hat _ _ | copyWritten hat _ | writeFailed hat _ | bodyFailed _ hat
  | closeFailed hat =>
    exact tapeStep_quiet rfl (by simp only [Link.tape, hat, Sender.body])
  | sendDone hat =>
    rename_i hash body
    rw [hat] at hbalanced
    have hbalanced : l.receiver.received = body := hbalanced.1
    have htape : Link.tape { l with sender := .returned body } = l.tape := by
      simp only [Link.tape, hat, Sender.body]
    show TapeStep l.tape (.report body.length) (Link.tape { l with sender := .returned body })
    rw [htape]
    refine .report ?_ ?_
    · simp only [Link.tape, hat, Sender.body, hbalanced]
    · simp only [Link.tape, hbalanced]

theorem Action.ready {event : Event} {result : Session Digest × Link Digest}
    (hact : Action clock s l event result) :
    result.1.receiverReady = s.receiverReady ∧ event ≠ .receiver := by
  have hbegin : ∀ closes (l : Link Digest),
      (beginClose closes s l).1.receiverReady = s.receiverReady := by
    intro closes l
    rw [beginClose]
    split <;> rfl
  cases hact with
  | receiveCancelled | cleanup => exact ⟨hbegin _ _, fun hno => by cases hno⟩
  | _ => exact ⟨rfl, fun hno => by cases hno⟩

/-! ### What holds of the relay -/

def Label.onTape (id : Nat) : Label → TapeEvent UInt8
  | .quiet => .quiet
  | .seen owner event => if owner = id then event.onTape else .quiet

/-- A receiver was accepted on session `id`. -/
def World.taken (w : World Digest) (id : Nat) : Bool :=
  match w.coord.heap id with
  | none => false
  | some s => s.receiverReady

structure Good (w : World Digest) : Prop where
  intact : ∀ id s, w.coord.heap id = some s → Intact s (w.links id)
  blank : ∀ id, w.coord.heap id = none → w.links id = Link.fresh
  fresh : ∀ id, w.coord.next ≤ id → w.coord.heap id = none

/-- No stream moves. -/
structure Still (w w' : World Digest) : Prop where
  good : Good w'
  tape : ∀ id, (w'.links id).tape = (w.links id).tape
  taken : ∀ id, w.taken id = true → w'.taken id = true

theorem Still.trans {a b c : World Digest} (hab : Still a b) (hbc : Still b c) : Still a c where
  good := hbc.good
  tape := fun id => (hbc.tape id).trans (hab.tape id)
  taken := fun id h => hbc.taken id (hab.taken id h)

section

variable {w : World Digest} {id other : Nat}

theorem heap_put_self (s : Session Digest) (l : Link Digest) :
    (w.put id s l).coord.heap id = some s :=
  Function.update_self _ _ _

theorem heap_put_of_ne (hne : other ≠ id) (s : Session Digest) (l : Link Digest) :
    (w.put id s l).coord.heap other = w.coord.heap other :=
  Function.update_of_ne hne _ _

theorem links_put_self (s : Session Digest) (l : Link Digest) : (w.put id s l).links id = l :=
  Function.update_self _ _ _

theorem links_put_of_ne (hne : other ≠ id) (s : Session Digest) (l : Link Digest) :
    (w.put id s l).links other = w.links other :=
  Function.update_of_ne hne _ _

theorem taken_put_of_ne (hne : other ≠ id) (s : Session Digest) (l : Link Digest) :
    (w.put id s l).taken other = w.taken other := by
  rw [World.taken, World.taken, heap_put_of_ne hne]

theorem taken_put_self (s : Session Digest) (l : Link Digest) :
    (w.put id s l).taken id = s.receiverReady := by
  rw [World.taken, heap_put_self]

variable {s s' : Session Digest} {l : Link Digest}

theorem Good.put (h : Good w) (hheap : w.coord.heap id = some s) (hintact : Intact s' l) :
    Good (w.put id s' l) := by
  constructor
  · intro other t hother
    by_cases heq : other = id
    · subst heq
      rw [heap_put_self] at hother
      rw [links_put_self, ← Option.some.inj hother]
      exact hintact
    · rw [heap_put_of_ne heq] at hother
      rw [links_put_of_ne heq]
      exact h.intact other t hother
  · intro other hother
    by_cases heq : other = id
    · subst heq
      rw [heap_put_self] at hother
      cases hother
    · rw [heap_put_of_ne heq] at hother
      rw [links_put_of_ne heq]
      exact h.blank other hother
  · intro other hother
    have hnone := h.fresh other hother
    have hne : other ≠ id := by
      intro heq
      rw [heq, hheap] at hnone
      cases hnone
    rw [heap_put_of_ne hne]
    exact hnone

/-- One session changes, its stream does not move. -/
theorem Good.still_put (h : Good w) (hheap : w.coord.heap id = some s) (hintact : Intact s' l)
    (htape : l.tape = (w.links id).tape)
    (hready : s.receiverReady = true → s'.receiverReady = true) :
    Still w (w.put id s' l) := by
  refine ⟨h.put hheap hintact, ?_, ?_⟩
  · intro other
    by_cases heq : other = id
    · subst heq
      rw [links_put_self, htape]
    · rw [links_put_of_ne heq]
  · intro other htaken
    by_cases heq : other = id
    · subst heq
      rw [World.taken, hheap] at htaken
      rw [taken_put_self]
      exact hready htaken
    · rw [taken_put_of_ne heq]
      exact htaken

/-- Only the table changes. -/
theorem Good.still_table (h : Good w) (table : List (Digest × Nat)) :
    Still w { w with coord := { w.coord with table := table } } :=
  ⟨⟨h.intact, h.blank, h.fresh⟩, fun _ => rfl, fun _ htaken => htaken⟩

variable [DecidableEq Digest]

theorem Good.remove (h : Good w) (hash : Digest) (cause : Cause) (hcause : cause ≠ .eof) :
    Still w (w.remove hash cause) := by
  rw [World.remove]
  cases w.coord.find hash with
  | none => exact ⟨h, fun _ => rfl, fun _ htaken => htaken⟩
  | some id =>
    have htable := h.still_table (Table.delete (fun entry => decide (entry.1 = hash)) w.coord.table)
    dsimp only
    split
    · exact htable
    · rename_i s hheap
      refine htable.trans (htable.good.still_put hheap ?_ (beginClose_tape _ _ _) ?_)
      · exact (h.intact id s hheap).beginClose (ordered_removal hcause _)
      · rw [beginClose]
        split <;> exact fun hready => hready

theorem Good.recordFailedAttempt (h : Good w) (hash : Digest) :
    Still w (w.recordFailedAttempt hash) := by
  have hrefl : Still w w := ⟨h, fun _ => rfl, fun _ htaken => htaken⟩
  rw [World.recordFailedAttempt]
  split
  · exact hrefl
  · rename_i id hfound
    split
    · exact hrefl
    · rename_i s hheap
      have hintact := h.intact id s hheap
      split
      · have hburned : Still w (w.put id
            { s with failedAttempts := s.failedAttempts + 1, burned := true } (w.links id)) :=
          h.still_put hheap (hintact.session rfl rfl rfl) rfl fun hready => hready
        exact hburned.trans (hburned.good.remove hash .sessionBurned (fun hno => by cases hno))
      · exact h.still_put hheap (hintact.session rfl rfl rfl) rfl fun hready => hready

end

section

/-- A session that was just made. -/
theorem intact_fresh (hash : Digest) (salt : List UInt8) (now ttl : Nat) :
    Intact (Session.fresh hash salt now ttl) Link.fresh where
  balanced := ⟨rfl, rfl⟩
  absent := fun _ => rfl
  vacant := fun _ => rfl
  ordered := trivial
  failing := fun _ _ hno => by cases hno
  clean := fun _ hno => by cases hno

theorem Good.start (clock : Nat) : Good (World.start clock : World Digest) where
  intact := fun _ _ hno => by cases hno
  blank := fun _ _ => rfl
  fresh := fun _ _ => rfl

/-- What a step does to every stream. -/
structure Moves (w : World Digest) (label : Label) (w' : World Digest) : Prop where
  good : Good w'
  tape : ∀ id, TapeStep (w.links id).tape (label.onTape id) (w'.links id).tape
  taken : ∀ id, w.taken id = true → w'.taken id = true ∧ label ≠ .seen id .receiver
  takes : ∀ id, label = .seen id .receiver → w'.taken id = true

theorem Still.moves {w w' : World Digest} (h : Still w w') : Moves w .quiet w' where
  good := h.good
  tape := by
    intro id
    rw [h.tape id]
    exact .quiet
  taken := fun id htaken => ⟨h.taken id htaken, fun hno => by cases hno⟩
  takes := fun id hno => by cases hno

/-- One session moves. -/
theorem Good.moves_put {w : World Digest} {id : Nat} {s s' : Session Digest} {l : Link Digest}
    {event : Event} (h : Good w) (hheap : w.coord.heap id = some s) (hintact : Intact s' l)
    (htape : TapeStep (w.links id).tape event.onTape l.tape)
    (hready : s.receiverReady = true → s'.receiverReady = true ∧ event ≠ .receiver)
    (htakes : event = .receiver → s'.receiverReady = true) :
    Moves w (.seen id event) (w.put id s' l) := by
  refine ⟨h.put hheap hintact, ?_, ?_, ?_⟩
  · intro other
    by_cases heq : other = id
    · subst heq
      rw [Label.onTape, if_pos rfl, links_put_self]
      exact htape
    · rw [Label.onTape, if_neg (Ne.symm heq), links_put_of_ne heq]
      exact .quiet
  · intro other htaken
    by_cases heq : other = id
    · subst heq
      rw [World.taken, hheap] at htaken
      rw [taken_put_self]
      obtain ⟨hready', hevent⟩ := hready htaken
      exact ⟨hready', fun hno => by cases hno; exact hevent rfl⟩
    · rw [taken_put_of_ne heq]
      exact ⟨htaken, fun hno => by cases hno; exact heq rfl⟩
  · rintro other ⟨⟩
    rw [taken_put_self]
    exact htakes rfl

variable [DecidableEq Digest] {opts : Options} {sha256 : List Char → Digest} {w : World Digest}

theorem Good.init {c : Coordinator Digest} {codes : List (List Char)} {salt : List UInt8}
    {code : List Char} (h : Good w)
    (hinit : w.coord.init opts sha256 codes salt w.clock = .ok (c, code)) :
    Still w { w with coord := c } := by
  obtain ⟨hnext, hheap⟩ := init_ok hinit
  have hunused : w.coord.heap w.coord.next = none := h.fresh _ (Nat.le_refl _)
  refine ⟨⟨?_, ?_, ?_⟩, fun _ => rfl, ?_⟩
  · intro id s hs
    have hs : c.heap id = some s := hs
    rw [hheap] at hs
    by_cases heq : id = w.coord.next
    · rw [heq, Function.update_self] at hs
      rw [← Option.some.inj hs, heq]
      show Intact _ (w.links w.coord.next)
      rw [h.blank _ hunused]
      exact intact_fresh _ _ _ _
    · rw [Function.update_of_ne heq] at hs
      exact h.intact id s hs
  · intro id hnone
    have hnone : c.heap id = none := hnone
    rw [hheap] at hnone
    by_cases heq : id = w.coord.next
    · rw [heq, Function.update_self] at hnone
      cases hnone
    · rw [Function.update_of_ne heq] at hnone
      exact h.blank id hnone
  · intro id hid
    have hid : c.next ≤ id := hid
    show c.heap id = none
    rw [hheap, Function.update_of_ne (by omega)]
    exact h.fresh id (by omega)
  · intro id htaken
    have hne : id ≠ w.coord.next := by
      intro heq
      rw [World.taken, heq, hunused] at htaken
      cases htaken
    rw [World.taken] at htaken ⊢
    show (match c.heap id with | none => false | some s => s.receiverReady) = true
    rw [hheap, Function.update_of_ne hne]
    exact htaken

/-- **Step lemma.** -/
theorem Step.moves {w' : World Digest} {label : Label} (h : Good w)
    (hstep : Step opts sha256 w label w') : Moves w label w' := by
  cases hstep with
  | tick hclock | stop =>
    exact Still.moves ⟨⟨h.intact, h.blank, h.fresh⟩, fun _ => rfl, fun _ htaken => htaken⟩
  | init codes salt hinit => exact (h.init hinit).moves
  | act id hheap hact =>
    have hintact := h.intact id _ hheap
    obtain ⟨hready, hevent⟩ := hact.ready
    exact h.moves_put hheap (hact.intact hintact) (hact.onTape hintact)
      (fun htaken => ⟨hready.trans htaken, hevent⟩) (fun hno => absurd hno hevent)
  | receiveBegin raw hcode hconnect =>
    obtain ⟨s, -, hheap, hfirst, rfl⟩ := connectReceiver_ok hconnect
    rename_i id code
    have hintact := h.intact id s hheap
    have hvacant := hintact.vacant hfirst
    -- nothing was read yet, as no receiver was accepted before
    have hwaiting : Intact { s with receiverReady := true }
        { w.links id with receiver := .waiting (sha256 code) } := by
      refine ⟨?_, hintact.absent, (fun hno => by cases hno), hintact.ordered, hintact.failing, ?_⟩
      · have hbalanced := hintact.balanced
        rw [hvacant] at hbalanced
        exact hbalanced
      · have hclean := hintact.clean
        rw [hvacant] at hclean
        exact hclean
    refine h.moves_put hheap hwaiting (tapeStep_quiet rfl ?_) ?_ (fun _ => rfl)
    · simp only [Link.tape, hvacant, Receiver.received]
    · intro hready
      rw [hfirst] at hready
      cases hready
  | sendBegin raw metadata body hcode hconnect =>
    obtain ⟨s, -, hheap, hfirst, rfl⟩ := connectSender_ok hconnect
    rename_i id code
    have hintact := h.intact id s hheap
    have habsent := hintact.absent hfirst
    have hbalanced := hintact.balanced
    rw [habsent] at hbalanced
    refine h.moves_put hheap ?_ ?_ (fun hready => ⟨hready, fun hno => by cases hno⟩)
      (fun hno => by cases hno)
    · refine ⟨hbalanced, (fun hno => by cases hno), hintact.vacant, hintact.ordered,
        (fun _ _ hno => by cases hno), ?_⟩
      intro hrerr hwerr
      have hreturned := hintact.clean hrerr hwerr
      rw [habsent] at hreturned
      cases hreturned
    · have hblank : (w.links id).tape = ⟨none, (w.links id).receiver.received⟩ := by
        simp only [Link.tape, habsent, Sender.body]
      rw [hblank]
      exact .accept body rfl
  | sendRefused raw metadata hcode hconnect =>
    rcases connectSender_error hconnect with rfl | ⟨id, s, -, hheap, -, rfl⟩
    · exact Still.moves ⟨h, fun _ => rfl, fun _ htaken => htaken⟩
    · have hwritten : Intact { s with
          kind := metadata.kind
          encryptedFilename := metadata.encryptedFilename } (w.links id) :=
        (h.intact id s hheap).session rfl rfl rfl
      have hput := h.still_put hheap hwritten rfl fun hready => hready
      rw [World.put, Function.update_eq_self] at hput
      exact hput.moves
  | cleanupBurn id hheap hclosed hat =>
    rename_i s hash front back
    have hintact := h.intact id s hheap
    have hpopped := h.still_put hheap
      (⟨hintact.balanced, hintact.absent, hintact.vacant, hintact.ordered, hintact.failing,
        hintact.clean⟩ : Intact s { w.links id with cleanups := front ++ back }) rfl
      fun hready => hready
    exact (hpopped.trans (hpopped.good.remove _ .sessionClosed (fun hno => by cases hno))).moves
  | sendBurn id hheap hat =>
    rename_i s hash body
    have hintact := h.intact id _ hheap
    have hbalanced := hintact.balanced
    rw [hat] at hbalanced
    have hreturned : Intact s { w.links id with sender := .returned body } :=
      hintact.phase s.pipe.pending (by rw [hat]; rfl) hbalanced (fun _ _ hno => by cases hno)
    have hput := h.still_put hheap hreturned
      (by simp only [Link.tape, hat, Sender.body]) fun hready => hready
    exact (hput.trans (hput.good.remove _ .sessionClosed (fun hno => by cases hno))).moves
  | recordFailed raw hcode => exact (h.recordFailedAttempt _).moves
  | cleanEntry now hash hnow hfound hlapsed =>
    exact (h.remove hash _ (fun hno => by cases hno)).moves
  | closeEntry hash hstopped => exact (h.remove hash _ (fun hno => by cases hno)).moves

theorem Good.step {w' : World Digest} {label : Label} (h : Good w)
    (hstep : Step opts sha256 w label w') : Good w' :=
  (hstep.moves h).good

/-- **Refinement.**  The stream of a session is a run of a tape. -/
theorem tape_of_run {trace : List (Label × World Digest)}
    (hrun : Run (Step opts sha256) (World.start clock) trace w) (id : Nat) :
    Run TapeStep Tape.blank (trace.map fun entry => (entry.1.onTape id, (entry.2.links id).tape))
      (w.links id).tape := by
  refine Run.simulate Good (fun w => (w.links id).tape) (Label.onTape id)
    (Good.start clock) ?_ ?_ hrun
  · exact fun w label w' h hstep => h.step hstep
  · exact fun w label w' h hstep => (hstep.moves h).tape id

end

end

/-! ### What the parties of a session see -/

/-- The bodies of the `Send`s accepted on session `id`. -/
def Label.bodies (id : Nat) : Label → List (List UInt8)
  | .seen owner (.sender body) => if owner = id then [body] else []
  | _ => []

/-- The receivers accepted on it. -/
def Label.receivers (id : Nat) : Label → List Unit
  | .seen owner .receiver => if owner = id then [()] else []
  | _ => []

/-- The bytes its receiver reads. -/
def Label.bytes (id : Nat) : Label → List UInt8
  | .seen owner (.received bytes) => if owner = id then bytes else []
  | _ => []

theorem onTape_accepted (id : Nat) (label : Label) :
    (label.onTape id).accepted = label.bodies id := by
  cases label with
  | quiet => rfl
  | seen owner event =>
    by_cases howner : owner = id
    · cases event with
      | ended cause => cases cause <;> simp only [Label.onTape, howner, if_true] <;> rfl
      | _ =>
        simp only [Label.onTape, Label.bodies, howner, if_true]
        rfl
    · cases event <;> simp only [Label.onTape, Label.bodies, howner, if_false] <;> rfl

theorem onTape_chunk (id : Nat) (label : Label) : (label.onTape id).chunk = label.bytes id := by
  cases label with
  | quiet => rfl
  | seen owner event =>
    by_cases howner : owner = id
    · cases event with
      | ended cause => cases cause <;> simp only [Label.onTape, howner, if_true] <;> rfl
      | _ =>
        simp only [Label.onTape, Label.bytes, howner, if_true]
        rfl
    · cases event <;> simp only [Label.onTape, Label.bytes, howner, if_false] <;> rfl

/-- The history of a stream, read off the tape. -/
theorem onTape_history {Digest : Type} (id : Nat) (trace : List (Label × World Digest)) :
    (labels (trace.map fun entry => (entry.1.onTape id, (entry.2.links id).tape))).flatMap
        TapeEvent.accepted = (labels trace).flatMap (Label.bodies id) ∧
    (labels (trace.map fun entry => (entry.1.onTape id, (entry.2.links id).tape))).flatMap
        TapeEvent.chunk = (labels trace).flatMap (Label.bytes id) := by
  have hlabels : labels (trace.map fun entry => (entry.1.onTape id, (entry.2.links id).tape)) =
      (labels trace).map (Label.onTape id) := by
    rw [labels, labels, List.map_map, List.map_map]
    rfl
  rw [hlabels, List.flatMap_map, List.flatMap_map]
  exact ⟨by simp only [onTape_accepted], by simp only [onTape_chunk]⟩

section

variable {Digest : Type} [DecidableEq Digest] {opts : Options} {sha256 : List Char → Digest}

theorem receivers_le_one {clock : Nat} {trace : List (Label × World Digest)} {w : World Digest}
    (hrun : Run (Step opts sha256) (World.start clock) trace w) (id : Nat) :
    ((labels trace).flatMap (Label.receivers id)).length ≤ 1 := by
  have hmark : ∀ label : Label, label.receivers id ≠ [] → label = .seen id .receiver := by
    intro label hmark
    match label, hmark with
    | .seen owner .receiver, hmark =>
      rw [Label.receivers] at hmark
      split at hmark
      · rename_i howner
        rw [howner]
      · exact absurd rfl hmark
  refine Run.count_le_one Good (fun w => w.taken id = true) (Label.receivers id) (Good.start clock)
    (fun w label w' h hstep => h.step hstep) ?_ ?_ ?_ ?_ hrun
  · intro w label w' _ _
    by_cases hnone : label.receivers id = []
    · rw [hnone]
      exact Nat.zero_le 1
    · rw [hmark label hnone, Label.receivers, if_pos rfl]
      exact Nat.le_refl 1
  · intro w label w' h hstep htaken
    by_contra hsome
    exact ((hstep.moves h).taken id htaken).2 (hmark label hsome)
  · intro w label w' h hstep hsome
    exact (hstep.moves h).takes id (hmark label hsome)
  · intro w label w' h hstep htaken
    exact ((hstep.moves h).taken id htaken).1

/-- **Stream integrity.**  In every run of the relay, for every session: one receiver and
one sender are accepted at most, and the bytes read are a front part of that sender's
body; when a read returns a clean end of stream, all of the body has been read; and when
`Send` returns without an error, all of the body has been read and its length is the
number returned. -/
theorem stream_integrity {clock : Nat} {trace : List (Label × World Digest)} {w : World Digest}
    (hrun : Run (Step opts sha256) (World.start clock) trace w) (id : Nat) :
    ((labels trace).flatMap (Label.receivers id)).length ≤ 1 ∧
    ((labels trace).flatMap (Label.bodies id)).length ≤ 1 ∧
    (labels trace).flatMap (Label.bytes id) <+: ((labels trace).flatMap (Label.bodies id)).flatten ∧
    (∀ front after back, trace = front ++ (.seen id (.ended .eof), after) :: back →
      (labels front).flatMap (Label.bodies id) = [(labels front).flatMap (Label.bytes id)]) ∧
    (∀ front n after back, trace = front ++ (.seen id (.sent n), after) :: back →
      (labels front).flatMap (Label.bodies id) = [(labels front).flatMap (Label.bytes id)] ∧
      n = ((labels front).flatMap (Label.bytes id)).length) := by
  have htape := tape_of_run hrun id
  have hintegrity := Tape.integrity htape
  rw [(onTape_history id trace).1, (onTape_history id trace).2] at hintegrity
  refine ⟨receivers_le_one hrun id, hintegrity.1, hintegrity.2, ?_, ?_⟩
  · rintro front after back rfl
    rw [List.map_append, List.map_cons] at htape
    have hwhole := (Tape.whole htape (.inl (by rw [Label.onTape, if_pos rfl]; rfl))).1
    rw [(onTape_history id front).1, (onTape_history id front).2] at hwhole
    exact hwhole
  · rintro front n after back rfl
    have hevent : Label.onTape id (.seen id (.sent n)) = .report n := by
      rw [Label.onTape, if_pos rfl]
      rfl
    rw [List.map_append, List.map_cons] at htape
    obtain ⟨hwhole, hcount⟩ := Tape.whole htape (.inr ⟨n, hevent⟩)
    rw [(onTape_history id front).1, (onTape_history id front).2] at hwhole
    refine ⟨hwhole, ?_⟩
    rw [← (onTape_history id front).2]
    exact hcount n hevent

end

/-- A body of two bytes, read one at a time. -/
theorem stream_integrity_two_bytes :
    ∃ (trace : List (Label × World (List Char))) (w : World (List Char)),
      Run (Step (newOptions 0 0 0) id) (World.start 0) trace w ∧
      labels trace = [.quiet, .seen 0 .receiver, .seen 0 (.sender [1, 2]), .seen 0 .silent,
        .seen 0 .silent, .seen 0 .silent, .seen 0 (.received [1]), .seen 0 (.received [2]),
        .seen 0 .silent, .seen 0 (.sent 2), .seen 0 (.ended .eof)] ∧
      (labels trace).flatMap (Label.bytes 0) <+:
      ((labels trace).flatMap (Label.bodies 0)).flatten := by
  have hrun : Run (Step (newOptions 0 0 0) id) (World.start 0) _ _ :=
    ((((((((((Run.nil.snoc (.init [sampleCode] [] rfl)).snoc
      (.receiveBegin "123456" normalizeCode_sample rfl)).snoc
      (.sendBegin "123456" ⟨"text", ""⟩ [1, 2] normalizeCode_sample rfl)).snoc
      (.act 0 rfl (.receiveConnected rfl rfl))).snoc
      (.act 0 rfl (.sendConnected rfl rfl))).snoc
      (.act 0 rfl (.copyRead [1, 2] rfl (by decide) (by decide)))).snoc
      (.act 0 rfl (.read 1 rfl (by decide)))).snoc
      (.act 0 rfl (.read 1 rfl (by decide)))).snoc
      (.act 0 rfl (.copyWritten rfl rfl))).snoc
      (.act 0 rfl (.sendDone rfl))).snoc
      (.act 0 rfl (.readEnd rfl rfl))
  exact ⟨_, _, hrun, rfl, (stream_integrity hrun 0).2.2.1⟩

end Streams
end Relay
end FlickDrop
