import FlickDrop.Relay.Isolation

/-!
# How the two parties of a session meet

Each party is accepted once, in a locked section, and waits in a `select` for the other
one.  Two things are expected of the meeting: the receiver is told the metadata of the
`Send` whose body it reads, and nobody meets on a session that has expired.  Neither is
enforced where the parties are accepted: `Send` writes its metadata before it knows
whether it is the first, and neither `Send` nor `Receive` compares the clock with
`expiresAt` when it finds its session in the table.

A step is looked at as a pair of states.  What it does to a session and what it does to a
handler are said once, in `Step.meeting` and `Step.call`; the rest follows from them.
-/

namespace FlickDrop
namespace Relay

open Foundations

section

variable {Digest : Type}

def Session.metadata (s : Session Digest) : SessionMetadata := ⟨s.kind, s.encryptedFilename⟩

/-- The session a handler sends to. -/
def Call.sendsTo : Call Digest → Option Nat
  | .sending _ id | .copying _ id _ | .writing _ id _ _ | .sendBurning _ id => some id
  | .waiting _ _ | .receiving _ _ | .streaming _ _ _ _ _ | .closing _ _ _ | .burning _ _ _
  | .failed _ _ => none

/-- The session into whose pipe a handler copies its body. -/
def Call.pipes : Call Digest → Option Nat
  | .copying _ id _ | .writing _ id _ _ => some id
  | .sending _ _ | .sendBurning _ _ | .waiting _ _ | .receiving _ _ | .streaming _ _ _ _ _
  | .closing _ _ _ | .burning _ _ _ | .failed _ _ => none

/-- The session whose sender a handler waits for. -/
def Call.awaits : Call Digest → Option Nat
  | .receiving _ id => some id
  | .waiting _ _ | .streaming _ _ _ _ _ | .closing _ _ _ | .burning _ _ _ | .failed _ _
  | .sending _ _ | .copying _ _ _ | .writing _ _ _ _ | .sendBurning _ _ => none

/-- What `Receive` returned, and for which session. -/
def Call.told : Call Digest → Option (Nat × SessionMetadata)
  | .streaming _ id _ metadata _ => some (id, metadata)
  | .waiting _ _ | .receiving _ _ | .closing _ _ _ | .burning _ _ _ | .failed _ _
  | .sending _ _ | .copying _ _ _ | .writing _ _ _ _ | .sendBurning _ _ => none

/-- What the meeting depends on. -/
def Session.meeting (s : Session Digest) : Bool × Bool × SessionMetadata × Nat :=
  (s.receiverReady, s.senderReady, s.metadata, s.expiresAt)

/-- No session's meeting is affected. -/
def SameMeetings (c c' : Coordinator Digest) : Prop :=
  ∀ id, (c'.heap id).map Session.meeting = (c.heap id).map Session.meeting

theorem SameMeetings.refl (c : Coordinator Digest) : SameMeetings c c := fun _ => rfl

theorem SameMeetings.trans {a b c : Coordinator Digest} (hab : SameMeetings a b)
    (hbc : SameMeetings b c) : SameMeetings a c :=
  fun id => (hbc id).trans (hab id)

theorem sameMeetings_modify (c : Coordinator Digest) (target : Nat)
    {change : Session Digest → Session Digest} (hchange : ∀ s, (change s).meeting = s.meeting) :
    SameMeetings c (c.modify target change) := by
  intro id
  by_cases heq : id = target
  · subst heq
    have hheap : (c.modify id change).heap id = (c.heap id).map change := Function.update_self _ _ _
    rw [hheap, Option.map_map]
    congr 1
    exact funext hchange
  · rw [show (c.modify target change).heap id = c.heap id from Function.update_of_ne heq _ _]

theorem sameMeetings_foldl (body : Coordinator Digest → Digest × Nat → Coordinator Digest)
    (hbody : ∀ c entry, SameMeetings c (body c entry)) (entries : List (Digest × Nat))
    (c : Coordinator Digest) : SameMeetings c (entries.foldl body c) := by
  induction entries generalizing c with
  | nil => exact SameMeetings.refl c
  | cons entry rest ih => exact (hbody c entry).trans (ih (body c entry))

/-- The heap of `c'` has session `s` at `id` and is otherwise as `c`. -/
def Puts (c c' : Coordinator Digest) (id : Nat) (s : Session Digest) : Prop :=
  c'.heap = Function.update c.heap id (some s)

theorem Puts.self {c c' : Coordinator Digest} {id : Nat} {s : Session Digest} (h : Puts c c' id s) :
    c'.heap id = some s := by
  rw [h, Function.update_self]

theorem Puts.other {c c' : Coordinator Digest} {id other : Nat} {s : Session Digest}
    (h : Puts c c' id s) (hne : other ≠ id) : c'.heap other = c.heap other := by
  rw [h, Function.update_of_ne hne]

theorem sameMeetings_onPipe [DecidableEq Digest] (w : World Digest) (id : Nat)
    (change : Pipe → Pipe) : SameMeetings w.coord (w.onPipe id change).coord :=
  sameMeetings_modify w.coord id fun _ => rfl

theorem meeting_close (cause : Cause) (s : Session Digest) :
    (Session.close cause s).meeting = s.meeting := by
  rw [Session.close]
  split <;> rfl

theorem meeting_cleanup (s : Session Digest) : (Session.cleanup s).meeting = s.meeting := by
  rw [Session.cleanup]
  split <;> rfl

variable [DecidableEq Digest]

theorem sameMeetings_removeLocked (c : Coordinator Digest) (hash : Digest) (cause : Cause) :
    SameMeetings c (c.removeLocked hash cause) := by
  rw [Coordinator.removeLocked]
  split
  · exact SameMeetings.refl c
  · exact sameMeetings_modify _ _ (meeting_close cause)

theorem sameMeetings_cleanExpired (c : Coordinator Digest) (now : Nat) :
    SameMeetings c (c.cleanExpired now) := by
  refine sameMeetings_foldl _ ?_ c.table c
  intro c entry
  split
  · exact sameMeetings_removeLocked c entry.1 .expired
  · exact SameMeetings.refl c

theorem sameMeetings_closeAll (c : Coordinator Digest) : SameMeetings c c.close := by
  rw [Coordinator.close]
  split
  · exact SameMeetings.refl c
  · exact sameMeetings_foldl _ (fun c entry => sameMeetings_removeLocked c entry.1 .sessionClosed)
      c.table { c with stopped := true }

theorem sameMeetings_recordFailedAttempt (c : Coordinator Digest) (hash : Digest) :
    SameMeetings c (c.recordFailedAttempt hash).1 := by
  rw [Coordinator.recordFailedAttempt]
  split
  · exact SameMeetings.refl c
  · rename_i id hfound
    have hcounted : SameMeetings c
        (c.modify id fun s => { s with failedAttempts := s.failedAttempts + 1 }) :=
      sameMeetings_modify c id fun _ => rfl
    dsimp only
    split
    · exact hcounted
    · split
      · refine (hcounted.trans ?_).trans (sameMeetings_removeLocked _ hash .sessionBurned)
        exact sameMeetings_modify _ id fun _ => rfl
      · exact hcounted

/-! ### What a step does to the sessions -/

/-- The locked section of `Send` accepts the call `pid`, which passes `metadata`. -/
structure AcceptsSender (w w' : World Digest) (pid id : Nat) (metadata : SessionMetadata) :
    Prop where
  free : w.calls pid = none
  connected : ∃ hash, w.coord.connectSender hash metadata = (w'.coord, .ok id) ∧
    w'.calls pid = some (.sending hash id)

/-- The locked section of `Receive` accepts the call `pid`. -/
structure AcceptsReceiver (w w' : World Digest) (pid id : Nat) : Prop where
  free : w.calls pid = none
  connected : ∃ hash, w.coord.connectReceiver hash = (w'.coord, .ok id) ∧
    w'.calls pid = some (.receiving hash id)

/-- A `Receive` or `Send` is called with a code that leads to session `id`. -/
def World.Calls (w : World Digest) (label : Label Digest) (id : Nat) : Prop :=
  ∃ hash, label.called = some hash ∧ w.coord.find hash = some id

/-- What a step can do to the meetings. -/
inductive Meeting (w : World Digest) (label : Label Digest) (w' : World Digest) : Prop
  | kept (hsame : SameMeetings w.coord w'.coord)
  /-- `Init` makes a session -/
  | created (id : Nat) (s' : Session Digest) (hnone : w.coord.heap id = none)
      (hreceiver : s'.receiverReady = false) (hsender : s'.senderReady = false)
      (hputs : Puts w.coord w'.coord id s')
  | receiver (id pid : Nat) (s : Session Digest) (hs : w.coord.heap id = some s)
      (hcalls : w.Calls label id) (haccepts : AcceptsReceiver w w' pid id)
      (hputs : Puts w.coord w'.coord id { s with receiverReady := true })
  | sender (id pid : Nat) (metadata : SessionMetadata) (s : Session Digest)
      (hs : w.coord.heap id = some s) (hcalls : w.Calls label id)
      (haccepts : AcceptsSender w w' pid id metadata) (hfirst : s.senderReady = false)
      (hputs : Puts w.coord w'.coord id { s with
        kind := metadata.kind
        encryptedFilename := metadata.encryptedFilename
        senderReady := true })
  /-- a second sender is turned away, with its metadata written -/
  | turnedAway (id : Nat) (hash : Digest) (metadata : SessionMetadata) (owner : Option Nat)
      (s : Session Digest) (hs : w.coord.heap id = some s)
      (hlabel : label = .rejectedSend hash metadata owner) (hfound : w.coord.find hash = some id)
      (hsecond : s.senderReady = true)
      (hputs : Puts w.coord w'.coord id { s with
        kind := metadata.kind
        encryptedFilename := metadata.encryptedFilename })

variable {opts : Options} {sha256 : List Char → Digest} {w w' : World Digest} {label : Label Digest}

/-- **Inversion**, for sessions. -/
theorem Step.meeting (hstep : Step opts sha256 w label w') (hsound : Sound w.coord) :
    Meeting w label w' := by
  cases hstep with
  | tick hclock => exact .kept (SameMeetings.refl w.coord)
  | init codes salt hinit =>
    obtain ⟨-, hheap⟩ := init_ok hinit
    exact .created w.coord.next _ (hsound.fresh _ (Nat.le_refl _)) rfl rfl hheap
  | clean now hnow => exact .kept (sameMeetings_cleanExpired _ now)
  | close => exact .kept (sameMeetings_closeAll _)
  | receiveBegin pid raw hfree hcode hconnect =>
    rename_i c id code
    obtain ⟨s, hfound, hs, -, hc⟩ := connectReceiver_ok hconnect
    exact .receiver id pid s hs ⟨_, rfl, hfound⟩
      ⟨hfree, sha256 code, hconnect, Function.update_self _ _ _⟩ (congrArg Coordinator.heap hc)
  | receiveRefused pid raw hfree hcode hconnect =>
    obtain rfl := connectReceiver_error hconnect
    exact .kept (SameMeetings.refl w.coord)
  | cleanupClose pid hat => exact .kept (sameMeetings_modify _ _ meeting_cleanup)
  | cleanupBurn pid hat | sendBurn pid hat => exact .kept (sameMeetings_removeLocked _ _ _)
  | recordFailed pid hat => exact .kept (sameMeetings_recordFailedAttempt _ _)
  | sendBegin pid raw metadata hfree hcode hconnect =>
    rename_i c id code
    obtain ⟨s, hfound, hs, hfirst, hc⟩ := connectSender_ok hconnect
    exact .sender id pid metadata s hs ⟨_, rfl, hfound⟩
      ⟨hfree, sha256 code, hconnect, Function.update_self _ _ _⟩ hfirst
      (congrArg Coordinator.heap hc)
  | sendRefused raw metadata hcode hconnect =>
    rcases connectSender_error hconnect with rfl | ⟨id, s, hfound, hs, hsecond, hc⟩
    · exact .kept (SameMeetings.refl w.coord)
    · exact .turnedAway id _ metadata _ s hs rfl hfound hsecond (congrArg Coordinator.heap hc)
  | read pid n =>
    exact .kept (sameMeetings_onPipe w _ fun p => { p with pending := p.pending.drop n })
  | copyRead pid chunk => exact .kept (sameMeetings_onPipe w _ fun p => { p with pending := chunk })
  | readEnd | sendCancelled | sendDone | sendExpired | copyFailed =>
    exact .kept (sameMeetings_onPipe w _ _)
  | waitBegin | waitEnd | receiveConnected | receiveClosed | receiveCancelled | receiveExpired
  | sendConnected | sendClosed | copyWritten => exact .kept (SameMeetings.refl w.coord)

/-! ### What a step does to the handlers -/

/-- Where a handler that is in flight after a step comes from. -/
structure Next (w w' : World Digest) (pid : Nat) (call : Call Digest) : Prop where
  sends : ∀ id, call.sendsTo = some id →
    (∃ old, w.calls pid = some old ∧ old.sendsTo = some id) ∨
      ∃ metadata, AcceptsSender w w' pid id metadata
  awaits : ∀ id, call.awaits = some id →
    (∃ old, w.calls pid = some old ∧ old.awaits = some id) ∨ AcceptsReceiver w w' pid id
  told : ∀ id metadata, call.told = some (id, metadata) →
    (∃ old, w.calls pid = some old ∧ old.told = some (id, metadata)) ∨
      ∃ old s, w.calls pid = some old ∧ old.awaits = some id ∧ w.coord.heap id = some s ∧
        s.senderReady = true ∧ metadata = s.metadata
  pipes : ∀ id, call.pipes = some id →
    (∃ old, w.calls pid = some old ∧ old.pipes = some id) ∨
      ∃ s, w.coord.heap id = some s ∧ s.receiverReady = true

theorem Next.same {pid : Nat} {call : Call Digest} (hat : w.calls pid = some call) :
    Next w w' pid call :=
  ⟨fun _ h => .inl ⟨call, hat, h⟩, fun _ h => .inl ⟨call, hat, h⟩, fun _ _ h => .inl ⟨call, hat, h⟩,
    fun _ h => .inl ⟨call, hat, h⟩⟩

/-- The handler neither sends nor receives. -/
theorem Next.idle {pid : Nat} {call : Call Digest} (hsends : call.sendsTo = none)
    (hawaits : call.awaits = none) (htold : call.told = none) (hpipes : call.pipes = none) :
    Next w w' pid call := by
  refine ⟨fun id h => ?_, fun id h => ?_, fun id metadata h => ?_, fun id h => ?_⟩
  · rw [hsends] at h
    cases h
  · rw [hawaits] at h
    cases h
  · rw [htold] at h
    cases h
  · rw [hpipes] at h
    cases h

/-- The handler goes on with what it sends. -/
theorem Next.goto {pid : Nat} {old call : Call Digest} (hat : w.calls pid = some old)
    (hsends : call.sendsTo = old.sendsTo) (hawaits : call.awaits = none) (htold : call.told = none)
    (hpipes : call.pipes = none ∨ call.pipes = old.pipes) : Next w w' pid call := by
  refine ⟨fun id h => .inl ⟨old, hat, hsends ▸ h⟩, fun id h => ?_, fun id metadata h => ?_,
    fun id h => ?_⟩
  · rw [hawaits] at h
    cases h
  · rw [htold] at h
    cases h
  · rcases hpipes with hnone | hsame
    · rw [hnone] at h
      cases h
    · exact .inl ⟨old, hat, hsame ▸ h⟩

/-- One handler moves. -/
theorem next_setCall {v : World Digest} {pid q : Nat} {next : Option (Call Digest)}
    {call : Call Digest} (hcalls : v.calls = w.calls)
    (hnext : ∀ new, next = some new → Next w (v.setCall pid next) pid new)
    (hat : (v.setCall pid next).calls q = some call) : Next w (v.setCall pid next) q call := by
  have hat : Function.update v.calls pid next q = some call := hat
  by_cases heq : q = pid
  · subst heq
    rw [Function.update_self] at hat
    exact hnext call hat
  · rw [Function.update_of_ne heq, hcalls] at hat
    exact .same hat

/-- **Inversion**, for handlers. -/
theorem Step.call (hstep : Step opts sha256 w label w') {q : Nat} {call : Call Digest}
    (hcall : w'.calls q = some call) : Next w w' q call := by
  cases hstep with
  | tick | init | clean | close | sendRefused => exact .same hcall
  | waitBegin pid raw hfree hcode hfound =>
    refine next_setCall rfl ?_ hcall
    rintro _ ⟨⟩
    exact .idle rfl rfl rfl rfl
  | waitEnd pid hat | recordFailed pid hat | sendBurn pid hat | sendDone pid hat =>
    refine next_setCall rfl ?_ hcall
    rintro _ ⟨⟩
  | sendClosed pid hat hheap hdone =>
    refine next_setCall rfl ?_ hcall
    rintro _ ⟨⟩
  | receiveBegin pid raw hfree hcode hconnect =>
    refine next_setCall rfl ?_ hcall
    rintro _ ⟨⟩
    refine ⟨(fun _ h => by cases h), ?_, (fun _ _ h => by cases h), (fun _ h => by cases h)⟩
    rintro _ ⟨⟩
    exact .inr ⟨hfree, _, hconnect, Function.update_self _ _ _⟩
  | receiveRefused pid raw hfree hcode hconnect =>
    refine next_setCall rfl ?_ hcall
    rintro _ ⟨⟩
    exact .idle rfl rfl rfl rfl
  | receiveConnected pid hat hheap hready =>
    refine next_setCall rfl ?_ hcall
    rintro _ ⟨⟩
    refine ⟨(fun _ h => by cases h), (fun _ h => by cases h), ?_, (fun _ h => by cases h)⟩
    rintro _ _ ⟨⟩
    exact .inr ⟨_, _, hat, rfl, hheap, hready, rfl⟩
  | receiveClosed pid hat | receiveCancelled pid hat | receiveExpired pid hat
  | readEnd pid hat | cleanupClose pid hat =>
    refine next_setCall rfl ?_ hcall
    rintro _ ⟨⟩
    exact .idle rfl rfl rfl rfl
  | cleanupBurn pid hat =>
    refine next_setCall rfl ?_ hcall
    intro new hnew
    split at hnew
    · cases hnew
      exact .idle rfl rfl rfl rfl
    · cases hnew
  | read pid n hat hheap hopen =>
    refine next_setCall rfl ?_ hcall
    rintro _ ⟨⟩
    refine ⟨(fun _ h => by cases h), (fun _ h => by cases h), ?_, (fun _ h => by cases h)⟩
    rintro _ _ ⟨⟩
    exact .inl ⟨_, hat, rfl⟩
  | sendBegin pid raw metadata hfree hcode hconnect =>
    refine next_setCall rfl ?_ hcall
    rintro _ ⟨⟩
    refine ⟨?_, (fun _ h => by cases h), (fun _ _ h => by cases h), (fun _ h => by cases h)⟩
    rintro _ ⟨⟩
    exact .inr ⟨metadata, hfree, _, hconnect, Function.update_self _ _ _⟩
  | sendConnected pid hat hheap hready =>
    refine next_setCall rfl ?_ hcall
    rintro _ ⟨⟩
    refine ⟨?_, (fun _ h => by cases h), (fun _ _ h => by cases h), ?_⟩
    · rintro _ ⟨⟩
      exact .inl ⟨_, hat, rfl⟩
    · rintro _ ⟨⟩
      exact .inr ⟨_, hheap, hready⟩
  | sendCancelled pid hat | sendExpired pid hat =>
    refine next_setCall rfl ?_ hcall
    rintro _ ⟨⟩
    exact .goto hat rfl rfl rfl (.inl rfl)
  | copyWritten pid hat =>
    refine next_setCall rfl ?_ hcall
    rintro _ ⟨⟩
    exact .goto hat rfl rfl rfl (.inr rfl)
  | copyRead pid chunk hat hheap hopen =>
    refine next_setCall rfl ?_ hcall
    rintro _ ⟨⟩
    exact .goto hat rfl rfl rfl (.inr rfl)
  | copyFailed pid text hat hmoving =>
    refine next_setCall rfl ?_ hcall
    rintro _ ⟨⟩
    rcases hmoving with ⟨sent, rfl⟩ | ⟨sent, chunk, rfl⟩
    · exact .goto hat rfl rfl rfl (.inl rfl)
    · exact .goto hat rfl rfl rfl (.inl rfl)

/-- A step starts one handler at most. -/
theorem Step.one_call (hstep : Step opts sha256 w label w') :
    ∃ pid, ∀ q, q ≠ pid → w'.calls q = w.calls q := by
  cases hstep with
  | tick | init | clean | close | sendRefused => exact ⟨0, fun _ _ => rfl⟩
  | _ => exact ⟨_, fun q hne => Function.update_of_ne hne _ _⟩

theorem Step.started_unique (hstep : Step opts sha256 w label w') {p q : Nat}
    {new new' : Call Digest}
    (hp : w.calls p = none) (hp' : w'.calls p = some new) (hq : w.calls q = none)
    (hq' : w'.calls q = some new') : p = q := by
  obtain ⟨pid, hsame⟩ := hstep.one_call
  have hmoved : ∀ r call, w.calls r = none → w'.calls r = some call → r = pid := by
    intro r call hr hr'
    by_contra hne
    rw [hsame r hne, hr] at hr'
    cases hr'
  rw [hmoved p new hp hp', hmoved q new' hq hq']

/-! ### One session -/

/-- What a step can do to the meeting on an existing session. -/
inductive Met (w : World Digest) (label : Label Digest) (w' : World Digest) (id : Nat)
    (s : Session Digest) : Session Digest → Prop
  | kept {s' : Session Digest} (hsame : s'.meeting = s.meeting) : Met w label w' id s s'
  | receiver {pid : Nat} (hcalls : w.Calls label id) (haccepts : AcceptsReceiver w w' pid id) :
      Met w label w' id s { s with receiverReady := true }
  | sender {pid : Nat} {metadata : SessionMetadata} (hcalls : w.Calls label id)
      (haccepts : AcceptsSender w w' pid id metadata) (hfirst : s.senderReady = false) :
      Met w label w' id s { s with
        kind := metadata.kind
        encryptedFilename := metadata.encryptedFilename
        senderReady := true }
  | turnedAway {hash : Digest} {metadata : SessionMetadata} {owner : Option Nat}
      (hlabel : label = .rejectedSend hash metadata owner) (hfound : w.coord.find hash = some id)
      (hsecond : s.senderReady = true) :
      Met w label w' id s { s with
        kind := metadata.kind
        encryptedFilename := metadata.encryptedFilename }

variable {id clock pid : Nat} {s s' : Session Digest}

/-- Sessions stay, and change in one of four ways. -/
theorem Meeting.met (h : Meeting w label w') (hs : w.coord.heap id = some s) :
    ∃ s', w'.coord.heap id = some s' ∧ Met w label w' id s s' := by
  have hother : ∀ {target t}, Puts w.coord w'.coord target t → id ≠ target →
      ∃ s', w'.coord.heap id = some s' ∧ Met w label w' id s s' :=
    fun hputs hne => ⟨s, (hputs.other hne).trans hs, .kept rfl⟩
  cases h with
  | kept hsame =>
    have hsame := hsame id
    rw [hs, Option.map_some] at hsame
    obtain ⟨s', hs', heq⟩ := Option.map_eq_some_iff.mp hsame
    exact ⟨s', hs', .kept heq⟩
  | created target s' hnone hreceiver hsender hputs =>
    refine hother hputs ?_
    rintro rfl
    rw [hs] at hnone
    cases hnone
  | receiver target pid t ht hcalls haccepts hputs =>
    by_cases heq : id = target
    · subst heq
      cases hs.symm.trans ht
      exact ⟨_, hputs.self, .receiver hcalls haccepts⟩
    · exact hother hputs heq
  | sender target pid metadata t ht hcalls haccepts hfirst hputs =>
    by_cases heq : id = target
    · subst heq
      cases hs.symm.trans ht
      exact ⟨_, hputs.self, .sender hcalls haccepts hfirst⟩
    · exact hother hputs heq
  | turnedAway target hash metadata owner t ht hlabel hfound hsecond hputs =>
    by_cases heq : id = target
    · subst heq
      cases hs.symm.trans ht
      exact ⟨_, hputs.self, .turnedAway hlabel hfound hsecond⟩
    · exact hother hputs heq

/-- A session that was not there before has no parties. -/
theorem Meeting.fresh (h : Meeting w label w') (hnone : w.coord.heap id = none)
    (hs' : w'.coord.heap id = some s') : s'.receiverReady = false ∧ s'.senderReady = false := by
  have hother : ∀ {target t}, w.coord.heap target = some t → id ≠ target := by
    rintro target t ht rfl
    rw [hnone] at ht
    cases ht
  cases h with
  | kept hsame =>
    have hsame := hsame id
    rw [hs', hnone] at hsame
    cases hsame
  | created target t htarget hreceiver hsender hputs =>
    by_cases heq : id = target
    · subst heq
      cases hs'.symm.trans hputs.self
      exact ⟨hreceiver, hsender⟩
    · rw [hputs.other heq, hnone] at hs'
      cases hs'
  | receiver target pid t ht hcalls haccepts hputs
  | sender target pid metadata t ht hcalls haccepts hfirst hputs
  | turnedAway target hash metadata owner t ht hlabel hfound hsecond hputs =>
    rw [hputs.other (hother ht), hnone] at hs'
    cases hs'

theorem AcceptsSender.session {pid : Nat} {metadata : SessionMetadata}
    (h : AcceptsSender w w' pid id metadata) :
    ∃ s s', w.coord.heap id = some s ∧ s.senderReady = false ∧ w'.coord.heap id = some s' ∧
      s'.senderReady = true ∧ s'.metadata = metadata := by
  obtain ⟨hash, hconnect, -⟩ := h.connected
  obtain ⟨s, -, hs, hfirst, hc⟩ := connectSender_ok hconnect
  have hputs : Puts w.coord w'.coord id _ := congrArg Coordinator.heap hc
  exact ⟨s, _, hs, hfirst, hputs.self, rfl, rfl⟩

theorem AcceptsReceiver.session (h : AcceptsReceiver w w' pid id) :
    ∃ s, w.coord.heap id = some s ∧ s.receiverReady = false := by
  obtain ⟨hash, hconnect, -⟩ := h.connected
  obtain ⟨s, -, hs, hfirst, -⟩ := connectReceiver_ok hconnect
  exact ⟨s, hs, hfirst⟩

theorem Met.expiresAt (h : Met w label w' id s s') : s'.expiresAt = s.expiresAt := by
  cases h with
  | kept hsame => exact congrArg (fun meeting => meeting.2.2.2) hsame
  | receiver | sender | turnedAway => rfl

/-! ### The metadata of the stream -/

/-- The receiver of session `id` has not been told its metadata yet. -/
def World.Unread (w : World Digest) (id : Nat) : Prop :=
  (∃ s, w.coord.heap id = some s ∧ s.receiverReady = false) ∨
    ∃ pid call, w.calls pid = some call ∧ call.awaits = some id

/-- A `Send` that is turned away from a session that has its sender, before the receiver has
been told the metadata, passes the metadata that is there already. -/
def KeepsMetadata (w : World Digest) (label : Label Digest) : Prop :=
  ∀ hash metadata owner id s, label = .rejectedSend hash metadata owner →
    w.coord.find hash = some id → w.coord.heap id = some s → s.senderReady = true →
    w.Unread id → metadata = s.metadata

/-- Session `id` has no sender yet, or exactly one `Send` was accepted, and its metadata is
what the receiver is told. -/
inductive Paired (start : World Digest) (trace : List (Label Digest × World Digest))
    (w : World Digest) (id : Nat) : Prop
  | free (hfree : ∀ s, w.coord.heap id = some s → s.senderReady = false)
      (hpast : ∀ pid metadata,
        ¬ Happened (fun v v' => AcceptsSender v v' pid id metadata) start trace)
      (hcalls : ∀ q call, w.calls q = some call →
        call.sendsTo ≠ some id ∧ ∀ metadata, call.told ≠ some (id, metadata))
  | taken (s : Session Digest) (sender : Nat) (metadata : SessionMetadata)
      (hs : w.coord.heap id = some s) (hready : s.senderReady = true)
      (hpast : ∀ pid passed, Happened (fun v v' => AcceptsSender v v' pid id passed) start trace ↔
        pid = sender ∧ passed = metadata)
      (hunread : w.Unread id → s.metadata = metadata)
      (hcalls : ∀ q call, w.calls q = some call → (call.sendsTo = some id → q = sender) ∧
        ∀ told, call.told = some (id, told) → told = metadata)

theorem Step.unread (hstep : Step opts sha256 w label w') (hs : w.coord.heap id = some s)
    (hs' : w'.coord.heap id = some s') (hmet : Met w label w' id s s') (h : w'.Unread id) :
    w.Unread id := by
  rcases h with ⟨t, ht, hnobody⟩ | ⟨pid, call, hat, hawaits⟩
  · cases hs'.symm.trans ht
    refine .inl ⟨s, hs, ?_⟩
    cases hmet with
    | kept hsame => exact (congrArg Prod.fst hsame).symm.trans hnobody
    | receiver hcalls haccepts => cases hnobody
    | sender | turnedAway => exact hnobody
  · rcases (hstep.call hat).awaits id hawaits with ⟨old, hold, hsame⟩ | haccepts
    · exact .inr ⟨pid, old, hold, hsame⟩
    · exact .inl haccepts.session

/-- **Step lemma.** -/
theorem Paired.step {start : World Digest} {trace : List (Label Digest × World Digest)}
    (h : Paired start trace w id) (hrun : Run (Step opts sha256) start trace w)
    (hsound : Sound w.coord) (hstep : Step opts sha256 w label w')
    (hkeeps : KeepsMetadata w label) : Paired start (trace ++ [(label, w')]) w' id := by
  have hmeeting := hstep.meeting hsound
  cases h with
  | free hfree hpast hcalls =>
    by_cases haccepted : ∃ pid metadata, AcceptsSender w w' pid id metadata
    · obtain ⟨sender, metadata, haccepts⟩ := haccepted
      obtain ⟨s, s', hs, hfirst, hs', hready, hmetadata⟩ := haccepts.session
      obtain ⟨hash, -, hstarted⟩ := haccepts.connected
      have hunique : ∀ {pid passed}, AcceptsSender w w' pid id passed →
          pid = sender ∧ passed = metadata := by
        intro pid passed hagain
        obtain ⟨hash', -, hstarted'⟩ := hagain.connected
        obtain ⟨-, t, -, -, ht, -, hpassed⟩ := hagain.session
        cases hs'.symm.trans ht
        exact ⟨hstep.started_unique hagain.free hstarted' haccepts.free hstarted,
          hpassed.symm.trans hmetadata⟩
      refine .taken s' sender metadata hs' hready ?_ (fun _ => hmetadata) ?_
      · intro pid passed
        rw [hrun.happened_snoc]
        constructor
        · rintro (hbefore | hnow)
          · exact absurd hbefore (hpast pid passed)
          · exact hunique hnow
        · rintro ⟨rfl, rfl⟩
          exact .inr haccepts
      · intro q call hcall
        refine ⟨fun hsends => ?_, fun told htold => ?_⟩
        · rcases (hstep.call hcall).sends id hsends with ⟨old, hold, hsame⟩ | ⟨passed, hagain⟩
          · exact absurd hsame (hcalls q old hold).1
          · exact (hunique hagain).1
        · rcases (hstep.call hcall).told id told htold with
            ⟨old, hold, hsame⟩ | ⟨old, t, hold, hawaits, ht, hready, -⟩
          · exact absurd hsame ((hcalls q old hold).2 told)
          · rw [hfree t ht] at hready
            cases hready
    · have hnone : ∀ pid metadata, ¬ AcceptsSender w w' pid id metadata :=
        fun pid metadata h => haccepted ⟨pid, metadata, h⟩
      refine .free ?_ ?_ ?_
      · intro s' hs'
        cases hs : w.coord.heap id with
        | none => exact (hmeeting.fresh hs hs').2
        | some s =>
          obtain ⟨t, ht, hmet⟩ := hmeeting.met hs
          cases hs'.symm.trans ht
          have hfirst := hfree s hs
          cases hmet with
          | kept hsame => exact (congrArg (fun meeting => meeting.2.1) hsame).trans hfirst
          | receiver => exact hfirst
          | sender hcalls haccepts => exact absurd haccepts (hnone _ _)
          | turnedAway hlabel hfound hsecond =>
            rw [hfirst] at hsecond
            cases hsecond
      · intro pid metadata
        rw [hrun.happened_snoc]
        rintro (hbefore | hnow)
        · exact hpast pid metadata hbefore
        · exact hnone pid metadata hnow
      · intro q call hcall
        refine ⟨fun hsends => ?_, fun told htold => ?_⟩
        · rcases (hstep.call hcall).sends id hsends with ⟨old, hold, hsame⟩ | ⟨passed, hagain⟩
          · exact (hcalls q old hold).1 hsame
          · exact hnone q passed hagain
        · rcases (hstep.call hcall).told id told htold with
            ⟨old, hold, hsame⟩ | ⟨old, t, hold, hawaits, ht, hready, -⟩
          · exact (hcalls q old hold).2 told hsame
          · rw [hfree t ht] at hready
            cases hready
  | taken s sender metadata hs hready hpast hunread hcalls =>
    have hnone : ∀ pid passed, ¬ AcceptsSender w w' pid id passed := by
      intro pid passed haccepts
      obtain ⟨t, -, ht, hfirst, -⟩ := haccepts.session
      cases hs.symm.trans ht
      rw [hready] at hfirst
      cases hfirst
    obtain ⟨s', hs', hmet⟩ := hmeeting.met hs
    have hready' : s'.senderReady = true := by
      cases hmet with
      | kept hsame => exact (congrArg (fun meeting => meeting.2.1) hsame).trans hready
      | receiver | turnedAway => exact hready
      | sender => rfl
    refine .taken s' sender metadata hs' hready' ?_ ?_ ?_
    · intro pid passed
      rw [hrun.happened_snoc, ← hpast pid passed]
      exact or_iff_left (hnone pid passed)
    · intro hunread'
      have hbefore : w.Unread id := hstep.unread hs hs' hmet hunread'
      have hmetadata := hunread hbefore
      cases hmet with
      | kept hsame => exact (congrArg (fun meeting => meeting.2.2.1) hsame).trans hmetadata
      | receiver => exact hmetadata
      | sender hcalls haccepts => exact absurd haccepts (hnone _ _)
      | turnedAway hlabel hfound hsecond =>
        exact (hkeeps _ _ _ id s hlabel hfound hs hsecond hbefore).trans hmetadata
    · intro q call hcall
      refine ⟨fun hsends => ?_, fun told htold => ?_⟩
      · rcases (hstep.call hcall).sends id hsends with ⟨old, hold, hsame⟩ | ⟨passed, hagain⟩
        · exact (hcalls q old hold).1 hsame
        · exact absurd hagain (hnone q passed)
      · rcases (hstep.call hcall).told id told htold with
          ⟨old, hold, hsame⟩ | ⟨old, t, hold, hawaits, ht, -, rfl⟩
        · exact (hcalls q old hold).2 told hsame
        · cases hs.symm.trans ht
          exact hunread (.inr ⟨q, old, hold, hawaits⟩)

theorem Sound.of_run {trace : List (Label Digest × World Digest)}
    (hrun : Run (Step opts sha256) (World.start clock) trace w) : Sound w.coord :=
  Run.invariant (fun w => Sound w.coord) Sound.empty (fun _ _ _ h hstep => h.step hstep) hrun

/-- **The metadata belongs to the stream.**  In every run in which a `Send` that is turned
away as the second one, before the receiver was told the metadata, passes the metadata that is
there already: when `Receive` has returned `metadata` for session `id`, one `Send` was accepted
on the session, it passed `metadata`, and nobody else sends to the session. -/
theorem metadata_belongs_to_stream {clock : Nat} {trace : List (Label Digest × World Digest)}
    (hrun : Run (fun w label w' => Step opts sha256 w label w' ∧ KeepsMetadata w label)
      (World.start clock) trace w)
    {pid : Nat} {call : Call Digest} {metadata : SessionMetadata} (hat : w.calls pid = some call)
    (htold : call.told = some (id, metadata)) :
    ∃ sender,
      (∀ q passed, Happened (fun v v' => AcceptsSender v v' q id passed) (World.start clock) trace ↔
        q = sender ∧ passed = metadata) ∧
      ∀ q other, w.calls q = some other → other.sendsTo = some id → q = sender := by
  have hpaired : Paired (World.start clock) trace w id := by
    refine Run.history_invariant (fun trace w => Paired (World.start clock) trace w id)
      (.free (fun _ hs => by cases hs) (fun _ _ h => h) (fun _ _ hat => by cases hat)) ?_ hrun
    intro trace w label w' hprefix h hstep
    have hplain : Run (Step opts sha256) (World.start clock) trace w :=
      Run.mono (fun _ _ _ hstep => hstep.1) hprefix
    exact h.step hplain (.of_run hplain) hstep.1 hstep.2
  cases hpaired with
  | free hfree hpast hcalls => exact absurd htold ((hcalls pid call hat).2 metadata)
  | taken s sender passed hs hready hpast hunread hcalls =>
    obtain rfl := (hcalls pid call hat).2 metadata htold
    exact ⟨sender, hpast, fun q other hother => (hcalls q other hother).1⟩

/-! ### Meetings in time -/

/-- No `Receive` and no `Send` is called while its code still leads to a session that has
expired. -/
def CalledInTime (w : World Digest) (label : Label Digest) : Prop :=
  ∀ id s, w.Calls label id → w.coord.heap id = some s → w.clock < s.expiresAt

/-- `Receive` of the handler `pid` returns the reader of session `id`. -/
def ReceiveReturns (w w' : World Digest) (pid id : Nat) : Prop :=
  ∃ old new metadata, w.calls pid = some old ∧ old.awaits = some id ∧ w'.calls pid = some new ∧
    new.told = some (id, metadata)

/-- `Send` of the handler `pid` starts to copy into the pipe of session `id`. -/
def SendStarts (w w' : World Digest) (pid id : Nat) : Prop :=
  ∃ old new, w.calls pid = some old ∧ old.pipes = none ∧ w'.calls pid = some new ∧
    new.pipes = some id

/-- The parties that are there came before the session expired. -/
structure InTime (start : World Digest) (trace : List (Label Digest × World Digest)) (id : Nat)
    (s : Session Digest) : Prop where
  sender : s.senderReady = true → Happened (fun v v' =>
    (∃ pid metadata, AcceptsSender v v' pid id metadata) ∧ v.clock < s.expiresAt) start trace
  receiver : s.receiverReady = true → Happened (fun v v' =>
    (∃ pid, AcceptsReceiver v v' pid id) ∧ v.clock < s.expiresAt) start trace

/-- **Step lemma.** -/
theorem InTime.step {start : World Digest} {trace : List (Label Digest × World Digest)}
    (h : InTime start trace id s) (hrun : Run (Step opts sha256) start trace w)
    (hs : w.coord.heap id = some s) (hmet : Met w label w' id s s')
    (hcalled : CalledInTime w label) :
    InTime start (trace ++ [(label, w')]) id s' := by
  constructor
  · intro hready
    rw [hmet.expiresAt, hrun.happened_snoc]
    cases hmet with
    | kept hsame =>
      exact .inl (h.sender ((congrArg (fun meeting => meeting.2.1) hsame).symm.trans hready))
    | receiver | turnedAway => exact .inl (h.sender hready)
    | sender hcalls haccepts => exact .inr ⟨⟨_, _, haccepts⟩, hcalled id s hcalls hs⟩
  · intro hready
    rw [hmet.expiresAt, hrun.happened_snoc]
    cases hmet with
    | kept hsame => exact .inl (h.receiver ((congrArg Prod.fst hsame).symm.trans hready))
    | sender | turnedAway => exact .inl (h.receiver hready)
    | receiver hcalls haccepts => exact .inr ⟨⟨_, haccepts⟩, hcalled id s hcalls hs⟩

theorem inTime_of_run {trace : List (Label Digest × World Digest)}
    (hrun : Run (fun w label w' => Step opts sha256 w label w' ∧ CalledInTime w label)
      (World.start clock) trace w) (hs : w.coord.heap id = some s) :
    InTime (World.start clock) trace id s := by
  refine Run.history_invariant (fun trace w => ∀ s, w.coord.heap id = some s →
    InTime (World.start clock) trace id s) (fun _ hs => by cases hs) ?_ hrun s hs
  intro trace w label w' hprefix h hstep s' hs'
  have hplain : Run (Step opts sha256) (World.start clock) trace w :=
    Run.mono (fun _ _ _ hstep => hstep.1) hprefix
  have hmeeting := hstep.1.meeting (.of_run hplain)
  cases hs : w.coord.heap id with
  | none =>
    obtain ⟨hreceiver, hsender⟩ := hmeeting.fresh hs hs'
    refine ⟨fun hready => ?_, fun hready => ?_⟩
    · rw [hsender] at hready
      cases hready
    · rw [hreceiver] at hready
      cases hready
  | some s =>
    obtain ⟨t, ht, hmet⟩ := hmeeting.met hs
    cases hs'.symm.trans ht
    exact (h s hs).step hplain hs hmet hstep.2

/-- **No meeting after the expiry.**  In every run in which nobody calls `Receive` or `Send`
with a code that leads to a session that has expired: when `Receive` returns a reader, the
sender had connected before the session's `expiresAt`, and when `Send` starts to copy, the
receiver had. -/
theorem no_rendezvous_after_expiry {clock : Nat} {trace : List (Label Digest × World Digest)}
    (hrun : Run (fun w label w' => Step opts sha256 w label w' ∧ CalledInTime w label)
      (World.start clock) trace w)
    (hstep : Step opts sha256 w label w') (hs : w.coord.heap id = some s) (pid : Nat) :
    (ReceiveReturns w w' pid id → Happened (fun v v' =>
      (∃ sender metadata, AcceptsSender v v' sender id metadata) ∧ v.clock < s.expiresAt)
        (World.start clock) trace) ∧
    (SendStarts w w' pid id → Happened (fun v v' =>
      (∃ receiver, AcceptsReceiver v v' receiver id) ∧ v.clock < s.expiresAt)
        (World.start clock) trace) := by
  have hintime := inTime_of_run hrun hs
  constructor
  · rintro ⟨old, new, metadata, hold, hawaits, hnew, htold⟩
    rcases (hstep.call hnew).told id metadata htold with
      ⟨old', hold', hbefore⟩ | ⟨old', t, -, -, ht, hready, -⟩
    · -- a handler that waits has not been told anything
      cases hold.symm.trans hold'
      cases old with
      | receiving => cases hbefore
      | _ => cases hawaits
    · cases hs.symm.trans ht
      exact hintime.sender hready
  · rintro ⟨old, new, hold, hpipes, hnew, hpipes'⟩
    rcases (hstep.call hnew).pipes id hpipes' with ⟨old', hold', hbefore⟩ | ⟨t, ht, hready⟩
    · cases hold.symm.trans hold'
      rw [hpipes] at hbefore
      cases hbefore
    · cases hs.symm.trans ht
      exact hintime.receiver hready

end

/-! ### Concrete runs -/

/-- A file is announced as what it is, although its sender calls `Send` a second time. -/
theorem metadata_belongs_to_stream_file :
    ∃ (trace : List (Label (List Char) × World (List Char))) (w : World (List Char)) (sender : Nat),
      Run (Step (newOptions 0 0 0) id) (World.start 0) trace w ∧
      labels trace = [.init sampleCode, .receive sampleCode (some 0), .send sampleCode (some 0),
        .rejectedSend sampleCode ⟨"file", "bmFtZQ=="⟩ (some 0), .receiver (some 0)] ∧
      w.calls 0 = some (.streaming sampleCode 0 [] ⟨"file", "bmFtZQ=="⟩ []) ∧
      Happened (fun v v' => AcceptsSender v v' sender 0 ⟨"file", "bmFtZQ=="⟩) (World.start 0)
        trace := by
  have hnot : ∀ (w : World (List Char)) label, (∀ hash metadata owner,
      label ≠ .rejectedSend hash metadata owner) → KeepsMetadata w label :=
    fun w label hlabel hash metadata owner _ _ heq => absurd heq (hlabel hash metadata owner)
  have hrun : Run (fun w label w' => Step (newOptions 0 0 0) id w label w' ∧ KeepsMetadata w label)
      (World.start 0) _ _ :=
    ((((Run.nil.snoc ⟨.init [sampleCode] [] rfl, hnot _ _ (by simp)⟩).snoc
      ⟨.receiveBegin 0 "123456" rfl normalizeCode_sample rfl, hnot _ _ (by simp)⟩).snoc
      ⟨.sendBegin 1 "123456" ⟨"file", "bmFtZQ=="⟩ rfl normalizeCode_sample rfl,
        hnot _ _ (by simp)⟩).snoc
      ⟨.sendRefused "123456" ⟨"file", "bmFtZQ=="⟩ normalizeCode_sample rfl, by
        rintro hash metadata owner id s ⟨⟩ ⟨⟩ ⟨⟩ - -
        rfl⟩).snoc
      ⟨.receiveConnected 0 rfl rfl rfl, hnot _ _ (by simp)⟩
  obtain ⟨sender, hpast, -⟩ := metadata_belongs_to_stream hrun
    (show World.calls _ 0 = some _ from rfl) rfl
  exact ⟨_, _, sender, Run.mono (fun _ _ _ hstep => hstep.1) hrun, rfl, rfl,
    (hpast _ _).mpr ⟨rfl, rfl⟩⟩

/-- **The receiver is misled.**  A sender of a text is accepted; a second `Send` is turned
away, and the receiver of the text is told that it is a file with the second one's name. -/
theorem receiver_told_rejected_metadata :
    ∃ (trace : List (Label (List Char) × World (List Char))) (w : World (List Char)),
      Run (Step (newOptions 0 0 0) id) (World.start 0) trace w ∧
      labels trace = [.init sampleCode, .receive sampleCode (some 0), .send sampleCode (some 0),
        .rejectedSend sampleCode ⟨"file", "bmFtZQ=="⟩ (some 0), .receiver (some 0),
        .sender (some 0)] ∧
      Happened (fun v v' => AcceptsSender v v' 1 0 ⟨"text", ""⟩) (World.start 0) trace ∧
      w.calls 1 = some (.copying sampleCode 0 []) ∧
      w.calls 0 = some (.streaming sampleCode 0 [] ⟨"file", "bmFtZQ=="⟩ []) := by
  have hrun : Run (Step (newOptions 0 0 0) id) (World.start 0) _ _ :=
    (((((Run.nil.snoc (.init [sampleCode] [] rfl)).snoc
      (.receiveBegin 0 "123456" rfl normalizeCode_sample rfl)).snoc
      (.sendBegin 1 "123456" ⟨"text", ""⟩ rfl normalizeCode_sample rfl)).snoc
      (.sendRefused "123456" ⟨"file", "bmFtZQ=="⟩ normalizeCode_sample rfl)).snoc
      (.receiveConnected 0 rfl rfl rfl)).snoc
      (.sendConnected 1 rfl rfl rfl)
  exact ⟨_, _, hrun, rfl, .inr (.inr (.inl ⟨rfl, sampleCode, rfl, rfl⟩)), rfl, rfl⟩

/-- The parties meet at once. -/
theorem no_rendezvous_after_expiry_in_time :
    ∃ (trace : List (Label (List Char) × World (List Char))) (w w' : World (List Char)),
      Run (Step (newOptions 0 0 0) id) (World.start 0) trace w ∧
      Step (newOptions 0 0 0) id w (.receiver (some 0)) w' ∧ ReceiveReturns w w' 0 0 ∧
      Happened (fun v v' => (∃ sender metadata, AcceptsSender v v' sender 0 metadata) ∧
        v.clock < 3 * minute) (World.start 0) trace := by
  -- the clock stands still, and the session is the only one
  have hcalled : ∀ (w : World (List Char)) label, w.clock = 0 →
      (∀ id s, w.coord.heap id = some s → s.expiresAt = 3 * minute) → CalledInTime w label := by
    intro w label hclock hexpires id s _ hs
    rw [hclock, hexpires id s hs]
    decide
  have honly : ∀ (heap : Nat → Option (Session (List Char))) (t : Session (List Char)),
      (∀ id s, heap id = some s → s.expiresAt = 3 * minute) → t.expiresAt = 3 * minute →
      ∀ id s, Function.update heap 0 (some t) id = some s → s.expiresAt = 3 * minute := by
    intro heap t hold ht id s hs
    rw [Function.update_apply] at hs
    split at hs
    · cases hs
      exact ht
    · exact hold id s hs
  have hinit := honly (fun _ => none) (Session.fresh sampleCode [] 0 (3 * minute))
    (fun _ _ hs => by cases hs) rfl
  have hreceiver :=
    honly _ { Session.fresh sampleCode [] 0 (3 * minute) with receiverReady := true } hinit rfl
  have hrun : Run (fun w label w' => Step (newOptions 0 0 0) id w label w' ∧ CalledInTime w label)
      (World.start 0) _ _ :=
    ((Run.nil.snoc ⟨.init [sampleCode] [] rfl, hcalled _ _ rfl fun _ _ hs => by cases hs⟩).snoc
      ⟨.receiveBegin 0 "123456" rfl normalizeCode_sample rfl, hcalled _ _ rfl hinit⟩).snoc
      ⟨.sendBegin 1 "123456" ⟨"text", ""⟩ rfl normalizeCode_sample rfl, hcalled _ _ rfl hreceiver⟩
  have hmeets := no_rendezvous_after_expiry hrun (.receiveConnected 0 rfl rfl rfl)
    (show (World.coord _).heap 0 = some _ from rfl) 0
  refine ⟨_, _, _, Run.mono (fun _ _ _ hstep => hstep.1) hrun, .receiveConnected 0 rfl rfl rfl, ?_,
    hmeets.1 ?_⟩
  · exact ⟨_, _, _, rfl, rfl, rfl, rfl⟩
  · exact ⟨_, _, _, rfl, rfl, rfl, rfl⟩

/-- **A meeting on an expired session.**  Three minutes have passed, the session has
expired and nobody has connected; the cleaner has not come by yet.  Now both parties
connect, `Receive` returns the reader and `Send` starts to copy. -/
theorem meeting_after_expiry :
    ∃ (trace later : List (Label (List Char) × World (List Char))) (v w : World (List Char))
      (s : Session (List Char)),
      Run (Step (newOptions 0 0 0) id) (World.start 0) trace v ∧ v.coord.heap 0 = some s ∧
      s.expiresAt ≤ v.clock ∧ s.senderReady = false ∧ s.receiverReady = false ∧
      Run (Step (newOptions 0 0 0) id) v later w ∧
      w.calls 0 = some (.streaming sampleCode 0 [] ⟨"text", ""⟩ []) ∧
      w.calls 1 = some (.copying sampleCode 0 []) := by
  have hrun : Run (Step (newOptions 0 0 0) id) (World.start 0) _ _ :=
    (Run.nil.snoc (.init [sampleCode] [] rfl)).snoc (.tick (show 0 ≤ 3 * minute from Nat.zero_le _))
  exact ⟨_, _, _, _, _, hrun, rfl, by decide, rfl, rfl,
    (((Run.nil.snoc
      (.receiveBegin 0 "123456" rfl normalizeCode_sample rfl)).snoc
      (.sendBegin 1 "123456" ⟨"text", ""⟩ rfl normalizeCode_sample rfl)).snoc
      (.receiveConnected 0 rfl rfl rfl)).snoc
      (.sendConnected 1 rfl rfl rfl), rfl, rfl⟩

end Relay
end FlickDrop
