import FlickDrop.Relay.System

/-!
# Isolation of relay sessions

A handler addresses its session through the hash of its code.  Once the session has
left the table, `Init` may give the same code to a new session, and the old handler's
`burnSession` or `RecordFailedAttempt` then meets the new one.  Handlers are isolated
as long as that does not happen: if no `Init` issues a code that a handler in
flight still carries, no handler ever touches a session it does not belong to.  The
last theorem runs the code into the case that condition excludes.
-/

namespace FlickDrop
namespace Relay

open Foundations

section

variable {Digest : Type}

/-- Nothing about session `id` changed: not the session, and not whether and where the
table has it. -/
def Untouched (c c' : Coordinator Digest) (id : Nat) : Prop :=
  c'.heap id = c.heap id ∧ ∀ hash, (hash, id) ∈ c'.table ↔ (hash, id) ∈ c.table

theorem Untouched.refl (c : Coordinator Digest) (id : Nat) : Untouched c c id :=
  ⟨rfl, fun _ => Iff.rfl⟩

theorem Untouched.trans {a b c : Coordinator Digest} {id : Nat} (hab : Untouched a b id)
    (hbc : Untouched b c id) : Untouched a c id :=
  ⟨hbc.1.trans hab.1, fun hash => (hbc.2 hash).trans (hab.2 hash)⟩

theorem untouched_modify {c : Coordinator Digest} {id other : Nat} (hne : other ≠ id)
    (change : Session Digest → Session Digest) : Untouched c (c.modify id change) other := by
  constructor
  · exact Function.update_of_ne hne _ _
  · exact fun _ => Iff.rfl

/-- `c'` has no new entries, and the heap holds the same sessions. -/
structure Narrows (c c' : Coordinator Digest) : Prop where
  table : c'.table.Sublist c.table
  heap : ∀ id, (c'.heap id).isSome = (c.heap id).isSome
  next : c'.next = c.next

theorem Narrows.refl (c : Coordinator Digest) : Narrows c c :=
  ⟨List.Sublist.refl _, fun _ => rfl, rfl⟩

theorem Narrows.trans {a b c : Coordinator Digest} (hab : Narrows a b) (hbc : Narrows b c) :
    Narrows a c :=
  ⟨hbc.table.trans hab.table, fun id => (hbc.heap id).trans (hab.heap id), hbc.next.trans hab.next⟩

theorem narrows_modify (c : Coordinator Digest) (id : Nat)
    (change : Session Digest → Session Digest) : Narrows c (c.modify id change) := by
  constructor
  · exact List.Sublist.refl _
  · intro other
    show (Function.update c.heap id ((c.heap id).map change) other).isSome = _
    by_cases heq : other = id
    · subst heq
      rw [Function.update_self, Option.isSome_map]
    · rw [Function.update_of_ne heq]
  · rfl

/-- A loop of locked sections over entries of the table. -/
theorem narrows_foldl (body : Coordinator Digest → Digest × Nat → Coordinator Digest)
    (hbody : ∀ c entry, Narrows c (body c entry)) (entries : List (Digest × Nat))
    (c : Coordinator Digest) : Narrows c (entries.foldl body c) := by
  induction entries generalizing c with
  | nil => exact Narrows.refl c
  | cons entry rest ih => exact (hbody c entry).trans (ih (body c entry))

/-- The table leads to sessions of the heap, and `next` is unused. -/
structure Sound (c : Coordinator Digest) : Prop where
  unique : Table.UniqueKey Prod.fst c.table
  allocated : ∀ entry ∈ c.table, (c.heap entry.2).isSome
  fresh : ∀ id, c.next ≤ id → c.heap id = none

theorem Sound.empty : Sound (Coordinator.empty : Coordinator Digest) := by
  constructor
  · exact List.nodup_nil
  · simp [Coordinator.empty]
  · exact fun _ _ => rfl

theorem Sound.narrow {c c' : Coordinator Digest} (h : Sound c) (hnarrows : Narrows c c') :
    Sound c' := by
  refine ⟨h.unique.sublist (hnarrows.table.map Prod.fst), ?_, ?_⟩
  · intro entry hentry
    rw [hnarrows.heap entry.2]
    exact h.allocated entry (hnarrows.table.subset hentry)
  · intro id hid
    rw [hnarrows.next] at hid
    rw [← Option.isNone_iff_eq_none, ← Option.not_isSome, hnarrows.heap id, h.fresh id hid]
    rfl

variable [DecidableEq Digest]

/-- The table is sound, and a handler's hash leads to its own session or nowhere. -/
structure Inv (w : World Digest) : Prop where
  sound : Sound w.coord
  carried : ∀ pid call, w.calls pid = some call →
    ∀ id, w.coord.find call.hash = some id → call.owner = some id

/-- No `Init` issues a code that a handler in flight still carries. -/
def FreshCode (w : World Digest) (label : Label Digest) : Prop :=
  ∀ hash, label = .init hash → ∀ pid call, w.calls pid = some call → call.hash ≠ hash

theorem find_eq_some {c : Coordinator Digest} (hunique : Table.UniqueKey Prod.fst c.table)
    {hash : Digest} {id : Nat} : c.find hash = some id ↔ (hash, id) ∈ c.table := by
  unfold Coordinator.find
  constructor
  · intro h
    obtain ⟨entry, hfound, rfl⟩ := Option.map_eq_some_iff.mp h
    have hkey : entry.1 = hash := Table.lookup_key hfound
    rw [← hkey]
    exact Table.lookup_mem hfound
  · intro h
    rw [Table.lookup_of_mem hunique h]
    rfl

/-- `removeLocked` touches only the session its hash leads to. -/
theorem untouched_removeLocked {c : Coordinator Digest}
    (hunique : Table.UniqueKey Prod.fst c.table) {hash : Digest} {other : Nat}
    (hother : c.find hash ≠ some other) (cause : Cause) :
    Untouched c (c.removeLocked hash cause) other := by
  unfold Coordinator.removeLocked
  cases hfound : c.find hash with
  | none => exact Untouched.refl c other
  | some id =>
    have hne : other ≠ id := by
      intro heq
      rw [hfound, heq] at hother
      exact hother rfl
    constructor
    · exact Function.update_of_ne hne _ _
    · intro key
      show (key, other) ∈ Table.delete _ c.table ↔ _
      rw [Table.delete, List.mem_filter]
      constructor
      · exact fun h => h.1
      · intro h
        refine ⟨h, ?_⟩
        have hkey : key ≠ hash := by
          intro heq
          rw [heq] at h
          exact hother ((find_eq_some hunique).mpr h)
        simp [hkey]

/-! ### Locked sections only take entries out of the table -/

theorem narrows_removeLocked (c : Coordinator Digest) (hash : Digest) (cause : Cause) :
    Narrows c (c.removeLocked hash cause) := by
  unfold Coordinator.removeLocked
  split
  · exact Narrows.refl c
  · rename_i id _
    have hdelete : Narrows c
        { c with table := Table.delete (fun entry => decide (entry.1 = hash)) c.table } :=
      ⟨List.filter_sublist, fun _ => rfl, rfl⟩
    exact hdelete.trans (narrows_modify _ id _)

theorem narrows_cleanExpired (c : Coordinator Digest) (now : Nat) :
    Narrows c (c.cleanExpired now) := by
  apply narrows_foldl
  intro c entry
  split
  · exact narrows_removeLocked c entry.1 .expired
  · exact Narrows.refl c

theorem narrows_close (c : Coordinator Digest) : Narrows c c.close := by
  unfold Coordinator.close
  split
  · exact Narrows.refl c
  · have hstopped : Narrows c { c with stopped := true } := ⟨List.Sublist.refl _, fun _ => rfl, rfl⟩
    refine hstopped.trans (narrows_foldl _ ?_ c.table _)
    exact fun c entry => narrows_removeLocked c entry.1 .sessionClosed

/-! ### The three locked lookups -/

/-- What a locked section that looks its session up by `hash` may do. -/
structure Looked (c c' : Coordinator Digest) (hash : Digest) (owner : Option Nat) : Prop where
  narrows : Narrows c c'
  untouched : ∀ other, owner ≠ some other → Untouched c c' other
  owner_eq : ∀ id, c.find hash = some id → owner = some id

/-- The session the answer of a locked lookup speaks about. -/
def answerOwner : Except (Err × Option Nat) Nat → Option Nat
  | .ok id => some id
  | .error (_, owner) => owner

section

variable {c c' : Coordinator Digest} {hash : Digest} {owner : Option Nat} {id : Nat}
  {metadata : SessionMetadata} {answer : Except (Err × Option Nat) Nat} {err : Err × Option Nat}

/-- The ways through the locked part of `Receive`. -/
theorem connectReceiver_cases (h : c.connectReceiver hash = (c', answer)) :
    (c' = c ∧ ∃ err owner, answer = .error (err, owner) ∧
        ∀ id, c.find hash = some id → (c.heap id).isSome → owner = some id) ∨
      ∃ id s, c.find hash = some id ∧ c.heap id = some s ∧ s.receiverReady = false ∧
        c' = (c.modify id fun s => { s with receiverReady := true }) ∧ answer = .ok id := by
  unfold Coordinator.connectReceiver at h
  split at h
  · rename_i hfound
    cases h
    exact .inl ⟨rfl, _, _, rfl, fun id hid => by rw [hfound] at hid; cases hid⟩
  · rename_i id hfound
    have howner : ∀ id', c.find hash = some id' → (c.heap id').isSome → some id = some id' :=
      fun _ hid' _ => hfound.symm.trans hid'
    split at h
    · rename_i hheap
      cases h
      refine .inl ⟨rfl, _, _, rfl, fun id' hid' hsome => ?_⟩
      obtain rfl := Option.some.inj (hfound.symm.trans hid')
      rw [hheap] at hsome
      cases hsome
    · rename_i s hheap
      split at h
      · cases h
        exact .inl ⟨rfl, _, _, rfl, howner⟩
      · split at h
        · cases h
          exact .inl ⟨rfl, _, _, rfl, howner⟩
        · rename_i hready
          cases h
          exact .inr ⟨id, s, hfound, hheap, Bool.eq_false_iff.mpr hready, rfl, rfl⟩

/-- The ways through the locked part of `Send`. -/
theorem connectSender_cases (h : c.connectSender hash metadata = (c', answer)) :
    (c' = c ∧ ∃ err owner, answer = .error (err, owner) ∧
        ∀ id, c.find hash = some id → (c.heap id).isSome → owner = some id) ∨
      ∃ id s described, c.find hash = some id ∧ c.heap id = some s ∧
        described = (c.modify id fun s =>
          { s with kind := metadata.kind, encryptedFilename := metadata.encryptedFilename }) ∧
        (s.senderReady = true ∧ c' = described ∧ answer = .error (.alreadyConnected, some id) ∨
          s.senderReady = false ∧
            c' = (described.modify id fun s => { s with senderReady := true }) ∧
            answer = .ok id) := by
  unfold Coordinator.connectSender at h
  split at h
  · rename_i hfound
    cases h
    exact .inl ⟨rfl, _, _, rfl, fun id hid => by rw [hfound] at hid; cases hid⟩
  · rename_i id hfound
    split at h
    · rename_i hheap
      cases h
      refine .inl ⟨rfl, _, _, rfl, fun id' hid' hsome => ?_⟩
      obtain rfl := Option.some.inj (hfound.symm.trans hid')
      rw [hheap] at hsome
      cases hsome
    · rename_i s hheap
      split at h
      · cases h
        exact .inl ⟨rfl, _, _, rfl, fun _ hid' _ => hfound.symm.trans hid'⟩
      · dsimp only at h
        split at h
        · rename_i hready
          cases h
          exact .inr ⟨id, s, _, hfound, hheap, rfl, .inl ⟨hready, rfl, rfl⟩⟩
        · rename_i hready
          cases h
          exact .inr ⟨id, s, _, hfound, hheap, rfl,
            .inr ⟨Bool.eq_false_iff.mpr hready, rfl, rfl⟩⟩

theorem Looked.unchanged (howner : ∀ id, c.find hash = some id → owner = some id) :
    Looked c c hash owner :=
  ⟨Narrows.refl c, fun other _ => Untouched.refl c other, howner⟩

/-- A lookup that goes on to write to the session it found. -/
theorem Looked.modify (h : Looked c c' hash (some id)) (f : Session Digest → Session Digest) :
    Looked c (c'.modify id f) hash (some id) where
  narrows := h.narrows.trans (narrows_modify c' id f)
  untouched := by
    intro other hne
    have hdiff : other ≠ id := fun heq => hne (by rw [heq])
    exact (h.untouched other hne).trans (untouched_modify hdiff f)
  owner_eq := h.owner_eq

theorem looked_connectReceiver (halloc : ∀ id, c.find hash = some id → (c.heap id).isSome)
    (h : c.connectReceiver hash = (c', answer)) : Looked c c' hash (answerOwner answer) := by
  rcases connectReceiver_cases h with
    ⟨rfl, err, owner, rfl, howner⟩ | ⟨id, s, hfound, -, -, rfl, rfl⟩
  · exact Looked.unchanged fun id hid => howner id hid (halloc id hid)
  · exact (Looked.unchanged fun _ hid => hfound.symm.trans hid).modify _

theorem looked_connectSender (halloc : ∀ id, c.find hash = some id → (c.heap id).isSome)
    (h : c.connectSender hash metadata = (c', answer)) : Looked c c' hash (answerOwner answer) := by
  rcases connectSender_cases h with
    ⟨rfl, err, owner, rfl, howner⟩ | ⟨id, s, described, hfound, -, rfl, hready⟩
  · exact Looked.unchanged fun id hid => howner id hid (halloc id hid)
  · have hlooked : Looked c c hash (some id) :=
      Looked.unchanged fun _ hid => hfound.symm.trans hid
    rcases hready with ⟨-, rfl, rfl⟩ | ⟨-, rfl, rfl⟩
    · exact hlooked.modify _
    · exact (hlooked.modify _).modify _

theorem looked_recordFailedAttempt (hunique : Table.UniqueKey Prod.fst c.table)
    (howner : ∀ id, c.find hash = some id → owner = some id) :
    Looked c (c.recordFailedAttempt hash).1 hash owner := by
  unfold Coordinator.recordFailedAttempt
  cases hfound : c.find hash with
  | none => exact ⟨Narrows.refl c, fun other _ => Untouched.refl c other, howner⟩
  | some id =>
    dsimp only
    have hid := howner id hfound
    have hdiff : ∀ other, owner ≠ some other → other ≠ id :=
      fun other hne heq => hne (by rw [heq, hid])
    split
    · exact ⟨narrows_modify c id _, fun other hne => untouched_modify (hdiff other hne) _, howner⟩
    · split
      · refine ⟨((narrows_modify c id _).trans (narrows_modify _ id _)).trans
          (narrows_removeLocked _ hash _), ?_, howner⟩
        intro other hne
        refine Untouched.trans ?_ (untouched_removeLocked ?_ ?_ _)
        · exact (untouched_modify (hdiff other hne) _).trans
            (untouched_modify (hdiff other hne) _)
        · exact hunique
        · show c.find hash ≠ some other
          rw [hfound]
          exact fun heq => hdiff other hne (Option.some.inj heq).symm
      · exact ⟨narrows_modify c id _, fun other hne => untouched_modify (hdiff other hne) _,
          howner⟩

/-- `burnSession` of a handler that belongs to `owner`. -/
theorem looked_burnSession (hunique : Table.UniqueKey Prod.fst c.table)
    (howner : ∀ id, c.find hash = some id → owner = some id) :
    Looked c (c.burnSession hash) hash owner := by
  refine ⟨narrows_removeLocked c hash _, ?_, howner⟩
  intro other hne
  apply untouched_removeLocked hunique
  exact fun hfound => hne (howner other hfound)

/-- An accepted receiver was the first. -/
theorem connectReceiver_ok (h : c.connectReceiver hash = (c', .ok id)) :
    ∃ s, c.find hash = some id ∧ c.heap id = some s ∧ s.receiverReady = false ∧
      c' = { c with
        heap := Function.update c.heap id (some { s with receiverReady := true }) } := by
  rcases connectReceiver_cases h with
    ⟨-, err, owner, hno, -⟩ | ⟨found, s, hfound, hheap, hfirst, rfl, hid⟩
  · cases hno
  · cases hid
    refine ⟨s, hfound, hheap, hfirst, ?_⟩
    rw [Coordinator.modify, hheap]
    rfl

/-- A receiver that is turned away changes nothing. -/
theorem connectReceiver_error (h : c.connectReceiver hash = (c', .error err)) : c' = c := by
  rcases connectReceiver_cases h with ⟨hsame, -⟩ | ⟨found, s, -, -, -, -, hno⟩
  · exact hsame
  · cases hno

/-- An accepted sender was the first. -/
theorem connectSender_ok (h : c.connectSender hash metadata = (c', .ok id)) :
    ∃ s, c.find hash = some id ∧ c.heap id = some s ∧ s.senderReady = false ∧
      c' = { c with heap := Function.update c.heap id (some { s with
        kind := metadata.kind
        encryptedFilename := metadata.encryptedFilename
        senderReady := true }) } := by
  rcases connectSender_cases h with ⟨-, err, owner, hno, -⟩ |
    ⟨found, s, described, hfound, hheap, rfl, ⟨-, -, hno⟩ | ⟨hfirst, rfl, hid⟩⟩
  · cases hno
  · cases hno
  · cases hid
    refine ⟨s, hfound, hheap, hfirst, ?_⟩
    simp only [Coordinator.modify, hheap, Option.map_some, Function.update_self,
      Function.update_idem]

/-- A sender that is turned away changes metadata at most, and that only if another one
was accepted. -/
theorem connectSender_error (h : c.connectSender hash metadata = (c', .error err)) :
    c' = c ∨ ∃ id s, c.find hash = some id ∧ c.heap id = some s ∧ s.senderReady = true ∧
      c' = { c with heap := Function.update c.heap id (some { s with
        kind := metadata.kind
        encryptedFilename := metadata.encryptedFilename }) } := by
  rcases connectSender_cases h with ⟨hsame, -⟩ |
    ⟨found, s, described, hfound, hheap, rfl, ⟨hready, rfl, -⟩ | ⟨-, -, hno⟩⟩
  · exact .inl hsame
  · refine .inr ⟨found, s, hfound, hheap, hready, ?_⟩
    rw [Coordinator.modify, hheap]
    rfl
  · cases hno

theorem init_ok {now : Nat} (h : c.init opts sha256 codes salt now = .ok (c', code)) :
    c'.next = c.next + 1 ∧
      c'.heap = Function.update c.heap c.next
      (some (Session.fresh (sha256 code) salt now opts.ttl)) := by
  rw [Coordinator.init] at h
  split at h
  · cases h
  split at h
  · cases h
  cases h
  exact ⟨rfl, rfl⟩

end

/-! ### The invariant -/

variable {c c' : Coordinator Digest} {w w' : World Digest} {opts : Options}
  {sha256 : List Char → Digest} {label : Label Digest} {owner : Option Nat} {code : List Char}
  {codes : List (List Char)} {salt : List UInt8} {next : Option (Call Digest)} {call : Call Digest}
  {hash : Digest}

theorem Sound.alloc (h : Sound c) {id : Nat} (hfound : c.find hash = some id) :
    (c.heap id).isSome :=
  h.allocated (hash, id) ((find_eq_some h.unique).mp hfound)

/-- What `Init` does to a sound coordinator. -/
theorem Sound.init (h : Sound c) {now : Nat}
    (hinit : c.init opts sha256 codes salt now = .ok (c', code)) :
    Sound c' ∧ c'.table = c.table ++ [(sha256 code, c.next)] ∧
      ∀ id, id ≠ c.next → c'.heap id = c.heap id := by
  unfold Coordinator.init at hinit
  split at hinit
  · cases hinit
  split at hinit
  · cases hinit
  rename_i drawn hdrawn
  cases hinit
  have hunused : c.find (sha256 code) = none := by
    have := List.find?_some hdrawn
    simpa using this
  have hnew : ∀ entry ∈ c.table, entry.1 ≠ sha256 code := by
    rintro ⟨hash, id⟩ hentry rfl
    rw [(find_eq_some h.unique).mpr hentry] at hunused
    cases hunused
  refine ⟨⟨h.unique.append hnew, ?_, ?_⟩, rfl, fun id hid => Function.update_of_ne hid _ _⟩
  · intro entry hentry
    show (Function.update c.heap c.next _ entry.2).isSome
    rw [Function.update_apply]
    split
    · rfl
    · rename_i hold
      rcases List.mem_append.mp hentry with hentry | hentry
      · exact h.allocated entry hentry
      · rw [List.mem_singleton] at hentry
        rw [hentry] at hold
        exact absurd rfl hold
  · intro id hid
    have hlt : c.next < id := hid
    show Function.update c.heap c.next _ id = none
    rw [Function.update_of_ne (Nat.ne_of_gt hlt)]
    exact h.fresh id (Nat.le_of_lt hlt)

/-- **Step lemma**, for the table. -/
theorem Sound.step (h : Sound w.coord) (hstep : Step opts sha256 w label w') : Sound w'.coord := by
  cases hstep
  case init codes salt hinit => exact (h.init hinit).1
  case clean now hnow => exact h.narrow (narrows_cleanExpired _ now)
  case close => exact h.narrow (narrows_close _)
  case receiveBegin pid raw hfree hcode hconnect =>
      exact h.narrow (looked_connectReceiver (fun _ hid => h.alloc hid) hconnect).narrows
  case receiveRefused pid raw hfree hcode hconnect =>
      exact h.narrow (looked_connectReceiver (fun _ hid => h.alloc hid) hconnect).narrows
  case sendBegin pid raw metadata hfree hcode hconnect =>
      exact h.narrow (looked_connectSender (fun _ hid => h.alloc hid) hconnect).narrows
  case sendRefused raw metadata hcode hconnect =>
      exact h.narrow (looked_connectSender (fun _ hid => h.alloc hid) hconnect).narrows
  case recordFailed pid hat =>
      exact h.narrow (looked_recordFailedAttempt h.unique fun id hid => hid).narrows
  case cleanupBurn pid hat => exact h.narrow (narrows_removeLocked _ _ _)
  case sendBurn pid hat => exact h.narrow (narrows_removeLocked _ _ _)
  all_goals
    first
    | exact h
    | exact h.narrow (narrows_modify _ _ _)

/-- A locked section that takes entries out of the table keeps the invariant. -/
theorem Inv.narrow (h : Inv w) (hnarrows : Narrows w.coord c) : Inv (w.setCoord c) := by
  have hsound := h.sound.narrow hnarrows
  refine ⟨hsound, ?_⟩
  intro pid call hcall id hfound
  have hentry := (find_eq_some hsound.unique).mp hfound
  exact h.carried pid call hcall id
    ((find_eq_some h.sound.unique).mpr (hnarrows.table.subset hentry))

/-- A handler that carries its own session's hash may go on. -/
theorem Inv.setCall (h : Inv w) (pid : Nat) (hnext : ∀ call, next = some call →
      ∀ id, w.coord.find call.hash = some id → call.owner = some id) :
    Inv (w.setCall pid next) := by
  refine ⟨h.sound, ?_⟩
  intro other call hcall
  simp only [World.setCall, Function.update_apply] at hcall
  split at hcall
  · exact hnext call hcall
  · exact h.carried other call hcall

/-- The same for a handler that keeps its hash and its session. -/
theorem Inv.advance (h : Inv w) (hnarrows : Narrows w.coord c) (pid : Nat)
    (hat : w.calls pid = some call)
    (hnext : ∀ later, next = some later → later.hash = call.hash ∧ later.owner = call.owner) :
    Inv ((w.setCoord c).setCall pid next) := by
  refine (h.narrow hnarrows).setCall pid ?_
  intro later hlater id hfound
  obtain ⟨hhash, howner⟩ := hnext later hlater
  rw [howner]
  apply h.carried pid call hat id
  rw [← hhash]
  have hentry := (find_eq_some (h.narrow hnarrows).sound.unique).mp hfound
  exact (find_eq_some h.sound.unique).mpr (hnarrows.table.subset hentry)

/-- A handler that has just looked its session up starts. -/
theorem Inv.looked (h : Inv w) (hlooked : Looked w.coord c hash owner) (pid : Nat)
    (hhash : call.hash = hash) (howner : call.owner = owner) :
    Inv ((w.setCoord c).setCall pid (some call)) := by
  have hnarrow := h.narrow hlooked.narrows
  refine hnarrow.setCall pid ?_
  rintro later ⟨rfl⟩ id hid
  rw [hhash] at hid
  rw [howner]
  have hentry := (find_eq_some hnarrow.sound.unique).mp hid
  exact hlooked.owner_eq id
    ((find_eq_some h.sound.unique).mpr (hlooked.narrows.table.subset hentry))

theorem Inv.init (h : Inv w)
    (hinit : w.coord.init opts sha256 codes salt w.clock = .ok (c, code))
    (hfresh : FreshCode w (.init (sha256 code))) : Inv (w.setCoord c) := by
  obtain ⟨hsound, htable, -⟩ := h.sound.init hinit
  refine ⟨hsound, ?_⟩
  intro pid call hcall id hfound
  have hentry : (call.hash, id) ∈ c.table := (find_eq_some hsound.unique).mp hfound
  rw [htable] at hentry
  rcases List.mem_append.mp hentry with hentry | hentry
  · exact h.carried pid call hcall id ((find_eq_some h.sound.unique).mpr hentry)
  · rw [List.mem_singleton] at hentry
    exact absurd (congrArg Prod.fst hentry) (hfresh _ rfl pid call hcall)

/-- **Step lemma.** -/
theorem Inv.step (h : Inv w) (hstep : Step opts sha256 w label w')
    (hfresh : FreshCode w label) : Inv w' := by
  cases hstep with
  | tick hclock => exact ⟨h.sound, h.carried⟩
  | init codes salt hinit => exact h.init hinit hfresh
  | clean now hnow => exact h.narrow (narrows_cleanExpired _ now)
  | close => exact h.narrow (narrows_close _)
  | waitBegin pid raw hfree hcode hfound =>
    refine h.setCall pid ?_
    rintro call ⟨rfl⟩ id hid
    exact hfound.symm.trans hid
  | waitEnd pid hat => exact h.setCall pid (by simp)
  | receiveBegin pid raw hfree hcode hconnect =>
    exact h.looked (looked_connectReceiver (fun _ hid => h.sound.alloc hid) hconnect) pid rfl rfl
  | receiveRefused pid raw hfree hcode hconnect =>
    exact h.looked (looked_connectReceiver (fun _ hid => h.sound.alloc hid) hconnect) pid rfl rfl
  | receiveConnected pid hat hheap hready =>
    exact h.advance (Narrows.refl _) pid hat (by rintro later ⟨rfl⟩; exact ⟨rfl, rfl⟩)
  | receiveClosed pid hat hheap hdone =>
    exact h.advance (Narrows.refl _) pid hat (by rintro later ⟨rfl⟩; exact ⟨rfl, rfl⟩)
  | receiveCancelled pid hat =>
    exact h.advance (Narrows.refl _) pid hat (by rintro later ⟨rfl⟩; exact ⟨rfl, rfl⟩)
  | receiveExpired pid hat hheap hexpired =>
    exact h.advance (Narrows.refl _) pid hat (by rintro later ⟨rfl⟩; exact ⟨rfl, rfl⟩)
  | read pid n hat hheap hopen =>
    exact h.advance (narrows_modify _ _ _) pid hat (by rintro later ⟨rfl⟩; exact ⟨rfl, rfl⟩)
  | readEnd pid hat =>
    exact h.advance (narrows_modify _ _ _) pid hat (by rintro later ⟨rfl⟩; exact ⟨rfl, rfl⟩)
  | cleanupClose pid hat =>
    exact h.advance (narrows_modify _ _ _) pid hat (by rintro later ⟨rfl⟩; exact ⟨rfl, rfl⟩)
  | cleanupBurn pid hat =>
    refine h.advance (narrows_removeLocked _ _ _) pid hat ?_
    intro later hlater
    split at hlater
    · obtain rfl := Option.some.inj hlater
      exact ⟨rfl, rfl⟩
    · cases hlater
  | recordFailed pid hat =>
    have hlooked := looked_recordFailedAttempt h.sound.unique (h.carried pid _ hat)
    exact h.advance hlooked.narrows pid hat (by simp)
  | sendBegin pid raw metadata hfree hcode hconnect =>
    exact h.looked (looked_connectSender (fun _ hid => h.sound.alloc hid) hconnect) pid rfl rfl
  | sendRefused raw metadata hcode hconnect =>
    exact h.narrow (looked_connectSender (fun _ hid => h.sound.alloc hid) hconnect).narrows
  | sendConnected pid hat hheap hready =>
    exact h.advance (Narrows.refl _) pid hat (by rintro later ⟨rfl⟩; exact ⟨rfl, rfl⟩)
  | sendClosed pid hat hheap hdone => exact h.setCall pid (by simp)
  | sendCancelled pid hat =>
    exact h.advance (narrows_modify _ _ _) pid hat (by rintro later ⟨rfl⟩; exact ⟨rfl, rfl⟩)
  | sendExpired pid hat hheap hexpired =>
    exact h.advance (narrows_modify _ _ _) pid hat (by rintro later ⟨rfl⟩; exact ⟨rfl, rfl⟩)
  | copyRead pid chunk hat hheap hopen =>
    exact h.advance (narrows_modify _ _ _) pid hat (by rintro later ⟨rfl⟩; exact ⟨rfl, rfl⟩)
  | copyWritten pid hat hheap hread =>
    exact h.advance (Narrows.refl _) pid hat (by rintro later ⟨rfl⟩; exact ⟨rfl, rfl⟩)
  | copyFailed pid text hat hcall =>
    refine h.advance (narrows_modify _ _ _) pid hat ?_
    rintro later ⟨rfl⟩
    rcases hcall with ⟨sent, rfl⟩ | ⟨sent, chunk, rfl⟩ <;> exact ⟨rfl, rfl⟩
  | sendBurn pid hat => exact h.advance (narrows_removeLocked _ _ _) pid hat (by simp)
  | sendDone pid hat => exact h.advance (narrows_modify _ _ _) pid hat (by simp)

/-- **A handler touches its own session only.** -/
theorem Inv.untouched (h : Inv w)
    (hstep : Step opts sha256 w label w') (hhandler : label.handler = some owner) {other : Nat}
    (hother : owner ≠ some other) : Untouched w.coord w'.coord other := by
  cases hstep <;> simp only [Label.handler, Option.some.injEq, reduceCtorEq] at hhandler <;>
    subst hhandler
  case receiveBegin pid raw hfree hcode hconnect =>
      exact (looked_connectReceiver (fun _ hid => h.sound.alloc hid) hconnect).untouched other
        hother
  case receiveRefused pid raw hfree hcode hconnect =>
      exact (looked_connectReceiver (fun _ hid => h.sound.alloc hid) hconnect).untouched other
        hother
  case cleanupBurn pid hat =>
      exact (looked_burnSession h.sound.unique (h.carried pid _ hat)).untouched other hother
  case recordFailed pid hat =>
      exact (looked_recordFailedAttempt h.sound.unique (h.carried pid _ hat)).untouched other hother
  case sendBegin pid raw metadata hfree hcode hconnect =>
      exact (looked_connectSender (fun _ hid => h.sound.alloc hid) hconnect).untouched other hother
  case sendRefused raw metadata hcode hconnect =>
      exact (looked_connectSender (fun _ hid => h.sound.alloc hid) hconnect).untouched other hother
  case sendBurn pid hat =>
      exact (looked_burnSession h.sound.unique (h.carried pid _ hat)).untouched other hother
  all_goals
    first
    | exact Untouched.refl _ other
    | exact untouched_modify (fun heq => hother (by rw [heq])) _

theorem Inv.start (clock : Nat) : Inv (World.start clock : World Digest) :=
  ⟨Sound.empty, by simp [World.start]⟩

/-- **Session isolation.**  In every run in which no `Init` issues a code that a handler
in flight still carries, whatever happens next: a step of a handler leaves every session
the handler does not belong to as it is, in the heap and in the table. -/
theorem handlers_isolated {clock : Nat} {trace : List (Label Digest × World Digest)}
    {w w' : World Digest} {label : Label Digest} {owner : Option Nat} {other : Nat}
    (hrun : Run (fun w label w' => Step opts sha256 w label w' ∧ FreshCode w label)
      (World.start clock) trace w)
    (hstep : Step opts sha256 w label w') (hhandler : label.handler = some owner)
    (hother : owner ≠ some other) : Untouched w.coord w'.coord other := by
  have hinv : Inv w := by
    refine Run.invariant Inv (Inv.start clock) ?_ hrun
    intro w label w' h hstep
    exact h.step hstep.1 hstep.2
  exact hinv.untouched hstep hhandler hother

end

/-! ### Concrete runs

The codes are their own hashes, and the options are the defaults: sessions live three
minutes. -/

def sampleCode : List Char := ['1', '2', '3', '4', '5', '6']

def otherCode : List Char := ['6', '5', '4', '3', '2', '1']

theorem normalizeCode_sample : normalizeCode "123456" = .ok sampleCode := by
  decide

/-- Two sessions; the receiver of the first one gives up and burns it. -/
theorem handlers_isolated_two_sessions :
    ∃ (trace : List (Label (List Char) × World (List Char))) (w w' : World (List Char)),
      Run (fun w label w' => Step (newOptions 0 0 0) id w label w' ∧ FreshCode w label)
        (World.start 0) trace w ∧
      Step (newOptions 0 0 0) id w (.receiver (some 0)) w' ∧
      w.coord.find sampleCode = some 0 ∧ w'.coord.find sampleCode = none ∧
      Untouched w.coord w'.coord 1 := by
  have hinit : ∀ w : World (List Char), (∀ pid, w.calls pid = none) →
      ∀ label, FreshCode w label := by
    intro w hidle label hash _ pid call hcall
    rw [hidle] at hcall
    cases hcall
  have hhandler : ∀ (w : World (List Char)) label owner, label.handler = some owner →
      FreshCode w label := by
    rintro w _ owner hlabel hash rfl
    cases hlabel
  have hrun : Run (fun w label w' => Step (newOptions 0 0 0) id w label w' ∧ FreshCode w label)
      (World.start 0) _ _ :=
    ((((Run.nil.snoc ⟨.init [sampleCode] [] rfl, hinit _ (fun _ => rfl) _⟩).snoc
      ⟨.init [otherCode] [] rfl, hinit _ (fun _ => rfl) _⟩).snoc
      ⟨.receiveBegin 0 "123456" rfl normalizeCode_sample rfl, hhandler _ _ _ rfl⟩).snoc
      ⟨.receiveCancelled 0 rfl, hhandler _ _ _ rfl⟩).snoc ⟨.cleanupClose 0 rfl, hhandler _ _ _ rfl⟩
  exact ⟨_, _, _, hrun, .cleanupBurn 0 rfl, rfl, rfl,
    handlers_isolated hrun (.cleanupBurn 0 rfl) rfl (by decide)⟩

/-- **A reissued code.**  A receiver streams session 0 to a slow client.  The cleaner
removes the expired session, `Init` draws the same code for session 1, and the deferred
cleanup of the receiver then closes session 1, which nobody has used, and takes it out of
the table. -/
theorem reissued_code_burned :
    ∃ (trace : List (Label (List Char) × World (List Char))) (w w' : World (List Char)),
      Run (Step (newOptions 0 0 0) id) (World.start 0) trace w ∧
      Step (newOptions 0 0 0) id w (.receiver (some 0)) w' ∧
      w.coord.find sampleCode = some 1 ∧ (w.coord.heap 1).map Session.done = some false ∧
      w'.coord.find sampleCode = none ∧ (w'.coord.heap 1).map Session.done = some true := by
  have hrun : Run (Step (newOptions 0 0 0) id) (World.start 0) _ _ :=
    ((((((((Run.nil.snoc (.init [sampleCode] [] rfl)).snoc
      (.receiveBegin 0 "123456" rfl normalizeCode_sample rfl)).snoc
      (.sendBegin 1 "123456" ⟨"text", ""⟩ rfl normalizeCode_sample rfl)).snoc
      (.receiveConnected 0 rfl rfl rfl)).snoc
      (.tick (Nat.zero_le (3 * minute + 1)))).snoc
      (.clean (3 * minute + 1) (Nat.le_refl _))).snoc
      (.init [sampleCode] [] rfl)).snoc
      (.readEnd 0 rfl)).snoc
      (.cleanupClose 0 rfl)
  exact ⟨_, _, _, hrun, .cleanupBurn 0 rfl, rfl, rfl, rfl, rfl⟩

end Relay
end FlickDrop
