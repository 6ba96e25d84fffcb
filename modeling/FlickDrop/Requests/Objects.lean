import FlickDrop.Requests.Accounts

/-!
# No deliverable or streaming object is scheduled for deletion

Six transactions and the scanner enqueue delete jobs for objects of requests.  Each of them
does so for an object that is dead: no row that refers to it can be accepted or opened any
more, and no body of it streams.  Being dead is stable, since keys are drawn once; so a
scheduled object stays dead.

A streaming body is protected by the row of its request, which keeps the final key and the
instant of the open until `FinishOpen`.  The purge and the scanner leave that row alone for
longer than a stream may take (`World.InTime`).
-/

namespace FlickDrop
namespace Requests

open Foundations Events

/-- At `clock` the row can neither be accepted nor opened any more. -/
def DeadRow (clock : Nat) (row : RequestRow) : Prop :=
  row.state = .consumed ∨ row.expiresAt ≤ clock ∨
    row.state = .uploading ∧ row.reservationExpires ≤ clock

/-- Nothing will be accepted with or read from the object any more. -/
structure Dead (w : World) (key : String) : Prop where
  used : key ∈ w.used
  rows : ∀ id row, w.row id = some row → row.holds key → DeadRow w.clock row
  quiet : ∀ pid id opened, w.flows pid ≠ some (.streaming id key opened)

/-- No stream outlasts the time `Open` allows it. -/
def World.InTime (w : World) : Prop :=
  ∀ pid id key opened, w.flows pid = some (.streaming id key opened) →
    w.clock ≤ opened + openStreamTimeout

/-- The object was opened. -/
structure Spent (w : World) (key : String) : Prop where
  used : key ∈ w.used
  consumed : ∀ id row, w.row id = some row → row.finalKey = some key → row.state = .consumed

/-- The row of a request that keeps an object opened at `opened`. -/
def World.Protects (w : World) (id key : String) (opened : Nat) : Prop :=
  ∃ row, w.row id = some row ∧ row.state = .consumed ∧ row.finalKey = some key ∧
    row.consumedAt = some opened

structure ObjectInv (cfg : Config) (w : World) : Prop where
  inv : Inv cfg w
  inTime : w.InTime
  spent : ∀ pid flow, w.flows pid = some flow → Spent w flow.key
  streaming : ∀ pid id key opened, w.flows pid = some (.streaming id key opened) →
    w.Protects id key opened
  distinct : ∀ pid pid' flow flow', w.flows pid = some flow → w.flows pid' = some flow' →
    flow.key = flow'.key → pid = pid'
  objects : ∀ key, (w.objects key).isSome → key ∈ w.used
  pages : ∀ pid area read page, w.scanners pid = some (.listed area read page) →
    ∀ key ∈ page.keys, key ∈ w.used
  dead : ∀ key, Area.requests.owns key = true → Scheduled cfg.codec w.db.outbox key → Dead w key

/-! ### Only `FinishOpen` takes the object of a consumed row -/

/-- The transaction leaves consumed rows as they are, or deletes them. -/
def KeepsConsumed (db db' : DB) : Prop :=
  ∀ id row, Table.lookup RequestRow.id id db.requests = some row → row.state = .consumed →
    Table.lookup RequestRow.id id db'.requests = some row ∨
      Table.lookup RequestRow.id id db'.requests = none

section

variable {cfg : Config} {env : Env} {now i : Nat} {id token : String} {db db' : DB}
  {row : RequestRow} {receipt : Receipt} {generation : Int}

theorem KeepsConsumed.same (hrows : db'.requests = db.requests) : KeepsConsumed db db' := by
  intro id row hrow _
  rw [hrows]
  exact Or.inl hrow

theorem Updates.keepsConsumed {row' : RequestRow} (h : Updates id row row' db db')
    (hstate : row.state ≠ .consumed) : KeepsConsumed db db' := by
  intro other found hfound hconsumed
  rw [h.lookup other]
  split
  · rename_i heq
    rw [heq, h.found] at hfound
    obtain rfl := Option.some.inj hfound
    exact absurd hconsumed hstate
  · exact Or.inl hfound

theorem endReservationTx_keepsConsumed (hunique : Table.UniqueKey RequestRow.id db.requests)
    (h : endReservationTx cfg env i id generation now db = .ok db') : KeepsConsumed db db' := by
  obtain ⟨row, huploading, -, hupdates⟩ := endReservationTx_updates hunique h
  exact hupdates.keepsConsumed (by rw [huploading]; decide)

theorem clearPayloadTx_keepsConsumed {previousState state : State} {reason : Reason}
    (hunique : Table.UniqueKey RequestRow.id db.requests)
    (hfound : Table.lookup RequestRow.id id db.requests = some row)
    (hstate : row.state = previousState)
    (hprevious : previousState ≠ .consumed)
    (h : clearPayloadTx cfg env id previousState state reason db = .ok db') :
    KeepsConsumed db db' :=
  (clearPayloadTx_updates hunique hfound hstate h).keepsConsumed (hstate.symm ▸ hprevious)

theorem submit_keepsConsumed {input : SubmitInput}
    (hunique : Table.UniqueKey RequestRow.id db.requests)
    (h : submit cfg env id token input db = .commit db' (.ok (some receipt))) :
    KeepsConsumed db db' := by
  obtain ⟨_, _, _, row, _, -, hbegins, hgeneration, -, -, hbody⟩ := submit_cases h
  rcases hbody with ⟨-, -, -, -, rfl⟩ | ⟨hwaiting, -, hdb⟩
  · exact KeepsConsumed.same rfl
  · rw [← hgeneration] at hdb
    have hupdates := Updates.of_waiting hunique hbegins.found hwaiting (congrArg DB.requests hdb)
      (fun _ => rfl)
    exact hupdates.keepsConsumed (by rw [hwaiting]; decide)

theorem acceptTx_keepsConsumed {attempt : Bytes} {a : ObjectAttempt}
    (hunique : Table.UniqueKey RequestRow.id db.requests)
    (h : acceptTx cfg env id token generation attempt a db = .commit db' (.ok (some receipt))) :
    KeepsConsumed db db' := by
  obtain ⟨row, hbegins, rfl, -, -, hbody⟩ := acceptTx_cases h
  rcases hbody with ⟨-, rfl⟩ | ⟨huploading, hfinal, -, -, -, outbox, -, hdb⟩
  · exact KeepsConsumed.same rfl
  · have hupdates := Updates.of_acceptable hunique hbegins.found huploading hfinal
      (congrArg DB.requests hdb)
    exact hupdates.keepsConsumed (by rw [huploading]; decide)

theorem create_keepsConsumed {rawID rawSubmit rawRetrieve : Bytes} {publicKey : String}
    {ttl : Option Int} {created : Created}
    (h : create cfg now rawID rawSubmit rawRetrieve publicKey ttl db = .ok (db', created)) :
    KeepsConsumed db db' := by
  obtain ⟨fingerprint, submitHash, retrieveHash, -, -, -, rfl⟩ := create_cases h
  intro other row hrow _
  rw [Table.lookup_append, hrow]
  exact Or.inl rfl

theorem purgeExpiredTx_keepsConsumed {limit : Nat}
    (hunique : Table.UniqueKey RequestRow.id db.requests)
    (h : purgeExpiredTx cfg env now limit db = .ok db') : KeepsConsumed db db' := by
  obtain ⟨_, mid, _, -, hends, -, h⟩ := purgeExpiredTx_cases h
  obtain ⟨huniqueMid, hended, -⟩ := endReservations_ok hunique hends
  obtain ⟨-, hpurged, -⟩ := purgeRequests_ok huniqueMid h
  intro id row hrow hconsumed
  -- the first loop works on reservations
  have hmid : Table.lookup RequestRow.id id mid.requests = some row := by
    have hkept := hended id
    rw [hrow] at hkept
    generalize Table.lookup RequestRow.id id mid.requests = found at hkept ⊢
    cases hkept with
    | kept => rfl
    | ended _ _ huploading =>
      rw [hconsumed] at huploading
      cases huploading
  rw [hpurged id, hmid]
  split
  · exact Or.inr rfl
  · exact Or.inl rfl

end

/-! ### What the actions do around the tables -/

/-- What an action does to the opened objects. -/
inductive FlowsStep (w w' : World) : Prop
  | same (hflows : w'.flows = w.flows)
  | dropped (pid : Nat) (hflows : w'.flows = Function.update w.flows pid none)
  | closed {id key : String} {opened : Nat} (pid : Nat)
      (hat : w.flows pid = some (.streaming id key opened))
      (hflows : w'.flows = Function.update w.flows pid (some (.finished id key)))
  | opened {id key : String} {row : RequestRow} (pid now : Nat) (hrow : w.row id = some row)
      (hsubmitted : row.state = .submitted) (hfinal : row.finalKey = some key)
      (hclock : w.clock ≤ now) (hearly : now < row.expiresAt)
      (hrow' : w'.row id = some (row.consumeObject now))
      (hflows : w'.flows = Function.update w.flows pid (some (.streaming id key now)))

/-- What an action does to objects, opened objects and listed pages. -/
structure Moves (w w' : World) : Prop where
  flows : FlowsStep w w'
  released : ∀ id row key, w.row id = some row → row.state = .consumed → row.finalKey = some key →
    w'.row id = some row ∨ w'.row id = none ∨ ∃ pid, w.flows pid = some (.finished id key)
  objects : ∀ key, (w'.objects key).isSome → (w.objects key).isSome ∨ key ∈ w'.used
  pages : ∀ pid area read page, w'.scanners pid = some (.listed area read page) →
    w.scanners pid = some (.listed area read page) ∨ ∀ key ∈ page.keys, (w.objects key).isSome

section

variable {cfg : Config} {w w' : World} {drawn : String → String → Prop} {pid opened : Nat}
  {key id : String} {flow : Flow}

theorem KeepsConsumed.released (h : KeepsConsumed w.db w'.db) :
    ∀ id row key, w.row id = some row → row.state = .consumed → row.finalKey = some key →
      w'.row id = some row ∨ w'.row id = none ∨ ∃ pid, w.flows pid = some (.finished id key) := by
  intro id row key hrow hconsumed _
  exact (h id row hrow hconsumed).imp_right Or.inl

/-- An action that writes no object and lists no page. -/
theorem Moves.of_flows (hkeeps : KeepsConsumed w.db w'.db) (hflows : FlowsStep w w')
    (hobjects : w'.objects = w.objects) (hscanners : w'.scanners = w.scanners) : Moves w w' where
  flows := hflows
  released := hkeeps.released
  objects := fun _ hsome => Or.inl (hobjects ▸ hsome)
  pages := fun _ _ _ _ hat => Or.inl (hscanners ▸ hat)

/-- An action of the tables or the calls alone. -/
theorem Moves.of_tables (hkeeps : KeepsConsumed w.db w'.db) (hflows : w'.flows = w.flows)
    (hobjects : w'.objects = w.objects) (hscanners : w'.scanners = w.scanners) : Moves w w' :=
  Moves.of_flows hkeeps (FlowsStep.same hflows) hobjects hscanners

/-- An object is written or deleted. -/
theorem Moves.of_object {body : Option Bytes} (hdb : w'.db = w.db) (hflows : w'.flows = w.flows)
    (hobjects : w'.objects = Function.update w.objects key body)
    (hused : body.isSome → key ∈ w'.used) (hscanners : w'.scanners = w.scanners) : Moves w w' where
  flows := FlowsStep.same hflows
  released := KeepsConsumed.released (KeepsConsumed.same (congrArg DB.requests hdb))
  objects := by
    intro other hsome
    rw [hobjects, Function.update_apply] at hsome
    split at hsome
    · rename_i heq
      exact Or.inr (heq ▸ hused hsome)
    · exact Or.inl hsome
  pages := fun _ _ _ _ hat => Or.inl (hscanners ▸ hat)

/-- A scanner goes on. -/
theorem Moves.of_scanner {scanner : Option Scanner} (hrows : w'.db.requests = w.db.requests)
    (hflows : w'.flows = w.flows) (hobjects : w'.objects = w.objects)
    (hscanners : w'.scanners = Function.update w.scanners pid scanner)
    (hpage : ∀ area read page, scanner = some (.listed area read page) →
      ∀ key ∈ page.keys, (w.objects key).isSome) : Moves w w' where
  flows := FlowsStep.same hflows
  released := KeepsConsumed.released (KeepsConsumed.same hrows)
  objects := fun _ hsome => Or.inl (hobjects ▸ hsome)
  pages := by
    intro pid' area read page hat
    rw [hscanners] at hat
    rcases update_cases hat with ⟨-, hnew⟩ | ⟨-, hold⟩
    · exact Or.inr (hpage area read page hnew)
    · exact Or.inl hold

/-- **Step lemma**, beside `Action.advance`. -/
theorem Action.moves {answers : List Answer} (hinv : Inv cfg w)
    (haction : Action cfg w answers w') : Moves w w' := by
  cases haction with
  | put key body | copyWrite | copyLost =>
    exact Moves.of_object rfl rfl rfl (fun _ => List.mem_cons_self) rfl
  | objectGone key => exact Moves.of_object rfl rfl rfl (fun hsome => by cases hsome) rfl
  | create now rawID rawSubmit rawRetrieve publicKey ttl hnow hfresh hcreate =>
    exact Moves.of_tables (create_keepsConsumed hcreate) rfl rfl rfl
  | expire env henv id token owner hbegin =>
    obtain ⟨generation, hend⟩ := begin_ended hbegin
    exact Moves.of_tables (endReservationTx_keepsConsumed hinv.unique hend) rfl rfl rfl
  | submit env henv id token input hsubmit =>
    exact Moves.of_tables (submit_keepsConsumed hinv.unique hsubmit) rfl rfl rfl
  | reserve env henv rawUpload rawFinal presign id token input hfresh hreserve hanswer =>
    refine Moves.of_tables ?_ rfl rfl rfl
    obtain ⟨_, _, _, row, _, -, hbegins, hgeneration, -, hbody⟩ := reserve_cases hreserve hanswer
    rcases hbody with ⟨-, -, -, hdb, -⟩ | ⟨hwaiting, -, deadline, -, hdb⟩
    · exact KeepsConsumed.same (congrArg DB.requests hdb)
    · rw [← hgeneration] at hdb
      have hupdates := Updates.of_waiting hinv.unique hbegins.found hwaiting
        (congrArg DB.requests hdb) (fun _ => rfl)
      exact hupdates.keepsConsumed (by rw [hwaiting]; decide)
  | attempt env henv id token generation attemptToken hattempt =>
    exact Moves.of_tables
      (KeepsConsumed.same (congrArg DB.requests (attempt_ok hattempt).1)) rfl rfl rfl
  | abandon env henv id token input habandon hanswer =>
    obtain ⟨attempt, row, -, -, -, -, -, hend⟩ := abandon_cases habandon hanswer
    exact Moves.of_tables (endReservationTx_keepsConsumed hinv.unique hend) rfl rfl rfl
  | openInline env henv id token hopen =>
    obtain ⟨row, hbegins, hsubmitted, -, -, -, -, -, -, -, hclear, -⟩ := openTx_cases hopen
    exact Moves.of_tables (clearPayloadTx_keepsConsumed hinv.unique hbegins.found hsubmitted
      (by decide) hclear) rfl rfl rfl
  | openRead pid env henv id token object hfree hopen hobject =>
    exact Moves.of_tables
      (KeepsConsumed.same (congrArg DB.requests (openTx_read hopen))) rfl rfl rfl
  | @openConsume call db after pid env henv hat hfree hconsume =>
    obtain ⟨-, row, hsubmitted, hfinal, hearly, hupdates⟩ :
        Effect cfg (fun _ _ => False) (fun _ => False) w.clock w.clock w.db db ∧ _ :=
      consumeObject_ok hinv.unique henv.lower henv.mono hconsume
    refine Moves.of_flows (hupdates.keepsConsumed (by rw [hsubmitted]; decide)) ?_ rfl rfl
    exact FlowsStep.opened pid (env.now 2) hupdates.found hsubmitted hfinal (henv.lower 2) hearly
      hupdates.self rfl
  | streamEnd pid hat =>
    exact Moves.of_flows (KeepsConsumed.same rfl) (FlowsStep.closed pid hat rfl) rfl rfl
  | streamLost pid =>
    exact Moves.of_flows (KeepsConsumed.same rfl) (FlowsStep.dropped pid rfl) rfl rfl
  | @finishOpen id key db after pid env henv hat hfinish =>
    refine ⟨FlowsStep.dropped pid rfl, ?_, fun _ hsome => Or.inl hsome,
      fun _ _ _ _ hlisted => Or.inl hlisted⟩
    intro id' row key' hrow hconsumed hfinal
    rcases finishOpen_cases hfinish with rfl | ⟨haffected, outbox, -, hdb⟩
    · exact Or.inl hrow
    · obtain ⟨found, -, hkey, hupdates⟩ := Updates.of_holdsObject hinv.unique haffected
        (congrArg DB.requests hdb) (fun _ => rfl)
      by_cases heq : id' = id
      · -- the row that is released is the one whose body was closed
        subst heq
        obtain rfl : found = row := Option.some.inj (hupdates.found.symm.trans hrow)
        obtain rfl : key = key' := Option.some.inj (hkey.symm.trans hfinal)
        exact Or.inr (Or.inr ⟨pid, hat⟩)
      · refine Or.inl ?_
        show Table.lookup RequestRow.id id' db.requests = some row
        rw [hupdates.lookup id', if_neg heq]
        exact hrow
  | revoke env henv id token hrevoke =>
    obtain ⟨row, hbegins, hconsumed, hclear⟩ := revoke_cases hrevoke
    exact Moves.of_tables
      (clearPayloadTx_keepsConsumed hinv.unique hbegins.found rfl hconsumed hclear) rfl rfl rfl
  | purge env now limit hclock hnow hpurge =>
    exact Moves.of_tables (purgeExpiredTx_keepsConsumed hinv.unique hpurge) rfl rfl rfl
  | finalizePass pid env henv hat hphase hfirst | finalizeReceipt pid env henv hat hphase hfirst =>
    exact Moves.of_tables
      (KeepsConsumed.same (congrArg DB.requests (finalizeTx_ok hfirst).1)) rfl rfl rfl
  | accept pid env henv hat hphase hsecond =>
    exact Moves.of_tables (acceptTx_keepsConsumed hinv.unique hsecond) rfl rfl rfl
  | scanListed pid limit page hat hpage hthere =>
    refine Moves.of_scanner rfl rfl rfl rfl ?_
    rintro area read page ⟨⟩
    exact hthere
  | scanBegin | scanReset | scanCommit | scanEnd =>
    exact Moves.of_scanner rfl rfl rfl rfl (fun _ _ _ hlisted => by cases hlisted)
  | tick | outbox | openFail | finalizeEnter | finalizeRefused | finalizeFail | finalizeFollow
  | finalizeLead | copySpool | copyReject | copyFail | acceptRefused | acceptFail | finalizeReturn
  | finalizeShared | acknowledge =>
    exact Moves.of_tables (KeepsConsumed.same rfl) rfl rfl rfl

/-! ### Rows of dead and of opened objects -/

theorem DeadRow.mono {clock after : Nat} {row : RequestRow} (h : DeadRow clock row)
    (hclock : clock ≤ after) : DeadRow after row := by
  rcases h with hconsumed | hexpired | ⟨huploading, helapsed⟩
  · exact Or.inl hconsumed
  · exact Or.inr (Or.inl (hexpired.trans hclock))
  · exact Or.inr (Or.inr ⟨huploading, helapsed.trans hclock⟩)

/-- A dead row is not accepted, -/
theorem DeadRow.not_accepted {clock now : Nat} {row : RequestRow} (h : DeadRow clock row)
    (huploading : row.state = .uploading) (hclock : clock ≤ now)
    (hreserved : now < row.reservationExpires)
    (hearly : now < row.expiresAt) : False := by
  rcases h with hconsumed | hexpired | ⟨-, helapsed⟩
  · rw [huploading] at hconsumed
    cases hconsumed
  · omega
  · omega

/-- and not opened. -/
theorem DeadRow.not_opened {clock now : Nat} {row : RequestRow} (h : DeadRow clock row)
    (hsubmitted : row.state = .submitted) (hclock : clock ≤ now) (hearly : now < row.expiresAt) :
    False := by
  rcases h with hconsumed | hexpired | ⟨huploading, -⟩
  · rw [hsubmitted] at hconsumed
    cases hconsumed
  · omega
  · rw [hsubmitted] at huploading
    cases huploading

/-- A row that holds the key without protecting it is dead. -/
theorem DeadRow.of_unprotected {clock : Nat} {row : RequestRow} (hrow : RowInv row)
    (hholds : row.holds key) (h : row.protects clock key = false) : DeadRow clock row := by
  by_contra hlive
  unfold DeadRow at hlive
  rw [not_or, not_or, Nat.not_le] at hlive
  obtain ⟨hconsumed, hearly, hreserved⟩ := hlive
  -- a reservation that has not elapsed protects both keys
  have hkept : row.state = .uploading → row.protects clock key = true := by
    intro huploading
    have hlate : clock < row.reservationExpires :=
      Nat.lt_of_not_le fun hle => hreserved ⟨huploading, hle⟩
    cases hdeadline : row.reservationExpiresAt with
    | none => simp [RequestRow.reservationExpires, hdeadline] at hlate
    | some deadline =>
      rw [RequestRow.reservationExpires, hdeadline, Option.getD_some] at hlate
      rcases hholds with hkey | hkey <;>
        simp [RequestRow.protects, huploading, hdeadline, hlate, hearly, hkey]
  have hnot : row.state ≠ .uploading := fun huploading => by
    rw [hkept huploading] at h
    cases h
  rcases hholds with hupload | hfinal
  · exact hnot (hrow.upload.mp (by rw [hupload]; rfl))
  · rcases (hrow.final (by rw [hfinal]; rfl)).2 with huploading | hsubmitted | hstate
    · exact hnot huploading
    · simp [RequestRow.protects, hsubmitted, hfinal, hearly] at h
    · exact hconsumed hstate

section

variable {fresh : String → Prop} {new : Prop} {clock after : Nat} {row row' : RequestRow}

/-- While the row holds the key it stays dead. -/
theorem RowStep.dead (h : RowStep fresh new clock after (some row) (some row')) (hrow : RowInv row)
    (hclock : clock ≤ after) (hholds : row.holds key) (hholds' : row'.holds key)
    (hdead : DeadRow clock row) : DeadRow after row' := by
  cases h with
  | kept => exact hdead.mono hclock
  | submitted _ _ _ _ _ _ hwaiting | reserved _ _ hwaiting =>
    obtain ⟨hupload, hfinal⟩ := hrow.waiting_keys hwaiting
    exact absurd hholds (not_holds hupload hfinal)
  | ended | consumedInline | cancelled => exact absurd hholds' (not_holds rfl rfl)
  | accepted _ now huploading hnow hreserved hearly =>
    exact (hdead.not_accepted huploading hnow hreserved hearly).elim
  | consumedObject => exact Or.inl rfl
  | released _ _ hconsumed => exact Or.inl hconsumed

theorem RowStep.stays_consumed (h : RowStep fresh new clock after (some row) (some row'))
    (hconsumed : row.state = .consumed) : row'.state = .consumed := by
  cases h with
  | kept | released => exact hconsumed
  | consumedInline | consumedObject => rfl
  | cancelled _ _ hother => exact absurd hconsumed hother
  | submitted _ _ _ _ _ _ hstate | reserved _ _ hstate | ended _ hstate | accepted _ _ hstate =>
    rw [hconsumed] at hstate
    cases hstate

/-- Only the purge takes a row away. -/
theorem RowStep.gone (h : RowStep fresh new clock after (some row) none) :
    ∃ now, now ≤ after ∧ row.purgeable now = true := by
  cases h with
  | purged _ now hnow hpurgeable => exact ⟨now, hnow, hpurgeable⟩

theorem openStreamTimeout_lt_grace : openStreamTimeout < openObjectGrace :=
  Nat.lt_add_of_pos_right (by decide)

/-- The purge waits until no stream can be left. -/
theorem purgeable_streamed {now : Nat} (h : row.purgeable now = true)
    (hconsumed : row.state = .consumed) (hfinal : row.finalKey = some key)
    (hopened : row.consumedAt = some opened) : opened + openObjectGrace ≤ now := by
  rw [RequestRow.purgeable, Bool.and_eq_true, Bool.not_eq_true'] at h
  simpa [RequestRow.streaming, hconsumed, hfinal, hopened] using h.2

/-- A row keeps its keys within one generation. -/
theorem RowStep.generation_of_holds (h : RowStep fresh new clock after (some row) (some row'))
    (hholds' : row'.holds key) : row'.generation = row.generation := by
  cases h with
  | ended => exact absurd hholds' (not_holds rfl rfl)
  | _ => rfl

end

/-! ### Opened objects -/

/-- A flow was there under its key, or its object is opened now. -/
theorem FlowsStep.origin (h : FlowsStep w w') (hflow : w'.flows pid = some flow) :
    (∃ old, w.flows pid = some old ∧ old.key = flow.key) ∨
      ∃ id row now, w.row id = some row ∧ row.state = .submitted ∧ row.finalKey = some flow.key ∧
        w'.row id = some (row.consumeObject now) ∧ ∀ other, other ≠ pid →
        w'.flows other = w.flows other := by
  cases h with
  | same hflows =>
    rw [hflows] at hflow
    exact Or.inl ⟨flow, hflow, rfl⟩
  | dropped pid' hflows =>
    rw [hflows] at hflow
    rcases update_cases hflow with ⟨-, hnone⟩ | ⟨-, hold⟩
    · cases hnone
    · exact Or.inl ⟨flow, hold, rfl⟩
  | closed pid' hat hflows =>
    rw [hflows] at hflow
    rcases update_cases hflow with ⟨rfl, hclosed⟩ | ⟨-, hold⟩
    · obtain rfl := Option.some.inj hclosed
      exact Or.inl ⟨_, hat, rfl⟩
    · exact Or.inl ⟨flow, hold, rfl⟩
  | opened pid' now hrow hsubmitted hfinal _ _ hrow' hflows =>
    rw [hflows] at hflow
    rcases update_cases hflow with ⟨rfl, hopened⟩ | ⟨-, hold⟩
    · obtain rfl := Option.some.inj hopened
      refine Or.inr ⟨_, _, now, hrow, hsubmitted, hfinal, hrow', fun other hne => ?_⟩
      rw [hflows, Function.update_of_ne hne]
    · exact Or.inl ⟨flow, hold, rfl⟩

/-- A stream was there, or starts now. -/
theorem FlowsStep.streaming_origin (h : FlowsStep w w')
    (hflow : w'.flows pid = some (.streaming id key opened)) :
    w.flows pid = some (.streaming id key opened) ∨
      ∃ row, w.row id = some row ∧ row.state = .submitted ∧ row.finalKey = some key ∧
        w.clock ≤ opened ∧ opened < row.expiresAt ∧
        w'.row id = some (row.consumeObject opened) := by
  cases h with
  | same hflows => exact Or.inl (hflows ▸ hflow)
  | dropped pid' hflows | closed pid' _ hflows =>
    rw [hflows] at hflow
    rcases update_cases hflow with ⟨-, hother⟩ | ⟨-, hold⟩
    · cases hother
    · exact Or.inl hold
  | opened pid' now hrow hsubmitted hfinal hclock hearly hrow' hflows =>
    rw [hflows] at hflow
    rcases update_cases hflow with ⟨-, hopened⟩ | ⟨-, hold⟩
    · cases hopened
      exact Or.inr ⟨_, hrow, hsubmitted, hfinal, hclock, hearly, hrow'⟩
    · exact Or.inl hold

theorem Spent.mono (h : Spent w key) (hadvance : Advance cfg drawn w w') : Spent w' key := by
  refine ⟨hadvance.used h.used, ?_⟩
  intro id row' hrow' hfinal
  have hold : ¬ drawn id key := fun hdrawn => (hadvance.fresh id key hdrawn).1 h.used
  obtain ⟨row, hrow, hfinal', -⟩ := (hadvance.rows id).final_origin hrow' hfinal hold
  have hrows := hadvance.rows id
  rw [hrow, hrow'] at hrows
  exact hrows.stays_consumed (h.consumed id row hrow hfinal')

theorem ObjectInv.spent_step (h : ObjectInv cfg w) (hadvance : Advance cfg drawn w w')
    (hmoves : Moves w w') (hflow : w'.flows pid = some flow) : Spent w' flow.key := by
  rcases hmoves.flows.origin hflow with
    ⟨old, hold, hkey⟩ | ⟨id, row, now, hrow, -, hfinal, hrow', -⟩
  · rw [← hkey]
    exact (h.spent pid old hold).mono hadvance
  · refine ⟨hadvance.used (h.inv.keys id row _ hrow (Or.inr hfinal)), ?_⟩
    -- the row that was opened is the only one with the key
    intro id' found hfound hfinal'
    obtain rfl : id' = id :=
      (hadvance.inv h.inv).apart id' id found (row.consumeObject now) flow.key
      hfound hrow' (Or.inr hfinal') (Or.inr hfinal)
    obtain rfl : row.consumeObject now = found := Option.some.inj (hrow'.symm.trans hfound)
    rfl

theorem ObjectInv.streaming_step (h : ObjectInv cfg w) (hadvance : Advance cfg drawn w w')
    (hmoves : Moves w w') (hinTime : w'.InTime)
    (hflow : w'.flows pid = some (.streaming id key opened)) : w'.Protects id key opened := by
  rcases hmoves.flows.streaming_origin hflow with hold | ⟨row, -, -, hfinal, -, -, hrow'⟩
  · obtain ⟨row, hrow, hconsumed, hfinal, hopened⟩ := h.streaming pid id key opened hold
    rcases hmoves.released id row key hrow hconsumed hfinal with hkept | hgone | ⟨pid', hfinished⟩
    · exact ⟨row, hkept, hconsumed, hfinal, hopened⟩
    · -- a purge would have waited for the end of the stream
      have hrows := hadvance.rows id
      rw [hrow, hgone] at hrows
      obtain ⟨now, hnow, hpurgeable⟩ := hrows.gone
      have hlate := purgeable_streamed hpurgeable hconsumed hfinal hopened
      have hearly := hinTime pid id key opened hflow
      have hgrace := openStreamTimeout_lt_grace
      omega
    · -- the body that was closed would be this one
      obtain rfl : pid' = pid := h.distinct pid' pid _ _ hfinished hold rfl
      rw [hold] at hfinished
      cases hfinished
  · exact ⟨row.consumeObject opened, hrow', rfl, hfinal, rfl⟩

theorem ObjectInv.distinct_step (h : ObjectInv cfg w) (hmoves : Moves w w') {pid' : Nat}
    {flow' : Flow} (hflow : w'.flows pid = some flow) (hflow' : w'.flows pid' = some flow')
    (hkey : flow.key = flow'.key) : pid = pid' := by
  -- a flow that starts meets no older one: its object was not spent
  have hnew : ∀ {a : Nat} {id : String} {row : RequestRow} {old : Flow}, w.row id = some row →
      row.state = .submitted → row.finalKey = some old.key → w.flows a ≠ some old := by
    intro a id row old hrow hsubmitted hfinal hold
    have hconsumed := (h.spent a old hold).consumed id row hrow hfinal
    rw [hsubmitted] at hconsumed
    cases hconsumed
  by_contra hne
  rcases hmoves.flows.origin hflow with ⟨old, hold, holdKey⟩ |
    ⟨id, row, now, hrow, hsubmitted, hfinal, -, hothers⟩
  · rcases hmoves.flows.origin hflow' with ⟨old', hold', holdKey'⟩ |
      ⟨id, row, now, hrow, hsubmitted, hfinal, -, -⟩
    · exact hne (h.distinct pid pid' old old' hold hold' (holdKey.trans (hkey.trans holdKey'.symm)))
    · rw [← hkey, ← holdKey] at hfinal
      exact hnew hrow hsubmitted hfinal hold
  · rw [hothers pid' (Ne.symm hne)] at hflow'
    rw [hkey] at hfinal
    exact hnew hrow hsubmitted hfinal hflow'

/-! ### Dead objects -/

/-- What a row holds of a known key it held before. -/
theorem Advance.held (hadvance : Advance cfg drawn w w') (hused : key ∈ w.used) {row' : RequestRow}
    (hrow' : w'.row id = some row') (hholds : row'.holds key) :
    ∃ row, w.row id = some row ∧ row.holds key ∧ row'.generation = row.generation := by
  rcases (hadvance.rows id).holds_origin hrow' hholds with ⟨row, hrow, hheld⟩ | hdrawn
  · have hrows := hadvance.rows id
    rw [hrow, hrow'] at hrows
    exact ⟨row, hrow, hheld, hrows.generation_of_holds hholds⟩
  · exact absurd hused (hadvance.fresh id key hdrawn).1

/-- **Death is permanent.** -/
theorem Dead.mono (hdead : Dead w key) (hinv : Inv cfg w) (hadvance : Advance cfg drawn w w')
    (hmoves : Moves w w') : Dead w' key := by
  refine ⟨hadvance.used hdead.used, ?_, ?_⟩
  · intro id row' hrow' hholds'
    obtain ⟨row, hrow, hholds, -⟩ := hadvance.held hdead.used hrow' hholds'
    have hrows := hadvance.rows id
    rw [hrow, hrow'] at hrows
    exact hrows.dead (hinv.rows id row hrow) hadvance.clock hholds hholds'
      (hdead.rows id row hrow hholds)
  · intro pid id opened hflow
    rcases hmoves.flows.streaming_origin hflow with hold |
      ⟨row, hrow, hsubmitted, hfinal, hclock, hearly, -⟩
    · exact hdead.quiet pid id opened hold
    · exact (hdead.rows id row hrow (Or.inr hfinal)).not_opened hsubmitted hclock hearly

/-- The object a row lets go of is dead. -/
theorem Dead.of_released (hinv : Inv cfg w) (hadvance : Advance cfg drawn w w')
    (hstreams : ∀ pid id opened, w'.flows pid = some (.streaming id key opened) →
      w'.Protects id key opened) {row : RequestRow} (hrow : w.row id = some row)
    (hholds : row.holds key) (hgone : ∀ row', w'.row id = some row' → ¬ row'.holds key) :
    Dead w' key := by
  have hused := hinv.keys id row key hrow hholds
  have hnobody : ∀ id' row', w'.row id' = some row' → ¬ row'.holds key := by
    intro id' row' hrow' hholds'
    obtain ⟨old, hold, hheld, -⟩ := hadvance.held hused hrow' hholds'
    obtain rfl : id' = id := hinv.apart id' id old row key hold hrow hheld hholds
    exact hgone row' hrow' hholds'
  refine ⟨hadvance.used hused,
    fun id' row' hrow' hholds' => absurd hholds' (hnobody id' row' hrow'), ?_⟩
  intro pid id' opened hflow
  obtain ⟨row', hrow', -, hfinal, -⟩ := hstreams pid id' opened hflow
  exact hnobody id' row' hrow' (Or.inr hfinal)

/-- An object the scanner finds unprotected is dead. -/
theorem Dead.of_unprotected (h : ObjectInv cfg w) (hused : key ∈ w.used)
    (hfree : w.db.requests.any (RequestRow.protects w.clock key) = false) : Dead w key := by
  have hrows : ∀ id row, w.row id = some row → row.protects w.clock key = false := by
    intro id row hrow
    have hall := List.any_eq_false.mp hfree row (Table.lookup_mem hrow)
    exact Bool.eq_false_iff.mpr hall
  refine ⟨hused, ?_, ?_⟩
  · intro id row hrow hholds
    exact DeadRow.of_unprotected (h.inv.rows id row hrow) hholds (hrows id row hrow)
  · intro pid id opened hflow
    obtain ⟨row, hrow, hconsumed, hfinal, hopened⟩ := h.streaming pid id key opened hflow
    have hlate : w.clock < opened + openObjectGrace := by
      have hearly := h.inTime pid id key opened hflow
      have hgrace := openStreamTimeout_lt_grace
      omega
    have hprotects : row.protects w.clock key = true := by
      rw [RequestRow.protects, hopened, Option.any_some, decide_eq_true hlate,
        decide_eq_true hconsumed, decide_eq_true hfinal]
      rfl
    rw [hrows id row hrow] at hprotects
    cases hprotects

theorem ObjectInv.step (h : ObjectInv cfg w) (hadvance : Advance cfg drawn w w')
    (hmoves : Moves w w') (hinTime : w'.InTime) : ObjectInv cfg w' where
  inv := hadvance.inv h.inv
  inTime := hinTime
  spent := fun _ _ hflow => h.spent_step hadvance hmoves hflow
  streaming := fun _ _ _ _ hflow => h.streaming_step hadvance hmoves hinTime hflow
  distinct := fun _ _ _ _ hflow hflow' hkey => h.distinct_step hmoves hflow hflow' hkey
  objects := by
    intro key hsome
    rcases hmoves.objects key hsome with hold | hused
    · exact hadvance.used (h.objects key hold)
    · exact hused
  pages := by
    intro pid area read page hat key hmem
    rcases hmoves.pages pid area read page hat with hold | hthere
    · exact hadvance.used (h.pages pid area read page hold key hmem)
    · exact hadvance.used (h.objects key (hthere key hmem))
  dead := by
    intro key howns hscheduled
    cases hadvance.jobs key howns hscheduled with
    | before hold => exact (h.dead key howns hold).mono h.inv hadvance hmoves
    | released hrow hholds hgone =>
      exact Dead.of_released h.inv hadvance
        (fun _ _ _ hflow => h.streaming_step hadvance hmoves hinTime hflow) hrow hholds hgone
    | unprotected hat hmem _ _ hfree =>
      exact (Dead.of_unprotected h (h.pages _ _ _ _ hat key hmem) hfree).mono h.inv hadvance hmoves

/-! ### The fate of a reservation -/

/-- A reservation is kept, is lost for its attempt, or is accepted in time. -/
theorem RowStep.of_uploading {fresh : String → Prop} {new : Prop} {clock after : Nat}
    {row : RequestRow} {found' : Option RequestRow} {hash : Bytes}
    (h : RowStep fresh new clock after (some row) found') (huploading : row.state = .uploading) :
    found' = some row ∨ (∀ row', found' = some row' → row'.Lost row.generation hash) ∨
      movedToSubmitted (some row) found' = some row.acceptance ∧
        ∃ now, clock ≤ now ∧ now < row.reservationExpires ∧ now < row.expiresAt := by
  cases h with
  | kept => exact Or.inl rfl
  | ended =>
    refine Or.inr (Or.inl ?_)
    rintro _ ⟨⟩
    by_cases hlast : row.generation = maxGeneration
    · refine Or.inr ⟨if_pos hlast, ?_, (fun hsome => by cases hsome)⟩
      show (if row.generation = maxGeneration then _ else _) ≠ State.waiting
      rw [if_pos hlast]
      decide
    · refine Or.inl ?_
      show row.generation < if row.generation = maxGeneration then _ else _
      rw [if_neg hlast]
      omega
  | cancelled =>
    refine Or.inr (Or.inl ?_)
    rintro _ ⟨⟩
    refine Or.inr ⟨rfl, (fun hstate => by cases hstate), ?_⟩
    show (if row.state = .uploading then none else _) ≠ some hash
    rw [if_pos huploading]
    exact fun hsome => by cases hsome
  | purged => exact Or.inr (Or.inl fun _ hsome => by cases hsome)
  | accepted _ now _ hclock hreserved hearly =>
    refine Or.inr (Or.inr ⟨?_, now, hclock, hreserved, hearly⟩)
    exact movedToSubmitted_of_moved (by rw [huploading]; decide) rfl
  | submitted _ _ _ _ _ _ hstate | reserved _ _ hstate | consumedInline _ _ hstate
  | consumedObject _ _ _ hstate | released _ _ hstate =>
    rw [huploading] at hstate
    cases hstate

/-- A reserved attempt in a later state: its row is as it was, it is lost, or it was
accepted in between. -/
theorem fate_of_run {mid : World} {later : List (Label × World)} {row : RequestRow} {hash : Bytes}
    (hinv : Inv cfg mid) (hrow : mid.row id = some row) (huploading : row.state = .uploading)
    (hrun : Run (Step cfg) mid later w) :
    w.row id = some row ∨ w.Lost id row.generation hash ∨
    row.acceptance ∈ acceptances later id := by
  have hboth : Inv cfg w ∧ (w.row id = some row ∨ w.Lost id row.generation hash ∨
      row.acceptance ∈ acceptances later id) := by
    refine Run.history_invariant (fun later w => Inv cfg w ∧ (w.row id = some row ∨
      w.Lost id row.generation hash ∨ row.acceptance ∈ acceptances later id))
      ⟨hinv, Or.inl hrow⟩ ?_ hrun
    intro later s label s' _ hpast hstep
    obtain ⟨hinv, hfate⟩ := hpast
    refine ⟨hstep.inv hinv, ?_⟩
    rw [acceptances_append]
    rcases hfate with hrow | hlost | hmem
    · obtain ⟨drawn, hadvance⟩ := hstep.1.advance hinv
      have hrows := hadvance.rows id
      rw [hrow] at hrows
      rcases hrows.of_uploading huploading with hkept | hlost | ⟨hmoved, -⟩
      · exact Or.inl hkept
      · exact Or.inr (Or.inl ⟨hadvance.known (hinv.issued id row hrow), hlost⟩)
      · refine Or.inr (Or.inr (List.mem_append_right _ ?_))
        have haccepted : label.accepted id = some row.acceptance := by
          rw [hstep.2, ← hmoved, ← hrow]
        rw [acceptances_single, haccepted]
        exact List.mem_singleton_self _
    · exact Or.inr (Or.inl (hstep.lost hinv hlost))
    · exact Or.inr (Or.inr (List.mem_append_left _ hmem))
  exact hboth.2

/-! ### Runs -/

/-- A step after which every stream is within its time. -/
def TimelyStep (cfg : Config) (w : World) (label : Label) (w' : World) : Prop :=
  Step cfg w label w' ∧ w'.InTime

theorem ObjectInv.start (cfg : Config) (clock : Nat) : ObjectInv cfg (World.start clock) where
  inv := Inv.start cfg clock
  inTime := by
    intro pid id key opened hflow
    cases hflow
  spent := by
    intro pid flow hflow
    cases hflow
  streaming := by
    intro pid id key opened hflow
    cases hflow
  distinct := by
    intro pid pid' flow flow' hflow
    cases hflow
  objects := by
    intro key hsome
    cases hsome
  pages := by
    intro pid area read page hat
    cases hat
  dead := by
    rintro key - ⟨row, hrow, -⟩
    cases hrow

variable {label : Label} {clock : Nat} {trace later : List (Label × World)} {final : World}
  {row : RequestRow} {hash : Bytes} {id : String}

theorem TimelyStep.inv (hstep : TimelyStep cfg w label w') (h : ObjectInv cfg w) :
    ObjectInv cfg w' := by
  obtain ⟨drawn, hadvance⟩ := hstep.1.1.advance h.inv
  exact h.step hadvance (hstep.1.1.moves h.inv) hstep.2

theorem TimelyStep.dead (hstep : TimelyStep cfg w label w') (h : ObjectInv cfg w)
    (hdead : Dead w key) : Dead w' key := by
  obtain ⟨drawn, hadvance⟩ := hstep.1.1.advance h.inv
  exact hdead.mono h.inv hadvance (hstep.1.1.moves h.inv)

theorem objectInv_of_run (hrun : Run (TimelyStep cfg) (World.start clock) trace w) :
    ObjectInv cfg w :=
  Run.invariant (ObjectInv cfg) (ObjectInv.start cfg clock) (fun _ _ _ h hstep => hstep.inv h) hrun

/-- **Run lemma.**  A dead object stays dead. -/
theorem dead_of_run (h : ObjectInv cfg w) (hdead : Dead w key)
    (hlater : Run (TimelyStep cfg) w later final) : ObjectInv cfg final ∧ Dead final key := by
  refine Run.invariant (fun w => ObjectInv cfg w ∧ Dead w key) ⟨h, hdead⟩ ?_ hlater
  rintro w label w' ⟨h, hdead⟩ hstep
  exact ⟨hstep.inv h, hstep.dead h hdead⟩

/-- An open that consumes an object finds its row submitted and not expired. -/
theorem Action.consumed_ok {answers : List Answer} {now : Nat} (hinv : Inv cfg w)
    (haction : Action cfg w answers w') (hmem : Answer.consumed id key now ∈ answers) :
    ∃ row, w.row id = some row ∧ row.state = .submitted ∧ row.finalKey = some key ∧ w.clock ≤ now ∧
      now < row.expiresAt := by
  cases haction with
  | @openConsume call db after pid env henv hat hfree hconsume =>
    cases List.mem_singleton.mp hmem
    obtain ⟨-, row, hsubmitted, hfinal, hearly, hupdates⟩ :
        Effect cfg (fun _ _ => False) (fun _ => False) w.clock w.clock w.db db ∧ _ :=
      consumeObject_ok hinv.unique henv.lower henv.mono hconsume
    exact ⟨row, hupdates.found, hsubmitted, hfinal, henv.lower 2, hearly⟩
  | reserve =>
    obtain ⟨_, -, -, heq⟩ := mem_reservedAnswers hmem
    cases heq
  | finalizeReceipt =>
    rcases List.mem_cons.mp hmem with heq | hmem
    · cases heq
    · cases List.mem_singleton.mp hmem
  | submit | attempt | copyReject | finalizeRefused | finalizeFail | finalizeReturn
  | finalizeShared | accept => cases List.mem_singleton.mp hmem
  | _ => cases hmem

/-- No step opens a dead object. -/
theorem TimelyStep.not_consumed (hstep : TimelyStep cfg w label w') (h : ObjectInv cfg w)
    (hdead : Dead w key) (id : String) (now : Nat) : .consumed id key now ∉ label.answers := by
  intro hmem
  obtain ⟨row, hrow, hsubmitted, hfinal, hclock, hearly⟩ := hstep.1.1.consumed_ok h.inv hmem
  exact (hdead.rows id row hrow (Or.inr hfinal)).not_opened hsubmitted hclock hearly

/-- What refers to a dead object in a later state did so when it died, in the same
generation. -/
theorem held_of_run (h : ObjectInv cfg w) (hdead : Dead w key)
    (hlater : Run (TimelyStep cfg) w later final) {row' : RequestRow}
    (hrow' : final.row id = some row') (hholds : row'.holds key) :
    ∃ row, w.row id = some row ∧ row.holds key ∧ row'.generation = row.generation := by
  induction hlater generalizing row' with
  | nil => exact ⟨row', hrow', hholds, rfl⟩
  | snoc hfront hstep ih =>
    obtain ⟨hmid, hdeadMid⟩ := dead_of_run h hdead hfront
    obtain ⟨drawn, hadvance⟩ := hstep.1.1.advance hmid.inv
    obtain ⟨mid, hrowMid, hheld, hgeneration⟩ := hadvance.held hdeadMid.used hrow' hholds
    obtain ⟨row, hrow, hheld, hsame⟩ := ih hrowMid hheld
    exact ⟨row, hrow, hheld, hgeneration.trans hsame⟩

/-- A reservation whose upload is dead loses its attempt, or stays as it is. -/
theorem TimelyStep.stuck (hstep : TimelyStep cfg w label w') (h : ObjectInv cfg w)
    (hdead : Dead w key) (hrow : w.row id = some row) (hupload : row.uploadKey = some key) :
    w'.row id = some row ∨ w'.Lost id row.generation hash := by
  obtain ⟨drawn, hadvance⟩ := hstep.1.1.advance h.inv
  have huploading := (h.inv.rows id row hrow).upload.mp (by rw [hupload]; rfl)
  have hrows := hadvance.rows id
  rw [hrow] at hrows
  rcases hrows.of_uploading huploading with hkept | hlost | ⟨-, now, hclock, hreserved, hearly⟩
  · exact Or.inl hkept
  · exact Or.inr ⟨hadvance.known (h.inv.issued id row hrow), hlost⟩
  · exact ((hdead.rows id row hrow (Or.inl hupload)).not_accepted huploading hclock hreserved
      hearly).elim

/-- A reservation whose upload is dead is never accepted. -/
theorem never_accepted (h : ObjectInv cfg w) (hdead : Dead w key) (hrow : w.row id = some row)
    (hupload : row.uploadKey = some key) (hlater : Run (TimelyStep cfg) w later final) :
    ∀ t ∈ acceptances later id, ¬ (t.generation = row.generation ∧ t.attempt = some hash) := by
  have huploading := (h.inv.rows id row hrow).upload.mp (by rw [hupload]; rfl)
  -- along the run the row stays as it is until the attempt is lost
  have hstuck : (final.row id = some row ∨ final.Lost id row.generation hash) ∧
      ∀ t ∈ acceptances later id, ¬ (t.generation = row.generation ∧ t.attempt = some hash) := by
    refine Run.history_invariant (fun later w => (w.row id = some row ∨
      w.Lost id row.generation hash) ∧
        ∀ t ∈ acceptances later id, ¬ (t.generation = row.generation ∧ t.attempt = some hash))
      ⟨Or.inl hrow, fun t ht => by cases ht⟩ ?_ hlater
    intro later s label s' hfront hpast hstep
    obtain ⟨hs, hdeadS⟩ := dead_of_run h hdead hfront
    have hnext : s'.row id = some row ∨ s'.Lost id row.generation hash := by
      rcases hpast.1 with hrow | hlost
      · exact hstep.stuck hs hdeadS hrow hupload
      · exact Or.inr (hstep.1.lost hs.inv hlost)
    refine ⟨hnext, ?_⟩
    intro t ht
    rw [acceptances_append, List.mem_append, acceptances_single, Option.mem_toList] at ht
    rcases ht with hpastT | haccepted
    · exact hpast.2 t hpastT
    · rintro ⟨hgeneration, hattempt⟩
      rcases hnext with hkept | hlost
      · have hnone : label.accepted id = none := by
          rw [hstep.1.2]
          dsimp only
          rw [hkept]
          exact movedToSubmitted_of_ne (by rw [huploading]; decide)
        rw [hnone] at haccepted
        cases haccepted
      · obtain ⟨row', hrow', rfl⟩ := hstep.1.accepted_ok haccepted
        rcases hlost.2 row' hrow' with hlate | ⟨-, -, hother⟩
        · exact absurd hgeneration (ne_of_gt hlate)
        · exact hother hattempt
  exact hstuck.2

theorem TimelyStep.toRun (hrun : Run (TimelyStep cfg) w later final) :
    Run (Step cfg) w later final :=
  Run.mono (fun _ _ _ hstep => hstep.1) hrun

/-- **A deliverable or streaming object is never scheduled for deletion.**  In every run in
which no stream outlasts its time:

* once a delete job for an object of the requests area is in the outbox, in whatever follows
  no open consumes a request with that object, what refers to the object is of the
  generation that drew it, and no body of it streams;
* every attempt that ever had the object as its upload was accepted before, or is never
  accepted;
* the row of a streaming body is there, with the key and the instant it was opened at: no
  purge took it. -/
theorem deliverable_object_never_scheduled
    (hrun : Run (TimelyStep cfg) (World.start clock) trace w) :
    (∀ key, Area.requests.owns key = true → Scheduled cfg.codec w.db.outbox key →
      ∀ later final, Run (TimelyStep cfg) w later final →
        (∀ label ∈ labels later, ∀ id now, .consumed id key now ∉ label.answers) ∧
        (∀ id row', final.row id = some row' → row'.holds key →
          ∃ row, w.row id = some row ∧ row.holds key ∧ row'.generation = row.generation) ∧
        (∀ pid id opened, final.flows pid ≠ some (.streaming id key opened)) ∧
        ∀ label mid id row, (label, mid) ∈ trace → mid.row id = some row →
          row.uploadKey = some key →
          row.acceptance ∈ acceptances trace id ∨
          ∀ t ∈ acceptances later id,
            ¬ (t.generation = row.generation ∧ t.attempt = row.attemptTokenHash)) ∧
    ∀ pid id key opened, w.flows pid = some (.streaming id key opened) →
      ∃ row, w.row id = some row ∧ row.state = .consumed ∧ row.finalKey = some key ∧
        row.consumedAt = some opened := by
  have hinv := objectInv_of_run hrun
  refine ⟨?_, hinv.streaming⟩
  intro key howns hscheduled later final hlater
  have hdead := hinv.dead key howns hscheduled
  refine ⟨?_, fun _ _ => held_of_run hinv hdead hlater, (dead_of_run hinv hdead hlater).2.quiet, ?_⟩
  · intro label hlabel
    obtain ⟨⟨_, after⟩, hentry, rfl⟩ := List.mem_map.mp hlabel
    obtain ⟨front, back, rfl⟩ := List.append_of_mem hentry
    obtain ⟨before, hfront, hstep, -⟩ := hlater.split
    obtain ⟨hbefore, hdeadBefore⟩ := dead_of_run hinv hdead hfront
    exact hstep.not_consumed hbefore hdeadBefore
  · intro label mid id row hentry hrow hupload
    obtain ⟨front, back, rfl⟩ := List.append_of_mem hentry
    obtain ⟨before, hfront, hstep, hback⟩ := hrun.split
    have hmid := objectInv_of_run (hfront.snoc hstep)
    have huploading := (hmid.inv.rows id row hrow).upload.mp (by rw [hupload]; rfl)
    obtain ⟨hash, hhash⟩ := Option.isSome_iff_exists.mp
      ((hmid.inv.rows id row hrow).attempted (Or.inl huploading))
    rw [hhash]
    rcases fate_of_run hmid.inv hrow huploading (TimelyStep.toRun hback) with hkept | hlost | hmem
    · exact Or.inr (never_accepted hinv hdead hkept hupload hlater)
    · exact Or.inr (lost_of_run hinv.inv hlost (TimelyStep.toRun hlater))
    · refine Or.inl ?_
      rw [List.append_cons, acceptances_append]
      exact List.mem_append_right _ hmem

end

/-- A reservation is given up, which schedules both its objects. -/
theorem deliverable_object_never_scheduled_abandoned :
    ∃ (trace : List (Label × World)) (w : World),
      Run (TimelyStep (digestConfig sampleCodec)) (World.start 1) trace w ∧
      Scheduled sampleCodec w.db.outbox sampleUploadKey ∧
      Scheduled sampleCodec w.db.outbox sampleFinalKey ∧
      (∀ pid id opened, w.flows pid ≠ some (.streaming id sampleFinalKey opened)) ∧
      ∃ label mid row, (label, mid) ∈ trace ∧ mid.row sampleID = some row ∧
        row.uploadKey = some sampleUploadKey ∧
        (row.acceptance ∈ acceptances trace sampleID ∨
          ∀ t ∈ acceptances [] sampleID,
            ¬ (t.generation = row.generation ∧ t.attempt = row.attemptTokenHash)) := by
  have hquiet : ∀ w : World, w.flows = (fun _ => none) → w.InTime := by
    intro w hflows pid id key opened hflow
    rw [hflows] at hflow
    cases hflow
  obtain ⟨label, hreserve⟩ :
    ∃ label, Step (digestConfig sampleCodec) sampleWorld label reservedWorld :=
    ⟨_, sample_reservation.step⟩
  have hreserved : Run (TimelyStep (digestConfig sampleCodec)) (World.start 1) _ reservedWorld :=
    (Run.nil.snoc ⟨sample_creation.step, hquiet _ rfl⟩).snoc ⟨hreserve, hquiet _ rfl⟩
  have hrun := hreserved.snoc ⟨sample_abandonment.step, hquiet _ rfl⟩
  have hupload : Scheduled sampleCodec abandonedDB.outbox sampleUploadKey :=
    ⟨_, List.mem_cons_self, objectEvent "job-1" sampleUploadKey .orphan 1, ⟨rfl, rfl⟩, rfl, rfl⟩
  have hfinal : Scheduled sampleCodec abandonedDB.outbox sampleFinalKey :=
    ⟨_, List.mem_cons_of_mem _ List.mem_cons_self, objectEvent "job-2" sampleFinalKey .orphan 1,
      ⟨rfl, rfl⟩, rfl, rfl⟩
  obtain ⟨hscheduled, -⟩ := deliverable_object_never_scheduled hrun
  obtain ⟨-, -, hflows, -⟩ := hscheduled sampleFinalKey (by decide) hfinal [] _ Run.nil
  obtain ⟨-, -, -, hattempts⟩ := hscheduled sampleUploadKey (by decide) hupload [] _ Run.nil
  have hrow : reservedWorld.row sampleID = some reservedRow := rfl
  have hkey : reservedRow.uploadKey = some sampleUploadKey := rfl
  refine ⟨_, _, hrun, hupload, hfinal, hflows, label, reservedWorld, reservedRow, ?_, hrow, hkey,
    hattempts label _ _ _ ?_ hrow hkey⟩
  · exact List.mem_append_left _ (List.mem_append_right _ (List.mem_singleton_self _))
  · exact List.mem_append_left _ (List.mem_append_right _ (List.mem_singleton_self _))

end Requests
end FlickDrop
