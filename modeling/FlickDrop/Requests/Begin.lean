import FlickDrop.Requests.Accounts

/-!
# The recursion of `begin`

`Store.begin` opens a write transaction on the row of a request.  When it finds an elapsed
reservation it ends it, commits, and calls itself.  Between two calls the other clients may
do whatever the system allows, so the next call may find another elapsed reservation of the
same request.

What bounds the recursion is the rank of the row: its generation, and one more than the
last generation once the request is unavailable.  No action lowers the rank of a request,
and every call that goes on has raised it.

A pass is modelled with the connection and the transaction it takes, and with the faults of
the database.  It takes the writer of the database before it reads, so nobody commits
between its read and its own commit.
-/

namespace FlickDrop
namespace Requests

open Foundations Events

/-! ### Connections and transactions -/

/-- What a call of `begin` holds: its connection, a `sql.Tx` that is not done, and a
transaction that is open in the database. -/
structure Handle where
  conn : Bool
  tx : Bool
  active : Bool
  deriving DecidableEq, Repr

/-- Nothing is held. -/
def Handle.closed : Handle := ⟨false, false, false⟩

/-- After `Conn`. -/
def Handle.connected : Handle := ⟨true, false, false⟩

/-- After `BeginTx`. -/
def Handle.opened : Handle := ⟨true, true, true⟩

/-- `Rollback`; on a `sql.Tx` that is done it does nothing. -/
def Handle.rollback (h : Handle) : Handle :=
  if h.tx then { h with tx := false, active := false } else h

/-- `Conn.Close`. -/
def Handle.closeConn (h : Handle) : Handle := { h with conn := false }

/-- `writeTx.close`. -/
def Handle.close (h : Handle) : Handle := h.rollback.closeConn

/-- `Tx.Commit`, which marks the `sql.Tx` done also when it fails; then the transaction
stays open in the database. -/
def Handle.commit (fails : Bool) (h : Handle) : Handle := { h with tx := false, active := fails }

/-- The explicit rollback after a failed commit.  If it fails too the connection is
discarded, which ends the transaction as well. -/
def Handle.abort (h : Handle) : Handle := { h with active := false }

/-! ### One pass -/

/-- Where the database or the context fails in a pass. -/
structure BeginFaults where
  conn : Bool
  beginTx : Bool
  update : Bool
  select : Bool
  endReservation : Bool
  commit : Bool
  deriving DecidableEq, Repr

def BeginFaults.none : BeginFaults := ⟨false, false, false, false, false, false⟩

/-- `Store.begin` up to its recursive call, with what it holds at the end. -/
def beginPass (cfg : Config) (env : Env) (faults : BeginFaults) (id token : String) (owner : Bool)
    (db : DB) : Begun × Handle :=
  match tokenHash cfg.sha256 token with
  | .error _ => (.failed .unavailable, Handle.closed)
  | .ok hash =>
    if faults.conn then
      (.failed .other, Handle.closed)
    else if faults.beginTx then
      (.failed .other, Handle.connected.closeConn)
    else if faults.update ∨ faults.select then
      (.failed .other, Handle.opened.close)
    else
      match authorized (env.now 0) id hash owner db.requests with
      | .error err => (.failed err, Handle.opened.close)
      | .ok row =>
        if row.state = .uploading ∧ row.reservationExpires ≤ env.now 1 then
          if faults.endReservation then
            (.failed .other, Handle.opened.close)
          else
            match endReservationTx cfg env 0 id row.generation (env.now 2) db with
            | .error err => (.failed err, Handle.opened.close)
            | .ok db =>
              if row.expiresAt ≤ env.now 3 then
                (.failed .unavailable, Handle.opened.close)
              else if faults.commit then
                (.failed .other, (Handle.opened.commit true).abort.close)
              else
                (.ended db, (Handle.opened.commit false).close)
        else
          (.opened row, Handle.opened)

section

variable {cfg : Config} {env : Env} {faults : BeginFaults} {id token : String} {owner : Bool}
  {db db' : DB} {row : RequestRow} {handle : Handle}

/-- Without faults a pass is the one of the system. -/
theorem beginPass_none :
    (beginPass cfg env BeginFaults.none id token owner db).1 = begin cfg env id token owner db := by
  unfold beginPass begin
  simp only [BeginFaults.none, Bool.false_eq_true, if_false, or_self]
  cases tokenHash cfg.sha256 token with
  | error err => rfl
  | ok hash =>
    dsimp only
    cases authorized (env.now 0) id hash owner db.requests with
    | error err => rfl
    | ok row =>
      dsimp only
      split
      · cases endReservationTx cfg env 0 id row.generation (env.now 2) db with
        | error err => rfl
        | ok db =>
          dsimp only
          split <;> rfl
      · rfl

/-- How a pass ends: with an error, or like the one of the system; it holds something only
if its transaction is open. -/
inductive PassOutcome (cfg : Config) (env : Env) (id token : String) (owner : Bool) (db : DB) :
    Begun × Handle → Prop
  | failed (err : Err) : PassOutcome cfg env id token owner db (.failed err, Handle.closed)
  | ended (db' : DB) (h : begin cfg env id token owner db = .ended db') :
      PassOutcome cfg env id token owner db (.ended db', Handle.closed)
  | opened (row : RequestRow) (h : begin cfg env id token owner db = .opened row) :
      PassOutcome cfg env id token owner db (.opened row, Handle.opened)

theorem beginPass_outcome (faults : BeginFaults) :
    PassOutcome cfg env id token owner db (beginPass cfg env faults id token owner db) := by
  -- the pass is walked next to the one without faults, which it follows up to its first fault
  have hbegin : begin cfg env id token owner db = begin cfg env id token owner db := rfl
  unfold beginPass
  conv at hbegin => lhs; unfold begin
  cases hhash : tokenHash cfg.sha256 token with
  | error err => exact PassOutcome.failed _
  | ok hash =>
    rw [hhash] at hbegin
    dsimp only at hbegin ⊢
    split
    · exact PassOutcome.failed _
    split
    · exact PassOutcome.failed _
    split
    · exact PassOutcome.failed _
    cases hauthorized : authorized (env.now 0) id hash owner db.requests with
    | error err => exact PassOutcome.failed _
    | ok row =>
      rw [hauthorized] at hbegin
      dsimp only at hbegin ⊢
      split
      · rename_i helapsed
        rw [if_pos helapsed] at hbegin
        split
        · exact PassOutcome.failed _
        cases hend : endReservationTx cfg env 0 id row.generation (env.now 2) db with
        | error err => exact PassOutcome.failed _
        | ok db' =>
          rw [hend] at hbegin
          dsimp only at hbegin ⊢
          split
          · exact PassOutcome.failed _
          · rename_i hearly
            rw [if_neg hearly] at hbegin
            split
            · exact PassOutcome.failed _
            · exact PassOutcome.ended db' hbegin.symm
      · rename_i hlive
        rw [if_neg hlive] at hbegin
        exact PassOutcome.opened row hbegin.symm

end

/-! ### The rank of a request -/

/-- The generation, or one more than the last when the request is unavailable. -/
def RequestRow.rank (row : RequestRow) : Int :=
  if row.state = .unavailable then maxGeneration + 1 else row.generation

variable {row row' : RequestRow}

theorem RequestRow.rank_of_available (h : row.state ≠ .unavailable) : row.rank = row.generation :=
  if_neg h

theorem RowInv.one_le_rank (h : RowInv row) : 1 ≤ row.rank := by
  unfold RequestRow.rank
  split
  · decide
  · exact h.first

theorem RowInv.generation_le_rank (h : RowInv row) : row.generation ≤ row.rank := by
  have hlast := h.last
  unfold RequestRow.rank
  split <;> omega

/-- Ending a reservation raises the rank. -/
theorem rank_endReservation (huploading : row.state = .uploading) :
    row.rank < (row.endReservation row.generation).rank ∧
      (row.generation < (row.endReservation row.generation).generation ∨
        (row.endReservation row.generation).state = .unavailable) := by
  rw [RequestRow.rank_of_available (by rw [huploading]; decide)]
  by_cases hlast : row.generation = maxGeneration
  · have hstate : (row.endReservation row.generation).state = .unavailable := if_pos hlast
    refine ⟨?_, Or.inr hstate⟩
    rw [RequestRow.rank, if_pos hstate]
    omega
  · have hstate : (row.endReservation row.generation).state = .waiting := if_neg hlast
    have hgeneration : (row.endReservation row.generation).generation = row.generation + 1 :=
      if_neg hlast
    rw [RequestRow.rank_of_available (by rw [hstate]; decide), hgeneration]
    exact ⟨by omega, Or.inl (by omega)⟩

theorem RequestRow.rank_le_of (hrow : row.state ≠ .unavailable) (hrow' : row'.state ≠ .unavailable)
    (hsame : row'.generation = row.generation) : row.rank ≤ row'.rank := by
  rw [RequestRow.rank_of_available hrow, RequestRow.rank_of_available hrow', hsame]

/-- No step lowers the rank of a row. -/
theorem RowStep.rank_le {fresh : String → Prop} {new : Prop} {clock after : Nat}
    (h : RowStep fresh new clock after (some row) (some row')) : row.rank ≤ row'.rank := by
  cases h with
  | kept => exact le_refl _
  | ended _ huploading => exact (rank_endReservation huploading).1.le
  | submitted _ _ _ _ _ _ hstate | reserved _ _ hstate | accepted _ _ hstate
  | consumedInline _ _ hstate | consumedObject _ _ _ hstate =>
    exact RequestRow.rank_le_of (by rw [hstate]; decide) (fun hother => by injection hother) rfl
  | released _ _ hstate =>
    exact RequestRow.rank_le_of (by rw [hstate]; decide)
      (by rw [RequestRow.releaseObject, hstate]; decide) rfl
  | cancelled _ _ _ havailable =>
    exact RequestRow.rank_le_of havailable (fun hother => by injection hother) rfl

/-- From now on every row of the request has at least this rank. -/
structure World.Floor (w : World) (id : String) (rank : Int) : Prop where
  known : rank ≤ 1 ∨ id ∈ w.issued
  rows : ∀ row, w.row id = some row → rank ≤ row.rank

section

variable {cfg : Config} {w w' : World} {label : Label} {clock : Nat} {trace : List (Label × World)}
  {id : String} {rank : Int}

theorem World.Floor.mono (h : w.Floor id rank) {lower : Int} (hle : lower ≤ rank) :
    w.Floor id lower :=
  ⟨h.known.imp_left hle.trans, fun row hrow => hle.trans (h.rows row hrow)⟩

/-- Every request has rank 1 or more. -/
theorem Inv.floor_one (hinv : Inv cfg w) (id : String) : w.Floor id 1 :=
  ⟨Or.inl (le_refl 1), fun row hrow => (hinv.rows id row hrow).one_le_rank⟩

/-- The row that is there gives a floor. -/
theorem Inv.floor_row (hinv : Inv cfg w) (hrow : w.row id = some row) : w.Floor id row.rank := by
  refine ⟨Or.inr (hinv.issued id row hrow), ?_⟩
  intro row' hrow'
  obtain rfl := Option.some.inj (hrow.symm.trans hrow')
  exact le_refl _

theorem Step.floor (hstep : Step cfg w label w') (hinv : Inv cfg w) (h : w.Floor id rank) :
    w'.Floor id rank := by
  obtain ⟨drawn, hadvance⟩ := hstep.1.advance hinv
  refine ⟨h.known.imp_right fun hissued => hadvance.known hissued, ?_⟩
  intro row' hrow'
  have hrows := hadvance.rows id
  rcases hrows.origin hrow' with hnew | ⟨row, hrow, -⟩
  · -- a new request starts at the bottom
    have hle : rank ≤ 1 := h.known.resolve_right hnew.1
    exact hle.trans ((hstep.inv hinv).rows id row' hrow').one_le_rank
  · rw [hrow, hrow'] at hrows
    exact (h.rows row hrow).trans hrows.rank_le

/-- **Run lemma.**  Whatever the others do, the floor stays. -/
theorem floor_of_run (hinv : Inv cfg w) (h : w.Floor id rank) (hrun : Run (Step cfg) w trace w') :
    Inv cfg w' ∧ w'.Floor id rank := by
  refine Run.invariant (fun w => Inv cfg w ∧ w.Floor id rank) ⟨hinv, h⟩ ?_ hrun
  rintro s label s' ⟨hinv, hfloor⟩ hstep
  exact ⟨hstep.inv hinv, hstep.floor hinv hfloor⟩

/-- A pass that goes on has found a reservation and raised the rank of its row. -/
theorem begin_ended_rank (hinv : Inv cfg w) {env : Env} {token : String} {owner : Bool} {db : DB}
    {after : Nat} (h : begin cfg env id token owner w.db = .ended db) :
    ∃ row row', w.row id = some row ∧ (w.setDB after db).row id = some row' ∧
      row.state = .uploading ∧ row.rank < row'.rank ∧
      (row.generation < row'.generation ∨ row'.state = .unavailable) := by
  obtain ⟨generation, hend⟩ := begin_ended h
  obtain ⟨row, huploading, rfl, hupdates⟩ := endReservationTx_updates hinv.unique hend
  exact ⟨row, _, hupdates.found, hupdates.self, huploading, rank_endReservation huploading⟩

end

/-! ### The recursion -/

/-- The environment of the calls: what the other clients did before the `n`-th call, its
clock readings and its faults.  All of it may depend on the state. -/
structure Adversary (cfg : Config) where
  before : Nat → World → World
  env : Nat → World → Env
  after : Nat → World → Nat
  faults : Nat → World → BeginFaults
  run : ∀ n w, ∃ trace, Run (Step cfg) w trace (before n w)
  within : ∀ n w, (env n w).Within w.clock (after n w)

/-- How a call of `begin` came back: the answer, the readings and the state of its last
pass, what each pass still holds, and the row of the request before and after each commit
that a recursive call followed. -/
structure BeginResult where
  answer : Except Err RequestRow
  env : Env
  world : World
  handles : List Handle
  commits : List (Option RequestRow × Option RequestRow)

/-- `Store.begin` from its `n`-th call on; `none` if it is not back after `fuel` calls. -/
def beginCalls (cfg : Config) (adversary : Adversary cfg) (id token : String) (owner : Bool) :
    Nat → Nat → World → Option BeginResult
  | 0, _, _ => none
  | fuel + 1, n, w =>
    let w := adversary.before n w
    let env := adversary.env n w
    match beginPass cfg env (adversary.faults n w) id token owner w.db with
    | (.failed err, handle) => some ⟨.error err, env, w, [handle], []⟩
    | (.opened row, handle) => some ⟨.ok row, env, w, [handle], []⟩
    | (.ended db, handle) =>
      let w' := w.setDB (adversary.after n w) db
      (beginCalls cfg adversary id token owner fuel (n + 1) w').map fun result =>
        { result with
          handles := handle :: result.handles
          commits := (w.row id, w'.row id) :: result.commits }

/-- What holds when `begin` is back. -/
structure BeginResult.Good (cfg : Config) (id token : String) (owner : Bool)
    (result : BeginResult) : Prop where
  /-- every recursive call comes after a commit that ended a reservation -/
  progress : ∀ commit ∈ result.commits, ∃ row row', commit = (some row, some row') ∧
    row.state = .uploading ∧ (row.generation < row'.generation ∨ row'.state = .unavailable)
  /-- the row of an open transaction is no elapsed reservation -/
  opened : ∀ row, result.answer = .ok row →
    Begins cfg result.env id token owner result.world.db row ∧
      ∃ done, result.handles = done ++ [Handle.opened] ∧ ∀ handle ∈ done, handle = Handle.closed
  /-- after an error nothing is held -/
  closed : ∀ err, result.answer = .error err → ∀ handle ∈ result.handles, handle = Handle.closed

section

variable {cfg : Config} {w : World} {clock : Nat} {trace : List (Label × World)} {id token : String}
  {owner : Bool}

/-- One more call before the rest. -/
theorem BeginResult.Good.again {result : BeginResult} {found found' : Option RequestRow}
    (h : result.Good cfg id token owner)
    (hcommit : ∃ row row', (found, found') = (some row, some row') ∧ row.state = .uploading ∧
      (row.generation < row'.generation ∨ row'.state = .unavailable)) :
    BeginResult.Good cfg id token owner
      { result with
        handles := Handle.closed :: result.handles
        commits := (found, found') :: result.commits } where
  progress := by
    intro commit hmem
    rcases List.mem_cons.mp hmem with rfl | hlater
    · exact hcommit
    · exact h.progress commit hlater
  opened := by
    intro row hanswer
    obtain ⟨hbegins, done, hhandles, hdone⟩ := h.opened row hanswer
    refine ⟨hbegins, Handle.closed :: done, by rw [hhandles, List.cons_append], ?_⟩
    exact List.forall_mem_cons.mpr ⟨rfl, hdone⟩
  closed := fun err hanswer => List.forall_mem_cons.mpr ⟨rfl, h.closed err hanswer⟩

/-- **One call**: it comes back without a recursive call, or its pass ended a reservation
and the rest is another call. -/
theorem beginCalls_succ (id token : String) (owner : Bool) (adversary : Adversary cfg) (n : Nat)
    (hinv : Inv cfg (adversary.before n w)) :
    (∃ result : BeginResult, (∀ fuel,
        beginCalls cfg adversary id token owner (fuel + 1) n w = some result) ∧
      result.commits = [] ∧ result.Good cfg id token owner) ∨
    ∃ w' row row', Inv cfg w' ∧ (adversary.before n w).row id = some row ∧ w'.row id = some row' ∧
      row.state = .uploading ∧ row.rank < row'.rank ∧
      (row.generation < row'.generation ∨ row'.state = .unavailable) ∧
      ∀ fuel, beginCalls cfg adversary id token owner (fuel + 1) n w =
        (beginCalls cfg adversary id token owner fuel (n + 1) w').map fun result =>
          { result with
            handles := Handle.closed :: result.handles
            commits := (some row, some row') :: result.commits } := by
  have hpassed : PassOutcome cfg (adversary.env n (adversary.before n w)) id token owner
      (adversary.before n w).db _ := beginPass_outcome (adversary.faults n (adversary.before n w))
  generalize hpass : beginPass cfg (adversary.env n (adversary.before n w))
    (adversary.faults n (adversary.before n w)) id token owner
    (adversary.before n w).db = passed at hpassed
  cases hpassed with
  | failed err =>
    refine Or.inl ⟨⟨.error err, adversary.env n (adversary.before n w), adversary.before n w,
      [Handle.closed], []⟩, ?_, rfl, ⟨by simp, (fun row hanswer => by cases hanswer), by simp⟩⟩
    intro fuel
    rw [beginCalls]
    dsimp only
    rw [hpass]
  | opened row hbegin =>
    refine Or.inl ⟨⟨.ok row, adversary.env n (adversary.before n w), adversary.before n w,
      [Handle.opened], []⟩, ?_, rfl, ⟨by simp, ?_, (fun err hanswer => by cases hanswer)⟩⟩
    · intro fuel
      rw [beginCalls]
      dsimp only
      rw [hpass]
    · intro row' hanswer
      obtain rfl := Except.ok.inj hanswer
      exact ⟨begin_opened hbegin, [], rfl, by simp⟩
  | ended db hbegin =>
    -- the pass that goes on is an action of the system, so it keeps the invariant
    have hstep := (Action.expire (adversary.env n (adversary.before n w))
      (adversary.within n (adversary.before n w)) id token owner hbegin).step
    obtain ⟨row, row', hrow, hrow', huploading, hrank, hraised⟩ := begin_ended_rank hinv hbegin
    refine Or.inr ⟨_, row, row', hstep.inv hinv, hrow, hrow', huploading, hrank, hraised, ?_⟩
    intro fuel
    rw [beginCalls]
    dsimp only
    rw [hpass]
    dsimp only
    rw [hrow, hrow']

/-- With `left` ranks above the floor, `left` recursive calls are enough. -/
theorem beginCalls_floor (token : String) (owner : Bool) (adversary : Adversary cfg) (left : Nat)
    {rank : Int} (n : Nat)
    (hinv : Inv cfg w) (hfloor : w.Floor id rank) (hleft : maxGeneration + 1 - rank ≤ left) :
    ∃ result : BeginResult, (∀ fuel, left < fuel →
        beginCalls cfg adversary id token owner fuel n w = some result) ∧
      result.commits.length ≤ left ∧ result.Good cfg id token owner := by
  -- the induction is on the ranks above the floor: the steps of the others keep the floor,
  -- and a pass of this call that goes on leaves a higher one
  induction left using Nat.strong_induction_on generalizing w rank n with
  | h left ih =>
    obtain ⟨others, hothers⟩ := adversary.run n w
    obtain ⟨hinvBefore, hfloorBefore⟩ := floor_of_run hinv hfloor hothers
    rcases beginCalls_succ id token owner adversary n hinvBefore with
      ⟨result, hresult, hcommits, hgood⟩ |
      ⟨w', row, row', hinv', hrow, hrow', huploading, hrank, hraised, hagain⟩
    · refine ⟨result, fun fuel hfuel => ?_, by rw [hcommits]; exact Nat.zero_le _, hgood⟩
      obtain ⟨rest, rfl⟩ : ∃ rest, fuel = rest + 1 := ⟨fuel - 1, by omega⟩
      exact hresult rest
    · have hle := hfloorBefore.rows row hrow
      -- a reservation has a generation, so its rank is not the last one
      have hpositive : 0 < left := by
        rw [RequestRow.rank_of_available (by rw [huploading]; decide)] at hle
        have hlast := (hinvBefore.rows id row hrow).last
        omega
      obtain ⟨result, hresult, hcommits, hgood⟩ :=
        ih (left - 1) (by omega) (n + 1) hinv' (hinv'.floor_row hrow') (by omega)
      refine ⟨{ result with
          handles := Handle.closed :: result.handles
          commits := (some row, some row') :: result.commits },
        fun fuel hfuel => ?_, ?_, hgood.again ⟨row, row', rfl, huploading, hraised⟩⟩
      · obtain ⟨rest, rfl⟩ : ∃ rest, fuel = rest + 1 := ⟨fuel - 1, by omega⟩
        rw [hagain rest, hresult rest (by omega)]
        rfl
      · rw [List.length_cons]
        omega

/-- **`begin` comes back.**  Whatever the other clients commit between its calls and
wherever the database fails, it calls itself at most once for each generation the request
has left, and never more than 16 times; each of these calls comes after a commit that
raised the generation of the row or made it `unavailable`.  It comes back with an open
transaction whose row is no elapsed reservation, or with an error and nothing held. -/
theorem begin_terminates (hrun : Run (Step cfg) (World.start clock) trace w)
    (adversary : Adversary cfg) (id token : String) (owner : Bool) :
    ∃ result : BeginResult,
      (∀ fuel, 16 < fuel → beginCalls cfg adversary id token owner fuel 0 w = some result) ∧
      result.commits.length ≤ 16 ∧
      (∀ row, w.row id = some row →
        (result.commits.length : Int) ≤ maxGeneration + 1 - row.generation) ∧
      result.Good cfg id token owner := by
  have hinv := inv_of_run hrun
  obtain ⟨result, hresult, hcommits, hgood⟩ :=
    beginCalls_floor token owner adversary 16 0 hinv (hinv.floor_one id) (by decide)
  refine ⟨result, hresult, hcommits, ?_, hgood⟩
  intro row hrow
  -- the row that is there gives a better bound, for the same result
  have hrow₁ := hinv.rows id row hrow
  have hfirst := hrow₁.first
  have hlast := hrow₁.last
  have hfloor : w.Floor id row.generation := (hinv.floor_row hrow).mono hrow₁.generation_le_rank
  obtain ⟨result', hresult', hcommits', -⟩ := beginCalls_floor token owner adversary
    (maxGeneration + 1 - row.generation).toNat 0 hinv hfloor (Int.self_le_toNat _)
  have hmax : (maxGeneration + 1 - row.generation).toNat < 17 := by
    unfold maxGeneration
    omega
  obtain rfl : result = result' :=
    Option.some.inj ((hresult 17 (by decide)).symm.trans (hresult' 17 hmax))
  omega

end

/-! ### An elapsed reservation -/

/-- The instant at which the sample reservation elapses. -/
def elapsedAt : Nat := 1 + reservationTTL

/-- A deployment whose requests outlive a reservation. -/
def longConfig : Config :=
  { digestConfig (pairCodec (objectEvent "job-1" sampleUploadKey .orphan elapsedAt)
      (objectEvent "job-2" sampleFinalKey .orphan elapsedAt)) with
    defaultTTLSeconds := 3600
    maxTTLSeconds := 3600 }

def longRow : RequestRow :=
  newRow sampleID "age1" "age1" (List.replicate 32 1) (List.replicate 32 2) (1 + 3600 * second)

def longWorld : World :=
  { World.start 1 with db := ⟨[longRow], [], [], Book.fresh⟩, issued := [sampleID] }

/-- The reservation of the sample upload. -/
def elapsingWorld : World :=
  { longWorld with
    db := { longWorld.db with
      requests := [longRow.reserve ⟨List.replicate 32 3, List.replicate 32 123, 32,
        Envelope.marshal ⟨2, stdEncoding.encodeToString ageMagic⟩, List.replicate 32 97,
        sampleUploadKey, sampleFinalKey, elapsedAt⟩] }
    used := [sampleUploadKey, sampleFinalKey] }

theorem sample_elapsed :
    ∃ trace, Run (Step longConfig) (World.start 1) trace
      { elapsingWorld with clock := elapsedAt } := by
  have hcreate : create longConfig 1 (List.replicate 16 0) (List.replicate 32 1)
      (List.replicate 32 2) "age1" none DB.empty =
        .ok (longWorld.db, ⟨sampleID, 1 + 3600 * second, sampleToken 1, sampleToken 2⟩) := by
    decide +kernel
  have hreserve : reserve longConfig (stillEnv 1 sampleJobs) (List.replicate 16 1)
      (List.replicate 16 2) (some "url") sampleID (sampleToken 1)
      (sampleUpload 3 97 1) longWorld.db =
        .commit elapsingWorld.db (.ok (some ⟨1, .uploading, some ("url", elapsedAt)⟩)) := by
    decide +kernel
  have hcreated : Action longConfig (World.start 1) [] longWorld :=
    Action.create (w := World.start 1) 1 _ _ _ "age1" none (Nat.le_refl _) List.not_mem_nil hcreate
  have hreserved : Action longConfig longWorld [] elapsingWorld :=
    Action.reserve (w := longWorld) (stillEnv 1 sampleJobs) (stillEnv_within 1 _) _ _ _ _ _ _
      ⟨List.not_mem_nil, List.not_mem_nil, by decide⟩ hreserve (by simp)
  have htick : Action longConfig elapsingWorld [] { elapsingWorld with clock := elapsedAt } :=
    Action.tick (by decide)
  exact ⟨_, ((Run.nil.snoc hcreated.step).snoc hreserved.step).snoc htick.step⟩

/-- Nobody else is there, and nothing fails. -/
def idleAdversary (cfg : Config) : Adversary cfg where
  before := fun _ w => w
  env := fun _ w => stillEnv w.clock sampleJobs
  after := fun _ w => w.clock
  faults := fun _ _ => BeginFaults.none
  run := fun _ _ => ⟨[], Run.nil⟩
  within := fun _ w => stillEnv_within w.clock sampleJobs

/-- `begin` ends the reservation and calls itself once. -/
theorem begin_terminates_elapsed :
    ∃ result : BeginResult,
      beginCalls longConfig (idleAdversary longConfig) sampleID (sampleToken 1) false 17 0
        { elapsingWorld with clock := elapsedAt } = some result ∧
      result.commits.length = 1 ∧ result.Good longConfig sampleID (sampleToken 1) false := by
  obtain ⟨trace, hrun⟩ := sample_elapsed
  obtain ⟨result, hresult, -, -, hgood⟩ :=
    begin_terminates hrun (idleAdversary longConfig) sampleID (sampleToken 1) false
  have hcount : (beginCalls longConfig (idleAdversary longConfig) sampleID
      (sampleToken 1) false 17 0
      { elapsingWorld with clock := elapsedAt }).map (fun result => result.commits.length) =
      some 1 := by
    decide +kernel
  refine ⟨result, hresult 17 (by decide), ?_, hgood⟩
  rw [hresult 17 (by decide)] at hcount
  exact Option.some.inj hcount

end Requests
end FlickDrop
