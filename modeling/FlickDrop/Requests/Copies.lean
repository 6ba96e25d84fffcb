import FlickDrop.Foundations.Chunks
import FlickDrop.Requests.Accounts

/-!
# Accepted uploads are immutable

`copyVerified` reads an upload that its owner can overwrite at any time, and hashes what it
spools.  The first part brings the chunked copy back to the function on whole bodies that the
system uses.  The second follows one final key through a run: from the reservation on, the
only objects stored under it are bodies of the reserved length and checksum.

The runs here are those of the service in which a read may also return a mixture of whatever
was uploaded, in any pieces.
-/

namespace FlickDrop
namespace Requests

open Foundations Events

/-! ### The copy, chunk by chunk -/

/-- What a copy has done so far: the bytes in the hash, in the recorder of the first bytes
and in the spool file. -/
structure Spool where
  hashed : Bytes
  head : Bytes
  written : Bytes

/-- One read of the tee: the chunk goes to the hash, to the recorder and into the spool. -/
def Spool.read (s : Spool) (chunk : Bytes) : Spool :=
  ⟨s.hashed ++ chunk, keepFirst ageMagic.length s.head chunk, s.written ++ chunk⟩

/-- `copyVerified` with `PutStream` up to the write, on the chunks the bucket delivers.  A
read that fails leaves the spool short. -/
def copyStream (cfg : Config) (a : ObjectAttempt) (chunks : List Bytes) (length : Int) :
    Except Err Bytes :=
  if length ≠ a.sizeBytes then
    .error .invalid
  else if length < 1 then
    .error .storage
  else
    -- both limits are the declared length
    let s :=
      (limitChunks length.toNat (limitChunks length.toNat chunks)).foldl Spool.read ⟨[], [], []⟩
    if (s.written.length : Int) ≠ length then
      .error .storage
    else if isAgeFile s.head = false ∨ a.checksum ≠ some (cfg.sha256 s.hashed) then
      .error .invalid
    else
      .ok s.written

theorem foldl_read (chunks : List Bytes) :
    chunks.foldl Spool.read ⟨[], [], []⟩ =
      ⟨chunks.flatten, chunks.flatten.take ageMagic.length, chunks.flatten⟩ := by
  have h :=
    foldl_chunks Spool.read (fun past => ⟨past, past.take ageMagic.length, past⟩) ?_ chunks []
  · exact h
  · intro past chunk
    simp only [Spool.read, keepFirst_take]

/-- **The copy does not depend on the chunks.** -/
theorem copyStream_eq (cfg : Config) (a : ObjectAttempt) (chunks : List Bytes) (length : Int) :
    copyStream cfg a chunks length = copyVerified cfg a (some (chunks.flatten, length)) := by
  have htwice : (limitChunks length.toNat (limitChunks length.toNat chunks)).flatten =
      chunks.flatten.take length.toNat := by
    rw [flatten_limitChunks, flatten_limitChunks, List.take_take, Nat.min_self]
  unfold copyStream copyVerified
  simp only [foldl_read, htwice]
  split
  · rfl
  · by_cases hsmall : length < 1
    · simp [hsmall]
    · simp only [hsmall, if_false, false_or]

/-- A body that has the reserved length and checksum and starts like an age file. -/
structure Verified (cfg : Config) (size : Int) (checksum : Bytes) (body : Bytes) : Prop where
  length : (body.length : Int) = size
  checksum : cfg.sha256 body = checksum
  age : isAgeFile body = true

theorem isAgeFile_take {body : Bytes} (h : isAgeFile (body.take ageMagic.length) = true) :
    isAgeFile body = true := by
  rw [isAgeFile, List.isPrefixOf_iff_prefix] at h ⊢
  exact h.trans (List.take_prefix _ _)

theorem copyVerified_ok {cfg : Config} {a : ObjectAttempt} {object body : Bytes} {length : Int}
    (h : copyVerified cfg a (some (object, length)) = .ok body) :
    ∃ checksum, a.checksum = some checksum ∧ Verified cfg a.sizeBytes checksum body := by
  unfold copyVerified at h
  dsimp only at h
  split at h
  · cases h
  rename_i hlength
  split at h
  · cases h
  rename_i hwhole
  split at h
  · cases h
  rename_i hverified
  rw [not_or, not_not] at hwhole
  rw [not_or, not_not, Bool.not_eq_false] at hverified
  cases h
  exact ⟨_, hverified.2, hwhole.2.trans (not_not.mp hlength), rfl, isAgeFile_take hverified.1⟩

/-! ### Runs with torn reads -/

/-- The spool is filled from a read that may mix versions of the upload. -/
inductive TornRead (cfg : Config) : World → World → Prop
  | spool {w : World} {call : FinalizeCall} {a : ObjectAttempt} {body : Bytes} (pid : Nat)
      (chunks : List Bytes) (length : Int) (hat : w.calls pid = some call)
      (hphase : call.phase = .leading a) (hcopy : copyStream cfg a chunks length = .ok body) :
      TornRead cfg w (w.setCall pid (call.goto (.spooled a body)))

/-- A step of the service, or a torn read. -/
def CopyStep (cfg : Config) (w : World) (label : Label) (w' : World) : Prop :=
  Step cfg w label w' ∨ label = ⟨fun _ => none, []⟩ ∧ TornRead cfg w w'

/-- What a step does to the bucket and to the spools. -/
structure BucketStep (cfg : Config) (w w' : World) : Prop where
  spooled : ∀ pid call' a body, w'.calls pid = some call' → call'.phase = .spooled a body →
    w.calls pid = some call' ∨ ∃ call chunks length, w.calls pid = some call ∧
      call.phase = .leading a ∧ copyStream cfg a chunks length = .ok body
  objects : ∀ key body, w'.objects key = some body → w.objects key = some body ∨
    key ∈ w'.used ∧ ((∀ raw, key ≠ finalKeyOf raw) ∨
      ∃ pid call a, w.calls pid = some call ∧ call.phase = .spooled a body ∧ a.finalKey = key)

section

variable {cfg : Config} {w w' : World} {label : Label} {drawn : String → String → Prop}
  {key id : String} {checksum body : Bytes} {call : FinalizeCall} {a : ObjectAttempt} {size : Int}
  {row : RequestRow} {pid clock : Nat} {r : Reservation} {phase : Phase}

theorem BucketStep.same (hcalls : w'.calls = w.calls) (hobjects : w'.objects = w.objects) :
    BucketStep cfg w w' := by
  refine ⟨?_, ?_⟩
  · intro pid call' a body hat _
    rw [hcalls] at hat
    exact Or.inl hat
  · intro key body hobject
    rw [hobjects] at hobject
    exact Or.inl hobject

/-- The spools after one call went on. -/
theorem spooled_goto (hcalls : w'.calls = Function.update w.calls pid (some (call.goto phase)))
    (hphase : ∀ a body, phase ≠ .spooled a body) :
    ∀ pid call' a body, w'.calls pid = some call' → call'.phase = .spooled a body →
      w.calls pid = some call' := by
  intro pid' call' a body hat hspooled
  rw [hcalls, Function.update_apply] at hat
  split at hat
  · obtain rfl := Option.some.inj hat
    exact absurd hspooled (hphase a body)
  · exact hat

theorem BucketStep.goto {pid : Nat} {call : FinalizeCall} {phase : Phase}
    (hcalls : w'.calls = Function.update w.calls pid (some (call.goto phase)))
    (hobjects : w'.objects = w.objects) (hphase : ∀ a body, phase ≠ .spooled a body) :
    BucketStep cfg w w' := by
  refine ⟨fun pid call' a body hat hspooled => Or.inl ?_, ?_⟩
  · exact spooled_goto hcalls hphase pid call' a body hat hspooled
  · intro key body hobject
    rw [hobjects] at hobject
    exact Or.inl hobject

/-- The spool is filled. -/
theorem BucketStep.fill {chunks : List Bytes} {length : Int} (hat : w.calls pid = some call)
    (hphase : call.phase = .leading a) (hcopy : copyStream cfg a chunks length = .ok body) :
    BucketStep cfg w (w.setCall pid (call.goto (.spooled a body))) := by
  refine ⟨?_, fun key body hobject => Or.inl hobject⟩
  intro pid' call' a' body' hat' hspooled
  change Function.update w.calls pid _ pid' = some call' at hat'
  rw [Function.update_apply] at hat'
  split at hat'
  · rename_i heq
    obtain rfl := Option.some.inj hat'
    cases hspooled
    rw [heq]
    exact Or.inr ⟨call, chunks, length, hat, hphase, hcopy⟩
  · exact Or.inl hat'

/-- A spooled body is written. -/
theorem BucketStep.write (hat : w.calls pid = some call) (hspooled : call.phase = .spooled a body)
    (hphase : ∀ a body, phase ≠ .spooled a body) :
    BucketStep cfg w ((w.store a.finalKey body).setCall pid (call.goto phase)) := by
  refine ⟨fun pid call' a body hat hspooled => Or.inl ?_, ?_⟩
  · exact spooled_goto (w := w) rfl hphase pid call' a body hat hspooled
  · intro key body' hobject
    change Function.update w.objects a.finalKey (some body) key = some body' at hobject
    rw [Function.update_apply] at hobject
    split at hobject
    · rename_i heq
      obtain rfl := Option.some.inj hobject
      rw [heq]
      exact Or.inr ⟨List.mem_cons_self, Or.inr ⟨pid, call, a, hat, hspooled, rfl⟩⟩
    · exact Or.inl hobject

theorem Action.bucket {answers : List Answer} (haction : Action cfg w answers w') :
    BucketStep cfg w w' := by
  cases haction with
  | put key body hkey =>
    refine ⟨fun pid call' a body hat _ => Or.inl hat, ?_⟩
    intro key' body' hobject
    change Function.update w.objects key (some body) key' = some body' at hobject
    rw [Function.update_apply] at hobject
    split at hobject
    · rename_i heq
      rw [heq]
      exact Or.inr ⟨List.mem_cons_self, Or.inl hkey⟩
    · exact Or.inl hobject
  | objectGone key =>
    refine ⟨fun pid call' a body hat _ => Or.inl hat, ?_⟩
    intro key' body' hobject
    change Function.update w.objects key none key' = some body' at hobject
    rw [Function.update_apply] at hobject
    split at hobject
    · cases hobject
    exact Or.inl hobject
  | @copySpool call a object body pid hat hphase hobject hcopy =>
    have hstream : copyStream cfg a [object] object.length = .ok body := by
      rw [copyStream_eq, List.flatten_singleton]
      exact hcopy
    exact BucketStep.fill hat hphase hstream
  | copyWrite pid hat hphase | copyLost pid hat hphase => exact BucketStep.write hat hphase nofun
  | finalizeEnter pid process id token input hfree hvalid =>
    exact @BucketStep.goto cfg w _ pid ⟨process, id, token, input, _,
      .entered⟩ .entered rfl rfl nofun
  | finalizePass | finalizeReceipt | finalizeRefused | finalizeFail | finalizeFollow | finalizeLead
  | copyReject | copyFail | accept | acceptRefused | acceptFail | finalizeReturn | finalizeShared =>
    exact BucketStep.goto rfl rfl nofun
  | _ => exact BucketStep.same rfl rfl

/-! ### One final key through a run -/

/-- A final key that is not new was there before, and the reserved length and checksum stay
with it until the object is consumed. -/
theorem RowStep.declared {fresh : String → Prop} {new : Prop} {after : Nat}
    {found found' : Option RequestRow} (h : RowStep fresh new clock after found found')
    (hinv : ∀ row, found = some row → RowInv row) {row' : RequestRow} (hrow' : found' = some row')
    (hfinal : row'.finalKey = some key) (hold : ¬ fresh key) (hopen : row'.state ≠ .consumed) :
    ∃ row, found = some row ∧ row.finalKey = some key ∧
      row.state ≠ .consumed ∧ row'.sizeBytes = row.sizeBytes ∧
      row'.ciphertextSHA256 = row.ciphertextSHA256 := by
  cases h with
  | kept => exact ⟨row', hrow', hfinal, hopen, rfl, rfl⟩
  | purged => cases hrow'
  | created | ended row | consumedInline row | cancelled row | released row =>
    cases hrow'
    cases hfinal
  | reserved row r hwaiting hupload hnew =>
    cases hrow'
    exact absurd (Option.some.inj hfinal ▸ hnew) hold
  | submitted row attempt bodyHash kind sizeBytes envelope hwaiting =>
    cases hrow'
    have hnone := ((hinv row rfl).waiting_keys hwaiting).2
    rw [show row.finalKey = some key from hfinal] at hnone
    cases hnone
  | consumedObject row =>
    cases hrow'
    exact absurd rfl hopen
  | accepted row now huploading =>
    cases hrow'
    refine ⟨row, rfl, hfinal, ?_, rfl, rfl⟩
    rw [huploading]
    decide

/-- Everything that may still be written under a final key has the reserved length and
checksum. -/
structure Sealed (cfg : Config) (key : String) (size : Int) (checksum : Bytes) (w : World) :
    Prop where
  named : ∃ raw, key = finalKeyOf raw
  used : key ∈ w.used
  rows : ∀ id row, w.row id = some row → row.finalKey = some key → row.state ≠ .consumed →
    row.sizeBytes = some size ∧ row.ciphertextSHA256 = some checksum
  calls : ∀ pid call a, w.calls pid = some call → call.phase.copies = some a → a.finalKey = key →
    a.sizeBytes = size ∧ a.checksum = some checksum
  spooled : ∀ pid call a body, w.calls pid = some call → call.phase = .spooled a body →
    a.finalKey = key → Verified cfg size checksum body
  stored : ∀ body, w.objects key = some body → Verified cfg size checksum body

/-- What a finalization reads from the row of the key. -/
theorem Sealed.attempt (h : Sealed cfg key size checksum w) (hinv : Inv cfg w)
    (hrow : w.row id = some row) (ha : row.objectAttempt cfg = .ok a) (hkey : a.finalKey = key) :
    a.sizeBytes = size ∧ a.checksum = some checksum := by
  obtain ⟨hupload, hfinal, hsize, hchecksum⟩ := objectAttempt_ok ha
  have huploading := (hinv.rows id row hrow).upload.mp (by rw [hupload]; rfl)
  obtain ⟨hsize', hchecksum'⟩ := h.rows id row hrow (hkey ▸ hfinal) (by rw [huploading]; decide)
  rw [hsize] at hsize'
  rw [hchecksum] at hchecksum'
  exact ⟨Option.some.inj hsize', hchecksum'⟩

theorem Sealed.advance (h : Sealed cfg key size checksum w) (hinv : Inv cfg w)
    (hadvance : Advance cfg drawn w w') (hbucket : BucketStep cfg w w') :
    Sealed cfg key size checksum w' where
  named := h.named
  used := hadvance.used h.used
  rows := by
    intro id row' hrow' hfinal hopen
    have hold : ¬ drawn id key := fun hdrawn => (hadvance.fresh id key hdrawn).1 h.used
    obtain ⟨row, hrow, hfinal', hopen', hsize, hchecksum⟩ :=
      (hadvance.rows id).declared (hinv.rows id) hrow' hfinal hold hopen
    rw [hsize, hchecksum]
    exact h.rows id row hrow hfinal' hopen'
  calls := by
    intro pid call' a hat hcopies hkey
    rcases hadvance.calls pid call' hat with ⟨call, hold, -, hcopied⟩ | ⟨-, hentered, -⟩
    · rcases hcopied a hcopies with hcopied | ⟨row, hrow, ha⟩
      · exact h.calls pid call a hold hcopied hkey
      · exact h.attempt hinv hrow ha hkey
    · rw [hentered] at hcopies
      cases hcopies
  spooled := by
    intro pid call' a body hat hspooled hkey
    rcases hbucket.spooled pid call' a body hat hspooled with
      hold | ⟨call, chunks, length, hold, hphase, hcopy⟩
    · exact h.spooled pid call' a body hold hspooled hkey
    · rw [copyStream_eq] at hcopy
      obtain ⟨sum, hsum, hverified⟩ := copyVerified_ok hcopy
      obtain ⟨hsize, hchecksum⟩ := h.calls pid call a hold (by rw [hphase]; rfl) hkey
      obtain rfl := Option.some.inj (hsum.symm.trans hchecksum)
      exact hsize ▸ hverified
  stored := by
    intro body hobject
    rcases hbucket.objects key body hobject with hold | ⟨-,
      hother | ⟨pid, call, a, hat, hspooled, hkey⟩⟩
    · exact h.stored body hold
    · obtain ⟨raw, hraw⟩ := h.named
      exact absurd hraw (hother raw)
    · exact h.spooled pid call a body hat hspooled hkey

/-- What holds with torn reads: the table invariant, only used keys have objects, and the
final key of every live row is sealed. -/
structure CopyInv (cfg : Config) (w : World) : Prop where
  inv : Inv cfg w
  bucket : ∀ key body, w.objects key = some body → key ∈ w.used
  live : ∀ id row key, w.row id = some row → row.finalKey = some key → row.state ≠ .consumed →
    ∃ size checksum, row.sizeBytes = some size ∧ row.ciphertextSHA256 = some checksum ∧
      Sealed cfg key size checksum w

theorem CopyInv.start (cfg : Config) (clock : Nat) : CopyInv cfg (World.start clock) where
  inv := Inv.start cfg clock
  bucket := by
    intro key body hobject
    cases hobject
  live := by
    intro id row key hrow
    cases hrow

/-- A reservation seals its final key: nothing was stored or copied under it before. -/
theorem Reserves.sealed (h : Reserves w w' id row r) (hcopy : CopyInv cfg w) :
    Sealed cfg r.finalKey r.sizeBytes r.checksum w' := by
  have hnew : r.finalKey ∉ w.used := h.fresh.2.1
  have hcalls : w'.calls = w.calls := by rw [h.rest]
  have hobjects : w'.objects = w.objects := by rw [h.rest]
  have hno : ∀ pid call a, w'.calls pid = some call → call.phase.copies = some a →
      a.finalKey ≠ r.finalKey := by
    intro pid call a hat hcopies hkey
    rw [hcalls] at hat
    exact hnew (hkey ▸ (hcopy.inv.calls pid call a hat hcopies).used)
  refine ⟨h.final, ?_, ?_, ?_, ?_, ?_⟩
  · rw [h.rest]
    exact List.mem_cons_of_mem _ List.mem_cons_self
  · intro other row' hrow' hfinal _
    rw [h.lookup other] at hrow'
    split at hrow'
    · obtain rfl := Option.some.inj hrow'
      exact ⟨rfl, rfl⟩
    · exact absurd (hcopy.inv.keys other row' _ hrow' (Or.inr hfinal)) hnew
  · intro pid call a hat hcopies hkey
    exact absurd hkey (hno pid call a hat hcopies)
  · intro pid call a body hat hspooled hkey
    exact absurd hkey (hno pid call a hat (by rw [hspooled]; rfl))
  · intro body hobject
    rw [hobjects] at hobject
    exact absurd (hcopy.bucket _ body hobject) hnew

theorem BucketStep.used (hbucket : BucketStep cfg w w') (hcopy : CopyInv cfg w)
    (hused : w.used ⊆ w'.used) : ∀ key body, w'.objects key = some body → key ∈ w'.used := by
  intro key body hobject
  rcases hbucket.objects key body hobject with hold | ⟨hmem, -⟩
  · exact hused (hcopy.bucket key body hold)
  · exact hmem

/-- A step that draws no keys keeps the seals. -/
theorem CopyInv.advance (h : CopyInv cfg w) (hadvance : Advance cfg (fun _ _ => False) w w')
    (hbucket : BucketStep cfg w w') : CopyInv cfg w' where
  inv := hadvance.inv h.inv
  bucket := hbucket.used h hadvance.used
  live := by
    intro id row' key hrow' hfinal hopen
    obtain ⟨row, hrow, hfinal', hopen', hsize, hchecksum⟩ :=
      (hadvance.rows id).declared (h.inv.rows id) hrow' hfinal (fun hdrawn => hdrawn) hopen
    obtain ⟨size, checksum, hrowSize, hrowChecksum, hsealed⟩ :=
      h.live id row key hrow hfinal' hopen'
    exact ⟨size, checksum, hsize.trans hrowSize, hchecksum.trans hrowChecksum,
      hsealed.advance h.inv hadvance hbucket⟩

/-- A new reservation keeps the seals and adds its own. -/
theorem CopyInv.reserves (h : CopyInv cfg w) (hreserves : Reserves w w' id row r)
    (hadvance : Advance cfg drawn w w') (hbucket : BucketStep cfg w w') : CopyInv cfg w' where
  inv := hadvance.inv h.inv
  bucket := hbucket.used h hadvance.used
  live := by
    intro other row' key hrow' hfinal hopen
    rw [hreserves.lookup other] at hrow'
    split at hrow'
    · obtain rfl := Option.some.inj hrow'
      obtain rfl : r.finalKey = key := Option.some.inj hfinal
      exact ⟨r.sizeBytes, r.checksum, rfl, rfl, hreserves.sealed h⟩
    · obtain ⟨size, checksum, hsize, hchecksum, hsealed⟩ := h.live other row' key hrow' hfinal hopen
      exact ⟨size, checksum, hsize, hchecksum, hsealed.advance h.inv hadvance hbucket⟩

theorem TornRead.advance (htorn : TornRead cfg w w') (hinv : Inv cfg w) :
    Advance cfg (fun _ _ => False) w w' := by
  obtain ⟨pid, chunks, length, hat, hphase, hcopy⟩ := htorn
  refine Advance.of_calls hinv (Nat.le_refl _) rfl rfl (List.Subset.refl _)
    (CallsKeep.goto hat rfl ?_)
  rintro a ⟨⟩
  rw [hphase]
  exact Or.inl rfl

/-- **Step lemma.** -/
theorem CopyStep.keeps (hstep : CopyStep cfg w label w') (h : CopyInv cfg w) :
    CopyInv cfg w' ∧ ∀ key size checksum, Sealed cfg key size checksum w →
      Sealed cfg key size checksum w' := by
  rcases hstep with hstep | ⟨-, htorn⟩
  · have hbucket : BucketStep cfg w w' := hstep.1.bucket
    rcases hstep.1.advance_cases h.inv with hadvance | ⟨id, row, r, hreserves, hadvance⟩
    · exact ⟨h.advance hadvance hbucket,
        fun _ _ _ hsealed => hsealed.advance h.inv hadvance hbucket⟩
    · exact ⟨h.reserves hreserves hadvance hbucket,
        fun _ _ _ hsealed => hsealed.advance h.inv hadvance hbucket⟩
  · have hadvance := htorn.advance h.inv
    obtain ⟨pid, chunks, length, hat, hphase, hcopy⟩ := htorn
    have hbucket := BucketStep.fill hat hphase hcopy
    exact ⟨h.advance hadvance hbucket, fun _ _ _ hsealed => hsealed.advance h.inv hadvance hbucket⟩

theorem copyInv_of_run {trace : List (Label × World)}
    (hrun : Run (CopyStep cfg) (World.start clock) trace w) : CopyInv cfg w :=
  Run.invariant (CopyInv cfg) (CopyInv.start cfg clock)
    (fun _ _ _ hcopy hstep => (CopyStep.keeps hstep hcopy).1) hrun

/-- **Run lemma.**  A sealed key stays sealed. -/
theorem sealed_of_run {later : List (Label × World)} {final : World} (hcopy : CopyInv cfg w)
    (hsealed : Sealed cfg key size checksum w) (hlater : Run (CopyStep cfg) w later final) :
    Sealed cfg key size checksum final := by
  refine Run.stable (CopyInv cfg) (Sealed cfg key size checksum) hcopy ?_ hsealed ?_ hlater
  · exact fun _ _ _ hcopy hstep => (CopyStep.keeps hstep hcopy).1
  · exact fun _ _ _ hcopy hsealed hstep => (CopyStep.keeps hstep hcopy).2 _ _ _ hsealed

/-- What the bucket answers to a read of the key. -/
def World.read (w : World) (key : String) : Option (Bytes × Int) :=
  (w.objects key).map fun body => (body, body.length)

theorem openObject_read {key' : String} {sizeBytes : Int}
    (h : openObject cfg (w.read key) sizeBytes (some key) = .ok (body, key')) :
    w.objects key = some body := by
  unfold openObject World.read at h
  dsimp only at h
  split at h
  · cases h
  cases hobject : w.objects key with
  | none =>
    rw [hobject] at h
    cases h
  | some stored =>
    rw [hobject] at h
    dsimp only [Option.map_some] at h
    split at h
    · cases h
    cases h
    rfl

/-- The object of a reservation from then on: what is stored, what the live row declares,
and what an open of a request with this key reads. -/
structure Immutable (cfg : Config) (key : String) (size : Int) (checksum : Bytes) (w : World) :
    Prop where
  stored : ∀ body, w.objects key = some body → Verified cfg size checksum body
  declared : ∀ id row, w.row id = some row → row.finalKey = some key → row.state ≠ .consumed →
    row.sizeBytes = some size ∧ row.ciphertextSHA256 = some checksum
  opened : ∀ env id token db kind sizeBytes envelope body key',
    openTx cfg env id token w.db = .commit db
    (.ok (some (.object kind sizeBytes envelope (some key)))) →
    openObject cfg (w.read key) sizeBytes (some key) = .ok (body, key') →
    Verified cfg size checksum body

theorem Sealed.immutable (h : Sealed cfg key size checksum w) :
    Immutable cfg key size checksum w where
  stored := h.stored
  declared := h.rows
  opened := by
    intro env id token db kind sizeBytes envelope body key' _ hread
    exact h.stored body (openObject_read hread)

/-- **Accepted uploads are immutable.**  Whatever is uploaded and however it is read, from
the reservation on the final key has no object or one of the reserved length and checksum
that starts with the age header. -/
theorem accepted_uploads_are_immutable {clock : Nat} {trace : List (Label × World)}
    (hrun : Run (CopyStep cfg) (World.start clock) trace w) {id key : String} {row : RequestRow}
    (hrow : w.row id = some row) (hfinal : row.finalKey = some key)
    (hopen : row.state ≠ .consumed) :
    ∃ size checksum, row.sizeBytes = some size ∧ row.ciphertextSHA256 = some checksum ∧
      ∀ later final, Run (CopyStep cfg) w later final → Immutable cfg key size checksum final := by
  have hcopy := copyInv_of_run hrun
  obtain ⟨size, checksum, hsize, hchecksum, hsealed⟩ := hcopy.live id row key hrow hfinal hopen
  refine ⟨size, checksum, hsize, hchecksum, ?_⟩
  intro later final hlater
  exact (sealed_of_run hcopy hsealed hlater).immutable

end

/-- Clients may write to every upload key. -/
theorem uploadKeyOf_ne_finalKeyOf (raw raw' : Bytes) : uploadKeyOf raw ≠ finalKeyOf raw' := by
  intro hsame
  have hlast := congrArg (fun key => key.toList.getLast?) hsame
  simp [uploadKeyOf, finalKeyOf, String.toList_append] at hlast

def sampleBody : Bytes := ageMagic ++ List.replicate 10 7

def sampleAttempt : ObjectAttempt :=
  ⟨sampleUploadKey, sampleFinalKey, 32, some (List.replicate 32 97)⟩

def sampleCall (phase : Phase) : FinalizeCall :=
  ⟨0, sampleID, sampleToken 1, ⟨1, sampleToken 3⟩, List.replicate 32 3, phase⟩

/-- The call at one of its points. -/
def sampleWorldAt (phase : Phase) : World := reservedWorld.setCall 0 (sampleCall phase)

theorem sampleWorldAt_goto (phase phase' : Phase) :
    (sampleWorldAt phase).setCall 0 ((sampleCall phase).goto phase') = sampleWorldAt phase' := by
  simp [sampleWorldAt, World.setCall, sampleCall, FinalizeCall.goto]

/-- The call leads. -/
def leadingWorldAt (phase : Phase) : World := (sampleWorldAt phase).setLeader 0 sampleID (some 0)

theorem leadingWorldAt_goto (phase phase' : Phase) :
    (leadingWorldAt phase).setCall 0 ((sampleCall phase).goto phase') = leadingWorldAt phase' := by
  rw [leadingWorldAt, leadingWorldAt, ← sampleWorldAt_goto phase phase']
  rfl

theorem sample_validates : validateAttempt (digestConfig sampleCodec) ⟨1, sampleToken 3⟩ =
    .ok (List.replicate 32 3) := by
  decide +kernel

theorem sample_passes :
    finalizeTx (digestConfig sampleCodec) (stillEnv 1 sampleJobs) sampleID (sampleToken 1) 1
      (List.replicate 32 3) reservedWorld.db =
        .commit reservedWorld.db (.ok (some (.copy sampleAttempt))) := by
  decide +kernel

theorem sample_spooled : ∃ later,
    Run (CopyStep (digestConfig sampleCodec)) reservedWorld later
      (leadingWorldAt (.spooled sampleAttempt sampleBody)) := by
  have hcopy : copyStream (digestConfig sampleCodec) sampleAttempt [ageMagic,
      List.replicate 11 7] 32 = .ok sampleBody := by
    decide +kernel
  have henter : Action (digestConfig sampleCodec) reservedWorld [] (sampleWorldAt .entered) :=
    Action.finalizeEnter 0 0 sampleID (sampleToken 1) ⟨1, sampleToken 3⟩ rfl sample_validates
  have hpass : Action (digestConfig sampleCodec) (sampleWorldAt .entered) []
      (sampleWorldAt (.passed sampleAttempt)) := by
    have hat : (sampleWorldAt .entered).calls 0 = some (sampleCall .entered) := rfl
    rw [← sampleWorldAt_goto .entered (.passed sampleAttempt)]
    exact Action.finalizePass 0 (stillEnv 1 sampleJobs) (stillEnv_within 1 _) hat rfl sample_passes
  have hlead : Action (digestConfig sampleCodec) (sampleWorldAt (.passed sampleAttempt)) []
      (leadingWorldAt (.leading sampleAttempt)) := by
    have hat : (sampleWorldAt (.passed sampleAttempt)).calls 0 =
      some (sampleCall (.passed sampleAttempt)) := rfl
    rw [leadingWorldAt, ← sampleWorldAt_goto (.passed sampleAttempt) (.leading sampleAttempt)]
    exact Action.finalizeLead 0 hat rfl rfl
  have htorn : TornRead (digestConfig sampleCodec) (leadingWorldAt (.leading sampleAttempt))
      (leadingWorldAt (.spooled sampleAttempt sampleBody)) := by
    have hat : (leadingWorldAt (.leading sampleAttempt)).calls 0 =
      some (sampleCall (.leading sampleAttempt)) := rfl
    rw [← leadingWorldAt_goto (.leading sampleAttempt) (.spooled sampleAttempt sampleBody)]
    exact TornRead.spool 0 _ _ hat rfl hcopy
  exact ⟨_, (((Run.nil.snoc (Or.inl henter.step)).snoc (Or.inl hpass.step)).snoc
    (Or.inl hlead.step)).snoc (Or.inr ⟨rfl, htorn⟩)⟩

/-- A copy in two pieces is written, then the upload is overwritten. -/
theorem accepted_uploads_are_immutable_two_pieces :
    ∃ (trace later : List (Label × World)) (w final : World),
      Run (CopyStep (digestConfig sampleCodec)) (World.start 1) trace w ∧
      w.row sampleID = some reservedRow ∧
      Run (CopyStep (digestConfig sampleCodec)) w later final ∧
      final.objects sampleUploadKey = some [] ∧ final.objects sampleFinalKey = some sampleBody ∧
      Verified (digestConfig sampleCodec) 32 (List.replicate 32 97) sampleBody := by
  obtain ⟨trace, hreserved⟩ := sample_reserved
  obtain ⟨later, hspooled⟩ := sample_spooled
  have hrun : Run (CopyStep (digestConfig sampleCodec)) (World.start 1) trace reservedWorld :=
    Run.mono (fun _ _ _ hstep => Or.inl hstep) hreserved
  have hat : (leadingWorldAt (.spooled sampleAttempt sampleBody)).calls 0 =
    some (sampleCall (.spooled sampleAttempt sampleBody)) := rfl
  have hwrite : Step (digestConfig sampleCodec) _ _ _ := (Action.copyWrite 0 hat rfl).step
  have hput : Step (digestConfig sampleCodec) _ _ _ :=
    (Action.put (w := ((leadingWorldAt (.spooled sampleAttempt sampleBody)).store sampleFinalKey
      sampleBody).setCall 0 (sampleCall (.copied sampleAttempt))) sampleUploadKey [] ?_).step
  · have hlater := (hspooled.snoc (Or.inl hwrite)).snoc (Or.inl hput)
    have hrow : reservedWorld.row sampleID = some reservedRow := rfl
    have hfinal : reservedRow.finalKey = some sampleFinalKey := rfl
    obtain ⟨size, checksum, hsize, hchecksum, himmutable⟩ :=
      accepted_uploads_are_immutable hrun hrow hfinal (by decide)
    obtain rfl := Option.some.inj hsize
    obtain rfl := Option.some.inj hchecksum
    exact ⟨trace, _, _, _, hrun, rfl, hlater, rfl, by decide +kernel,
      (himmutable _ _ hlater).stored sampleBody (by decide +kernel)⟩
  · exact uploadKeyOf_ne_finalKeyOf _

end Requests
end FlickDrop
