import FlickDrop.Pipeline.World

/-!
# No job is lost

The invariant behind the pipeline's guarantees.  A job is `Done` when the worker has
finished it for good and no claim names it any more, and `Safe` when the stream holds
its message or it is done.  Published rows are safe, a publisher that has sent a record
but not marked it holds a safe one, and a delivery that is about to ack or terminate
belongs to a done job.

Everything the calls in flight know about the world is kept by every step (`Grows`), so
each step only has to establish what it newly claims.
-/

namespace FlickDrop
namespace Pipeline

open Foundations Events Worker

/-- `payload` was committed to the outbox and encodes `e`. -/
def Listed (cfg : Config) (w : World) (payload : String) (e : JobEvent) : Prop :=
  ∃ row ∈ w.outbox, row.payloadJSON = payload ∧ row.id = e.jobID ∧ Encodes cfg.codec e payload

/-- The stream holds a message of the job. -/
def Held (cfg : Config) (w : World) (jobID : String) : Prop :=
  ∃ m ∈ w.stream, ∃ e, Encodes cfg.codec e m.payload ∧ e.jobID = jobID

/-- The job is finished for good, and no claim names it. -/
def Done (w : World) (jobID : String) : Prop :=
  Terminal w.worker jobID ∧ ∀ area, ∀ c ∈ (w.books area).claims, c.jobID ≠ jobID

def Safe (cfg : Config) (w : World) (jobID : String) : Prop :=
  Held cfg w jobID ∨ Done w jobID

/-- What a publisher in flight may rely on. -/
def PublisherInv (cfg : Config) (w : World) (p : Publisher) : Prop :=
  (∀ record ∈ p.records, ∃ e, Listed cfg w record.payloadJSON e ∧ e.jobID = record.id) ∧
    ∀ now record rest result, p = .sent now record rest result → Safe cfg w record.id

/-- What a delivery in flight may rely on. -/
def DeliveryInv (cfg : Config) (w : World) : Delivery → Prop
  | .fetched m => ∃ e, Listed cfg w m.payload e
  | .started m e attempt => Listed cfg w m.payload e ∧ HasAttempt w.worker attempt.id e.jobID
  | .handled m e attempt jobErr =>
    Listed cfg w m.payload e ∧ HasAttempt w.worker attempt.id e.jobID ∧
      ∀ err, jobErr = some err → ∃ text, err = .other text
  | .processed m e result err =>
    Listed cfg w m.payload e ∧ Verdict w.worker e.jobID result err
  | .resolved m action =>
    ∃ e, Listed cfg w m.payload e ∧ (action ≠ .retry → Done w e.jobID)

/-- Job ids and kinds the worker may have receipts for. -/
def KnownKind (cfg : Config) (w : World) (jobID kind : String) : Prop :=
  ∃ payload e, Listed cfg w payload e ∧ e.jobID = jobID ∧ e.kind.text = kind

/-- A claim and the job that will release it. -/
def ClaimBacked (cfg : Config) (w : World) (area : Area) (c : Claim) : Prop :=
  ∃ payload e, Listed cfg w payload e ∧ e.jobID = c.jobID ∧ e.kind = .deleteOCIObject ∧
    e.objectKey = c.key ∧ area.owns c.key = true

structure Inv (cfg : Config) (w : World) : Prop where
  unique : Table.UniqueKey OutboxRow.id w.outbox
  rows : ∀ row ∈ w.outbox, ∃ e, Listed cfg w row.payloadJSON e ∧ e.jobID = row.id
  published : ∀ row ∈ w.outbox, row.state = .published → Safe cfg w row.id
  messages : ∀ m ∈ w.stream, ∃ e, Listed cfg w m.payload e
  store : StoreInv cfg.maxAttempts w.clock w.worker
  kinds : ReceiptKinds (KnownKind cfg w) w.worker
  claimed : ∀ area, ∀ c ∈ (w.books area).claims, ClaimBacked cfg w area c
  claimKeys : ∀ area, Table.UniqueKey Claim.key (w.books area).claims
  publishers : ∀ pid p, w.publishers pid = some p → PublisherInv cfg w p
  deliveries : ∀ pid d, w.deliveries pid = some d → DeliveryInv cfg w d

/-! ### What every step keeps -/

/-- The worlds later in a run know at least as much: outbox rows, attempts and terminal
receipts stay, and no claim is made for a job that already has its row. -/
structure Grows (w w' : World) : Prop where
  outbox : Extends w.outbox w'.outbox
  terminal : ∀ jobID, Terminal w.worker jobID → Terminal w'.worker jobID
  attempts : ∀ attemptID jobID, HasAttempt w.worker attemptID jobID →
    HasAttempt w'.worker attemptID jobID
  claims : ∀ area, ∀ c ∈ (w'.books area).claims,
    c ∈ (w.books area).claims ∨ ∀ row ∈ w.outbox, row.id ≠ c.jobID

section Grows

variable {cfg : Config} {w w' : World} {payload : String} {e : JobEvent}

theorem Listed.mono (hgrows : Grows w w') (h : Listed cfg w payload e) :
    Listed cfg w' payload e := by
  obtain ⟨row, hrow, hpayload, hid, hencodes⟩ := h
  obtain ⟨row', hrow', hid', hpayload', -⟩ := hgrows.outbox row hrow
  exact ⟨row', hrow', hpayload'.trans hpayload, hid'.trans hid, hencodes⟩

theorem Done.mono (hgrows : Grows w w') (hlisted : Listed cfg w payload e) (h : Done w e.jobID) :
    Done w' e.jobID := by
  refine ⟨hgrows.terminal _ h.1, ?_⟩
  intro area c hc heq
  rcases hgrows.claims area c hc with hold | hnew
  · exact h.2 area c hold heq
  · obtain ⟨row, hrow, -, hid, -⟩ := hlisted
    exact hnew row hrow (hid.trans heq.symm)

theorem DeliveryInv.mono (hgrows : Grows w w') {d : Delivery} (h : DeliveryInv cfg w d) :
    DeliveryInv cfg w' d := by
  cases d with
  | fetched m =>
    obtain ⟨e, hlisted⟩ := h
    exact ⟨e, hlisted.mono hgrows⟩
  | started m e attempt => exact ⟨h.1.mono hgrows, hgrows.attempts _ _ h.2⟩
  | handled m e attempt jobErr =>
    exact ⟨h.1.mono hgrows, hgrows.attempts _ _ h.2.1, h.2.2⟩
  | processed m e result err =>
    exact ⟨h.1.mono hgrows, h.2.mono (hgrows.terminal _)⟩
  | resolved m action =>
    obtain ⟨e, hlisted, hdone⟩ := h
    exact ⟨e, hlisted.mono hgrows, fun haction => (hdone haction).mono hgrows hlisted⟩

theorem ClaimBacked.mono (hgrows : Grows w w') {area : Area} {c : Claim}
    (h : ClaimBacked cfg w area c) : ClaimBacked cfg w' area c := by
  obtain ⟨payload, e, hlisted, hrest⟩ := h
  exact ⟨payload, e, hlisted.mono hgrows, hrest⟩

theorem KnownKind.mono (hgrows : Grows w w') {jobID kind : String}
    (h : KnownKind cfg w jobID kind) : KnownKind cfg w' jobID kind := by
  obtain ⟨payload, e, hlisted, hrest⟩ := h
  exact ⟨payload, e, hlisted.mono hgrows, hrest⟩

/-- While the stream only gains messages, safe jobs stay safe. -/
theorem Safe.mono (hgrows : Grows w w') (hstream : ∀ m ∈ w.stream, m ∈ w'.stream)
    (hlisted : Listed cfg w payload e) (h : Safe cfg w e.jobID) : Safe cfg w' e.jobID := by
  rcases h with ⟨m, hm, hrest⟩ | hdone
  · exact Or.inl ⟨m, hstream m hm, hrest⟩
  · exact Or.inr (hdone.mono hgrows hlisted)

theorem PublisherInv.mono (hgrows : Grows w w')
    (hsafe : ∀ payload e, Listed cfg w payload e → Safe cfg w e.jobID → Safe cfg w' e.jobID)
    {p : Publisher} (h : PublisherInv cfg w p) : PublisherInv cfg w' p := by
  refine ⟨?_, ?_⟩
  · intro record hrecord
    obtain ⟨e, hlisted, hid⟩ := h.1 record hrecord
    exact ⟨e, hlisted.mono hgrows, hid⟩
  · intro now record rest result heq
    obtain ⟨e, hlisted, hid⟩ := h.1 record (by rw [heq]; exact List.mem_cons_self)
    have hold := h.2 now record rest result heq
    rw [← hid] at hold ⊢
    exact hsafe _ e hlisted hold

/-- Claims may disappear, and nothing else moves. -/
theorem Grows.of_claims (houtbox : w'.outbox = w.outbox) (hworker : w'.worker = w.worker)
    (hclaims : ∀ area, ∀ c ∈ (w'.books area).claims, c ∈ (w.books area).claims) : Grows w w' := by
  refine ⟨houtbox ▸ Extends.refl _, ?_, ?_, fun area c hc => Or.inl (hclaims area c hc)⟩
  · intro jobID h
    rw [hworker]
    exact h
  · intro attemptID jobID h
    rw [hworker]
    exact h

/-- Outbox rows are kept or appended, and nothing else moves. -/
theorem Grows.of_outbox (houtbox : Extends w.outbox w'.outbox) (hworker : w'.worker = w.worker)
    (hbooks : w'.books = w.books) : Grows w w' := by
  refine ⟨houtbox, ?_, ?_, ?_⟩
  · intro jobID h
    rw [hworker]
    exact h
  · intro attemptID jobID h
    rw [hworker]
    exact h
  · intro area c hc
    rw [hbooks] at hc
    exact Or.inl hc

/-- The invariant of a world that grew: what the calls in flight rely on is carried
over, and the rest is what the step has to show about the stores it wrote. -/
theorem Inv.grow (h : Inv cfg w) (hgrows : Grows w w')
    (hsafe : ∀ payload e, Listed cfg w payload e → Safe cfg w e.jobID → Safe cfg w' e.jobID)
    (hpublishers : w'.publishers = w.publishers) (hdeliveries : w'.deliveries = w.deliveries)
    (hunique : Table.UniqueKey OutboxRow.id w'.outbox)
    (hrows : ∀ row ∈ w'.outbox, ∃ e, Listed cfg w' row.payloadJSON e ∧ e.jobID = row.id)
    (hpublished : ∀ row ∈ w'.outbox, row.state = .published → Safe cfg w' row.id)
    (hmessages : ∀ m ∈ w'.stream, ∃ e, Listed cfg w' m.payload e)
    (hstore : StoreInv cfg.maxAttempts w'.clock w'.worker)
    (hkinds : ReceiptKinds (KnownKind cfg w') w'.worker)
    (hclaimed : ∀ area, ∀ c ∈ (w'.books area).claims, ClaimBacked cfg w' area c)
    (hclaimKeys : ∀ area, Table.UniqueKey Claim.key (w'.books area).claims) : Inv cfg w' where
  unique := hunique
  rows := hrows
  published := hpublished
  messages := hmessages
  store := hstore
  kinds := hkinds
  claimed := hclaimed
  claimKeys := hclaimKeys
  publishers := by
    intro pid p hp
    rw [hpublishers] at hp
    exact (h.publishers pid p hp).mono hgrows hsafe
  deliveries := by
    intro pid d hd
    rw [hdeliveries] at hd
    exact (h.deliveries pid d hd).mono hgrows

/-- Rows that were published before are still safe. -/
theorem Inv.published_mono (h : Inv cfg w)
    (hsafe : ∀ payload e, Listed cfg w payload e → Safe cfg w e.jobID → Safe cfg w' e.jobID)
    {row : OutboxRow} (hrow : row ∈ w.outbox) (hpublished : row.state = .published) :
    Safe cfg w' row.id := by
  obtain ⟨e, hlisted, hid⟩ := h.rows row hrow
  have hbefore := h.published row hrow hpublished
  rw [← hid] at hbefore ⊢
  exact hsafe _ e hlisted hbefore

/-- Old messages are still listed. -/
theorem Inv.messages_mono (h : Inv cfg w) (hgrows : Grows w w') {m : Message}
    (hm : m ∈ w.stream) : ∃ e, Listed cfg w' m.payload e := by
  obtain ⟨e, hlisted⟩ := h.messages m hm
  exact ⟨e, hlisted.mono hgrows⟩

theorem Inv.kinds_mono (h : Inv cfg w) (hgrows : Grows w w') :
    ReceiptKinds (KnownKind cfg w') w.worker :=
  fun r hr => (h.kinds r hr).mono hgrows

end Grows

/-! ### One lemma for each kind of write -/

section Writes

variable {cfg : Config} {w : World} {e : JobEvent}

theorem Inv.setPublisher (h : Inv cfg w) (pid : Nat) {p : Option Publisher}
    (hp : ∀ publisher, p = some publisher → PublisherInv cfg w publisher) :
    Inv cfg (w.setPublisher pid p) := by
  refine { h with publishers := ?_ }
  intro other publisher hat
  simp only [World.setPublisher, Function.update_apply] at hat
  split at hat
  · exact hp publisher hat
  · exact h.publishers other publisher hat

theorem Inv.setDelivery (h : Inv cfg w) (pid : Nat) {d : Option Delivery}
    (hd : ∀ delivery, d = some delivery → DeliveryInv cfg w delivery) :
    Inv cfg (w.setDelivery pid d) := by
  refine { h with deliveries := ?_ }
  intro other delivery hat
  simp only [World.setDelivery, Function.update_apply] at hat
  split at hat
  · exact hd delivery hat
  · exact h.deliveries other delivery hat

theorem Inv.setScanner (h : Inv cfg w) (pid : Nat) (s : Option Scanner) :
    Inv cfg (w.setScanner pid s) :=
  { h with }

theorem Inv.tick (h : Inv cfg w) {after : Nat} (hclock : w.clock ≤ after) :
    Inv cfg { w with clock := after } :=
  { h with store := ⟨h.store.ids, fun jobID => (h.store.jobs jobID).mono hclock⟩ }

/-- A new pending row under a free job id, alone or with the claim that names it. -/
theorem Inv.appendRow (h : Inv cfg w) {row : OutboxRow} (books : Area → Book)
    (hfree : Table.lookup OutboxRow.id row.id w.outbox = none) (hpending : row.state = .pending)
    (hid : row.id = e.jobID) (hencodes : Encodes cfg.codec e row.payloadJSON)
    (hbooks : ∀ area, ∀ c ∈ (books area).claims, c ∈ (w.books area).claims ∨
      c.jobID = e.jobID ∧ e.kind = .deleteOCIObject ∧ e.objectKey = c.key ∧
        area.owns c.key = true) (hkeys : ∀ area, Table.UniqueKey Claim.key (books area).claims) :
    Inv cfg { w with outbox := w.outbox ++ [row], books := books } := by
  have hnew := Table.lookup_eq_none.mp hfree
  have hlisted : Listed cfg { w with outbox := w.outbox ++ [row], books := books }
      row.payloadJSON e :=
    ⟨row, List.mem_append_right _ (List.mem_singleton_self row), rfl, hid, hencodes⟩
  have hgrows : Grows w { w with outbox := w.outbox ++ [row], books := books } := by
    refine ⟨?_, fun _ ht => ht, fun _ _ ha => ha, ?_⟩
    · intro old hold
      exact ⟨old, List.mem_append_left _ hold, rfl, rfl, fun hp => hp⟩
    · intro area c hc
      rcases hbooks area c hc with hold | ⟨hjob, -⟩
      · exact Or.inl hold
      · refine Or.inr fun old hold => ?_
        rw [hjob, ← hid]
        exact hnew old hold
  have hsafe : ∀ payload e, Listed cfg w payload e → Safe cfg w e.jobID →
      Safe cfg { w with outbox := w.outbox ++ [row], books := books } e.jobID :=
    fun payload e hold => Safe.mono hgrows (fun m hm => hm) hold
  refine h.grow hgrows hsafe rfl rfl (h.unique.append hnew) ?_ ?_
    (fun m hm => h.messages_mono hgrows hm) h.store (h.kinds_mono hgrows) ?_ hkeys
  · intro old hold
    rcases List.mem_append.mp hold with hold | hold
    · obtain ⟨e, hlisted, hid⟩ := h.rows old hold
      exact ⟨e, hlisted.mono hgrows, hid⟩
    · rw [List.mem_singleton] at hold
      rw [hold]
      exact ⟨e, hlisted, hid.symm⟩
  · intro old hold hpublished
    rcases List.mem_append.mp hold with hold | hold
    · exact h.published_mono hsafe hold hpublished
    · rw [List.mem_singleton] at hold
      rw [hold, hpending] at hpublished
      cases hpublished
  · intro area c hc
    rcases hbooks area c hc with hold | ⟨hjob, hkind, hkey, howns⟩
    · exact (h.claimed area c hold).mono hgrows
    · exact ⟨_, e, hlisted, hjob.symm, hkind, hkey, howns⟩

/-- A mark on the outbox; a row it publishes must be safe. -/
theorem Inv.mark (h : Inv cfg w) {mark : Option String} {outbox : List OutboxRow}
    (hmarked : Marked mark w.outbox outbox)
    (hsafeMark : ∀ id, mark = some id → Safe cfg w id) :
    Inv cfg { w with outbox := outbox } := by
  have hgrows : Grows w { w with outbox := outbox } := Grows.of_outbox hmarked.extend rfl rfl
  refine h.grow hgrows (fun payload e hold => Safe.mono hgrows (fun m hm => hm) hold) rfl rfl
    (hmarked.unique h.unique) ?_ ?_ (fun m hm => h.messages_mono hgrows hm) h.store
    (h.kinds_mono hgrows) (fun area c hc => (h.claimed area c hc).mono hgrows) h.claimKeys
  · intro row hrow
    obtain ⟨old, hold, hid, hpayload, -⟩ := hmarked.origin row hrow
    obtain ⟨e, hlisted, hjob⟩ := h.rows old hold
    rw [hid, hpayload]
    exact ⟨e, hlisted.mono hgrows, hjob⟩
  · intro row hrow hpublished
    obtain ⟨old, hold, hid, -, hstate⟩ := hmarked.origin row hrow
    rw [hid]
    rcases hstate hpublished with hbefore | hmark
    · exact h.published old hold hbefore
    · exact hsafeMark old.id hmark

/-- The broker stores a message of a committed event. -/
theorem Inv.push (h : Inv cfg w) {payload : String} (hlisted : Listed cfg w payload e) :
    Inv cfg (w.push payload) := by
  have hgrows : Grows w (w.push payload) := Grows.of_claims rfl rfl fun _ _ hc => hc
  have hsafe : ∀ payload' e, Listed cfg w payload' e → Safe cfg w e.jobID →
      Safe cfg (w.push payload) e.jobID :=
    fun payload' e hold => Safe.mono hgrows (fun m hm => List.mem_append_left _ hm) hold
  refine h.grow hgrows hsafe rfl rfl h.unique h.rows
    (fun row hrow => h.published_mono hsafe hrow) ?_ h.store h.kinds h.claimed h.claimKeys
  intro m hm
  rcases List.mem_append.mp hm with hm | hm
  · exact h.messages m hm
  · rw [List.mem_singleton] at hm
    rw [hm]
    exact ⟨e, hlisted⟩

/-- The broker lets go of a message whose job is done. -/
theorem Inv.drop (h : Inv cfg w) {m : Message} (hlisted : Listed cfg w m.payload e)
    (hdone : Done w e.jobID) : Inv cfg (w.drop m) := by
  have hgrows : Grows w (w.drop m) := Grows.of_claims rfl rfl fun _ _ hc => hc
  have hsafe : ∀ jobID, Safe cfg w jobID → Safe cfg (w.drop m) jobID := by
    rintro jobID (⟨held, hheld, other, hencodes, hjob⟩ | hbefore)
    · by_cases hsame : held = m
      · -- the message that goes is the one that kept this job safe
        obtain ⟨-, -, -, -, hown⟩ := hlisted
        rw [hsame] at hencodes
        have heq := hencodes.unique hown
        rw [← hjob, heq]
        exact Or.inr hdone
      · exact Or.inl ⟨held, List.mem_filter.mpr ⟨hheld, by simp [hsame]⟩, other, hencodes, hjob⟩
    · exact Or.inr hbefore
  refine h.grow hgrows (fun _ e _ hbefore => hsafe e.jobID hbefore) rfl rfl h.unique h.rows
    (fun row hrow hpublished => hsafe _ (h.published row hrow hpublished)) ?_ h.store h.kinds
    h.claimed h.claimKeys
  intro held hheld
  exact h.messages held (List.mem_filter.mp hheld).1

/-- Claims of one area disappear, or only its cursor moves. -/
theorem Inv.setBook (h : Inv cfg w) (area : Area) {book : Book}
    (hsub : ∀ c ∈ book.claims, c ∈ (w.books area).claims)
    (hkeys : Table.UniqueKey Claim.key book.claims) : Inv cfg (w.setBook area book) := by
  have hclaims : ∀ other, ∀ c ∈ ((w.setBook area book).books other).claims,
      c ∈ (w.books other).claims := by
    intro other c hc
    simp only [World.setBook, Function.update_apply] at hc
    split at hc
    · rename_i heq
      rw [heq]
      exact hsub c hc
    · exact hc
  have hgrows : Grows w (w.setBook area book) := Grows.of_claims rfl rfl hclaims
  have hsafe : ∀ payload e, Listed cfg w payload e → Safe cfg w e.jobID →
      Safe cfg (w.setBook area book) e.jobID :=
    fun payload e hold => Safe.mono hgrows (fun m hm => hm) hold
  refine h.grow hgrows hsafe rfl rfl h.unique h.rows
    (fun row hrow => h.published_mono hsafe hrow) h.messages h.store h.kinds
    (fun other c hc => h.claimed other c (hclaims other c hc)) ?_
  intro other
  simp only [World.setBook, Function.update_apply]
  split
  · exact hkeys
  · exact h.claimKeys other

/-- A transaction of the worker. -/
theorem Inv.setWorker (h : Inv cfg w) {after now : Nat} {db : Worker.DB}
    (hmoved : Moved cfg.maxAttempts now w.worker db)
    (hattempts : ∀ attemptID jobID, HasAttempt w.worker attemptID jobID →
      HasAttempt db attemptID jobID)
    (hstore : StoreInv cfg.maxAttempts after db) (hkinds : ReceiptKinds (KnownKind cfg w) db) :
    Inv cfg (w.setWorker after db) := by
  have hgrows : Grows w (w.setWorker after db) :=
    ⟨Extends.refl _, fun jobID ht => hmoved.terminal_stable ht, hattempts,
      fun _ _ hc => Or.inl hc⟩
  have hsafe : ∀ payload e, Listed cfg w payload e → Safe cfg w e.jobID →
      Safe cfg (w.setWorker after db) e.jobID :=
    fun payload e hold => Safe.mono hgrows (fun m hm => hm) hold
  exact h.grow hgrows hsafe rfl rfl h.unique h.rows
    (fun row hrow => h.published_mono hsafe hrow) h.messages hstore hkinds h.claimed h.claimKeys

end Writes

end Pipeline
end FlickDrop
