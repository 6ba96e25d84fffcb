import FlickDrop.Foundations.Dialogue
import FlickDrop.Requests.Accounts

/-!
# Cancelling an upload in the browser

Model of `inspectRequestAttempt` and `cancelRequestUpload` of
`web/src/lib/state/request-upload.ts`, with the checks of the API client in
`web/src/lib/api/requests.ts`.  Both are scripts of at most four calls.  The service they
talk to goes on all the time, also with earlier requests of the same attempt, and every
answer may be old when it arrives.
-/

namespace FlickDrop
namespace Browser

open Foundations Requests

/-- The status `writeRequestError` sends. -/
def httpStatus : Err → Nat
  | .unavailable => 404
  | .invalid => 400
  | .tooLarge => 413
  | .conflict => 409
  | .storage | .other => 503

/-- A prepared attempt.  The body of a large one repeats its generation and token. -/
structure Attempt where
  generation : Int
  attemptToken : String
  upload : Option UploadInput
  same : ∀ input, upload = some input →
    input.generation = generation ∧ input.attemptToken = attemptToken

/-- What the page knows: the expiry of the request, and which texts its parsers accept. -/
structure Page where
  expiresAt : Nat
  validURL : String → Bool
  validFingerprint : String → Bool

inductive Call where
  | attempt
  | instructions
  | reserve
  | abandon
  deriving DecidableEq, Repr

/-- A decoded response.  The status of no response at all is 0. -/
inductive Reply where
  | receipt (receipt : Receipt)
  | upload (result : UploadResult)
  | instructions (instructions : Instructions)
  | status (code : Nat)
  deriving DecidableEq, Repr

inductive AttemptState where
  | waiting
  | uploading
  | accepted
  | unavailable
  deriving DecidableEq, Repr

inductive AttemptOutcome where
  | receipt (state : AttemptState)
  | renewed (instructions : Instructions)
  deriving DecidableEq, Repr

/-! ### The API client -/

/-- The state in an `AttemptReceipt`; the other one is an invalid response. -/
def attemptState : ReceiptState → Option AttemptState
  | .waiting => some .waiting
  | .uploading => some .uploading
  | .accepted => some .accepted
  | .unavailable => some .unavailable
  | .submitted => none

/-- `api.attempt` on a response; errors carry their status. -/
def apiAttempt (attempt : Attempt) : Reply → Except Nat AttemptState
  | .receipt receipt =>
    if receipt.generation ≠ attempt.generation then
      .error 0
    else
      match attemptState receipt.state with
      | none => .error 0
      | some state => .ok state
  | .status code => .error code
  | .upload _ | .instructions _ => .error 0

/-- `generation` of the client. -/
def validNumber (generation : Int) : Bool := decide (1 ≤ generation) && decide (generation ≤ 16)

/-- `api.instructions` on a response. -/
def apiInstructions (page : Page) : Reply → Except Nat Instructions
  | .instructions i =>
    if page.validFingerprint i.fingerprint = false ∨ validNumber i.generation = false then .error 0
    else .ok i
  | .status code => .error code
  | .receipt _ | .upload _ => .error 0

/-- `Date.parse` keeps milliseconds. -/
def milliseconds (instant : Nat) : Nat := instant / 1000000

/-- `reservation` of the client; the server sends one deadline twice. -/
def apiReserve (page : Page) (attempt : Attempt) : Reply → Except Nat ReceiptState
  | .upload result =>
    if result.generation ≠ attempt.generation then
      .error 0
    else if result.state = .submitted then
      .ok .submitted
    else
      match result.upload with
      | none => .error 0
      | some (url, deadline) =>
        if result.state ≠ .uploading ∨ milliseconds page.expiresAt < milliseconds deadline ∨
            page.validURL url = false then
          .error 0
        else
          .ok .uploading
  | .status code => .error code
  | .receipt _ | .instructions _ => .error 0

/-- `api.abandon` on a response. -/
def apiAbandon (attempt : Attempt) : Reply → Except Nat Int
  | .receipt receipt =>
    if validNumber receipt.generation = false ∨ receipt.generation ≠ attempt.generation + 1 ∨
        receipt.state ≠ .waiting then
      .error 0
    else
      .ok receipt.generation
  | .status code => .error code
  | .upload _ | .instructions _ => .error 0

/-! ### The scripts -/

/-- `inspectRequestAttempt`, followed by what its caller does with the outcome. -/
def inspectRequestAttempt (page : Page) (attempt : Attempt)
    (next : AttemptOutcome → Script Call Reply AttemptOutcome) : Script Call Reply AttemptOutcome :=
  .call .attempt fun reply =>
    match apiAttempt attempt reply with
    | .ok state => next (.receipt state)
    | .error status =>
      if status ≠ 404 then
        .throw
      else
        -- only evidence of the server permits a new attempt
        .call .instructions fun reply =>
          match apiInstructions page reply with
          | .error _ => .throw
          | .ok i =>
            if attempt.generation < i.generation ∧ i.canSubmit = true then next (.renewed i)
            else .throw

/-- The end of `cancelRequestUpload`. -/
def abandonAttempt (page : Page) (attempt : Attempt) : Script Call Reply AttemptOutcome :=
  .call .abandon fun reply =>
    match apiAbandon attempt reply with
    | .error _ => .throw
    | .ok _ =>
      .call .instructions fun reply =>
        match apiInstructions page reply with
        | .error _ => .throw
        | .ok i =>
          if attempt.generation < i.generation ∧ i.canSubmit = true then .done (.renewed i)
          else .done (.receipt .unavailable)

/-- `cancelRequestUpload`. -/
def cancelRequestUpload (page : Page) (attempt : Attempt) : Script Call Reply AttemptOutcome :=
  inspectRequestAttempt page attempt fun outcome =>
    match outcome with
    | .renewed _ | .receipt .accepted | .receipt .unavailable => .done outcome
    | .receipt .waiting =>
      match attempt.upload with
      | none => .throw
      | some _ =>
        -- a lost reservation may still execute: the same attempt is established first
        .call .reserve fun reply =>
          match apiReserve page attempt reply with
          | .error _ => .throw
          | .ok .submitted => .done (.receipt .accepted)
          | .ok _ => abandonAttempt page attempt
    | .receipt .uploading => abandonAttempt page attempt

/-! ### What the service answers -/

/-- A response to the answer of a transaction. -/
def replyOf {Answer : Type} (reply : Answer → Reply) : Except Err (Option Answer) → Reply
  | .ok (some answer) => reply answer
  | .ok none => .status 0
  | .error err => .status (httpStatus err)

/-- The service executes a call of the script.  A call that is turned away, by the store, by
a rate limit or on the way, may get any status. -/
inductive Answered (cfg : Config) (id token : String) (a : Attempt) :
    Call → World → List Answer → Reply → World → Prop
  | attempt {w : World} {db : DB} {receipt : Receipt} {after : Nat} (env : Env)
      (henv : env.Within w.clock after)
      (hattempt : attempt cfg env id token a.generation a.attemptToken w.db =
        .commit db (.ok (some receipt))) :
      Answered cfg id token a .attempt w
        [.verdict id receipt.generation a.attemptToken receipt.state] (.receipt receipt)
        (w.setDB after db)
  | reserve {w : World} {db : DB} {answer : Except Err (Option UploadResult)} {after : Nat}
      (env : Env) (henv : env.Within w.clock after) (rawUpload rawFinal : Bytes)
      (presign : Option String)
      (input : UploadInput) (hinput : a.upload = some input)
      (hfresh : w.FreshKeys (uploadKeyOf rawUpload) (finalKeyOf rawFinal))
      (hreserve : reserve cfg env rawUpload rawFinal presign id token input w.db =
        .commit db answer)
      (hanswer : answer ≠ .ok none) :
      Answered cfg id token a .reserve w (reservedAnswers id input.attemptToken answer)
        (replyOf .upload answer)
        { w.setDB after db with used := uploadKeyOf rawUpload :: finalKeyOf rawFinal :: w.used }
  | abandon {w : World} {db : DB} {answer : Except Err (Option Receipt)} {after : Nat} (env : Env)
      (henv : env.Within w.clock after)
      (habandon : abandon cfg env id token ⟨a.generation, a.attemptToken⟩ w.db = .commit db answer)
      (hanswer : answer ≠ .ok none) :
      Answered cfg id token a .abandon w [] (replyOf .receipt answer) (w.setDB after db)
  | read {w : World} {row : RequestRow} {after : Nat} (env : Env) (henv : env.Within w.clock after)
      (hread : read cfg env id token false w.db = .ok (.row row)) :
      Answered cfg id token a .instructions w [] (.instructions row.instructions)
        { w with clock := after }
  | refresh {w : World} {db : DB} {row : RequestRow} {after : Nat} (env : Env)
      (henv : env.Within w.clock after)
      (hrefresh : refresh cfg env id token false w.db = .commit db (.ok (some row))) :
      Answered cfg id token a .instructions w [] (.instructions row.instructions) (w.setDB after db)
  | refused {w : World} {after : Nat} (c : Call) (code : Nat) (hclock : w.clock ≤ after) :
      Answered cfg id token a c w [] (.status code) { w with clock := after }

/-- An executed call with what an observer of the tables sees of it. -/
def Executes (cfg : Config) (id token : String) (a : Attempt) (c : Call) (w : World) (label : Label)
    (reply : Reply) (w' : World) : Prop :=
  Answered cfg id token a c w label.answers reply w' ∧
    label.accepted = fun id => movedToSubmitted (w.row id) (w'.row id)

section

variable {cfg : Config} {id token : String} {a : Attempt} {c : Call} {w w' : World} {label : Label}
  {reply : Reply} {clock : Nat} {page : Page}

/-- Every executed call is an action of the service. -/
theorem Answered.action {answers : List Answer} (h : Answered cfg id token a c w answers reply w') :
    Action cfg w answers w' := by
  cases h with
  | attempt env henv hattempt => exact Action.attempt env henv _ _ _ _ hattempt
  | reserve env henv rawUpload rawFinal presign input hinput hfresh hreserve hanswer =>
    exact Action.reserve env henv _ _ _ _ _ _ hfresh hreserve hanswer
  | abandon env henv habandon hanswer => exact Action.abandon env henv _ _ _ habandon hanswer
  | read env henv hread => exact Action.tick henv.clock
  | refresh env henv hrefresh =>
    rw [(refresh_ok hrefresh).1]
    exact Action.tick henv.clock
  | refused c code hclock => exact Action.tick hclock

theorem Executes.step (h : Executes cfg id token a c w label reply w') : Step cfg w label w' :=
  ⟨h.1.action, h.2⟩

/-! ### What the answers mean -/

/-- The run accepts the attempt. -/
def AcceptedIn (cfg : Config) (id : String) (a : Attempt) (trace : List (Label × World)) : Prop :=
  ∃ t hash, acceptances trace id = [t] ∧ t.generation = a.generation ∧
    tokenHash cfg.sha256 a.attemptToken = .ok hash ∧ t.attempt = some hash

/-- The run does not accept the attempt. -/
def NeverAcceptedIn (cfg : Config) (id : String) (a : Attempt) (trace : List (Label × World)) :
    Prop :=
  ∀ hash, tokenHash cfg.sha256 a.attemptToken = .ok hash →
    ∀ t ∈ acceptances trace id, ¬ (t.generation = a.generation ∧ t.attempt = some hash)

/-- What a reply tells about the attempt. -/
def Means (accepted never : Prop) (a : Attempt) : Call → Reply → Prop
  | .attempt, .receipt receipt => receipt.generation = a.generation →
      (receipt.state = .accepted → accepted) ∧ (receipt.state = .unavailable → never)
  | .reserve, .upload result =>
    result.generation = a.generation → result.state = .submitted → accepted
  | .abandon, .receipt _ => never
  | .instructions, .instructions i => a.generation < i.generation → never
  | _, _ => True

/-- What an outcome promises. -/
def Promise (accepted never : Prop) : AttemptOutcome → Prop
  | .receipt .accepted => accepted
  | .receipt .unavailable | .renewed _ => never
  | .receipt .waiting | .receipt .uploading => True

/-! ### The scripts draw no other conclusions -/

theorem apiAttempt_ok {state : AttemptState} (h : apiAttempt a reply = .ok state) :
    ∃ receipt, reply = .receipt receipt ∧ receipt.generation = a.generation ∧
      attemptState receipt.state = some state := by
  cases reply with
  | receipt receipt =>
    unfold apiAttempt at h
    dsimp only at h
    split at h
    · cases h
    rename_i hgeneration
    split at h
    · cases h
    rename_i hstate
    cases h
    exact ⟨receipt, rfl, not_not.mp hgeneration, hstate⟩
  | upload | instructions | status => cases h

theorem apiInstructions_ok {i : Instructions} (h : apiInstructions page reply = .ok i) :
    reply = .instructions i := by
  cases reply with
  | instructions i' =>
    unfold apiInstructions at h
    dsimp only at h
    split at h
    · cases h
    cases h
    rfl
  | receipt | upload | status => cases h

theorem apiReserve_submitted (h : apiReserve page a reply = .ok .submitted) :
    ∃ result, reply = .upload result ∧ result.generation = a.generation ∧
      result.state = .submitted := by
  cases reply with
  | upload result =>
    unfold apiReserve at h
    dsimp only at h
    split at h
    · cases h
    rename_i hgeneration
    split at h
    · rename_i hsubmitted
      exact ⟨result, rfl, not_not.mp hgeneration, hsubmitted⟩
    · split at h
      · cases h
      split at h <;> cases h
  | receipt | instructions | status => cases h

theorem apiAbandon_ok {next : Int} (h : apiAbandon a reply = .ok next) :
    ∃ receipt, reply = .receipt receipt := by
  cases reply with
  | receipt receipt => exact ⟨receipt, rfl⟩
  | upload | instructions | status => cases h

section

variable {accepted never : Prop}

/-- The state of a receipt promises what the receipt means. -/
theorem promise_of_receipt {receipt : Receipt} {state : AttemptState}
    (hmeans : Means accepted never a .attempt (.receipt receipt))
    (hgeneration : receipt.generation = a.generation)
    (hstate : attemptState receipt.state = some state) :
    Promise accepted never (.receipt state) := by
  obtain ⟨haccepted, hunavailable⟩ := hmeans hgeneration
  cases hreceipt : receipt.state <;> rw [hreceipt] at hstate <;> cases hstate
  · exact haccepted hreceipt
  · exact trivial
  · exact trivial
  · exact hunavailable hreceipt

theorem inspect_safe {next : AttemptOutcome → Script Call Reply AttemptOutcome}
    (hnext : ∀ outcome, Promise accepted never outcome →
      (next outcome).Safe (Means accepted never a) (Promise accepted never)) :
    (inspectRequestAttempt page a next).Safe (Means accepted never a) (Promise accepted never) := by
  refine Script.Safe.call fun reply hmeans => ?_
  split
  · rename_i state hreply
    obtain ⟨receipt, rfl, hgeneration, hstate⟩ := apiAttempt_ok hreply
    exact hnext _ (promise_of_receipt hmeans hgeneration hstate)
  · split
    · exact Script.Safe.throw
    · refine Script.Safe.call fun reply hmeans => ?_
      split
      · exact Script.Safe.throw
      · rename_i i hreply
        obtain rfl := apiInstructions_ok hreply
        split
        · rename_i hnewer
          exact hnext _ (hmeans hnewer.1)
        · exact Script.Safe.throw

/-- Once the reservation is given up, both outcomes say the same. -/
theorem abandon_safe :
    (abandonAttempt page a).Safe (Means accepted never a) (Promise accepted never) := by
  refine Script.Safe.call fun reply hmeans => ?_
  split
  · exact Script.Safe.throw
  · rename_i hreply
    obtain ⟨receipt, rfl⟩ := apiAbandon_ok hreply
    have hnever : never := hmeans
    refine Script.Safe.call fun reply _ => ?_
    split
    · exact Script.Safe.throw
    · split
      · exact Script.Safe.done hnever
      · exact Script.Safe.done hnever

theorem cancel_safe :
    (cancelRequestUpload page a).Safe (Means accepted never a) (Promise accepted never) := by
  refine inspect_safe fun outcome hpromise => ?_
  split
  · exact Script.Safe.done hpromise
  · exact Script.Safe.done hpromise
  · exact Script.Safe.done hpromise
  · split
    · exact Script.Safe.throw
    · refine Script.Safe.call fun reply hmeans => ?_
      split
      · exact Script.Safe.throw
      · rename_i hreply
        obtain ⟨result, rfl, hgeneration, hsubmitted⟩ := apiReserve_submitted hreply
        exact Script.Safe.done (hmeans hgeneration hsubmitted)
      · exact abandon_safe
  · exact abandon_safe

end

/-! ### The service means what it says -/

/-- The row after the end of its reservation has lost the attempt. -/
theorem lost_endReservation (row : RequestRow) (hash : Bytes) :
    (row.endReservation row.generation).Lost row.generation hash := by
  by_cases hlast : row.generation = maxGeneration
  · refine Or.inr ⟨?_, ?_, by simp [RequestRow.endReservation]⟩
    · show (if row.generation = maxGeneration then _ else _) = row.generation
      rw [if_pos hlast]
    · show (if row.generation = maxGeneration then _ else _) ≠ State.waiting
      rw [if_pos hlast]
      decide
  · refine Or.inl ?_
    show row.generation < if row.generation = maxGeneration then _ else _
    rw [if_neg hlast]
    omega

theorem never_of_lost {front back : List (Label × World)} {mid : World} {row : RequestRow}
    (hfront : Run (Step cfg) (World.start clock) front mid) (hback : Run (Step cfg) mid back w)
    (hrow : mid.row id = some row) (hlost : ∀ hash, row.Lost a.generation hash) :
    NeverAcceptedIn cfg id a (front ++ back) :=
  fun hash _ => lost_whole hfront hrow (hlost hash) hback

/-- **What a call answers is true of the whole run.** -/
theorem Executes.means {front back : List (Label × World)} {final : World}
    (hexec : Executes cfg id token a c w label reply w')
    (hfront : Run (Step cfg) (World.start clock) front w) (hback : Run (Step cfg) w' back final) :
    Means (AcceptedIn cfg id a (front ++ (label, w') :: back))
      (NeverAcceptedIn cfg id a (front ++ (label, w') :: back)) a c reply := by
  have hstep := hexec.step
  have hlater : Run (Step cfg) w ((label, w') :: back) final := (Run.nil.snoc hstep).append hback
  have hrun : Run (Step cfg) (World.start clock) (front ++ (label, w') :: back) final :=
    hfront.append hlater
  have hmem : label ∈ labels (front ++ (label, w') :: back) := by simp [labels]
  obtain ⟨hanswered, -⟩ := hexec
  generalize hanswers : label.answers = answers at hanswered
  cases hanswered with
  | @attempt _ db receipt after env henv hattempt =>
    intro hgeneration
    refine ⟨fun hstate => confirmed_whole hrun hmem (Or.inr ?_), fun hstate hash hhash => ?_⟩
    · rw [hanswers, hgeneration, hstate]
      exact List.mem_singleton_self _
    · refine refused_of_run hrun hmem ?_ hhash
      rw [hanswers, hgeneration, hstate]
      exact List.mem_singleton_self _
  | @reserve _ db answer after env henv rawUpload rawFinal presign input hinput hfresh hreserve
      hanswer =>
    rcases answer with err | (_ | result)
    · exact trivial
    · exact absurd rfl hanswer
    · intro hgeneration hsubmitted
      refine confirmed_whole hrun hmem (Or.inl ?_)
      rw [hanswers, reservedAnswers, if_pos hsubmitted, hgeneration, (a.same input hinput).2]
      exact List.mem_singleton_self _
  | @abandon _ db answer after env henv habandon hanswer =>
    obtain ⟨hash, row, -, -, hgeneration, -, -, hend⟩ := abandon_cases habandon hanswer
    obtain ⟨row', -, hsame, hupdates⟩ := endReservationTx_updates (inv_of_run hfront).unique hend
    have hnever : NeverAcceptedIn cfg id a ((front ++ [(label, w.setDB after db)]) ++ back) := by
      refine never_of_lost (hfront.snoc hstep) hback hupdates.self fun hash => ?_
      rw [← hsame, show a.generation = row'.generation from hgeneration.symm.trans hsame.symm]
      exact lost_endReservation row' hash
    rw [← List.append_cons] at hnever
    rcases answer with err | (_ | receipt)
    · exact trivial
    · exact trivial
    · exact hnever
  | read env henv hread =>
    intro hnewer
    exact never_of_lost hfront hlater (read_ok hread) fun hash => Or.inl hnewer
  | refresh env henv hrefresh =>
    intro hnewer
    exact never_of_lost hfront hlater (refresh_ok hrefresh).2 fun hash => Or.inl hnewer
  | refused c code hclock => cases c <;> exact trivial

/-- **The cancel protocol is sound.**  The client starts one of its two calls in any state of
the service, and the service goes on during the dialogue and after it.  Whatever the
outcome promises about the attempt holds of the whole run. -/
theorem cancel_protocol_sound {before : List (Label × World)} {w₀ : World}
    (hbefore : Run (Step cfg) (World.start clock) before w₀)
    {script : Script Call Reply AttemptOutcome}
    (hscript : script = cancelRequestUpload page a ∨ script = inspectRequestAttempt page a .done)
    {dialogue : List (Option Label × Dialogue World Call Reply AttemptOutcome)}
    {outcome : AttemptOutcome} {pending : Option Reply}
    (hdialogue : Run (DialogueStep (Step cfg) (Executes cfg id token a)) ⟨w₀, script, none⟩ dialogue
      ⟨w, .done outcome, pending⟩)
    {later : List (Label × World)} {final : World} (hlater : Run (Step cfg) w later final) :
    (outcome = .receipt .accepted →
      AcceptedIn cfg id a (before ++ serviceTrace dialogue ++ later)) ∧
    (outcome = .receipt .unavailable ∨ (∃ i, outcome = .renewed i) →
      NeverAcceptedIn cfg id a (before ++ serviceTrace dialogue ++ later)) := by
  have hsafe : script.Safe
      (Means (AcceptedIn cfg id a (before ++ serviceTrace dialogue ++ later))
        (NeverAcceptedIn cfg id a (before ++ serviceTrace dialogue ++ later)) a)
      (Promise (AcceptedIn cfg id a (before ++ serviceTrace dialogue ++ later))
        (NeverAcceptedIn cfg id a (before ++ serviceTrace dialogue ++ later))) := by
    rcases hscript with rfl | rfl
    · exact cancel_safe
    · exact inspect_safe fun outcome hpromise => Script.Safe.done hpromise
  have hsound := Dialogue.sound_of_run
    (fun _ _ _ _ _ h => Executes.step h) hsafe rfl hdialogue hlater ?_
  · cases hsound.script with
    | done hpromise =>
      refine ⟨?_, ?_⟩
      · rintro rfl
        exact hpromise
      · rintro (rfl | ⟨i, rfl⟩)
        · exact hpromise
        · exact hpromise
  · intro front back c s label reply s' hsplit hfront hexec hback
    rw [List.append_assoc, hsplit, ← List.append_assoc]
    exact hexec.means (hbefore.append hfront) hback

end

/-! ### A concrete dialogue -/

def samplePage : Page := ⟨1 + 60 * second, fun _ => true, fun _ => true⟩

def largeAttempt : Attempt where
  generation := 1
  attemptToken := sampleToken 3
  upload := some (sampleUpload 3 97 1)
  same := by
    rintro input ⟨⟩
    exact ⟨rfl, rfl⟩

/-- The row after the cancellation. -/
def renewedRow : RequestRow := reservedRow.endReservation 1

/-- A new request is waiting; the client reserves, gives up and sees the next generation. -/
theorem cancel_protocol_sound_renewed :
    ∃ (before : List (Label × World)) (dialogue : List (Option Label × Dialogue World Call Reply _))
      (w : World),
      Run (Step (digestConfig sampleCodec)) (World.start 1) before sampleWorld ∧
      Run (DialogueStep (Step (digestConfig sampleCodec))
        (Executes (digestConfig sampleCodec) sampleID (sampleToken 1) largeAttempt))
        ⟨sampleWorld, cancelRequestUpload samplePage largeAttempt, none⟩ dialogue
        ⟨w, .done (.renewed renewedRow.instructions), none⟩ ∧
      NeverAcceptedIn (digestConfig sampleCodec) sampleID largeAttempt
        (before ++ serviceTrace dialogue ++ []) := by
  have hattempt : attempt (digestConfig sampleCodec) (stillEnv 1 sampleJobs) sampleID
      (sampleToken 1) 1 (sampleToken 3) sampleWorld.db =
        .commit sampleWorld.db (.ok (some ⟨1, .waiting⟩)) := by
    decide +kernel
  have hread : Requests.read (digestConfig sampleCodec) (stillEnv 1 sampleJobs) sampleID
      (sampleToken 1) false abandonedDB = .ok (.row renewedRow) := by
    decide +kernel
  have hbefore := Run.nil.snoc sample_creation.step
  have hstill := stillEnv_within 1 sampleJobs
  obtain ⟨_, hattempted⟩ : ∃ label, Executes (digestConfig sampleCodec) sampleID (sampleToken 1)
      largeAttempt .attempt sampleWorld label (.receipt ⟨1, .waiting⟩) sampleWorld :=
    ⟨⟨_, _⟩, .attempt _ hstill hattempt, rfl⟩
  obtain ⟨_, hreserved⟩ : ∃ label, Executes (digestConfig sampleCodec) sampleID (sampleToken 1)
      largeAttempt .reserve sampleWorld label
        (.upload ⟨1, .uploading, some ("url", 1 + 60 * second)⟩) reservedWorld :=
    ⟨⟨_, _⟩, .reserve _ hstill _ _ _ _ rfl ⟨List.not_mem_nil, List.not_mem_nil, by decide⟩
      sample_reserves (by simp), rfl⟩
  obtain ⟨_, habandoned⟩ : ∃ label, Executes (digestConfig sampleCodec) sampleID (sampleToken 1)
      largeAttempt .abandon reservedWorld label (.receipt ⟨2, .waiting⟩)
        (reservedWorld.setDB 1 abandonedDB) := by
    have hanswered := Answered.abandon (a := largeAttempt) _ hstill sample_abandons (by simp)
    exact ⟨⟨_, _⟩, hanswered, rfl⟩
  obtain ⟨_, hshown⟩ : ∃ label, Executes (digestConfig sampleCodec) sampleID (sampleToken 1)
      largeAttempt .instructions (reservedWorld.setDB 1 abandonedDB) label
        (.instructions renewedRow.instructions) (reservedWorld.setDB 1 abandonedDB) :=
    ⟨⟨_, _⟩, .read _ hstill hread, rfl⟩
  have hdialogue : Run (DialogueStep (Step (digestConfig sampleCodec))
      (Executes (digestConfig sampleCodec) sampleID (sampleToken 1) largeAttempt))
      ⟨sampleWorld, cancelRequestUpload samplePage largeAttempt, none⟩ _
      ⟨reservedWorld.setDB 1 abandonedDB, .done (.renewed renewedRow.instructions), none⟩ :=
    Run.snoc (Run.snoc (Run.snoc (Run.snoc (Run.snoc (Run.snoc (Run.snoc (Run.snoc Run.nil
      (.execute hattempted)) .arrive) (.execute hreserved)) .arrive) (.execute habandoned)) .arrive)
      (.execute hshown)) .arrive
  exact ⟨_, _, _, hbefore, hdialogue,
    (cancel_protocol_sound hbefore (Or.inl rfl) hdialogue Run.nil).2 (Or.inr ⟨_, rfl⟩)⟩

end Browser
end FlickDrop
