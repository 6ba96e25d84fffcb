import FlickDrop.Foundations.Text

/-!
# Job events

Model of `internal/events/job.go`.  A job event asks the worker to clean up a secret's
row or a stored object.  Producers validate before they encode, the worker validates
again after it decodes, so both sides agree on what a valid event is.

The JSON text itself is not modelled: a `Codec` is any pair of encoder and strict
decoder for which a valid event that can be encoded decodes to itself.
-/

namespace FlickDrop
namespace Events

open Foundations

inductive Kind where
  | deleteSecret
  | deleteOCIObject
  | unsupported (name : String)
  deriving DecidableEq, Repr

def Kind.text : Kind → String
  | .deleteSecret => "delete_secret"
  | .deleteOCIObject => "delete_oci_object"
  | .unsupported name => name

/-- The `reason` field; `absent` is the empty string, which JSON omits. -/
inductive Reason where
  | absent
  | consumed
  | expired
  | orphan
  | manual
  | retry
  | unsupported (text : String)
  deriving DecidableEq, Repr

/-- `validReason`. -/
def validReason : Reason → Bool
  | .consumed | .expired | .orphan | .manual | .retry => true
  | .absent | .unsupported _ => false

/-- The trace context is carried but never read by the modelled code. -/
structure JobEvent where
  jobID : String
  kind : Kind
  secretID : String
  objectKey : String
  reason : Reason
  requestedAt : Nat
  traceContext : List (String × String)
  deriving DecidableEq, Repr

/-- The job that deletes an object. -/
def objectEvent (jobID key : String) (reason : Reason) (now : Nat) : JobEvent where
  jobID := jobID
  kind := .deleteOCIObject
  secretID := ""
  objectKey := key
  reason := reason
  requestedAt := now
  traceContext := []

/-- What `ErrInvalidEvent` is wrapped with. -/
inductive EventErr where
  | jobIDRequired
  | requestedAtRequired
  | secretIDRequired
  | objectKeyRequired
  | unsupportedKind (name : String)
  | unsupportedReason
  | decode
  | marshal
  deriving DecidableEq, Repr

/-- The last check of `Validate`. -/
def JobEvent.validateReason (e : JobEvent) : Except EventErr Unit :=
  if e.reason ≠ .absent ∧ validReason e.reason = false then
    .error .unsupportedReason
  else
    .ok ()

/-- `JobEvent.Validate`.  The zero `time.Time` is instant 0. -/
def JobEvent.validate (e : JobEvent) : Except EventErr Unit :=
  if blank e.jobID then
    .error .jobIDRequired
  else if e.requestedAt = 0 then
    .error .requestedAtRequired
  else
    match e.kind with
    | .deleteSecret =>
      if blank e.secretID then .error .secretIDRequired else e.validateReason
    | .deleteOCIObject =>
      if blank e.objectKey then .error .objectKeyRequired else e.validateReason
    | .unsupported name => .error (.unsupportedKind name)

/-- `encoding/json` for job events: `encode` is `json.Marshal`, `decode` is the strict
decoder (unknown fields and trailing data refused). -/
structure Codec where
  encode : JobEvent → Option String
  decode : String → Option JobEvent
  roundTrip : ∀ e text, e.validate = .ok () → encode e = some text → decode text = some e
  decode_empty : decode "" = none

/-- A codec that knows one event, for concrete runs. -/
def singleCodec (e : JobEvent) : Codec where
  encode := fun event => if event = e then some "event" else none
  decode := fun text => if text = "event" then some e else none
  roundTrip := by
    intro event text _ hencode
    split at hencode
    · rename_i hsame
      rw [← Option.some.inj hencode, hsame]
      rfl
    · cases hencode
  decode_empty := rfl

/-- A codec that knows two events. -/
def pairCodec (e₁ e₂ : JobEvent) : Codec where
  encode := fun event =>
    if event = e₁ then some "first" else if event = e₂ then some "second" else none
  decode := fun text =>
    if text = "first" then some e₁ else if text = "second" then some e₂ else none
  roundTrip := by
    intro event text _ hencode
    split at hencode
    · rename_i hsame
      rw [← Option.some.inj hencode, hsame]
      rfl
    · split at hencode
      · rename_i hsame
        rw [← Option.some.inj hencode, hsame]
        rfl
      · cases hencode
  decode_empty := rfl

/-- `JobEvent.JSON`. -/
def JobEvent.json (codec : Codec) (e : JobEvent) : Except EventErr String :=
  match e.validate with
  | .error err => .error err
  | .ok () =>
    match codec.encode e with
    | none => .error .marshal
    | some text => .ok text

/-- `DecodeJobEvent`. -/
def decodeJobEvent (codec : Codec) (raw : String) : Except EventErr JobEvent :=
  match codec.decode raw with
  | none => .error .decode
  | some e =>
    match e.validate with
    | .error err => .error err
    | .ok () => .ok e

/-- `text` is the encoding of the valid event `e`. -/
structure Encodes (codec : Codec) (e : JobEvent) (text : String) : Prop where
  valid : e.validate = .ok ()
  encoded : codec.encode e = some text

variable {codec : Codec} {e : JobEvent} {text : String}

theorem json_eq_ok : e.json codec = .ok text ↔ Encodes codec e text := by
  unfold JobEvent.json
  constructor
  · intro h
    split at h
    · cases h
    rename_i hvalid
    split at h
    · cases h
    rename_i encoded hencoded
    cases h
    exact ⟨hvalid, hencoded⟩
  · intro h
    rw [h.valid, h.encoded]

/-- What was encoded decodes to the event it was encoded from. -/
theorem Encodes.decodes (h : Encodes codec e text) : decodeJobEvent codec text = .ok e := by
  unfold decodeJobEvent
  rw [codec.roundTrip e text h.valid h.encoded]
  dsimp only
  rw [h.valid]

theorem Encodes.nonempty (h : Encodes codec e text) : text ≠ "" := by
  rintro rfl
  have hdecoded := codec.roundTrip e "" h.valid h.encoded
  rw [codec.decode_empty] at hdecoded
  cases hdecoded

/-- One text encodes at most one event. -/
theorem Encodes.unique {e' : JobEvent} (h : Encodes codec e text) (h' : Encodes codec e' text) :
    e = e' := by
  have hdecoded := h.decodes
  rw [h'.decodes] at hdecoded
  exact (Except.ok.inj hdecoded).symm

theorem validate_jobID (h : e.validate = .ok ()) : blank e.jobID = false := by
  unfold JobEvent.validate at h
  split at h
  · cases h
  rename_i hblank
  simpa using hblank

/-- A valid event has one of the two supported kinds, with the field that kind needs. -/
theorem validate_kind (h : e.validate = .ok ()) :
    (e.kind = .deleteSecret ∧ blank e.secretID = false ∨
      e.kind = .deleteOCIObject ∧ blank e.objectKey = false) ∧
      (e.reason = .absent ∨ validReason e.reason = true) := by
  have hreason : e.validateReason = .ok () →
      e.reason = .absent ∨ validReason e.reason = true := by
    intro hlast
    unfold JobEvent.validateReason at hlast
    split at hlast
    · cases hlast
    rename_i hok
    by_cases habsent : e.reason = .absent
    · exact Or.inl habsent
    · simp only [not_and, Bool.not_eq_false] at hok
      exact Or.inr (hok habsent)
  unfold JobEvent.validate at h
  split at h
  · cases h
  split at h
  · cases h
  cases hkind : e.kind with
  | deleteSecret =>
    rw [hkind] at h
    dsimp only at h
    split at h
    · cases h
    rename_i hblank
    exact ⟨Or.inl ⟨rfl, by simpa using hblank⟩, hreason h⟩
  | deleteOCIObject =>
    rw [hkind] at h
    dsimp only at h
    split at h
    · cases h
    rename_i hblank
    exact ⟨Or.inr ⟨rfl, by simpa using hblank⟩, hreason h⟩
  | unsupported name =>
    rw [hkind] at h
    cases h

end Events
end FlickDrop
