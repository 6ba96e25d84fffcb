import FlickDrop.Foundations.Base64
import FlickDrop.Foundations.Transaction

/-!
# Request validation

Model of `internal/requests/validation.go`: errors, limits, canonical base64 fields,
capability tokens and the metadata envelope.  The strict JSON decoder of an envelope is
a parameter of the deployment; everything the package writes itself is spelled out.
-/

namespace FlickDrop
namespace Requests

open Foundations

/-- `other` is an error of the database, the outbox or a context. -/
inductive Err where
  | invalid
  | tooLarge
  | unavailable
  | conflict
  | storage
  | other
  deriving DecidableEq, Repr

def envelopeMaxBytes : Nat := 8192

def maxGeneration : Int := 16

def envelopeVersion : Int := 2

def maxEncryptedNameLen : Nat := 4096

/-- `AgeMagic`, the first line of every age file. -/
def ageMagic : Bytes :=
  "age-encryption.org/v1\n".toList.map fun c => UInt8.ofNat c.toNat

/-- `isAgeFile`. -/
def isAgeFile (b : Bytes) : Bool := ageMagic.isPrefixOf b

inductive Kind where
  | text
  | file
  | unsupported (name : String)
  deriving DecidableEq, Repr

def Kind.name : Kind → String
  | .text => "text"
  | .file => "file"
  | .unsupported name => name

/-- `Envelope`; an absent filename is the empty text. -/
structure Envelope where
  version : Int
  encryptedFilename : String
  deriving DecidableEq, Repr

/-- `canonicalBase64`. -/
def canonicalBase64 (s : String) (least most : Nat) : Except Err Bytes :=
  if stdEncoding.encodedLen most < s.utf8ByteSize then
    .error .invalid
  else
    match stdEncoding.asStrict.decodeString s with
    | none => .error .invalid
    | some b =>
      if b.length < least ∨ most < b.length ∨ stdEncoding.encodeToString b ≠ s then
        .error .invalid
      else
        .ok b

/-- `tokenHash`. -/
def tokenHash (sha256 : Bytes → Bytes) (token : String) : Except Err Bytes :=
  if token.utf8ByteSize ≠ 43 then
    .error .invalid
  else
    match rawURLEncoding.asStrict.decodeString token with
    | none => .error .invalid
    | some b =>
      if b.length ≠ 32 ∨ rawURLEncoding.encodeToString b ≠ token then
        .error .invalid
      else
        .ok (sha256 b)

/-- What `json.Marshal` makes of a text that needs no escape. -/
def jsonText (s : String) : String := "\"" ++ s ++ "\""

/-- `json.Marshal` of an envelope. -/
def Envelope.marshal (e : Envelope) : String :=
  "\x7b\"version\":" ++ toString e.version ++
    (if e.encryptedFilename = "" then "" else
      ",\"encrypted_filename\":" ++ jsonText e.encryptedFilename) ++ "\x7d"

/-- `validateEnvelope`; `decode` is `DecodeObject` with a required `version` and an
optional `encrypted_filename`. -/
def validateEnvelope (decode : Bytes → Option Envelope) (raw : Bytes) (kind : Kind) :
    Except Err String :=
  if envelopeMaxBytes < raw.length then
    .error .invalid
  else
    match decode raw with
    | none => .error .invalid
    | some e =>
      if e.version ≠ envelopeVersion then
        .error .invalid
      else
        match kind with
        | .file =>
          match canonicalBase64 e.encryptedFilename ageMagic.length maxEncryptedNameLen with
          | .error _ => .error .invalid
          | .ok name => if isAgeFile name then .ok e.marshal else .error .invalid
        | .text => if e.encryptedFilename ≠ "" then .error .invalid else .ok e.marshal
        | .unsupported _ => .error .invalid

/-- The texts `canonicalBase64` accepts. -/
theorem canonicalBase64_ok_iff {s : String} {least most : Nat} {b : Bytes} :
    canonicalBase64 s least most = .ok b ↔
      s = stdEncoding.encodeToString b ∧ least ≤ b.length ∧ b.length ≤ most := by
  unfold canonicalBase64
  constructor
  · intro h
    split at h
    · cases h
    split at h
    · cases h
    split at h
    · cases h
    rename_i hcanonical
    cases h
    rw [not_or, not_or, not_not] at hcanonical
    exact ⟨hcanonical.2.2.symm, Nat.le_of_not_lt hcanonical.1, Nat.le_of_not_lt hcanonical.2.1⟩
  · rintro ⟨rfl, hleast, hmost⟩
    have hlawful := Base64.stdEncoding_lawful
    -- the check of the length before the decoding lets the text through
    have hshort : ¬ stdEncoding.encodedLen most < (stdEncoding.encodeToString b).utf8ByteSize := by
      rw [Base64.utf8ByteSize_encodeToString hlawful]
      exact Nat.not_lt_of_le (Base64.encodedLen_mono hmost)
    rw [if_neg hshort, Base64.decodeString_asStrict_encodeToString hlawful]
    dsimp only
    rw [if_neg]
    rintro (hno | hno | hno)
    · omega
    · omega
    · exact hno rfl

/-- The texts `tokenHash` accepts. -/
theorem tokenHash_ok_iff {sha256 : Bytes → Bytes} {token : String} {hash : Bytes} :
    tokenHash sha256 token = .ok hash ↔
      ∃ raw, raw.length = 32 ∧ token = rawURLEncoding.encodeToString raw ∧ hash = sha256 raw := by
  unfold tokenHash
  constructor
  · intro h
    split at h
    · cases h
    split at h
    · cases h
    rename_i raw hdecode
    split at h
    · cases h
    rename_i hcanonical
    rw [not_or, not_not, not_not] at hcanonical
    exact ⟨raw, hcanonical.1, hcanonical.2.symm, (Except.ok.inj h).symm⟩
  · rintro ⟨raw, hraw, rfl, rfl⟩
    have hlawful := Base64.rawURLEncoding_lawful
    have hsize : (rawURLEncoding.encodeToString raw).utf8ByteSize = 43 := by
      rw [Base64.utf8ByteSize_encodeToString hlawful, hraw]
      rfl
    rw [if_neg (not_not.mpr hsize), Base64.decodeString_asStrict_encodeToString hlawful]
    dsimp only
    rw [if_neg]
    rintro (hno | hno)
    · exact hno hraw
    · exact hno rfl

/-- Tokens with one hash are one token. -/
theorem tokenHash_inj {sha256 : Bytes → Bytes} (hinj : Function.Injective sha256)
    {token token' : String} {hash : Bytes} (h : tokenHash sha256 token = .ok hash)
    (h' : tokenHash sha256 token' = .ok hash) : token = token' := by
  obtain ⟨raw, -, rfl, hhash⟩ := tokenHash_ok_iff.mp h
  obtain ⟨raw', -, rfl, hhash'⟩ := tokenHash_ok_iff.mp h'
  have hsame : raw = raw' := hinj (hhash.symm.trans hhash')
  rw [hsame]

end Requests
end FlickDrop
