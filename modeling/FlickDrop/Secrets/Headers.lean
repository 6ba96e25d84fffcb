import FlickDrop.Foundations.Text
import FlickDrop.Secrets.Lockout

/-!
# The headers of an open

An open answers the age file in its body and the two small age files of a secret, the
wrapped identity and the encrypted filename, in headers.  Model of the headers
`openSecret` sets in `internal/httpapi/secrets.go` and of their reader in
`internal/flickcli/client.go`.

The fields are checked when the secret is created, with a decoder that skips line breaks.
`net/http` turns line breaks into spaces, which the reader's decoder refuses.
-/

namespace FlickDrop
namespace Secrets

open Foundations

/-- `headerWrappedIdentity`. -/
def headerWrappedIdentity : String := "Flick-Wrapped-Identity"

/-- The headers of an open, as the client gets them; an absent one is empty. -/
structure OpenHeaders where
  kind : String
  contentType : String
  encryptedFilename : String
  wrappedIdentity : String
  deriving DecidableEq, Repr

def Kind.name : Kind → String
  | .text => "text"
  | .file => "file"
  | .unsupported name => name

/-- The headers `openSecret` sets. -/
def openHeaders (secret : Secret) : OpenHeaders where
  kind := headerValue secret.kind.name
  contentType := (secret.contentType.map headerValue).getD ""
  encryptedFilename := (secret.encryptedFilename.map headerValue).getD ""
  wrappedIdentity := (secret.access.map fun access => headerValue access.wrappedIdentity).getD ""

/-- What the client keeps of them. -/
structure OpenedSecret where
  kind : String
  contentType : String
  encryptedFilename : String
  wrappedIdentity : Option Bytes
  deriving DecidableEq, Repr

/-- `headerBytes` of the header `name`. -/
def headerBytes (name value : String) : Except String (Option Bytes) :=
  if value = "" then
    .ok none
  else
    match stdEncoding.decodeString value with
    | none => .error ("open response header " ++ name ++ " is not valid base64")
    | some decoded => .ok (some decoded)

/-- `openedSecret`. -/
def openedSecret (headers : OpenHeaders) : Except String OpenedSecret :=
  if headers.kind ≠ "text" ∧ headers.kind ≠ "file" then
    .error "open response has an unknown kind"
  else
    match headerBytes headerWrappedIdentity headers.wrappedIdentity with
    | .error err => .error err
    | .ok wrapped =>
      .ok ⟨headers.kind, headers.contentType, headers.encryptedFilename, wrapped⟩

/-- The age file `openFilename` unseals. -/
def filenameFile (encoded : String) : Option Bytes := stdEncoding.decodeString encoded

/-- No line break stands inside the text. -/
def Unbroken (value : String) : Prop :=
  ∀ c ∈ trimString value.toList, c ≠ '\r' ∧ c ≠ '\n'

instance (value : String) : Decidable (Unbroken value) :=
  List.decidableBAll (fun c => c ≠ '\r' ∧ c ≠ '\n') (trimString value.toList)

/-- The bytes that were checked when the secret was created are the bytes the client reads. -/
def FieldsSurvive (wrappedIdentity encryptedFilename : Option String) : Prop :=
  (∀ value, wrappedIdentity = some value → ∃ raw,
    decodeAgeField value maxWrappedIdentityBytes = some raw ∧
      headerBytes headerWrappedIdentity (headerValue value) = .ok (some raw)) ∧
    ∀ value, encryptedFilename = some value → ∃ raw,
      decodeAgeField value maxEncryptedFilenameBytes = some raw ∧
        filenameFile (headerValue value) = some raw

/-! ### What is read back -/

/-- A character of the alphabet, or the padding, is no white space. -/
theorem accepted_not_space {c : Char}
    (h : (stdEncoding.value c).isSome ∨ stdEncoding.isPadding c) : isASCIISpace c = false := by
  cases hspace : isASCIISpace c with
  | false => rfl
  | true =>
    simp only [isASCIISpace, Bool.or_eq_true, decide_eq_true_eq] at hspace
    rcases hspace with ((rfl | rfl) | rfl) | rfl <;> revert h <;> decide +kernel

/-- **A field survives its header** iff no line break stands inside it. -/
theorem decodeString_headerValue_iff {value : String} {raw : Bytes}
    (h : stdEncoding.decodeString value = some raw) :
    stdEncoding.decodeString (headerValue value) = some raw ↔ Unbroken value := by
  rw [headerValue, Base64.decodeString, String.toList_ofList, trimString_map_newlineToSpace]
  rw [Base64.decodeString] at h
  constructor
  · intro hheader c hc
    -- a line break inside would be a space on the wire
    have hkept : newlineToSpace c ≠ ' ' := by
      intro hblank
      have hmem : ' ' ∈ ((trimString value.toList).map newlineToSpace).filter
          (fun c => c ≠ '\r' && c ≠ '\n') :=
        List.mem_filter.mpr ⟨hblank ▸ List.mem_map_of_mem hc, by decide⟩
      have hno := accepted_not_space (Base64.decodeQuanta_mem hheader ' ' hmem)
      revert hno
      decide
    constructor
    · rintro rfl
      exact hkept (by decide)
    · rintro rfl
      exact hkept (by decide)
  · intro hunbroken
    have hsame : (trimString value.toList).map newlineToSpace = trimString value.toList := by
      conv_rhs => rw [← List.map_id (trimString value.toList)]
      apply List.map_congr_left
      intro c hc
      have hc' := hunbroken c hc
      rw [newlineToSpace, if_neg (by tauto), id]
    -- the white space at the ends is line breaks, which the decoder skips
    have hbreaks : ∀ c ∈ value.toList, isASCIISpace c = true →
        (decide (c ≠ '\r') && decide (c ≠ '\n')) = false := by
      intro c hc hspace
      rw [Bool.eq_false_iff]
      intro hkept
      have hno := accepted_not_space
        (Base64.decodeQuanta_mem h c (List.mem_filter.mpr ⟨hc, hkept⟩))
      rw [hspace] at hno
      cases hno
    rw [hsame, filter_trimString hbreaks]
    exact h

theorem decodeAgeField_some {value : String} {limit : Nat} {raw : Bytes}
    (h : decodeAgeField value limit = some raw) :
    stdEncoding.decodeString value = some raw ∧ raw ≠ [] := by
  unfold decodeAgeField at h
  split at h
  · cases h
  split at h
  · cases h
  rename_i hdecode
  split at h
  · cases h
  rename_i hage
  cases h
  refine ⟨hdecode, ?_⟩
  rintro rfl
  exact hage (Or.inr (by decide))

/-- Of an age file the header has at least a character. -/
theorem headerBytes_headerValue_iff {value : String} {raw : Bytes}
    (h : stdEncoding.decodeString value = some raw) (hne : raw ≠ []) :
    headerBytes headerWrappedIdentity (headerValue value) = .ok (some raw) ↔ Unbroken value := by
  rw [← decodeString_headerValue_iff h, headerBytes]
  split
  · rename_i hempty
    rw [hempty]
    refine iff_of_false (fun hno => by cases hno) ?_
    intro hno
    exact hne (Option.some.inj hno).symm
  · split
    · rename_i hnone
      rw [hnone]
      exact iff_of_false (fun hno => by cases hno) (fun hno => by cases hno)
    · rename_i decoded hsome
      rw [hsome]
      simp

/-- What `validateCommon` accepts are age files. -/
theorem validateCommon_fields {cfg : Config} {kind : Kind} {ttlSeconds maxViews : Int}
    {accessKDF : KDFParams} {accessProofHash : String}
    {wrappedIdentity encryptedFilename contentType : Option String}
    (h : validateCommon cfg kind ttlSeconds maxViews accessKDF accessProofHash wrappedIdentity
      encryptedFilename contentType = .ok ()) :
    (∀ value, wrappedIdentity = some value →
      ∃ raw, decodeAgeField value maxWrappedIdentityBytes = some raw) ∧
    ∀ value, encryptedFilename = some value →
      ∃ raw, decodeAgeField value maxEncryptedFilenameBytes = some raw := by
  unfold validateCommon at h
  dsimp only at h
  split at h
  · cases h
  split at h
  · cases h
  split at h
  · cases h
  split at h
  · cases h
  rename_i hmodel
  split at h
  · cases h
  rename_i haccess
  split at h
  · cases h
  rename_i hfilename
  refine ⟨?_, ?_⟩
  · rintro value rfl
    have hproof : accessProofHash ≠ "" := by
      by_contra hnone
      exact hmodel (Or.inr (by simp [hnone]))
    have hvalid : validAccess accessKDF (some value) = true := by
      by_contra hno
      exact haccess ⟨decide_eq_true hproof, Bool.eq_false_iff.mpr hno⟩
    rw [validAccess, Bool.and_eq_true] at hvalid
    exact Option.isSome_iff_exists.mp hvalid.2
  · rintro value rfl
    rw [validFilename, Bool.not_eq_false, Bool.and_eq_true] at hfilename
    exact Option.isSome_iff_exists.mp hfilename.2

/-- **Accepted age fields survive the headers of the open** iff no line break stands inside
one of them. -/
theorem age_fields_survive_headers {cfg : Config} {kind : Kind} {ttlSeconds maxViews : Int}
    {accessKDF : KDFParams} {accessProofHash : String}
    {wrappedIdentity encryptedFilename contentType : Option String}
    (h : validateCommon cfg kind ttlSeconds maxViews accessKDF accessProofHash wrappedIdentity
      encryptedFilename contentType = .ok ()) :
    FieldsSurvive wrappedIdentity encryptedFilename ↔
      (∀ value, wrappedIdentity = some value → Unbroken value) ∧
        ∀ value, encryptedFilename = some value → Unbroken value := by
  obtain ⟨hwrapped, hfilename⟩ := validateCommon_fields h
  constructor
  · rintro ⟨hidentity, hname⟩
    refine ⟨?_, ?_⟩
    · intro value hvalue
      obtain ⟨raw, hraw, hheader⟩ := hidentity value hvalue
      obtain ⟨hdecode, hne⟩ := decodeAgeField_some hraw
      exact (headerBytes_headerValue_iff hdecode hne).mp hheader
    · intro value hvalue
      obtain ⟨raw, hraw, hheader⟩ := hname value hvalue
      exact (decodeString_headerValue_iff (decodeAgeField_some hraw).1).mp hheader
  · rintro ⟨hidentity, hname⟩
    refine ⟨?_, ?_⟩
    · intro value hvalue
      obtain ⟨raw, hraw⟩ := hwrapped value hvalue
      obtain ⟨hdecode, hne⟩ := decodeAgeField_some hraw
      exact ⟨raw, hraw, (headerBytes_headerValue_iff hdecode hne).mpr (hidentity value hvalue)⟩
    · intro value hvalue
      obtain ⟨raw, hraw⟩ := hfilename value hvalue
      exact ⟨raw, hraw, (decodeString_headerValue_iff (decodeAgeField_some hraw).1).mpr
        (hname value hvalue)⟩

/-- A wrapped identity on one line, with a line break at its end. -/
theorem age_fields_survive_headers_one_line :
    FieldsSurvive (some "YWdlLWVuY3J5cHRpb24ub3JnL3YxCg==\n") none := by
  have hvalid : validateCommon guardedConfig .text 60 1 ⟨kdfPBKDF2SHA256, "salt", 600000,
      256⟩ "right" (some "YWdlLWVuY3J5cHRpb24ub3JnL3YxCg==\n") none none = .ok () := by
    decide +kernel
  refine (age_fields_survive_headers hvalid).mpr ⟨?_, ?_⟩
  · rintro value ⟨⟩
    decide +kernel
  · rintro value ⟨⟩

/-- The text behind a passphrase, its wrapped identity broken over two lines. -/
def brokenInput : CreateInput :=
  { guardedInput with wrappedIdentity := some "YWdlLWVuY3J5cHRp\nb24ub3JnL3YxCg==" }

/-- **A consumed open that nobody can read.**  The broken identity is accepted; the open with
the right proof consumes the secret; the client refuses the answer. -/
theorem broken_identity_unreadable :
    ∃ (trace : List (Label × World)) (w : World) (row : SecretRow) (secret : Secret),
      Run (Step guardedConfig instantDay) (World.start 1) trace w ∧
      (labels trace).getLast? = some (.opened "a" "right" 1 secret) ∧
      w.row "a" = some row ∧ row.consumedAt = some 1 ∧
      openedSecret (openHeaders secret) =
        .error "open response header Flick-Wrapped-Identity is not valid base64" ∧
      ¬ FieldsSurvive brokenInput.wrappedIdentity brokenInput.encryptedFilename := by
  have hrun : Run (Step guardedConfig instantDay) (World.start 1) _ _ :=
    (Run.nil.snoc (.create 1 "a" [] brokenInput (Nat.le_refl _)
      ⟨by simp [World.start], by simp [World.start]⟩ rfl)).snoc
      (.opened 0 (Readings.still 1) sampleDraws none "a" "right" rfl rfl)
  refine ⟨_, _, _, _, hrun, rfl, rfl, rfl, by decide +kernel, ?_⟩
  rintro ⟨hidentity, -⟩
  obtain ⟨raw, hraw, hheader⟩ := hidentity _ rfl
  obtain ⟨hdecode, hne⟩ := decodeAgeField_some hraw
  have hbroken : ¬ Unbroken "YWdlLWVuY3J5cHRp\nb24ub3JnL3YxCg==" := by decide +kernel
  exact hbroken ((headerBytes_headerValue_iff hdecode hne).mp hheader)

end Secrets
end FlickDrop
