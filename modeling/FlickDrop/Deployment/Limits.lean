import FlickDrop.Deployment.Config
import FlickDrop.Secrets.OneTime
import FlickDrop.Requests.FirstWins

/-!
# Advertised sizes

`GET /api/config` tells a client how large a plaintext it may send inline and how large a
file may be at all.  The limits pass through `Load`, the two effective limits, the
defaults of `NewRouter` and the options of both stores, with the size of an age file in
between.  What is advertised is accepted, unless the inline limit is exactly the size of
an empty age file: then the effective limit is zero, which `NewRouter` takes for unset, and
a text of one byte is advertised and refused.
-/

namespace FlickDrop
namespace Deployment

open Foundations Secrets

variable {IPNet : Type}

/-! ### The wiring of `cmd/flick-api` -/

def Config.effectivePayloadInlineMaxBytes (cfg : Config IPNet) : Int :=
  maxPlaintextBytes cfg.payloadInlineMaxBytes

def Config.effectiveMaxFileBytes (cfg : Config IPNet) : Int :=
  let inline := cfg.effectivePayloadInlineMaxBytes
  if cfg.s3.enabled = false ∧ inline < cfg.maxFileBytes then inline else cfg.maxFileBytes

/-- The limits among the options of `NewRouter`. -/
structure Options where
  payloadInlineMaxBytes : Int
  advertisedInlineMaxBytes : Int
  maxFileBytes : Int
  pipeRelayEnabled : Bool
  deriving DecidableEq, Repr

/-- And in the server it builds. -/
structure Server where
  payloadInlineMaxBytes : Int
  advertisedInlineMaxBytes : Int
  maxFileBytes : Int
  pipeRelayEnabled : Bool
  deriving DecidableEq, Repr

/-- `NewRouter`: a limit that is not positive counts as unset. -/
def newRouter (opts : Options) : Server :=
  let payloadInlineMaxBytes :=
    if opts.payloadInlineMaxBytes ≤ 0 then 1048576 else opts.payloadInlineMaxBytes
  { payloadInlineMaxBytes := payloadInlineMaxBytes
    advertisedInlineMaxBytes :=
      if opts.advertisedInlineMaxBytes ≤ 0 then payloadInlineMaxBytes
      else opts.advertisedInlineMaxBytes
    maxFileBytes := if opts.maxFileBytes ≤ 0 then 268435456 else opts.maxFileBytes
    pipeRelayEnabled := opts.pipeRelayEnabled }

structure ConfigResponse where
  payloadInlineMaxBytes : Int
  maxFileBytes : Int
  pipeRelayEnabled : Bool
  deriving DecidableEq, Repr

/-- `GET /api/config`. -/
def Server.getConfig (s : Server) : ConfigResponse where
  payloadInlineMaxBytes := s.advertisedInlineMaxBytes
  maxFileBytes := s.maxFileBytes
  pipeRelayEnabled := s.pipeRelayEnabled

def Config.options (cfg : Config IPNet) : Options where
  payloadInlineMaxBytes := cfg.payloadInlineMaxBytes
  advertisedInlineMaxBytes := cfg.effectivePayloadInlineMaxBytes
  maxFileBytes := cfg.effectiveMaxFileBytes
  pipeRelayEnabled := cfg.pipeRelayEnabled

/-- What the API of a deployment answers. -/
def Config.advertised (cfg : Config IPNet) : ConfigResponse :=
  (newRouter cfg.options).getConfig

/-- The secret store of a deployment; `base` has the parts `cfg` does not decide. -/
def Config.secretStore (cfg : Config IPNet) (base : Secrets.Config) : Secrets.Config :=
  { base with
    payloadInlineMaxBytes := cfg.payloadInlineMaxBytes
    maxObjectBytes := maxCiphertextBytes cfg.maxFileBytes
    minTTL := cfg.minTTLSeconds
    maxTTL := cfg.maxTTLSeconds
    objects := cfg.s3.enabled
    outbox := true }

def Config.requestStore (cfg : Config IPNet) (base : Requests.Config) : Requests.Config :=
  { base with
    payloadInlineMaxBytes := cfg.payloadInlineMaxBytes
    maxObjectBytes := maxCiphertextBytes cfg.maxFileBytes
    minTTLSeconds := cfg.minTTLSeconds
    defaultTTLSeconds := cfg.defaultTTLSeconds
    maxTTLSeconds := cfg.maxTTLSeconds
    objects := cfg.s3.enabled
    outbox := true }

/-! ### Passing the size checks -/

/-- An age file of `size` bytes passes the size checks of `Create` and `Submit`: the
other fields alone decide. -/
structure AcceptsInline (secrets : Secrets.Config) (requests : Requests.Config)
    (kind : Requests.Kind) (size : Nat) : Prop where
  create : ∀ input : CreateInput, ageMagic.isPrefixOf input.ciphertext = true →
    input.ciphertext.length = size → input.sizeBytes = size →
    validateCreate secrets input =
      validateCommon secrets input.kind input.ttlSeconds input.maxViews input.accessKDF
        input.accessProofHash input.wrappedIdentity input.encryptedFilename input.contentType
  submit : ∀ (input : Requests.SubmitInput) (attempt body : Bytes) (envelope : String),
    input.kind = kind → input.sizeBytes = size →
    Requests.validGeneration input.generation = true →
    Requests.tokenHash requests.sha256 input.attemptToken = .ok attempt →
    Requests.validateEnvelope requests.decodeEnvelope input.envelope input.kind = .ok envelope →
    Requests.canonicalBase64 input.ciphertext size size = .ok body →
    Requests.isAgeFile body = true →
    Requests.validateSubmission requests input = .ok (attempt, envelope, body)

/-- An uploaded age file of `size` bytes passes those of `CreateLarge` and `Reserve`. -/
structure AcceptsLarge (secrets : Secrets.Config) (requests : Requests.Config) (size : Nat) :
    Prop where
  secrets_objects : secrets.objects = true
  requests_objects : requests.objects = true
  createLarge : ∀ input : CreateLargeInput, input.kind ≠ .text → input.sizeBytes = size →
    validateCreateLarge secrets input =
      validateCommon secrets input.kind input.ttlSeconds input.maxViews input.accessKDF
        input.accessProofHash input.wrappedIdentity input.encryptedFilename input.contentType
  reserve : ∀ (input : Requests.UploadInput) (attempt checksum : Bytes) (envelope : String),
    input.kind = .file → input.sizeBytes = size →
    Requests.validateAttempt requests ⟨input.generation, input.attemptToken⟩ = .ok attempt →
    Requests.validateEnvelope requests.decodeEnvelope input.envelope input.kind = .ok envelope →
    Requests.canonicalBase64 input.ciphertextSHA256 32 32 = .ok checksum →
    Requests.validateUpload requests input = .ok (attempt, envelope, checksum)

section

variable {secrets : Secrets.Config} {requests : Requests.Config} {kind : Requests.Kind} {size : Nat}

theorem canonicalBase64_length {s : String} {least most : Nat} {b : Bytes}
    (h : Requests.canonicalBase64 s least most = .ok b) :
    s.utf8ByteSize ≤ stdEncoding.encodedLen most := by
  rw [Requests.canonicalBase64] at h
  split at h
  · cases h
  omega

theorem acceptsInline (hkind : kind = .text ∨ kind = .file)
    (hsecrets : size ≤ secrets.payloadInlineMaxBytes)
    (hrequests : size ≤ requests.payloadInlineMaxBytes)
    (hfile : kind = .file → size ≤ requests.maxObjectBytes) :
    AcceptsInline secrets requests kind size where
  create := by
    intro input hmagic hlength hsize
    rw [validateCreate, if_neg (by omega), if_neg]
    rintro (hno | hno)
    · rw [hmagic] at hno
      cases hno
    · omega
  submit := by
    intro input attempt body envelope hinput hsize hgeneration hattempt henvelope hbody hage
    -- the text of a body within the limit is within the limit of the text
    have htext : (input.ciphertext.utf8ByteSize : Int) ≤
        (requests.payloadInlineMaxBytes + 2).tdiv 3 * 4 := by
      have hcanonical := canonicalBase64_length hbody
      rw [Int.tdiv_eq_ediv_of_nonneg (by omega)]
      simp only [stdEncoding, Base64.encodedLen] at hcanonical
      omega
    have hvalid : ¬(Requests.validGeneration input.generation = false ∨ input.sizeBytes < 0 ∨
        (input.kind ≠ .text ∧ input.kind ≠ .file)) := by
      rintro (hno | hno | ⟨htext, hfile⟩)
      · rw [hgeneration] at hno
        cases hno
      · omega
      · rw [hinput] at htext hfile
        exact hkind.elim htext hfile
    have hfits : ¬(requests.payloadInlineMaxBytes < input.sizeBytes ∨
        (input.kind = .file ∧ requests.maxObjectBytes < input.sizeBytes)) := by
      rintro (hno | ⟨hisFile, hno⟩)
      · omega
      · have := hfile (hinput.symm.trans hisFile)
        omega
    have hnat : input.sizeBytes.toNat = size := by omega
    rw [Requests.validateSubmission, if_neg hvalid, hattempt]
    dsimp only
    rw [if_neg hfits, henvelope]
    dsimp only
    rw [if_neg (by omega), hnat, hbody]
    dsimp only
    rw [if_pos hage]

theorem acceptsLarge (hsecrets : secrets.objects = true) (hrequests : requests.objects = true)
    (hleast : 32 ≤ size) (hsecret : size ≤ secrets.maxObjectBytes)
    (hrequest : size ≤ requests.maxObjectBytes) : AcceptsLarge secrets requests size where
  secrets_objects := hsecrets
  requests_objects := hrequests
  createLarge := by
    intro input hkind hsize
    have hempty : maxCiphertextBytes 0 - ageHeaderAllowanceBytes = 32 := by decide
    rw [validateCreateLarge, if_neg hkind, if_neg (by omega), if_neg (by omega)]
  reserve := by
    intro input attempt checksum envelope hkind hsize hattempt henvelope hchecksum
    have hmagic : Requests.ageMagic.length = 22 := by decide
    rw [Requests.validateUpload, hattempt]
    dsimp only
    rw [if_neg, if_neg (by omega), henvelope]
    · dsimp only
      rw [hchecksum]
    · rintro (hno | hno)
      · exact hno hkind
      · omega

end

/-! ### The advertised limits -/

section

variable {cfg : Config IPNet}

theorem effectivePayloadInlineMaxBytes_pos (h : maxCiphertextBytes 0 < cfg.payloadInlineMaxBytes) :
    0 < cfg.effectivePayloadInlineMaxBytes := by
  have hone : maxCiphertextBytes 1 ≤ cfg.payloadInlineMaxBytes := by
    have hzero : maxCiphertextBytes 0 + 1 = maxCiphertextBytes 1 := by decide
    omega
  have hle := (le_maxPlaintextBytes_iff h.le (n := 1)).mpr hone
  rw [Config.effectivePayloadInlineMaxBytes]
  omega

/-- Above the boundary no default of `NewRouter` takes effect. -/
theorem advertised_eq (hvalid : cfg.Valid) (h : maxCiphertextBytes 0 < cfg.payloadInlineMaxBytes) :
    cfg.advertised = ⟨cfg.effectivePayloadInlineMaxBytes, cfg.effectiveMaxFileBytes,
      cfg.pipeRelayEnabled⟩ := by
  have hinline := effectivePayloadInlineMaxBytes_pos h
  have hfile : 0 < cfg.effectiveMaxFileBytes := by
    rw [Config.effectiveMaxFileBytes]
    split
    · exact hinline
    · exact hvalid.maxFile_pos
  show ConfigResponse.mk (if cfg.effectivePayloadInlineMaxBytes ≤ 0 then _ else _)
    (if cfg.effectiveMaxFileBytes ≤ 0 then _ else _) _ = _
  rw [if_neg (Int.not_le.mpr hinline), if_neg (Int.not_le.mpr hfile)]
  rfl

theorem effectiveMaxFileBytes_le : cfg.effectiveMaxFileBytes ≤ cfg.maxFileBytes := by
  rw [Config.effectiveMaxFileBytes]
  split <;> omega

/-- Without object storage every file is inline. -/
theorem effectiveMaxFileBytes_disabled (h : cfg.s3.enabled = false) :
    cfg.effectiveMaxFileBytes ≤ cfg.effectivePayloadInlineMaxBytes := by
  rw [Config.effectiveMaxFileBytes]
  split
  · exact le_rfl
  · rename_i hno
    exact Int.not_lt.mp fun hlarger => hno ⟨h, hlarger⟩

/-- The `int64` expressions computed from a configuration do not overflow. -/
structure Config.FitsInt64 (cfg : Config IPNet) : Prop where
  object : maxCiphertextBytes cfg.maxFileBytes < 2 ^ 63
  chunks : cfg.payloadInlineMaxBytes + ageChunkBytes < 2 ^ 63
  -- the loop of `MaxPlaintextBytes` looks at sizes up to one more than its answer
  plaintext : ∀ n, 0 ≤ n → n ≤ cfg.effectivePayloadInlineMaxBytes + 1 →
    maxCiphertextBytes n < 2 ^ 63
  text : (cfg.payloadInlineMaxBytes + 2).tdiv 3 * 4 < 2 ^ 63

theorem maxCiphertextBytes_lt_int64 {n : Int} (hn : 0 ≤ n) (hle : n ≤ 2 ^ 61 + 1) :
    maxCiphertextBytes n < 2 ^ 63 := by
  rw [maxCiphertextBytes_eq hn]
  omega

theorem Config.Valid.fitsInt64 (hvalid : cfg.Valid) (hinline : cfg.payloadInlineMaxBytes ≤ 2 ^ 61)
    (hfile : cfg.maxFileBytes ≤ 2 ^ 61) : cfg.FitsInt64 where
  object := maxCiphertextBytes_lt_int64 hvalid.maxFile_pos.le (by omega)
  chunks := by
    rw [ageChunkBytes]
    omega
  plaintext := by
    intro n hn hle
    have hmost := (le_maxPlaintextBytes_iff hvalid.inline_ge).mp le_rfl
    have hshorter := lt_maxCiphertextBytes (maxPlaintextBytes cfg.payloadInlineMaxBytes)
    rw [Config.effectivePayloadInlineMaxBytes] at hle
    exact maxCiphertextBytes_lt_int64 hn (by omega)
  text := by
    have hempty : (0 : Int) ≤ maxCiphertextBytes 0 := by decide
    have hpositive := hvalid.inline_ge
    rw [Int.tdiv_eq_ediv_of_nonneg (by omega)]
    omega

end

/-- Every advertised size is accepted: texts and files up to the advertised inline limit by
`Create` and `Submit`, larger files, which take object storage, by `CreateLarge` and `Reserve`. -/
def Config.AcceptsAdvertised (cfg : Config IPNet) (secrets : Secrets.Config)
    (requests : Requests.Config) : Prop :=
  ∀ n size : Nat, 32 ≤ size → size ≤ maxCiphertextBytes n →
    (n ≤ cfg.advertised.payloadInlineMaxBytes → AcceptsInline secrets requests .text size) ∧
    (n ≤ cfg.advertised.payloadInlineMaxBytes → n ≤ cfg.advertised.maxFileBytes →
      AcceptsInline secrets requests .file size) ∧
    (cfg.advertised.payloadInlineMaxBytes < n → n ≤ cfg.advertised.maxFileBytes →
      cfg.s3.enabled = true ∧ AcceptsLarge secrets requests size)

theorem acceptsAdvertised {cfg : Config IPNet} (hvalid : cfg.Valid) (secretsBase : Secrets.Config)
    (requestsBase : Requests.Config) (hmore : maxCiphertextBytes 0 < cfg.payloadInlineMaxBytes) :
    cfg.AcceptsAdvertised (cfg.secretStore secretsBase) (cfg.requestStore requestsBase) := by
  intro n size hleast hmost
  have hfits : n ≤ cfg.effectivePayloadInlineMaxBytes →
      (size : Int) ≤ cfg.payloadInlineMaxBytes := by
    intro hle
    exact hmost.trans ((le_maxPlaintextBytes_iff hvalid.inline_ge).mp hle)
  have hobject : n ≤ cfg.effectiveMaxFileBytes →
      (size : Int) ≤ maxCiphertextBytes cfg.maxFileBytes := by
    intro hle
    exact hmost.trans (maxCiphertextBytes_le (hle.trans effectiveMaxFileBytes_le))
  rw [advertised_eq hvalid hmore]
  refine ⟨?_, ?_, ?_⟩
  · intro htext
    exact acceptsInline (.inl rfl) (hfits htext) (hfits htext) (fun hno => by cases hno)
  · intro hsmall hwithin
    exact acceptsInline (.inr rfl) (hfits hsmall) (hfits hsmall) (fun _ => hobject hwithin)
  · intro hlarge hwithin
    have henabled : cfg.s3.enabled = true := by
      rw [← Bool.not_eq_false]
      intro hdisabled
      exact absurd (hwithin.trans (effectiveMaxFileBytes_disabled hdisabled))
        (Int.not_le.mpr hlarge)
    exact ⟨henabled, acceptsLarge henabled henabled hleast (hobject hwithin) (hobject hwithin)⟩

/-- The age file of a text of one byte with the longest header. -/
def oneByteFile : Bytes := ageMagic ++ List.replicate 4107 0

def oneByteSecret : CreateInput where
  kind := .text
  ciphertext := oneByteFile
  accessKDF := ⟨"", "", 0, 0⟩
  accessProofHash := ""
  wrappedIdentity := none
  encryptedFilename := none
  contentType := none
  sizeBytes := 4129
  ttlSeconds := 3600
  maxViews := 1

/-- One byte is advertised everywhere: a limit that leaves no room for it counts as unset. -/
theorem one_le_advertised {cfg : Config IPNet} (hvalid : cfg.Valid) :
    1 ≤ cfg.advertised.payloadInlineMaxBytes := by
  have hempty : (0 : Int) < maxCiphertextBytes 0 := by decide
  have hpositive := hvalid.inline_ge
  show 1 ≤ if cfg.effectivePayloadInlineMaxBytes ≤ 0 then
    if cfg.payloadInlineMaxBytes ≤ 0 then (1048576 : Int) else cfg.payloadInlineMaxBytes
    else cfg.effectivePayloadInlineMaxBytes
  rw [if_neg (show ¬ cfg.payloadInlineMaxBytes ≤ 0 by omega)]
  split <;> omega

theorem validateCommon_not_tooLarge {secrets : Secrets.Config} {input : CreateInput} :
    validateCommon secrets input.kind input.ttlSeconds input.maxViews input.accessKDF
      input.accessProofHash input.wrappedIdentity input.encryptedFilename input.contentType ≠
        .error .payloadTooLarge := by
  intro h
  unfold validateCommon at h
  dsimp only at h
  repeat' split at h
  all_goals cases h

/-- **Advertised sizes are accepted** exactly in the deployments whose inline limit exceeds the
size of an empty age file, with object storage or without. -/
theorem advertised_sizes_accepted (lib : Library IPNet) (environ : Environ) (cfg : Config IPNet)
    (secretsBase : Secrets.Config) (requestsBase : Requests.Config)
    (hload : load lib environ = .ok cfg) (hinline : cfg.payloadInlineMaxBytes ≤ 2 ^ 61)
    (hfile : cfg.maxFileBytes ≤ 2 ^ 61) :
    cfg.FitsInt64 ∧
    (cfg.AcceptsAdvertised (cfg.secretStore secretsBase) (cfg.requestStore requestsBase) ↔
      maxCiphertextBytes 0 < cfg.payloadInlineMaxBytes) := by
  have hvalid := load_valid hload
  refine ⟨hvalid.fitsInt64 hinline hfile, ?_, acceptsAdvertised hvalid secretsBase requestsBase⟩
  intro haccepts
  by_contra hno
  -- at the least limit the router advertises a byte, and its file is refused
  have hone : maxCiphertextBytes 1 = maxCiphertextBytes 0 + 1 := by decide
  have hlength : oneByteFile.length = 4129 := by decide +kernel
  have hcreate := ((haccepts 1 4129 (by decide) (by decide)).1 (one_le_advertised hvalid)).create
    oneByteSecret (by decide +kernel) hlength rfl
  rw [validateCreate, if_pos] at hcreate
  · exact validateCommon_not_tooLarge hcreate.symm
  · show cfg.payloadInlineMaxBytes < (oneByteFile.length : Int)
    have hmost : maxCiphertextBytes 1 = 4129 := by decide
    omega

/-! ### Two deployments -/

def sampleLibrary : Library Unit where
  quote := fun text => "\"" ++ text ++ "\""
  parseIP := fun _ => none
  parseCIDR := fun _ => .error "invalid CIDR address"

def sampleSecrets : Secrets.Config := Secrets.sampleConfig (Secrets.secretEvent "job" "a" 1)

def sampleRequests : Requests.Config :=
  Requests.sampleConfig (Events.singleCodec (Secrets.secretEvent "job" "a" 1))

/-- Object storage is enabled, everything else is the default. -/
def objectEnviron : Environ := fun name =>
  if name = "FLICK_STORAGE_LARGE_BACKEND" then "s3"
  else if name = "FLICK_S3_BUCKET" then "bucket"
  else if name = "FLICK_S3_ACCESS_KEY_ID" then "key"
  else if name = "FLICK_S3_SECRET_ACCESS_KEY" then "secret"
  else ""

def objectConfig : Config Unit :=
  { Config.defaults objectEnviron with s3.pathStyle := true }

theorem advertised_sizes_accepted_objects :
    load sampleLibrary objectEnviron = .ok objectConfig ∧
    AcceptsInline (objectConfig.secretStore sampleSecrets)
      (objectConfig.requestStore sampleRequests) .text 4129 ∧
    AcceptsLarge (objectConfig.secretStore sampleSecrets) (objectConfig.requestStore sampleRequests)
      2000000 := by
  have hload : load sampleLibrary objectEnviron = .ok objectConfig := by decide +kernel
  have hvalid := load_valid hload
  have hmore : maxCiphertextBytes 0 < objectConfig.payloadInlineMaxBytes := by decide +kernel
  have hfits : ∀ n : Nat, n ≤ objectConfig.advertised.payloadInlineMaxBytes ↔
      maxCiphertextBytes n ≤ 1048576 := by
    intro n
    rw [advertised_eq hvalid hmore]
    exact le_maxPlaintextBytes_iff (c := 1048576) (by decide +kernel)
  have haccepts := (advertised_sizes_accepted sampleLibrary objectEnviron objectConfig sampleSecrets
    sampleRequests hload (by decide +kernel) (by decide +kernel)).2.mpr hmore
  refine ⟨hload, ?_, ?_⟩
  · exact (haccepts 1 4129 (by decide) (by decide +kernel)).1 ((hfits 1).mpr (by decide +kernel))
  · have hlarge : objectConfig.advertised.payloadInlineMaxBytes < (2000000 : Nat) := by
      rw [← Int.not_le, hfits]
      decide +kernel
    have hwithin : (2000000 : Nat) ≤ objectConfig.advertised.maxFileBytes := by
      rw [advertised_eq hvalid hmore]
      decide +kernel
    exact ((haccepts 2000000 2000000 (by decide) (by decide +kernel)).2.2 hlarge hwithin).2

/-- The smallest inline limit `Load` accepts, everything else the default. -/
def smallEnviron : Environ := fun name =>
  if name = "FLICK_PAYLOAD_INLINE_MAX_BYTES" then "4128" else ""

def smallConfig : Config Unit :=
  { Config.defaults smallEnviron with payloadInlineMaxBytes := 4128, s3.pathStyle := true }

def oneByteSubmission : Requests.SubmitInput where
  generation := 1
  attemptToken := rawURLEncoding.encodeToString (List.replicate 32 0)
  kind := .text
  sizeBytes := 4129
  envelope := []
  ciphertext := stdEncoding.encodeToString oneByteFile

/-- With the smallest inline limit a client may send 4128 bytes, yet a text of one byte is
refused; and files above the limit are advertised although there is no object storage. -/
theorem smallest_inline_limit_overadvertised :
    load sampleLibrary smallEnviron = .ok smallConfig ∧
    smallConfig.advertised = ⟨4128, 268435456, true⟩ ∧
    smallConfig.s3.enabled = false ∧
    maxCiphertextBytes 1 = 4129 ∧
    oneByteFile.length = 4129 ∧
    validateCreate (smallConfig.secretStore sampleSecrets) oneByteSecret = .error .payloadTooLarge ∧
    Requests.validateSubmission (smallConfig.requestStore sampleRequests) oneByteSubmission =
      .error .tooLarge := by
  have heffective : smallConfig.effectivePayloadInlineMaxBytes = 0 := by
    have hnone : ¬ 1 ≤ maxPlaintextBytes 4128 := by
      rw [le_maxPlaintextBytes_iff (by decide)]
      decide
    have hzero := maxPlaintextBytes_nonneg 4128
    show maxPlaintextBytes 4128 = 0
    omega
  refine ⟨by decide +kernel, ?_, rfl, by decide, by decide +kernel, by decide +kernel,
    by decide +kernel⟩
  simp only [Config.advertised, newRouter, Server.getConfig, Config.options,
    Config.effectiveMaxFileBytes, heffective]
  decide

end Deployment
end FlickDrop
