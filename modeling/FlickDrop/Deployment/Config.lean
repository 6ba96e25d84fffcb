import FlickDrop.Foundations.Text
import FlickDrop.Secrets.Age

/-!
# The configuration a deployment starts with

Model of `internal/config`: the environment variables, their defaults, and the checks
`Load` makes in its order.  The variables `Load` only copies are left out.
-/

namespace FlickDrop
namespace Deployment

open Foundations Secrets

structure S3Config where
  enabled : Bool
  endpoint : String
  region : String
  bucket : String
  accessKeyID : String
  secretAccessKey : String
  pathStyle : Bool
  deriving DecidableEq, Repr

structure Config (IPNet : Type) where
  payloadInlineMaxBytes : Int
  maxFileBytes : Int
  defaultTTLSeconds : Int
  minTTLSeconds : Int
  maxTTLSeconds : Int
  openRatePerMinute : Int
  createRatePerMinute : Int
  reaperIntervalSeconds : Int
  reaperBatchSize : Int
  pipeRelayEnabled : Bool
  pipeMaxConcurrent : Int
  trustedProxies : List IPNet
  s3 : S3Config
  deriving DecidableEq, Repr

/-- The process environment; an unset variable reads as the empty text. -/
abbrev Environ := String → String

/-- What `Load` uses of Go's library: `%q`, whether a text is an IP address and then an
IPv4 one, and `net.ParseCIDR` with the text of its error. -/
structure Library (IPNet : Type) where
  quote : String → String
  parseIP : String → Option Bool
  parseCIDR : String → Except String IPNet

/-! ### Reading variables -/

def getenv (environ : Environ) (key fallback : String) : String :=
  if environ key ≠ "" then environ key else fallback

def parsePositiveInt64 (name raw : String) : Except String Int :=
  match parseInt raw.toList with
  | some value =>
    if value ≤ 0 then .error (name ++ " must be a positive integer") else .ok value
  | none => .error (name ++ " must be a positive integer")

/-- An `int` has 64 bits, and `strconv.Atoi` is `ParseInt` with that size. -/
def parsePositiveInt (name raw : String) : Except String Int :=
  parsePositiveInt64 name raw

def envPositiveInt (environ : Environ) (name : String) (cur : Int) : Except String Int :=
  if environ name = "" then .ok cur else parsePositiveInt name (environ name)

def envPositiveInt64 (environ : Environ) (name : String) (cur : Int) : Except String Int :=
  if environ name = "" then .ok cur else parsePositiveInt64 name (environ name)

section

variable {IPNet : Type} (lib : Library IPNet)

def envBool (environ : Environ) (name : String) (fallback : Bool) : Except String Bool :=
  let raw := trimSpace (environ name).toList
  if raw = [] then .ok fallback
  else if equalFold raw "true".toList then .ok true
  else if equalFold raw "false".toList then .ok false
  else .error (name ++ " must be \"true\" or \"false\", got " ++ lib.quote (String.ofList raw))

/-- `parseCIDR`; a bare address is a network of its own. -/
def parseCIDR (raw : String) : Except String IPNet :=
  let net (cidr : String) : Except String IPNet :=
    match lib.parseCIDR cidr with
    | .ok net => .ok net
    | .error err => .error ("invalid CIDR " ++ lib.quote cidr ++ ": " ++ err)
  if '/' ∈ raw.toList then
    net raw
  else
    match lib.parseIP raw with
    | none => .error ("invalid IP " ++ lib.quote raw)
    | some v4 => net (raw ++ if v4 then "/32" else "/128")

def parseTrustedProxy (part : List Char) : Except String IPNet :=
  let trimmed := trimSpace part
  if trimmed = [] then
    .error "FLICK_TRUSTED_PROXIES must not contain empty entries"
  else
    match parseCIDR lib (String.ofList trimmed) with
    | .ok cidr => .ok cidr
    | .error err => .error ("FLICK_TRUSTED_PROXIES: " ++ err)

def parseTrustedProxies (raw : String) : Except String (List IPNet) :=
  (raw.toList.splitOn ',').mapM (parseTrustedProxy lib)

def envTrustedProxies (environ : Environ) : Except String (List IPNet) :=
  if environ "FLICK_TRUSTED_PROXIES" = "" then .ok []
  else parseTrustedProxies lib (environ "FLICK_TRUSTED_PROXIES")

/-! ### Load -/

/-- Where a deployment starts from when no variable is set. -/
def Config.defaults (environ : Environ) : Config IPNet where
  payloadInlineMaxBytes := 1048576
  maxFileBytes := 268435456
  defaultTTLSeconds := 3600
  minTTLSeconds := 300
  maxTTLSeconds := 604800
  openRatePerMinute := 10
  createRatePerMinute := 5
  reaperIntervalSeconds := 60
  reaperBatchSize := 50
  pipeRelayEnabled := true
  pipeMaxConcurrent := 100
  trustedProxies := []
  s3 := {
    enabled := decide (getenv environ "FLICK_STORAGE_LARGE_BACKEND" "disabled" = "s3")
    endpoint := getenv environ "FLICK_S3_ENDPOINT" ""
    region := getenv environ "FLICK_S3_REGION" "us-east-1"
    bucket := getenv environ "FLICK_S3_BUCKET" ""
    accessKeyID := getenv environ "FLICK_S3_ACCESS_KEY_ID" ""
    secretAccessKey := getenv environ "FLICK_S3_SECRET_ACCESS_KEY" ""
    pathStyle := false }

/-- The checks `Load` makes once every variable is read. -/
def Config.check (cfg : Config IPNet) : Except String (Config IPNet) :=
  if cfg.minTTLSeconds ≤ 0 then
    .error "FLICK_MIN_TTL_SECONDS must be a positive integer"
  else if cfg.maxTTLSeconds < cfg.minTTLSeconds then
    .error "FLICK_MAX_TTL_SECONDS must be >= FLICK_MIN_TTL_SECONDS"
  else if cfg.defaultTTLSeconds < cfg.minTTLSeconds ∨ cfg.maxTTLSeconds < cfg.defaultTTLSeconds then
    .error "FLICK_DEFAULT_TTL_SECONDS must be within FLICK_MIN_TTL_SECONDS..FLICK_MAX_TTL_SECONDS"
  else if cfg.openRatePerMinute ≤ 0 then
    .error "FLICK_OPEN_RATE_PER_MIN must be a positive integer"
  else if cfg.createRatePerMinute ≤ 0 then
    .error "FLICK_CREATE_RATE_PER_MIN must be a positive integer"
  else if cfg.reaperIntervalSeconds ≤ 0 then
    .error "FLICK_REAPER_INTERVAL_SECONDS must be a positive integer"
  else if cfg.reaperBatchSize ≤ 0 then
    .error "FLICK_REAPER_BATCH_SIZE must be a positive integer"
  else if cfg.pipeMaxConcurrent ≤ 0 then
    .error "FLICK_PIPE_MAX_CONCURRENT must be a positive integer"
  else if cfg.s3.enabled ∧ (cfg.s3.bucket = "" ∨ cfg.s3.region = "") then
    .error "FLICK_S3_BUCKET and FLICK_S3_REGION are required when FLICK_STORAGE_LARGE_BACKEND=s3"
  else if cfg.s3.enabled ∧ (cfg.s3.accessKeyID = "" ∨ cfg.s3.secretAccessKey = "") then
    .error ("FLICK_S3_ACCESS_KEY_ID and FLICK_S3_SECRET_ACCESS_KEY are required when " ++
      "FLICK_STORAGE_LARGE_BACKEND=s3")
  else
    .ok cfg

/-- The byte limits, read before everything else but the path style. -/
def loadLimits (environ : Environ) (cfg : Config IPNet) : Except String (Config IPNet) := do
  let pathStyle ← envBool lib environ "FLICK_S3_PATH_STYLE" true
  let payloadInlineMaxBytes ←
    envPositiveInt64 environ "FLICK_PAYLOAD_INLINE_MAX_BYTES" cfg.payloadInlineMaxBytes
  if payloadInlineMaxBytes < maxCiphertextBytes 0 then
    .error ("FLICK_PAYLOAD_INLINE_MAX_BYTES must be at least " ++ toString (maxCiphertextBytes 0) ++
      " bytes (an empty age file)")
  else
    let maxFileBytes ← envPositiveInt64 environ "FLICK_MAX_FILE_BYTES" cfg.maxFileBytes
    .ok { cfg with
      payloadInlineMaxBytes := payloadInlineMaxBytes
      maxFileBytes := maxFileBytes
      s3.pathStyle := pathStyle }

/-- The other numbers and switches. -/
def loadRates (environ : Environ) (cfg : Config IPNet) : Except String (Config IPNet) := do
  let defaultTTLSeconds ← envPositiveInt environ "FLICK_DEFAULT_TTL_SECONDS" cfg.defaultTTLSeconds
  let minTTLSeconds ← envPositiveInt environ "FLICK_MIN_TTL_SECONDS" cfg.minTTLSeconds
  let maxTTLSeconds ← envPositiveInt environ "FLICK_MAX_TTL_SECONDS" cfg.maxTTLSeconds
  let openRatePerMinute ← envPositiveInt environ "FLICK_OPEN_RATE_PER_MIN" cfg.openRatePerMinute
  let createRatePerMinute ←
    envPositiveInt environ "FLICK_CREATE_RATE_PER_MIN" cfg.createRatePerMinute
  let reaperIntervalSeconds ←
    envPositiveInt environ "FLICK_REAPER_INTERVAL_SECONDS" cfg.reaperIntervalSeconds
  let reaperBatchSize ← envPositiveInt environ "FLICK_REAPER_BATCH_SIZE" cfg.reaperBatchSize
  let pipeRelayEnabled ← envBool lib environ "FLICK_PIPE_RELAY_ENABLED" cfg.pipeRelayEnabled
  let pipeMaxConcurrent ← envPositiveInt environ "FLICK_PIPE_MAX_CONCURRENT" cfg.pipeMaxConcurrent
  let trustedProxies ← envTrustedProxies lib environ
  return { cfg with
    defaultTTLSeconds := defaultTTLSeconds
    minTTLSeconds := minTTLSeconds
    maxTTLSeconds := maxTTLSeconds
    openRatePerMinute := openRatePerMinute
    createRatePerMinute := createRatePerMinute
    reaperIntervalSeconds := reaperIntervalSeconds
    reaperBatchSize := reaperBatchSize
    pipeRelayEnabled := pipeRelayEnabled
    pipeMaxConcurrent := pipeMaxConcurrent
    trustedProxies := trustedProxies }

/-- `Load`. -/
def load (environ : Environ) : Except String (Config IPNet) := do
  let cfg ← loadLimits lib environ (Config.defaults environ)
  let cfg ← loadRates lib environ cfg
  cfg.check

end

/-! ### What an accepted configuration satisfies -/

structure Config.Valid {IPNet : Type} (cfg : Config IPNet) : Prop where
  inline_ge : maxCiphertextBytes 0 ≤ cfg.payloadInlineMaxBytes
  maxFile_pos : 0 < cfg.maxFileBytes
  minTTL_pos : 0 < cfg.minTTLSeconds
  minTTL_le : cfg.minTTLSeconds ≤ cfg.defaultTTLSeconds
  defaultTTL_le : cfg.defaultTTLSeconds ≤ cfg.maxTTLSeconds
  rates_pos : 0 < cfg.openRatePerMinute ∧ 0 < cfg.createRatePerMinute
  reaper_pos : 0 < cfg.reaperIntervalSeconds ∧ 0 < cfg.reaperBatchSize
  pipes_pos : 0 < cfg.pipeMaxConcurrent
  s3_named : cfg.s3.enabled = true → cfg.s3.bucket ≠ "" ∧ cfg.s3.region ≠ ""
  s3_keyed : cfg.s3.enabled = true → cfg.s3.accessKeyID ≠ "" ∧ cfg.s3.secretAccessKey ≠ ""

section

variable {IPNet : Type} {lib : Library IPNet} {environ : Environ} {cfg cfg' : Config IPNet}

/-- A later stage is reached only with the value the earlier one read. -/
theorem read_of_load {Read Result : Type} {stage : Except String Read}
    {later : Read → Except String Result} {result : Result} (h : stage >>= later = .ok result) :
    ∃ read, stage = .ok read ∧ later read = .ok result := by
  match stage, h with
  | .ok read, h => exact ⟨read, rfl, h⟩

theorem parsePositiveInt64_pos {name raw : String} {value : Int}
    (h : parsePositiveInt64 name raw = .ok value) : 0 < value := by
  rw [parsePositiveInt64] at h
  split at h
  · split at h
    · cases h
    cases h
    omega
  · cases h

theorem envPositiveInt64_pos {name : String} {cur value : Int} (hcur : 0 < cur)
    (h : envPositiveInt64 environ name cur = .ok value) : 0 < value := by
  rw [envPositiveInt64] at h
  split at h
  · cases h
    exact hcur
  · exact parsePositiveInt64_pos h

/-- What the first variables decide; the others are untouched. -/
theorem loadLimits_ok (hfile : 0 < cfg.maxFileBytes) (h : loadLimits lib environ cfg = .ok cfg') :
    maxCiphertextBytes 0 ≤ cfg'.payloadInlineMaxBytes ∧ 0 < cfg'.maxFileBytes := by
  obtain ⟨pathStyle, -, h⟩ := read_of_load h
  obtain ⟨inline, -, h⟩ := read_of_load h
  split at h
  · cases h
  rename_i hsmall
  obtain ⟨file, hread, h⟩ := read_of_load h
  cases h
  exact ⟨Int.not_lt.mp hsmall, envPositiveInt64_pos hfile hread⟩

/-- The later variables leave the byte limits alone. -/
theorem loadRates_ok (h : loadRates lib environ cfg = .ok cfg') :
    cfg'.payloadInlineMaxBytes = cfg.payloadInlineMaxBytes ∧
    cfg'.maxFileBytes = cfg.maxFileBytes := by
  obtain ⟨defaultTTL, -, h⟩ := read_of_load h
  obtain ⟨minTTL, -, h⟩ := read_of_load h
  obtain ⟨maxTTL, -, h⟩ := read_of_load h
  obtain ⟨openRate, -, h⟩ := read_of_load h
  obtain ⟨createRate, -, h⟩ := read_of_load h
  obtain ⟨interval, -, h⟩ := read_of_load h
  obtain ⟨batch, -, h⟩ := read_of_load h
  obtain ⟨pipes, -, h⟩ := read_of_load h
  obtain ⟨concurrent, -, h⟩ := read_of_load h
  obtain ⟨proxies, -, h⟩ := read_of_load h
  cases h
  exact ⟨rfl, rfl⟩

/-- `Load` accepts only valid configurations. -/
theorem load_valid (h : load lib environ = .ok cfg) : cfg.Valid := by
  obtain ⟨limits, hlimits, h⟩ := read_of_load h
  obtain ⟨rates, hrates, hcheck⟩ := read_of_load h
  obtain ⟨hinline, hfile⟩ := loadLimits_ok (show (0 : Int) < 268435456 by decide) hlimits
  obtain ⟨hinline', hfile'⟩ := loadRates_ok hrates
  -- each check that passed leaves the negation of its condition behind
  rw [Config.check] at hcheck
  repeat
    split at hcheck
    · cases hcheck
  cases hcheck
  rename_i h₁ h₂ h₃ h₄ h₅ h₆ h₇ h₈ h₉ h₁₀
  exact {
    inline_ge := by omega
    maxFile_pos := by omega
    minTTL_pos := by omega
    minTTL_le := by omega
    defaultTTL_le := by omega
    rates_pos := by omega
    reaper_pos := by omega
    pipes_pos := by omega
    s3_named := fun henabled => by simpa [henabled] using h₉
    s3_keyed := fun henabled => by simpa [henabled] using h₁₀ }

/-- With no variable set, `Load` accepts its own defaults. -/
theorem load_defaults (lib : Library IPNet) :
    load lib (fun _ => "") =
      .ok { Config.defaults (fun _ => "") with s3.pathStyle := true } :=
  rfl

end

end Deployment
end FlickDrop
