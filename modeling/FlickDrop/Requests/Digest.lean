import FlickDrop.Requests.Decode
import FlickDrop.Requests.FirstWins

/-!
# The digest of an attempt

`Submit` and `Reserve` store the hash of the immutable fields of an attempt, written out again
from what was decoded.  A retry is recognised by that hash.  Here it is shown that the hash
stands for the content and the path: the texts that are hashed can be read back field by field,
as no field holds the character that ends it.
-/

namespace FlickDrop
namespace Requests

open Foundations

/-- The hash that `Submit` stores for a valid input. -/
def submitDigest (cfg : Config) (input : SubmitInput) : Option Bytes :=
  match validateSubmission cfg input with
  | .error _ => none
  | .ok (_, envelope, _) =>
    some (cfg.sha256 (utf8 (marshalPayload input.kind input.sizeBytes envelope input.ciphertext)))

/-- The hash that `Reserve` stores for a valid input. -/
def reserveDigest (cfg : Config) (input : UploadInput) : Option Bytes :=
  match validateUpload cfg input with
  | .error _ => none
  | .ok (_, envelope, _) => some (cfg.sha256
      (utf8 (marshalUpload input.kind input.sizeBytes envelope input.ciphertextSHA256)))

/-- The fields of a submission that a retry has to repeat. -/
def SameSubmission (cfg : Config) (a b : SubmitInput) : Prop :=
  a.kind = b.kind ∧ a.sizeBytes = b.sizeBytes ∧ a.ciphertext = b.ciphertext ∧
    cfg.decodeEnvelope a.envelope = cfg.decodeEnvelope b.envelope

/-- The fields of a reservation that a retry has to repeat. -/
def SameUpload (cfg : Config) (a b : UploadInput) : Prop :=
  a.kind = b.kind ∧ a.sizeBytes = b.sizeBytes ∧ a.ciphertextSHA256 = b.ciphertextSHA256 ∧
    cfg.decodeEnvelope a.envelope = cfg.decodeEnvelope b.envelope

/-! ### The hashed texts -/

/-- The envelope of a valid attempt. -/
structure ValidEnvelope (kind : Kind) (e : Envelope) : Prop where
  version : e.version = envelopeVersion
  supported : kind = .text ∨ kind = .file
  filename : kind = .text → e.encryptedFilename = ""
  named : kind = .file → e.encryptedFilename ≠ ""
  unquoted : '"' ∉ e.encryptedFilename.toList

/-- The immutable fields of a valid attempt; `key` is the name of the last one. -/
@[ext]
structure Content where
  key : String
  kind : Kind
  sizeBytes : Int
  envelope : Envelope
  value : String
  valid : ValidEnvelope kind envelope
  keyUnquoted : '"' ∉ key.toList
  valueUnquoted : '"' ∉ value.toList

/-- What is hashed for it. -/
def Content.marshal (c : Content) : String :=
  "\x7b\"kind\":" ++ jsonText c.kind.name ++ ",\"size_bytes\":" ++ toString c.sizeBytes ++
    ",\"envelope\":" ++ c.envelope.marshal ++ ",\"" ++ c.key ++ "\":" ++ jsonText c.value ++ "\x7d"

theorem Kind.name_inj {kind kind' : Kind} (hkind : kind = .text ∨ kind = .file)
    (hkind' : kind' = .text ∨ kind' = .file) (h : kind.name = kind'.name) : kind = kind' := by
  rcases hkind with rfl | rfl <;> rcases hkind' with rfl | rfl
  · rfl
  · exact absurd h (by decide)
  · exact absurd h (by decide)
  · rfl

theorem Kind.name_unquoted {kind : Kind} (h : kind = .text ∨ kind = .file) :
    '"' ∉ kind.name.toList := by
  rcases h with rfl | rfl <;> decide

/-! The characters that end a field. -/

theorem toList_quote : "\"".toList = ['"'] := by decide

theorem toList_quoteColon : "\":".toList = '"' :: ":".toList := by decide

theorem toList_envelopeKey : ",\"envelope\":".toList = ',' :: "\"envelope\":".toList := by decide

/-- An envelope is read off the front of a text. -/
theorem ValidEnvelope.marshal_inj {kind : Kind} {e e' : Envelope} (h : ValidEnvelope kind e)
    (h' : ValidEnvelope kind e') {rest rest' : List Char}
    (heq : e.marshal.toList ++ rest = e'.marshal.toList ++ rest') : e = e' ∧ rest = rest' := by
  have hversion : e.version = e'.version := h.version.trans h'.version.symm
  rcases h.supported with htext | hfile
  · -- neither has a filename
    have hsame : e = e' := by
      obtain ⟨version, name⟩ := e
      obtain ⟨version', name'⟩ := e'
      rw [Envelope.mk.injEq]
      exact ⟨hversion, (h.filename htext).trans (h'.filename htext).symm⟩
    subst hsame
    exact ⟨rfl, List.append_cancel_left heq⟩
  · rw [Envelope.marshal, Envelope.marshal, if_neg (h.named hfile), if_neg (h'.named hfile),
      hversion] at heq
    simp only [jsonText, String.toList_append, List.append_assoc, List.append_cancel_left_eq,
      toList_quote, List.cons_append, List.nil_append, List.cons.injEq, true_and] at heq
    obtain ⟨hnames, hrest⟩ := cut_inj h.unquoted h'.unquoted heq
    refine ⟨?_, List.append_cancel_left hrest⟩
    obtain ⟨version, name⟩ := e
    obtain ⟨version', name'⟩ := e'
    rw [Envelope.mk.injEq]
    exact ⟨hversion, String.toList_injective hnames⟩

/-- **The hashed text stands for the content.** -/
theorem Content.marshal_inj {c c' : Content} (heq : c.marshal = c'.marshal) : c = c' := by
  have htext := congrArg String.toList heq
  unfold Content.marshal at htext
  simp only [jsonText, String.toList_append, List.append_assoc, toList_quote, toList_quoteColon,
    toList_envelopeKey, List.cons_append, List.nil_append] at htext
  -- the fields one by one, each up to the character that ends it
  obtain ⟨hname, htext⟩ := cut_inj (Kind.name_unquoted c.valid.supported)
    (Kind.name_unquoted c'.valid.supported) (List.cons.inj (List.append_cancel_left htext)).2
  have hkind : c.kind = c'.kind :=
    Kind.name_inj c.valid.supported c'.valid.supported (String.toList_injective hname)
  obtain ⟨hdigits, htext⟩ := cut_inj (comma_notMem_toString _) (comma_notMem_toString _)
    (List.append_cancel_left htext)
  have hsize : c.sizeBytes = c'.sizeBytes := toString_toList_inj hdigits
  obtain ⟨henvelope, htext⟩ := c.valid.marshal_inj (by rw [hkind]; exact c'.valid)
    (List.append_cancel_left htext)
  obtain ⟨hkey, htext⟩ := cut_inj c.keyUnquoted c'.keyUnquoted (List.append_cancel_left htext)
  obtain ⟨hvalue, -⟩ := cut_inj c.valueUnquoted c'.valueUnquoted
    (List.cons.inj (List.append_cancel_left htext)).2
  exact Content.ext (String.toList_injective hkey) hkind hsize henvelope
    (String.toList_injective hvalue)

/-! ### Valid attempts -/

section

variable {cfg : Config} {decode : Bytes → Option Envelope} {digest : Bytes}

/-- A valid envelope is written out again from what was decoded. -/
theorem validateEnvelope_ok {raw : Bytes} {kind : Kind} {text : String}
    (h : validateEnvelope decode raw kind = .ok text) :
    ∃ e, decode raw = some e ∧ ValidEnvelope kind e ∧ text = e.marshal := by
  unfold validateEnvelope at h
  split at h
  · cases h
  split at h
  · cases h
  rename_i e hdecode
  split at h
  · cases h
  rename_i hversion
  rw [not_not] at hversion
  split at h
  · -- a file: the name is the base64 form of at least one byte
    split at h
    · cases h
    rename_i name hname
    obtain ⟨htext, hleast, -⟩ := canonicalBase64_ok_iff.mp hname
    have hne : e.encryptedFilename ≠ "" := by
      intro hempty
      rw [hempty, ← show stdEncoding.encodeToString [] = "" from rfl] at htext
      cases Base64.encodeToString_injective Base64.stdEncoding_lawful htext
      exact absurd hleast (by decide)
    split at h
    · cases h
      exact ⟨e, hdecode, ⟨hversion, Or.inr rfl, fun hkind => (by cases hkind), fun _ => hne,
        by rw [htext]; exact Base64.quote_notMem_stdEncoding name⟩, rfl⟩
    · cases h
  · split at h
    · cases h
    rename_i hempty
    rw [not_not] at hempty
    cases h
    exact ⟨e, hdecode, ⟨hversion, Or.inl rfl, fun _ => hempty, fun hkind => (by cases hkind),
      by rw [hempty]; decide⟩, rfl⟩
  · cases h

theorem Content.marshal_eq (c : Content) {label : String} (h : ",\"" ++ (c.key ++ "\":") = label) :
    "\x7b\"kind\":" ++ jsonText c.kind.name ++ ",\"size_bytes\":" ++ toString c.sizeBytes ++
      ",\"envelope\":" ++ c.envelope.marshal ++ label ++ jsonText c.value ++ "\x7d" =
      c.marshal := by
  subst h
  unfold Content.marshal
  simp only [String.append_assoc]

/-- The content of a valid submission, and the hash of it. -/
theorem submitDigest_eq_some {input : SubmitInput} (h : submitDigest cfg input = some digest) :
    ∃ c : Content, c.key = "ciphertext" ∧ c.kind = input.kind ∧ c.sizeBytes = input.sizeBytes ∧
      c.value = input.ciphertext ∧ cfg.decodeEnvelope input.envelope = some c.envelope ∧
      digest = cfg.sha256 (utf8 c.marshal) := by
  unfold submitDigest at h
  split at h
  · cases h
  rename_i attempt envelope ciphertext hvalid
  cases h
  obtain ⟨-, henvelope, hbody⟩ := validateSubmission_parts hvalid
  obtain ⟨e, hdecode, he, rfl⟩ := validateEnvelope_ok henvelope
  have hvalue : '"' ∉ input.ciphertext.toList := by
    rw [hbody]
    exact Base64.quote_notMem_stdEncoding ciphertext
  let c : Content :=
    ⟨"ciphertext", input.kind, input.sizeBytes, e, input.ciphertext, he, by decide, hvalue⟩
  refine ⟨c, rfl, rfl, rfl, rfl, hdecode, ?_⟩
  rw [← c.marshal_eq (show ",\"" ++ ("ciphertext" ++ "\":") = ",\"ciphertext\":" by decide)]
  rfl

/-- The content of a valid reservation, and the hash of it. -/
theorem reserveDigest_eq_some {input : UploadInput} (h : reserveDigest cfg input = some digest) :
    ∃ c : Content, c.key = "ciphertext_sha256" ∧ c.kind = input.kind ∧
      c.sizeBytes = input.sizeBytes ∧ c.value = input.ciphertextSHA256 ∧
      cfg.decodeEnvelope input.envelope = some c.envelope ∧
      digest = cfg.sha256 (utf8 c.marshal) := by
  unfold reserveDigest at h
  split at h
  · cases h
  rename_i attempt envelope checksum hvalid
  cases h
  obtain ⟨-, henvelope, hbody⟩ := validateUpload_parts hvalid
  obtain ⟨e, hdecode, he, rfl⟩ := validateEnvelope_ok henvelope
  have hvalue : '"' ∉ input.ciphertextSHA256.toList := by
    rw [hbody]
    exact Base64.quote_notMem_stdEncoding checksum
  let c : Content := ⟨"ciphertext_sha256", input.kind, input.sizeBytes, e, input.ciphertextSHA256,
    he, by decide, hvalue⟩
  refine ⟨c, rfl, rfl, rfl, rfl, hdecode, ?_⟩
  rw [← c.marshal_eq
    (show ",\"" ++ ("ciphertext_sha256" ++ "\":") = ",\"ciphertext_sha256\":" by decide)]
  rfl

theorem utf8_injective : Function.Injective utf8 := by
  intro s t h
  rw [utf8, utf8, String.toUTF8_eq_toByteArray, String.toUTF8_eq_toByteArray] at h
  exact String.toByteArray_inj.mp (ByteArray.ext (Array.ext' h))

theorem Content.digest_inj (hsha : Function.Injective cfg.sha256) {c c' : Content} :
    cfg.sha256 (utf8 c.marshal) = cfg.sha256 (utf8 c'.marshal) ↔ c = c' := by
  constructor
  · exact fun h => Content.marshal_inj (utf8_injective (hsha h))
  · rintro rfl
    rfl

theorem Content.eq_iff {c c' : Content} (hkey : c.key = c'.key) :
    c = c' ↔ c.kind = c'.kind ∧ c.sizeBytes = c'.sizeBytes ∧ c.value = c'.value ∧
      c.envelope = c'.envelope := by
  constructor
  · rintro rfl
    exact ⟨rfl, rfl, rfl, rfl⟩
  · rintro ⟨hkind, hsize, hvalue, henvelope⟩
    exact Content.ext hkey hkind hsize henvelope hvalue

theorem submitDigest_eq_iff (hsha : Function.Injective cfg.sha256) {a b : SubmitInput}
    (ha : (submitDigest cfg a).isSome = true) (hb : (submitDigest cfg b).isSome = true) :
    submitDigest cfg a = submitDigest cfg b ↔ SameSubmission cfg a b := by
  obtain ⟨digest, hdigest⟩ := Option.isSome_iff_exists.mp ha
  obtain ⟨digest', hdigest'⟩ := Option.isSome_iff_exists.mp hb
  obtain ⟨c, hkey, hkind, hsize, hvalue, henvelope, rfl⟩ := submitDigest_eq_some hdigest
  obtain ⟨c', hkey', hkind', hsize', hvalue', henvelope', rfl⟩ := submitDigest_eq_some hdigest'
  rw [hdigest, hdigest', Option.some_inj, Content.digest_inj hsha, SameSubmission, ← hkind,
    ← hkind', ← hsize, ← hsize', ← hvalue, ← hvalue', henvelope, henvelope', Option.some_inj]
  exact Content.eq_iff (hkey.trans hkey'.symm)

theorem reserveDigest_eq_iff (hsha : Function.Injective cfg.sha256) {a b : UploadInput}
    (ha : (reserveDigest cfg a).isSome = true) (hb : (reserveDigest cfg b).isSome = true) :
    reserveDigest cfg a = reserveDigest cfg b ↔ SameUpload cfg a b := by
  obtain ⟨digest, hdigest⟩ := Option.isSome_iff_exists.mp ha
  obtain ⟨digest', hdigest'⟩ := Option.isSome_iff_exists.mp hb
  obtain ⟨c, hkey, hkind, hsize, hvalue, henvelope, rfl⟩ := reserveDigest_eq_some hdigest
  obtain ⟨c', hkey', hkind', hsize', hvalue', henvelope', rfl⟩ := reserveDigest_eq_some hdigest'
  rw [hdigest, hdigest', Option.some_inj, Content.digest_inj hsha, SameUpload, ← hkind, ← hkind',
    ← hsize, ← hsize', ← hvalue, ← hvalue', henvelope, henvelope', Option.some_inj]
  exact Content.eq_iff (hkey.trans hkey'.symm)

theorem submitDigest_ne_reserveDigest (hsha : Function.Injective cfg.sha256) {a : SubmitInput}
    {b : UploadInput} (ha : (submitDigest cfg a).isSome = true) :
    submitDigest cfg a ≠ reserveDigest cfg b := by
  intro heq
  obtain ⟨digest, hdigest⟩ := Option.isSome_iff_exists.mp ha
  obtain ⟨c, hkey, -, -, -, -, rfl⟩ := submitDigest_eq_some hdigest
  obtain ⟨c', hkey', -, -, -, -, hsame⟩ := reserveDigest_eq_some (heq.symm.trans hdigest)
  obtain rfl := (Content.digest_inj hsha).mp hsame
  exact absurd (hkey.symm.trans hkey') (by decide)

/-! ### What is stored and recognised -/

variable {env : Env} {id token : String} {db db' : DB} {row : RequestRow} {presign : Option String}
  {input : SubmitInput}

/-- The row of a waiting request after an update that is guarded by its state. -/
theorem Begins.lookup_update {change : RequestRow → RequestRow} {generation : Int}
    (h : Begins cfg env id token false db row) (hgeneration : row.generation = generation)
    (hwaiting : row.state = .waiting) (hkey : ∀ row, (change row).id = row.id) :
    Table.lookup RequestRow.id id
      (Table.update (RequestRow.waitingAt id generation) change db.requests) =
        some (change row) := by
  have hid : row.id = id := Table.lookup_key h.found
  have hguard : row.waitingAt id generation = true := by
    simp [RequestRow.waitingAt, hid, hgeneration, hwaiting]
  rw [Table.lookup_update hkey, h.found, Option.map_some, if_pos hguard]

/-- The digest of an answered submission is in its row. -/
theorem submit_stores {receipt : Receipt}
    (h : submit cfg env id token input db = .commit db' (.ok (some receipt))) :
    ∃ row, Table.lookup RequestRow.id id db'.requests = some row ∧
      row.attemptBodyHash = submitDigest cfg input := by
  obtain ⟨attempt, envelope, ciphertext, row, digest, hvalid, hbegins, hgeneration, -, hdigest,
    hbody⟩ := submit_cases h
  have hsubmit : submitDigest cfg input = some digest := by
    rw [submitDigest, hvalid, hdigest]
  rw [hsubmit]
  rcases hbody with ⟨-, -, -, hstored, rfl⟩ | ⟨hwaiting, -, rfl⟩
  · exact ⟨row, hbegins.found, hstored⟩
  · exact ⟨row.submit attempt digest input.kind input.sizeBytes envelope,
      hbegins.lookup_update hgeneration hwaiting fun _ => rfl, rfl⟩

/-- The digest of an answered reservation is in its row. -/
theorem reserve_stores {rawUpload rawFinal : Bytes} {input : UploadInput}
    {answer : Except Err (Option UploadResult)}
    (h : reserve cfg env rawUpload rawFinal presign id token input db = .commit db' answer)
    (hanswer : answer ≠ .ok none) :
    ∃ row, Table.lookup RequestRow.id id db'.requests = some row ∧
      row.attemptBodyHash = reserveDigest cfg input := by
  obtain ⟨attempt, envelope, checksum, row, digest, hvalid, hbegins, hgeneration, hdigest, hbody⟩ :=
    reserve_cases h hanswer
  have hreserve : reserveDigest cfg input = some digest := by
    rw [reserveDigest, hvalid, hdigest]
  rw [hreserve]
  rcases hbody with ⟨-, -, hstored, rfl, -⟩ | ⟨hwaiting, -, deadline, -, rfl⟩
  · exact ⟨row, hbegins.found, hstored⟩
  · exact ⟨row.reserve ⟨attempt, digest, input.sizeBytes, envelope, checksum,
      uploadKeyOf rawUpload, finalKeyOf rawFinal, deadline⟩,
      hbegins.lookup_update hgeneration hwaiting fun _ => rfl, rfl⟩

/-- The row that a retry of the attempt finds. -/
structure Retries (cfg : Config) (env : Env) (id token : String) (generation : Int)
    (attemptToken : String) (db : DB) (row : RequestRow) : Prop where
  begins : Begins cfg env id token false db row
  generation : row.generation = generation
  attempt : ∃ hash, tokenHash cfg.sha256 attemptToken = .ok hash ∧ row.attemptTokenHash = some hash
  taken : row.state ≠ .waiting

theorem commit_ne_conflict {Answer : Type} {now expires : Nat} {answer : Answer} :
    commit now expires db answer ≠ .rollback .conflict := by
  intro h
  cases commit_error h

theorem instruct_ne_conflict {uploadKey : Option String} {deadline : Nat} :
    instruct cfg env presign row uploadKey deadline db ≠ .rollback .conflict := by
  unfold instruct
  repeat' split
  all_goals
    intro h
    cases h

/-- `Submit` refuses a retry exactly for another digest, or for a reservation. -/
theorem submit_conflict_iff (hvalid : (submitDigest cfg input).isSome = true)
    (h : Retries cfg env id token input.generation input.attemptToken db row) :
    submit cfg env id token input db = .rollback .conflict ↔
      row.state = .uploading ∨ row.attemptBodyHash ≠ submitDigest cfg input := by
  obtain ⟨hash, hhash, hattempt⟩ := h.attempt
  unfold submitDigest at hvalid ⊢
  split at hvalid
  · cases hvalid
  rename_i attempt envelope ciphertext hparts
  have hsame : attempt = hash :=
    Except.ok.inj ((validateSubmission_ok hparts).hash.symm.trans hhash)
  subst hsame
  rw [submit, hparts]
  dsimp only
  rw [transact, h.begins.opened]
  dsimp only
  rw [if_neg (not_not.mpr h.generation.symm)]
  by_cases huploading : row.state = .uploading
  · simp [huploading]
  · rw [if_neg huploading, if_pos h.taken]
    by_cases hstored : row.attemptBodyHash =
        some (cfg.sha256
          (utf8 (marshalPayload input.kind input.sizeBytes envelope input.ciphertext)))
    · rw [if_neg (by simp [hattempt, hstored])]
      simp [huploading, hstored, commit_ne_conflict]
    · rw [if_pos (Or.inr hstored)]
      simp [hstored]

/-- `Reserve` refuses a retry exactly for another digest. -/
theorem reserve_conflict_iff {rawUpload rawFinal : Bytes} {input : UploadInput}
    (hvalid : (reserveDigest cfg input).isSome = true)
    (h : Retries cfg env id token input.generation input.attemptToken db row) :
    reserve cfg env rawUpload rawFinal presign id token input db = .rollback .conflict ↔
      row.attemptBodyHash ≠ reserveDigest cfg input := by
  obtain ⟨hash, hhash, hattempt⟩ := h.attempt
  unfold reserveDigest at hvalid ⊢
  split at hvalid
  · cases hvalid
  rename_i attempt envelope checksum hparts
  have hsame : attempt = hash :=
    Except.ok.inj ((validateUpload_ok hparts).hash.symm.trans hhash)
  subst hsame
  rw [reserve, hparts]
  dsimp only
  rw [transact, h.begins.opened]
  dsimp only
  rw [if_neg (not_not.mpr h.generation), if_pos h.taken]
  by_cases hstored : row.attemptBodyHash = some (cfg.sha256
      (utf8 (marshalUpload input.kind input.sizeBytes envelope input.ciphertextSHA256)))
  · rw [if_neg (by simp [hattempt, hstored])]
    split
    · simp [hstored, commit_ne_conflict]
    · simp [hstored, instruct_ne_conflict]
  · rw [if_pos (Or.inr hstored)]
    simp [hstored]

end

/-- **A retry is recognised by its content and its path.** -/
structure ExactRetry (cfg : Config) : Prop where
  /-- two submissions have one digest exactly when they have the same content -/
  submissions (a b : SubmitInput) : (submitDigest cfg a).isSome = true →
    (submitDigest cfg b).isSome = true →
    (submitDigest cfg a = submitDigest cfg b ↔ SameSubmission cfg a b)
  /-- two reservations have one digest exactly when they have the same content -/
  uploads (a b : UploadInput) : (reserveDigest cfg a).isSome = true →
    (reserveDigest cfg b).isSome = true →
    (reserveDigest cfg a = reserveDigest cfg b ↔ SameUpload cfg a b)
  /-- a submission and a reservation never have one digest -/
  paths (a : SubmitInput) (b : UploadInput) : (submitDigest cfg a).isSome = true →
    (reserveDigest cfg b).isSome = true → submitDigest cfg a ≠ reserveDigest cfg b
  /-- the digest of an answered submission is stored -/
  submitted (env : Env) (id token : String) (input : SubmitInput) (db db' : DB)
    (receipt : Receipt) : submit cfg env id token input db = .commit db' (.ok (some receipt)) →
    ∃ row, Table.lookup RequestRow.id id db'.requests = some row ∧
      row.attemptBodyHash = submitDigest cfg input
  /-- the digest of an answered reservation is stored -/
  reserved (env : Env) (rawUpload rawFinal : Bytes) (presign : Option String) (id token : String)
    (input : UploadInput) (db db' : DB) (answer : Except Err (Option UploadResult)) :
    reserve cfg env rawUpload rawFinal presign id token input db = .commit db' answer →
    answer ≠ .ok none → ∃ row, Table.lookup RequestRow.id id db'.requests = some row ∧
      row.attemptBodyHash = reserveDigest cfg input
  /-- a retried submission is refused exactly for other content -/
  submitAgain (env : Env) (id token : String) (db : DB) (row : RequestRow) (a b : SubmitInput) :
    (submitDigest cfg a).isSome = true → (submitDigest cfg b).isSome = true →
    Retries cfg env id token b.generation b.attemptToken db row → row.state ≠ .uploading →
    row.attemptBodyHash = submitDigest cfg a →
    (submit cfg env id token b db = .rollback .conflict ↔ ¬ SameSubmission cfg a b)
  /-- a retried reservation is refused exactly for other content -/
  reserveAgain (env : Env) (rawUpload rawFinal : Bytes) (presign : Option String)
    (id token : String) (db : DB) (row : RequestRow) (a b : UploadInput) :
    (reserveDigest cfg a).isSome = true → (reserveDigest cfg b).isSome = true →
    Retries cfg env id token b.generation b.attemptToken db row →
    row.attemptBodyHash = reserveDigest cfg a →
    (reserve cfg env rawUpload rawFinal presign id token b db = .rollback .conflict ↔
      ¬ SameUpload cfg a b)
  /-- a submission is refused where a reservation was made -/
  submitCrossed (env : Env) (id token : String) (db : DB) (row : RequestRow) (a : UploadInput)
    (b : SubmitInput) : (submitDigest cfg b).isSome = true →
    Retries cfg env id token b.generation b.attemptToken db row →
    row.attemptBodyHash = reserveDigest cfg a →
    submit cfg env id token b db = .rollback .conflict
  /-- a reservation is refused where a submission was made -/
  reserveCrossed (env : Env) (rawUpload rawFinal : Bytes) (presign : Option String)
    (id token : String) (db : DB) (row : RequestRow) (a : SubmitInput) (b : UploadInput) :
    (submitDigest cfg a).isSome = true → (reserveDigest cfg b).isSome = true →
    Retries cfg env id token b.generation b.attemptToken db row →
    row.attemptBodyHash = submitDigest cfg a →
    reserve cfg env rawUpload rawFinal presign id token b db = .rollback .conflict

/-- **An exact retry is recognised**, and nothing else is: with a collision-free hash, by the
fields and the path of the attempt. -/
theorem exact_retry (cfg : Config) (hsha : Function.Injective cfg.sha256) : ExactRetry cfg where
  submissions _ _ ha hb := submitDigest_eq_iff hsha ha hb
  uploads _ _ ha hb := reserveDigest_eq_iff hsha ha hb
  paths _ _ ha _ := submitDigest_ne_reserveDigest hsha ha
  submitted _ _ _ _ _ _ _ h := submit_stores h
  reserved _ _ _ _ _ _ _ _ _ _ h hanswer := reserve_stores h hanswer
  submitAgain _ _ _ _ row a b ha hb hretries huploading hstored := by
    rw [submit_conflict_iff hb hretries, hstored, ← submitDigest_eq_iff hsha ha hb]
    simp [huploading]
  reserveAgain _ _ _ _ _ _ _ row a b ha hb hretries hstored := by
    rw [reserve_conflict_iff hb hretries, hstored, ← reserveDigest_eq_iff hsha ha hb]
  submitCrossed _ _ _ _ row a b hb hretries hstored := by
    rw [submit_conflict_iff hb hretries, hstored]
    exact Or.inr (submitDigest_ne_reserveDigest hsha hb).symm
  reserveCrossed _ _ _ _ _ _ _ row a b ha hb hretries hstored := by
    rw [reserve_conflict_iff hb hretries, hstored]
    exact submitDigest_ne_reserveDigest hsha ha

/-- A submission with another spelling of the same envelope. -/
def respelled (spelling : String) : SubmitInput :=
  { sampleSubmission with envelope := utf8 spelling }

theorem exact_retry_respelled :
    ∃ cfg : Config, Function.Injective cfg.sha256 ∧
      submitDigest cfg (respelled "\x7b\"version\":2\x7d") =
        submitDigest cfg (respelled " \x7b \"\\u0076ersion\" : 2 \x7d") := by
  refine ⟨{ sampleConfig (Events.singleCodec (Events.objectEvent "job" "key" .orphan 1)) with
    decodeEnvelope := decodeEnvelope id }, fun _ _ h => h, ?_⟩
  refine ((exact_retry _ fun _ _ h => h).submissions _ _ ?_ ?_).mpr ⟨rfl, rfl, rfl, ?_⟩
  · decide +kernel
  · decide +kernel
  · decide +kernel

end Requests
end FlickDrop
