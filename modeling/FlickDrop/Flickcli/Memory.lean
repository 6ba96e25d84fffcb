import FlickDrop.Flickcli.Open

/-!
# What an open decrypts in memory

The size of a text is checked against the inline limit before the secret is consumed.  The check
reads the kind of the metadata, the choice of the in-memory path the kind of the open's answer.
-/

namespace FlickDrop
namespace Flickcli

open Foundations
open Secrets (OpenedSecret openedSecret)

section Memory

variable {Identity KDF Entry : Type} [DecidableEq Entry]

theorem openText_inMemory (crypto : Crypto Identity KDF) (opts : OpenOptions Identity)
    (faults : OpenFaults) (d : Disk Entry) (reserved : Option (List Char)) (identity : Identity)
    (body : ExactBody) (result : OpenResult) :
    (openText crypto opts faults d reserved identity body result).inMemory = some body := by
  unfold openText
  dsimp only
  split
  · rfl
  · split
    · rfl
    · split
      · rfl
      · split
        · rfl
        · rfl

theorem storeFile_inMemory (crypto : Crypto Identity KDF) (opts : OpenOptions Identity)
    (faults : OpenFaults) (d : Disk Entry) (reserved : Option (List Char)) (identity : Identity)
    (body : ExactBody) (result : OpenResult) :
    (storeFile crypto opts faults d reserved identity body result).inMemory = none := by
  unfold storeFile
  split
  · rfl
  · split
    · rfl
    · dsimp only
      split
      · rfl
      · split
        · rfl
        · rfl

theorem openSecret_ok {server : Server KDF} {id accessProof : String} {sizeBytes : Int}
    {opened : OpenedSecret} {body : ExactBody}
    (h : server.openSecret id accessProof sizeBytes = .ok (opened, body)) :
    0 < sizeBytes ∧ ∃ headers src, server.answer id accessProof = .ok (headers, src) ∧
      openedSecret headers = .ok opened ∧ body = ⟨src, sizeBytes.toNat⟩ := by
  unfold Server.openSecret at h
  split at h
  · cases h
  rename_i hsize
  split at h
  · cases h
  rename_i headers src hanswer
  split at h
  · cases h
  rename_i opened' hopened
  simp only [Except.ok.injEq, Prod.mk.injEq] at h
  obtain ⟨rfl, rfl⟩ := h
  exact ⟨by omega, headers, src, hanswer, hopened, rfl⟩

/-- How many bytes of a body are read at most. -/
theorem drained_length_le_iff (b : ExactBody) (limit : Int) :
    (∀ sizes, ((drain ExactBody.read b sizes).1.length : Int) ≤ limit) ↔
      (b.remaining : Int) ≤ limit ∨ (b.body.content.length : Int) ≤ limit := by
  constructor
  · intro h
    -- one byte at a time reaches the end
    have hdrains := b.drain_drains (List.replicate (b.body.content.length + 1) 1)
    have hends := hdrains.ends (fun size hmem => by rw [List.eq_of_mem_replicate hmem]; decide)
      (by simp)
    have hlength := h (List.replicate (b.body.content.length + 1) 1)
    rw [hdrains.whole hends, List.length_take] at hlength
    omega
  · intro h sizes
    have hlength := (b.drain_drains sizes).front.length_le
    rw [List.length_take] at hlength
    omega

end Memory

/-- **What an open reads into memory** is bounded by the inline limit exactly when the two answers
of the server agree on a text, or the size or the body is small anyway. -/
theorem openLink_inMemory_bounded_iff {Identity KDF Entry : Type} [DecidableEq Entry]
    (crypto : Crypto Identity KDF) (server : Server KDF) (opts : OpenOptions Identity)
    (faults : OpenFaults) (d : Disk Entry) (body : ExactBody)
    (h : (openLink crypto server opts faults d).inMemory = some body) :
    ∃ metadata accessProof headers src, server.metadata opts.linkID = .ok metadata ∧
      server.answer opts.linkID accessProof = .ok (headers, src) ∧
      body = ⟨src, metadata.sizeBytes.toNat⟩ ∧
      ((∀ sizes, ((drain ExactBody.read body sizes).1.length : Int) ≤
          ageFileBytes server.limits.payloadInlineMaxBytes) ↔
        (metadata.kind = "file" →
          metadata.sizeBytes ≤ ageFileBytes server.limits.payloadInlineMaxBytes ∨
          (src.content.length : Int) ≤ ageFileBytes server.limits.payloadInlineMaxBytes)) := by
  have hruns := openLink_runs crypto server opts faults d
  generalize openLink crypto server opts faults d = out at hruns h
  cases hruns with
  | failed => cases h
  | file hreserved hanswered hkind =>
    rw [storeFile_inMemory] at h
    cases h
  | text hmetadata hsize hreserved hanswered hopen hkind =>
    rename_i metadata accessProof opened found identity result reserved
    rw [openText_inMemory] at h
    cases h
    obtain ⟨hpositive, headers, src, hanswer, -, hbody⟩ := openSecret_ok hopen
    subst hbody
    refine ⟨metadata, accessProof, headers, src, hmetadata, hanswer, rfl, ?_⟩
    rw [drained_length_le_iff]
    dsimp only
    rw [Int.toNat_of_nonneg hpositive.le]
    constructor
    · intro hbound _
      exact hbound
    · intro hbound
      by_cases hfile : metadata.kind = "file"
      · exact hbound hfile
      · exact .inl (hsize hfile)

/-- A large body in one chunk. -/
def largeBody : Source UInt8 where
  chunks := [List.replicate 4130 0]
  ending := .eof
  together := false
  nonempty := by decide

/-- A text of three bytes stays within the limit. -/
theorem openLink_inMemory_bounded_text :
    (openLink sampleCrypto (sampleServer "text" "text" 3 1 wholeBody) sampleOptions sampleFaults
      emptyDisk).inMemory.isSome = true ∧
    ∃ body, (openLink sampleCrypto (sampleServer "text" "text" 3 1 wholeBody) sampleOptions
        sampleFaults emptyDisk).inMemory = some body ∧
      ∀ sizes, ((drain ExactBody.read body sizes).1.length : Int) ≤ ageFileBytes 1 := by
  have hsome : (openLink sampleCrypto (sampleServer "text" "text" 3 1 wholeBody) sampleOptions
      sampleFaults emptyDisk).inMemory.isSome = true := by decide +kernel
  obtain ⟨body, hbody⟩ := Option.isSome_iff_exists.mp hsome
  obtain ⟨metadata, accessProof, headers, src, hmetadata, -, -, hbound⟩ :=
    openLink_inMemory_bounded_iff sampleCrypto (sampleServer "text" "text" 3 1 wholeBody)
      sampleOptions sampleFaults emptyDisk body hbody
  refine ⟨hsome, body, hbody, hbound.mpr ?_⟩
  cases hmetadata
  intro hno
  exact absurd hno (by decide)

/-- The probe says a file, the open answers a text: more than the limit is read into memory. -/
theorem openLink_inMemory_unbounded :
    ∃ body, (openLink sampleCrypto (sampleServer "file" "text" 4130 1 largeBody) sampleOptions
        sampleFaults emptyDisk).inMemory = some body ∧
      ageFileBytes 1 < ((drain ExactBody.read body [8192, 8192]).1.length : Int) := by
  exact ⟨⟨largeBody, 4130⟩, rfl, by decide +kernel⟩

end Flickcli
end FlickDrop
