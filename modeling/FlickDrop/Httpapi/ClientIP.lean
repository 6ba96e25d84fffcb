import FlickDrop.Foundations.Text
import FlickDrop.Httpapi.RateLimit

/-!
# The client address of a request

Model of `clientIP` in `internal/httpapi/ratelimit.go`: the address that a rate limit counts, for
a direct client and for one behind trusted proxies.
-/

namespace FlickDrop
namespace Httpapi

open Foundations

/-- What `clientIP` reads of a request: `RemoteAddr` and the lines of `X-Forwarded-For`. -/
structure Request where
  remoteAddr : String
  forwardedFor : List String
deriving DecidableEq

def isTrustedIP (ip : String) (trusted : List IPNet) : Bool :=
  match parseIP ip.toList with
  | none => false
  | some parsed => trusted.any fun cidr => cidr.contains parsed

/-- The loop of `rightmostUntrusted` over the parts that are left, right-most first. -/
def rightmostUntrustedFrom (trusted : List IPNet) : List (List Char) → String
  | [] => ""
  | part :: rest =>
    let candidate := trimSpace part
    if candidate = [] ∨ parseIP candidate = none then
      rightmostUntrustedFrom trusted rest
    else if isTrustedIP (String.ofList candidate) trusted = false then
      String.ofList candidate
    else
      rightmostUntrustedFrom trusted rest

def rightmostUntrusted (xff : String) (trusted : List IPNet) : String :=
  rightmostUntrustedFrom trusted (xff.toList.splitOn ',').reverse

/-- The direct peer of a request. -/
def peerOf (remoteAddr : String) : String :=
  match splitHostPort remoteAddr.toList with
  | some (host, _) => String.ofList host
  | none => remoteAddr

/-- `rateLimiter.clientIP`; `Header.Get` reads the first line. -/
def RateLimiter.clientIP (rl : RateLimiter) (r : Request) : String :=
  let peer := peerOf r.remoteAddr
  if isTrustedIP peer rl.trustedProxies then
    let xff := r.forwardedFor.headD ""
    if xff ≠ "" then
      let ip := rightmostUntrusted xff rl.trustedProxies
      if ip ≠ "" then ip else peer
    else
      peer
  else
    peer

/-- The bucket key of `middlewareByKey`. -/
def RateLimiter.limiterKey (rl : RateLimiter) (r : Request) (resource : String) : String :=
  rl.clientIP r ++ "|" ++ resource

/-! ### Nobody chooses a limiter key -/

/-- A part of `X-Forwarded-For` that may name the client: a valid address outside the trusted
networks. -/
def Untrusted (trusted : List IPNet) (part : List Char) : Prop :=
  parseIP (trimSpace part) ≠ none ∧ isTrustedIP (String.ofList (trimSpace part)) trusted = false

instance (trusted : List IPNet) (part : List Char) : Decidable (Untrusted trusted part) :=
  inferInstanceAs (Decidable (_ ∧ _))

section Client

variable {trusted : List IPNet}

theorem Untrusted.ne_nil {part : List Char} (h : Untrusted trusted part) : trimSpace part ≠ [] := by
  intro hempty
  exact h.1 (by rw [hempty]; rfl)

theorem rightmostUntrustedFrom_cons (trusted : List IPNet) (part : List Char)
    (rest : List (List Char)) :
    rightmostUntrustedFrom trusted (part :: rest) =
      if Untrusted trusted part then String.ofList (trimSpace part)
      else rightmostUntrustedFrom trusted rest := by
  by_cases h : Untrusted trusted part
  · rw [rightmostUntrustedFrom, if_pos h, if_neg (by simpa using ⟨h.ne_nil, h.1⟩), if_pos h.2]
  · rw [rightmostUntrustedFrom, if_neg h]
    split
    · rfl
    · rename_i hvalid
      exact if_neg fun hfalse => h ⟨fun hnone => hvalid (.inr hnone), hfalse⟩

/-- The scan ends at the first untrusted part. -/
theorem rightmostUntrustedFrom_append {parts : List (List Char)}
    (h : ∃ part ∈ parts, Untrusted trusted part) (rest : List (List Char)) :
    rightmostUntrustedFrom trusted (parts ++ rest) = rightmostUntrustedFrom trusted parts := by
  induction parts with
  | nil => simp at h
  | cons part parts ih =>
    rw [List.cons_append, rightmostUntrustedFrom_cons, rightmostUntrustedFrom_cons]
    split
    · rfl
    · rename_i hnot
      obtain ⟨found, hmem, huntrusted⟩ := h
      rcases List.mem_cons.mp hmem with rfl | hmem
      · exact absurd huntrusted hnot
      · exact ih ⟨found, hmem, huntrusted⟩

theorem rightmostUntrustedFrom_mem (trusted : List IPNet) (parts : List (List Char)) :
    rightmostUntrustedFrom trusted parts = "" ∨
      ∃ part ∈ parts, Untrusted trusted part ∧
        rightmostUntrustedFrom trusted parts = String.ofList (trimSpace part) := by
  induction parts with
  | nil => exact .inl rfl
  | cons part parts ih =>
    rw [rightmostUntrustedFrom_cons]
    split
    · rename_i huntrusted
      exact .inr ⟨part, List.mem_cons_self, huntrusted, rfl⟩
    · rcases ih with hempty | ⟨found, hmem, hfound⟩
      · exact .inl hempty
      · exact .inr ⟨found, List.mem_cons_of_mem _ hmem, hfound⟩

/-- What stands before a comma does not count once an untrusted part follows it. -/
theorem rightmostUntrusted_after {after : String}
    (h : ∃ part ∈ after.toList.splitOn ',', Untrusted trusted part) (before : String) :
    rightmostUntrusted (before ++ "," ++ after) trusted = rightmostUntrusted after trusted := by
  have hsplit : (before ++ "," ++ after).toList.splitOn ',' =
      before.toList.splitOn ',' ++ after.toList.splitOn ',' := by
    rw [String.toList_append, String.toList_append, List.append_assoc]
    exact List.splitOn_append_cons_self before.toList after.toList
  rw [rightmostUntrusted, rightmostUntrusted, hsplit, List.reverse_append]
  refine rightmostUntrustedFrom_append ?_ _
  obtain ⟨part, hmem, huntrusted⟩ := h
  exact ⟨part, List.mem_reverse.mpr hmem, huntrusted⟩

end Client

/-- **Clients cannot choose their limiter key.**  An untrusted peer is its own address; behind a
trusted one, whatever stands before a comma is ignored once an untrusted address follows; and the
address is always the peer or an untrusted address of the header. -/
theorem clientIP_not_chosen (rl : RateLimiter) (remoteAddr : String) :
    (isTrustedIP (peerOf remoteAddr) rl.trustedProxies = false →
      ∀ value value' resource,
        rl.limiterKey ⟨remoteAddr, value⟩ resource = rl.limiterKey ⟨remoteAddr, value'⟩ resource ∧
        rl.clientIP ⟨remoteAddr, value⟩ = peerOf remoteAddr) ∧
    (isTrustedIP (peerOf remoteAddr) rl.trustedProxies = true →
      ∀ before before' after : String,
        (∃ part ∈ after.toList.splitOn ',', Untrusted rl.trustedProxies part) →
        rl.clientIP ⟨remoteAddr, [before ++ "," ++ after]⟩ =
          rl.clientIP ⟨remoteAddr, [before' ++ "," ++ after]⟩) ∧
    (∀ value : String,
      rl.clientIP ⟨remoteAddr, [value]⟩ = peerOf remoteAddr ∨
      ∃ part ∈ value.toList.splitOn ',', Untrusted rl.trustedProxies part ∧
        rl.clientIP ⟨remoteAddr, [value]⟩ = String.ofList (trimSpace part)) := by
  refine ⟨?_, ?_, ?_⟩
  · intro huntrusted value value' resource
    have hpeer : ∀ lines, rl.clientIP ⟨remoteAddr, lines⟩ = peerOf remoteAddr := by
      intro lines
      simp [RateLimiter.clientIP, huntrusted]
    exact ⟨by rw [RateLimiter.limiterKey, RateLimiter.limiterKey, hpeer, hpeer], hpeer value⟩
  · intro htrusted before before' after hafter
    have hsome : ∀ front : String, front ++ "," ++ after ≠ "" := by
      intro front hempty
      have hlength := congrArg String.toList hempty
      simp [String.toList_append] at hlength
    have hclient : ∀ front : String, rl.clientIP ⟨remoteAddr, [front ++ "," ++ after]⟩ =
        if rightmostUntrusted after rl.trustedProxies ≠ "" then
          rightmostUntrusted after rl.trustedProxies
        else peerOf remoteAddr := by
      intro front
      simp only [RateLimiter.clientIP, htrusted, if_true, List.headD_cons, if_pos (hsome front),
        rightmostUntrusted_after hafter front]
    rw [hclient, hclient]
  · intro value
    rw [RateLimiter.clientIP]
    dsimp only [List.headD_cons]
    split
    · split
      · rcases rightmostUntrustedFrom_mem rl.trustedProxies
          (value.toList.splitOn ',').reverse with hempty | ⟨part, hmem, huntrusted, hfound⟩
        · exact .inl (if_neg (by simpa [rightmostUntrusted] using hempty))
        · rw [rightmostUntrusted, hfound]
          split
          · exact .inr ⟨part, List.mem_reverse.mp hmem, huntrusted, rfl⟩
          · exact .inl rfl
      · exact .inl rfl
    · exact .inl rfl

/-- A deployment behind one proxy on the same host. -/
def localProxy : RateLimiter := newRateLimiter 10 [⟨[127, 0, 0, 1], [255, 255, 255, 255]⟩]

theorem clientIP_not_chosen_behind_proxy :
    (isTrustedIP (peerOf "127.0.0.1:1234") localProxy.trustedProxies = true ∧
      localProxy.clientIP ⟨"127.0.0.1:1234", ["x, 10.0.0.1" ++ "," ++ " 203.0.113.5, 127.0.0.1"]⟩ =
        "203.0.113.5" ∧
      isTrustedIP (peerOf "[2001:db8::1]:1234") localProxy.trustedProxies = false) ∧
    localProxy.clientIP ⟨"127.0.0.1:1234", ["x, 10.0.0.1" ++ "," ++ " 203.0.113.5, 127.0.0.1"]⟩ =
      localProxy.clientIP ⟨"127.0.0.1:1234", ["198.51.100.7" ++ "," ++ " 203.0.113.5, 127.0.0.1"]⟩ ∧
    localProxy.clientIP ⟨"[2001:db8::1]:1234", ["203.0.113.5"]⟩ = peerOf "[2001:db8::1]:1234" := by
  have htrusted : isTrustedIP (peerOf "127.0.0.1:1234") localProxy.trustedProxies = true := by
    decide +kernel
  have huntrusted :
      isTrustedIP (peerOf "[2001:db8::1]:1234") localProxy.trustedProxies = false := by
    decide +kernel
  refine ⟨⟨htrusted, by decide +kernel, huntrusted⟩, ?_, ?_⟩
  · exact (clientIP_not_chosen localProxy "127.0.0.1:1234").2.1 htrusted _ _ _
      ⟨" 203.0.113.5".toList, by decide +kernel, by decide +kernel⟩
  · exact ((clientIP_not_chosen localProxy "[2001:db8::1]:1234").1 huntrusted _ [] "").2

end Httpapi
end FlickDrop
