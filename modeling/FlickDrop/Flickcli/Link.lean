import FlickDrop.Foundations.Url

/-!
# Share links

Model of `internal/flickcli/link.go` and `internal/clientcrypto/fragment.go`.  A link carries the
origin, the secret's id and, for Model B, the identity in the fragment.  `ParseShareLink` looks
for the first `/s/` of the path, so an origin whose path has a segment `s` of its own is not read
back.
-/

namespace FlickDrop
namespace Flickcli

open Foundations Foundations.Url

/-- `SharePath`. -/
def sharePath : Bytes := ascii "/s/"

/-- `clientcrypto.IdentityPrefix`. -/
def identityPrefix : Bytes := ascii "AGE-SECRET-KEY-PQ-1"

/-- `FragmentKeyPrefix`. -/
def fragmentKeyPrefix : Bytes := ascii "key="

def maxKeyFragmentChars : Nat := 128

/-- The class `[02-9AC-HJ-NP-Z]`. -/
def isIdentityByte (b : UInt8) : Bool :=
  b = 0x30 || (0x32 ≤ b && b ≤ 0x39) || b = 0x41 || (0x43 ≤ b && b ≤ 0x48) ||
    (0x4a ≤ b && b ≤ 0x4e) || (0x50 ≤ b && b ≤ 0x5a)

def identityPattern (encoded : Bytes) : Bool :=
  identityPrefix.isPrefixOf encoded && encoded.drop identityPrefix.length ≠ [] &&
    (encoded.drop identityPrefix.length).all isIdentityByte

/-- The hybrid identities of the `age` library: 77 characters of upper-case bech32 that parse
back. -/
structure HybridIdentities (Identity : Type) where
  string : Identity → Bytes
  parseHybridIdentity : Bytes → Option Identity
  parse_string : ∀ identity, parseHybridIdentity (string identity) = some identity
  string_pattern : ∀ identity, identityPattern (string identity) = true
  string_length : ∀ identity, (string identity).length ≤ maxKeyFragmentChars

/-- The errors of `DecodeKeyFragment`. -/
inductive FragmentError where
  /-- "link fragment does not carry a key" -/
  | noKey
  /-- "link fragment key has an implausible length" -/
  | length
  /-- "link fragment key is not an age identity" -/
  | pattern
  /-- "link fragment key is not a valid age identity" -/
  | invalid
deriving DecidableEq, Repr

/-- The errors of `ParseShareLink`. -/
inductive LinkError where
  /-- "a share link or secret ID is required" -/
  | required
  /-- "is neither a full share link nor a secret ID" -/
  | neither
  /-- "could not parse the share link" -/
  | unparsable
  /-- "has no host" -/
  | noHost
  /-- "does not contain a /s/<id> path" -/
  | noSharePath
  /-- "has extra path segments after the secret ID" -/
  | extraSegments
  /-- "secret ID is not valid" -/
  | invalidID
  | fragment (error : FragmentError)
deriving DecidableEq, Repr

structure ShareLink (Identity : Type) where
  origin : Bytes
  id : Bytes
  identity : Option Identity
deriving DecidableEq, Repr

section Model

variable {Identity : Type} (ids : HybridIdentities Identity)

def parseIdentity (s : Bytes) : Option Identity :=
  let s := Url.trimSpace s
  if identityPrefix.isPrefixOf s then ids.parseHybridIdentity s else none

def encodeKeyFragment (identity : Identity) : Bytes :=
  fragmentKeyPrefix ++ ids.string identity

def decodeKeyFragment (fragment : Bytes) : Except FragmentError Identity :=
  let stripped := if fragment.head? = some 0x23 then fragment.tail else fragment
  if fragmentKeyPrefix.isPrefixOf stripped then
    let encoded := stripped.drop fragmentKeyPrefix.length
    if encoded = [] ∨ maxKeyFragmentChars < encoded.length then
      .error .length
    else if identityPattern encoded = false then
      .error .pattern
    else
      match parseIdentity ids encoded with
      | none => .error .invalid
      | some identity => .ok identity
  else
    .error .noKey

/-- The part of `ParseShareLink` behind `url.Parse`. -/
def shareLinkOf (parsed : URL) : Except LinkError (ShareLink Identity) :=
  if parsed.host = [] then
    .error .noHost
  else
    match cut sharePath parsed.path with
    | none | some (_, []) => .error .noSharePath
    | some (front, id) =>
      if 0x2f ∈ id then
        .error .extraSegments
      else
        match unescape .pathSegment id with
        | none => .error .invalidID
        | some id =>
          let origin := trimRight 0x2f (parsed.scheme ++ ascii "://" ++ parsed.host ++ front)
          if parsed.fragment = [] then
            .ok ⟨origin, id, none⟩
          else
            -- the raw fragment is kept only where it differs from the decoded one
            let fragment := if parsed.rawFragment = [] then parsed.fragment else parsed.rawFragment
            match decodeKeyFragment ids fragment with
            | .error e => .error (.fragment e)
            | .ok identity => .ok ⟨origin, id, some identity⟩

def parseShareLink (raw : Bytes) : Except LinkError (ShareLink Identity) :=
  let trimmed := Url.trimSpace raw
  if trimmed = [] then
    .error .required
  else if (cut (ascii "://") trimmed).isNone then
    if trimmed.any (· ∈ ascii "/#?") then .error .neither else .ok ⟨[], trimmed, none⟩
  else
    match parse trimmed with
    | none => .error .unparsable
    | some parsed => shareLinkOf ids parsed

def buildShareLink (origin id : Bytes) (identity : Option Identity) : Bytes :=
  let link := trimRight 0x2f origin ++ sharePath ++ escape .pathSegment id
  match identity with
  | none => link
  | some identity => link ++ 0x23 :: encodeKeyFragment ids identity

end Model

/-! ### Identities in fragments -/

/-- Every character of a byte class is plain text in each part of a link. -/
theorem isIdentityByte_plain {b : UInt8} (h : isIdentityByte b = true) :
    isGraphic b = true ∧ b ≠ 0x25 := by
  have hall : ∀ n < 256, isIdentityByte (UInt8.ofNat n) = true →
      isGraphic (UInt8.ofNat n) = true ∧ UInt8.ofNat n ≠ 0x25 := by decide +kernel
  have hb := hall b.toNat b.toNat_lt
  rw [UInt8.ofNat_toNat] at hb
  exact hb h

section Fragments

variable {Identity : Type} (ids : HybridIdentities Identity)

theorem HybridIdentities.string_eq (identity : Identity) :
    ∃ body, ids.string identity = identityPrefix ++ body ∧ body ≠ [] ∧
      ∀ b ∈ body, isIdentityByte b = true := by
  have h := ids.string_pattern identity
  simp only [identityPattern, Bool.and_eq_true, List.isPrefixOf_iff_prefix, decide_eq_true_eq,
    List.all_eq_true] at h
  obtain ⟨⟨⟨body, hbody⟩, hne⟩, hall⟩ := h
  rw [← hbody, List.drop_left] at hne hall
  exact ⟨body, hbody.symm, hne, hall⟩

theorem HybridIdentities.string_plain (identity : Identity) :
    ∀ b ∈ ids.string identity, isGraphic b = true ∧ b ≠ 0x25 := by
  obtain ⟨body, hbody, -, hall⟩ := ids.string_eq identity
  rw [hbody]
  intro b hb
  rcases List.mem_append.mp hb with hb | hb
  · have hprefix : ∀ b ∈ identityPrefix, isGraphic b = true ∧ b ≠ 0x25 := by decide +kernel
    exact hprefix b hb
  · exact isIdentityByte_plain (hall b hb)

theorem HybridIdentities.string_ne_nil (identity : Identity) : ids.string identity ≠ [] := by
  obtain ⟨body, hbody, hne, -⟩ := ids.string_eq identity
  rw [hbody]
  simp [hne]

theorem parseIdentity_string (identity : Identity) :
    parseIdentity ids (ids.string identity) = some identity := by
  obtain ⟨body, hbody, -, -⟩ := ids.string_eq identity
  have htrim : Url.trimSpace (ids.string identity) = ids.string identity := by
    have hhead : ([] ++ ids.string identity).head? = some 0x41 := by
      rw [hbody]
      rfl
    exact trimSpace_of_graphic hhead (by decide) (ids.string_ne_nil identity)
      fun b hb => (ids.string_plain identity b hb).1
  have hpre : identityPrefix.isPrefixOf (ids.string identity) = true := by
    rw [List.isPrefixOf_iff_prefix, hbody]
    exact List.prefix_append _ _
  rw [parseIdentity, htrim, if_pos hpre, ids.parse_string]

theorem decodeKeyFragment_encode (identity : Identity) :
    decodeKeyFragment ids (encodeKeyFragment ids identity) = .ok identity := by
  have hhead : (encodeKeyFragment ids identity).head? ≠ some 0x23 := by
    have hk : (encodeKeyFragment ids identity).head? = some 0x6b := rfl
    rw [hk]
    decide
  have hpre : fragmentKeyPrefix.isPrefixOf (encodeKeyFragment ids identity) = true := by
    rw [List.isPrefixOf_iff_prefix]
    exact List.prefix_append _ _
  have hbounds : ¬(ids.string identity = [] ∨
      maxKeyFragmentChars < (ids.string identity).length) := by
    rintro (hempty | hlong)
    · exact ids.string_ne_nil identity hempty
    · exact absurd (ids.string_length identity) (Nat.not_le.mpr hlong)
  rw [decodeKeyFragment, if_neg hhead, if_pos hpre, encodeKeyFragment, List.drop_left]
  dsimp only
  rw [if_neg hbounds, if_neg (by simp [ids.string_pattern]), parseIdentity_string]

/-- The fragment of a link. -/
def keyFragment : Option Identity → Bytes
  | none => []
  | some identity => encodeKeyFragment ids identity

theorem percent_notMem_encodeKeyFragment (identity : Identity) :
    0x25 ∉ encodeKeyFragment ids identity := by
  rw [encodeKeyFragment, List.mem_append, not_or]
  exact ⟨by decide, fun h => (ids.string_plain identity _ h).2 rfl⟩

end Fragments

/-! ### Building a link -/

/-- The alphabet of the server's ids, that of `base64.RawURLEncoding`. -/
def idAlphabet : Bytes := rawURLEncoding.alphabet.map fun c => UInt8.ofNat c.toNat

theorem idAlphabet_plain : ∀ b ∈ idAlphabet, isGraphic b = true ∧
    shouldEscape b .pathSegment = false ∧ isUnreserved b = true := by
  decide +kernel

theorem isUnreserved_plain {b : UInt8} (h : isUnreserved b = true) :
    b ≠ 0x23 ∧ b ≠ 0x25 ∧ b ≠ 0x2f ∧ b ≠ 0x3f ∧ isControl b = false := by
  have hall : ∀ n < 256, isUnreserved (UInt8.ofNat n) = true →
      UInt8.ofNat n ≠ 0x23 ∧ UInt8.ofNat n ≠ 0x25 ∧ UInt8.ofNat n ≠ 0x2f ∧
        UInt8.ofNat n ≠ 0x3f ∧ isControl (UInt8.ofNat n) = false := by decide +kernel
  have hb := hall b.toNat b.toNat_lt
  rw [UInt8.ofNat_toNat] at hb
  exact hb h

/-- An origin: a scheme, a host and a path prefix of segments. -/
structure Origin where
  scheme : Bytes
  host : Bytes
  segments : List Bytes
  isScheme_scheme : isScheme scheme = true
  host_ne_nil : host ≠ []
  host_plain : 0x2f ∉ host ∧ Plain host
  unreserved : ∀ segment ∈ segments, ∀ b ∈ segment, isUnreserved b = true

namespace Origin

variable (origin : Origin)

/-- The text in front of the path prefix. -/
def authority : Bytes := origin.scheme ++ 0x3a :: 0x2f :: 0x2f :: origin.host

def text : Bytes := origin.authority ++ joinSegments 0x2f origin.segments

/-- The segments that are left when trailing slashes are trimmed. -/
def kept : List Bytes := origin.segments.rdropWhile (· = [])

theorem mem_segments_of_mem_kept {segment : Bytes} (h : segment ∈ origin.kept) :
    segment ∈ origin.segments :=
  (List.rdropWhile_prefix _ _).subset h

theorem kept_noSlash {segments : List Bytes}
    (h : ∀ segment ∈ segments, segment ∈ origin.segments) :
    ∀ segment ∈ segments, 0x2f ∉ segment := by
  intro segment hsegment hslash
  exact (isUnreserved_plain (origin.unreserved segment (h segment hsegment) _ hslash)).2.2.1 rfl

theorem trimRight_text : trimRight 0x2f origin.text =
    origin.authority ++ joinSegments 0x2f origin.kept := by
  have hfront : trimRight 0x2f origin.authority = origin.authority := by
    have hsplit : origin.authority = (origin.scheme ++ [0x3a, 0x2f, 0x2f]) ++ origin.host := by
      simp [authority]
    rw [hsplit]
    exact trimRight_append_of_notMem _ origin.host_ne_nil origin.host_plain.1
  exact trimRight_joinSegments hfront (origin.kept_noSlash fun _ h => h)

/-- The path of a link to the secret `id`. -/
def linkPath (id : Bytes) : Bytes :=
  joinSegments 0x2f origin.kept ++ 0x2f :: (ascii "s" ++ 0x2f :: id)

/-- The link without a fragment. -/
def bareLink (id : Bytes) : Bytes :=
  origin.scheme ++ 0x3a :: 0x2f :: 0x2f :: (origin.host ++ origin.linkPath id)

end Origin

/-- An id as the server makes them. -/
structure IsID (id : Bytes) : Prop where
  ne_nil : id ≠ []
  mem : ∀ b ∈ id, b ∈ idAlphabet

theorem IsID.unreserved {id : Bytes} (h : IsID id) : ∀ b ∈ id, isUnreserved b = true :=
  fun b hb => (idAlphabet_plain b (h.mem b hb)).2.2

section Links

variable {Identity : Type} (ids : HybridIdentities Identity) (origin : Origin)
  {id scheme host raw : Bytes}

theorem buildShareLink_eq (hid : IsID id) (identity : Option Identity) :
    buildShareLink ids origin.text id identity =
      match identity with
      | none => origin.bareLink id
      | some identity => origin.bareLink id ++ 0x23 :: encodeKeyFragment ids identity := by
  have hescape : escape .pathSegment id = id :=
    escape_plain fun b hb => (idAlphabet_plain b (hid.mem b hb)).2.1
  have hlink : trimRight 0x2f origin.text ++ sharePath ++ id = origin.bareLink id := by
    rw [origin.trimRight_text]
    simp [Origin.bareLink, Origin.linkPath, Origin.authority, sharePath, ascii]
  unfold buildShareLink
  rw [hescape, hlink]

theorem isScheme_plain (h : isScheme scheme = true) :
    ∃ a rest, scheme = a :: rest ∧ isGraphic a = true ∧ Plain scheme := by
  have hall : ∀ n < 256, isSchemeByte (UInt8.ofNat n) = true →
      isGraphic (UInt8.ofNat n) = true ∧ UInt8.ofNat n ≠ 0x23 ∧ UInt8.ofNat n ≠ 0x3f ∧
        isControl (UInt8.ofNat n) = false := by decide +kernel
  have hbyte : ∀ b, isSchemeByte b = true →
      isGraphic b = true ∧ b ≠ 0x23 ∧ b ≠ 0x3f ∧ isControl b = false := by
    intro b hb
    have hb' := hall b.toNat b.toNat_lt
    rw [UInt8.ofNat_toNat] at hb'
    exact hb' hb
  cases scheme with
  | nil => cases h
  | cons a rest =>
    simp only [isScheme, Bool.and_eq_true, List.all_eq_true] at h
    have ha : isSchemeByte a = true := by rw [isSchemeByte, h.1, Bool.true_or, Bool.true_or]
    refine ⟨a, rest, rfl, (hbyte a ha).1, ?_⟩
    intro b hb
    rcases List.mem_cons.mp hb with rfl | hb
    · exact (hbyte b ha).2
    · exact (hbyte b (h.2 b hb)).2

theorem linkPath_mem (hid : IsID id) {b : UInt8} (h : b ∈ origin.linkPath id) :
    b = 0x2f ∨ isUnreserved b = true := by
  rw [Origin.linkPath, List.mem_append] at h
  rcases h with h | h
  · obtain ⟨segment, hsegment, hb⟩ := List.mem_flatMap.mp h
    rcases List.mem_cons.mp hb with rfl | hb
    · exact .inl rfl
    · exact .inr (origin.unreserved _ (origin.mem_segments_of_mem_kept hsegment) b hb)
  · simp only [List.mem_cons, List.mem_append] at h
    rcases h with rfl | h | rfl | h
    · exact .inl rfl
    · have hroute : ∀ b ∈ ascii "s", isUnreserved b = true := by decide +kernel
      exact .inr (hroute b h)
    · exact .inl rfl
    · exact .inr (hid.unreserved b h)

theorem bareLink_plain (hid : IsID id) : Plain (origin.bareLink id) := by
  obtain ⟨-, -, -, -, hscheme⟩ := isScheme_plain origin.isScheme_scheme
  have hcolon : Plain [0x3a, 0x2f, 0x2f] := by
    unfold Plain
    decide +kernel
  have hpath : Plain (origin.linkPath id) := by
    intro b hb
    rcases linkPath_mem origin hid hb with rfl | hb
    · decide
    · obtain ⟨h1, -, -, h2, h3⟩ := isUnreserved_plain hb
      exact ⟨h1, h2, h3⟩
  have hsplit : origin.bareLink id =
      origin.scheme ++ ([0x3a, 0x2f, 0x2f] ++ (origin.host ++ origin.linkPath id)) := rfl
  rw [hsplit]
  exact hscheme.append (hcolon.append (origin.host_plain.2.append hpath))

theorem parseBare_bareLink (hid : IsID id) :
    parseBare (origin.bareLink id) =
      (parseAuthority origin.host).map fun host =>
        ⟨toLower origin.scheme, host, origin.linkPath id, [], []⟩ := by
  refine parseBare_absolute origin.isScheme_scheme (bareLink_plain origin hid)
    origin.host_plain.1 (.inr ?_) ?_
  · obtain ⟨rest, hrest, -⟩ := joinSegments_append_cons origin.kept (ascii "s" ++ 0x2f :: id)
    rw [Origin.linkPath, hrest]
    rfl
  · intro hpercent
    rcases linkPath_mem origin hid hpercent with h | h
    · cases h
    · exact absurd h (by decide)

/-- What `url.Parse` makes of a link. -/
theorem parse_buildShareLink (hid : IsID id) (identity : Option Identity) :
    parse (buildShareLink ids origin.text id identity) =
      (parseAuthority origin.host).map fun host =>
        ⟨toLower origin.scheme, host, origin.linkPath id, keyFragment ids identity,
          if escape .fragment (keyFragment ids identity) = keyFragment ids identity then []
          else keyFragment ids identity⟩ := by
  have hhash : 0x23 ∉ origin.bareLink id := fun h => (bareLink_plain origin hid _ h).1 rfl
  rw [buildShareLink_eq ids origin hid]
  cases identity with
  | none =>
    rw [parse_bare hhash, parseBare_bareLink origin hid]
    rfl
  | some identity =>
    have hne : encodeKeyFragment ids identity ≠ [] := by
      intro h
      cases h
    rw [parse_fragment hhash hne (percent_notMem_encodeKeyFragment ids identity),
      parseBare_bareLink origin hid, Option.map_map]
    rfl

theorem trimSpace_buildShareLink (hid : IsID id) (identity : Option Identity) :
    Url.trimSpace (buildShareLink ids origin.text id identity) =
      buildShareLink ids origin.text id identity := by
  obtain ⟨a, rest, hscheme, ha, -⟩ := isScheme_plain origin.isScheme_scheme
  rw [buildShareLink_eq ids origin hid]
  cases identity with
  | none =>
    have hsplit : origin.bareLink id =
        (origin.authority ++ joinSegments 0x2f origin.kept ++ sharePath) ++ id := by
      simp [Origin.bareLink, Origin.linkPath, Origin.authority, sharePath, ascii]
    have hhead : ((origin.authority ++ joinSegments 0x2f origin.kept ++ sharePath) ++ id).head? =
        some a := by
      simp [Origin.authority, hscheme]
    dsimp only
    rw [hsplit]
    exact trimSpace_of_graphic hhead ha hid.ne_nil
      fun b hb => (idAlphabet_plain b (hid.mem b hb)).1
  | some identity =>
    have hsplit : origin.bareLink id ++ 0x23 :: encodeKeyFragment ids identity =
        (origin.bareLink id ++ 0x23 :: fragmentKeyPrefix) ++ ids.string identity := by
      simp [encodeKeyFragment]
    have hhead : ((origin.bareLink id ++ 0x23 :: fragmentKeyPrefix) ++
        ids.string identity).head? = some a := by
      simp [Origin.bareLink, hscheme]
    dsimp only
    rw [hsplit]
    exact trimSpace_of_graphic hhead ha (ids.string_ne_nil identity)
      fun b hb => (ids.string_plain identity b hb).1

theorem parseShareLink_build (hid : IsID id) (identity : Option Identity) :
    parseShareLink ids (buildShareLink ids origin.text id identity) =
      match parse (buildShareLink ids origin.text id identity) with
      | none => .error .unparsable
      | some parsed => shareLinkOf ids parsed := by
  have hsome : (cut (ascii "://") (buildShareLink ids origin.text id identity)).isNone = false := by
    have hcolon (more : Bytes) :
        (cut (ascii "://") (origin.scheme ++ (ascii "://" ++ more))).isNone = false := by
      rw [← Option.not_isSome, cut_isSome]
      rfl
    rw [buildShareLink_eq ids origin hid]
    cases identity with
    | none => exact hcolon (origin.host ++ origin.linkPath id)
    | some identity =>
      have hsplit : origin.bareLink id ++ 0x23 :: encodeKeyFragment ids identity =
          origin.scheme ++ (ascii "://" ++ ((origin.host ++ origin.linkPath id) ++
            0x23 :: encodeKeyFragment ids identity)) := by
        simp [Origin.bareLink, ascii]
      dsimp only
      rw [hsplit]
      exact hcolon _
  have hne : buildShareLink ids origin.text id identity ≠ [] := by
    intro h
    rw [h] at hsome
    exact absurd hsome (by decide)
  rw [parseShareLink, trimSpace_buildShareLink ids origin hid, if_neg hne,
    if_neg (by rw [hsome]; decide)]

/-! ### Reading it back -/

theorem mem_kept_iff : ascii "s" ∈ origin.kept ↔ ascii "s" ∈ origin.segments := by
  refine ⟨origin.mem_segments_of_mem_kept, fun h => mem_rdropWhile_of_not h ?_⟩
  decide

/-- A segment `s` of the prefix is taken for the share route. -/
theorem shareLinkOf_early {fragment : Bytes} (h : ascii "s" ∈ origin.segments) :
    ∃ e, shareLinkOf ids ⟨scheme, host, origin.linkPath id, fragment, raw⟩ = .error e := by
  obtain ⟨front, back, hback, hcut⟩ := cut_route_early (by decide)
    (origin.kept_noSlash fun _ => origin.mem_segments_of_mem_kept)
    ((mem_kept_iff origin).mpr h) id
  have hpath : cut sharePath (origin.linkPath id) = some (front, back) := hcut
  by_cases hhost : host = []
  · exact ⟨.noHost, by rw [shareLinkOf, if_pos hhost]⟩
  · refine ⟨.extraSegments, ?_⟩
    obtain ⟨b, rest, rfl⟩ := List.exists_cons_of_ne_nil (List.ne_nil_of_mem hback)
    rw [shareLinkOf, if_neg hhost]
    dsimp only
    rw [hpath]
    exact if_pos hback

/-- Otherwise the link is read as its prefix and its id. -/
theorem shareLinkOf_route (hid : IsID id) (hhost : host ≠ []) (h : ascii "s" ∉ origin.segments)
    (identity : Option Identity) (hraw : raw = [] ∨ raw = keyFragment ids identity) :
    shareLinkOf ids ⟨scheme, host, origin.linkPath id, keyFragment ids identity, raw⟩ =
      .ok ⟨trimRight 0x2f (scheme ++ ascii "://" ++ host ++ joinSegments 0x2f origin.kept), id,
        identity⟩ := by
  have hpath : cut sharePath (origin.linkPath id) = some (joinSegments 0x2f origin.kept, id) :=
    cut_route (by decide) (origin.kept_noSlash fun _ => origin.mem_segments_of_mem_kept)
      (fun hmem => h ((mem_kept_iff origin).mp hmem)) id
  have hslash : 0x2f ∉ id := fun hmem => (isUnreserved_plain (hid.unreserved _ hmem)).2.2.1 rfl
  have hpercent : 0x25 ∉ id := fun hmem => (isUnreserved_plain (hid.unreserved _ hmem)).2.1 rfl
  have hunescape := @unescape_plain .pathSegment (by decide) (by decide) id hpercent
  obtain ⟨b, rest, rfl⟩ := List.exists_cons_of_ne_nil hid.ne_nil
  rw [shareLinkOf, if_neg hhost]
  dsimp only
  rw [hpath]
  dsimp only
  rw [if_neg hslash, hunescape]
  cases identity with
  | none => rfl
  | some identity =>
    have hne : keyFragment ids (some identity) ≠ [] := by
      intro hempty
      cases hempty
    have hfragment : (if raw = [] then keyFragment ids (some identity) else raw) =
        encodeKeyFragment ids identity := by
      rcases hraw with rfl | rfl
      · rfl
      · exact ite_self _
    dsimp only
    rw [if_neg hne, hfragment, decodeKeyFragment_encode]

/-- The origin that a link is read with, once its route is found. -/
theorem trimRight_read (hhost : host ≠ []) (hslash : 0x2f ∉ host) :
    trimRight 0x2f (scheme ++ ascii "://" ++ host ++ joinSegments 0x2f origin.kept) =
      scheme ++ ascii "://" ++ host ++ joinSegments 0x2f origin.kept := by
  have hkept : origin.kept.rdropWhile (· = []) = origin.kept := List.rdropWhile_idempotent _ _
  have hread := trimRight_joinSegments
    (trimRight_append_of_notMem (scheme ++ ascii "://") hhost hslash)
    (origin.kept_noSlash fun _ => origin.mem_segments_of_mem_kept)
  rw [hread, hkept]

end Links

/-- The origins that `ParseShareLink` reads back: their scheme is in lower case and their host,
which `net/url` accepts, has no user information and no percent-escape, since both are
normalised, and no segment of their path prefix is the share route's own name. -/
structure Origin.ReadsBack (origin : Origin) : Prop where
  scheme : toLower origin.scheme = origin.scheme
  accepted : (parseAuthority origin.host).isSome
  host : 0x40 ∉ origin.host ∧ 0x25 ∉ origin.host
  segments : ascii "s" ∉ origin.segments

theorem Origin.ReadsBack.parseAuthority_host {origin : Origin} (h : origin.ReadsBack) :
    parseAuthority origin.host = some origin.host := by
  obtain ⟨host, hhost⟩ := Option.isSome_iff_exists.mp h.accepted
  rcases parseAuthority_some hhost with ⟨-, -, rfl⟩ | ⟨huser | hescape, -⟩
  · exact hhost
  · exact absurd huser h.host.1
  · exact absurd hescape h.host.2

/-- **Share links read back**, exactly for these origins, whatever the id and the identity. -/
theorem shareLink_roundTrip_iff {Identity : Type} (ids : HybridIdentities Identity)
    (origin : Origin) {id : Bytes} (hid : IsID id) (identity : Option Identity) :
    parseShareLink ids (buildShareLink ids origin.text id identity) =
        .ok ⟨trimRight 0x2f origin.text, id, identity⟩ ↔
      origin.ReadsBack := by
  have hraw (f : Bytes) : (if escape .fragment f = f then [] else f) = [] ∨
      (if escape .fragment f = f then [] else f) = f := by
    split
    · exact .inl rfl
    · exact .inr rfl
  have horigin : trimRight 0x2f origin.text =
      origin.scheme ++ ascii "://" ++ origin.host ++ joinSegments 0x2f origin.kept := by
    rw [origin.trimRight_text]
    simp [Origin.authority, ascii]
  rw [parseShareLink_build ids origin hid, parse_buildShareLink ids origin hid, horigin]
  constructor
  · intro hround
    cases hhost : parseAuthority origin.host with
    | none =>
      rw [hhost] at hround
      cases hround
    | some host =>
      rw [hhost] at hround
      dsimp only [Option.map_some] at hround
      have hsegments : ascii "s" ∉ origin.segments := by
        intro hmem
        obtain ⟨e, he⟩ := shareLinkOf_early ids origin hmem
        rw [he] at hround
        cases hround
      have hne : host ≠ [] := by
        rintro rfl
        cases hround
      rw [shareLinkOf_route ids origin hid hne hsegments identity (hraw _)] at hround
      have hread := congrArg ShareLink.origin (Except.ok.inj hround)
      rcases parseAuthority_some hhost with ⟨huser, hescape, rfl⟩ | ⟨-, hshorter⟩
      · rw [trimRight_read origin hne origin.host_plain.1] at hread
        refine ⟨?_, by rw [hhost]; rfl, ⟨huser, hescape⟩, hsegments⟩
        exact List.append_cancel_right (List.append_cancel_right (List.append_cancel_right hread))
      · -- a normalised host is too short for the origin it should give
        have hlength := congrArg List.length hread
        have hle := (List.rdropWhile_prefix (· = 0x2f) (l := toLower origin.scheme ++
          ascii "://" ++ host ++ joinSegments 0x2f origin.kept)).length_le
        simp only [List.length_append, toLower, List.length_map, trimRight] at hlength hle
        omega
  · intro h
    rw [h.parseAuthority_host]
    dsimp only [Option.map_some]
    rw [shareLinkOf_route ids origin hid origin.host_ne_nil h.segments identity (hraw _),
      trimRight_read origin origin.host_ne_nil origin.host_plain.1, h.scheme]

/-- A library with a single identity. -/
def sampleIdentities : HybridIdentities Unit where
  string := fun _ => ascii "AGE-SECRET-KEY-PQ-1QQ"
  parseHybridIdentity := fun _ => some ()
  parse_string := fun _ => rfl
  string_pattern := fun _ => by decide
  string_length := fun _ => by decide

/-- `https://example.com/` with a path of the given segments. -/
def sampleOrigin (segments : List Bytes)
    (unreserved : ∀ segment ∈ segments, ∀ b ∈ segment, isUnreserved b = true) : Origin where
  scheme := ascii "https"
  host := ascii "example.com"
  segments := segments
  isScheme_scheme := by decide
  host_ne_nil := by decide
  host_plain := ⟨by decide, by unfold Plain; decide +kernel⟩
  unreserved := unreserved

theorem shareLink_roundTrip_flick :
    parseShareLink sampleIdentities
        (buildShareLink sampleIdentities
          (sampleOrigin [ascii "flick", []] (by decide +kernel)).text (ascii "abc123") (some ())) =
      .ok ⟨trimRight 0x2f (sampleOrigin [ascii "flick", []] (by decide +kernel)).text,
        ascii "abc123", some ()⟩ := by
  refine (shareLink_roundTrip_iff sampleIdentities _ ⟨by decide, by decide +kernel⟩
    (some ())).mpr ?_
  exact ⟨by decide, by decide +kernel, by decide, by decide⟩

/-- The prefix `/s` of `https://example.com/s` is read as the share route. -/
theorem shareLink_segment_taken_for_route :
    (sampleOrigin [ascii "s"] (by decide +kernel)).text = ascii "https://example.com/s" ∧
      parseShareLink sampleIdentities
          (buildShareLink sampleIdentities (sampleOrigin [ascii "s"] (by decide +kernel)).text
            (ascii "abc123") none) =
        .error .extraSegments :=
  ⟨rfl, by decide +kernel⟩

end Flickcli
end FlickDrop
