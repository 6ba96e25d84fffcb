import Mathlib.Data.List.DropRight
import Mathlib.Data.List.TakeWhile
import FlickDrop.Foundations.Base64
import FlickDrop.Foundations.IP

/-!
# URLs

Go's `net/url`: escaping, and `Parse` of a whole URL.  A Go string is its bytes here, since
percent-decoding works on bytes.  `parse_absolute` reads a URL back that was put together from a
scheme, a host, a path and a fragment.
-/

namespace FlickDrop
namespace Foundations

/-- The bytes of an ASCII text. -/
def ascii (s : String) : Bytes := s.toList.map fun c => UInt8.ofNat c.toNat

namespace Url

/-! ### Bytes -/

def isUpper (b : UInt8) : Bool := 0x41 ≤ b && b ≤ 0x5a

def isLower (b : UInt8) : Bool := 0x61 ≤ b && b ≤ 0x7a

def isDigit (b : UInt8) : Bool := 0x30 ≤ b && b ≤ 0x39

def isAlphanumeric (b : UInt8) : Bool := isUpper b || isLower b || isDigit b

/-- The unreserved characters of a URL. -/
def isUnreserved (b : UInt8) : Bool := isAlphanumeric b || b ∈ ascii "-_.~"

/-- `strings.ToLower` of an ASCII text. -/
def toLower (text : Bytes) : Bytes := text.map fun b => if isUpper b then b + 0x20 else b

/-- `strings.TrimRight` with a single character. -/
def trimRight (c : UInt8) (text : Bytes) : Bytes := text.rdropWhile (· = c)

/-- `strings.Cut` at a character; without the character, everything stands before it. -/
def cutByte (c : UInt8) (text : Bytes) : Bytes × Option Bytes :=
  match text.dropWhile (· ≠ c) with
  | [] => (text, none)
  | _ :: after => (text.takeWhile (· ≠ c), some after)

/-- `strings.Cut`; `none` when `sub` is not found. -/
def cut (sub : Bytes) : Bytes → Option (Bytes × Bytes)
  | [] => if sub = [] then some ([], []) else none
  | b :: rest =>
    if sub.isPrefixOf (b :: rest) then some ([], (b :: rest).drop sub.length)
    else (cut sub rest).map fun found => (b :: found.1, found.2)

/-- `strings.LastIndex` of a character, as the text before and after it. -/
def cutLastByte (c : UInt8) (text : Bytes) : Option (Bytes × Bytes) :=
  match text.reverse.dropWhile (· ≠ c) with
  | [] => none
  | _ :: front => some (front.reverse, (text.reverse.takeWhile (· ≠ c)).reverse)

/-- The UTF-8 texts of the characters that `unicode.IsSpace` holds of. -/
def spaces : List Bytes :=
  [[0x09], [0x0a], [0x0b], [0x0c], [0x0d], [0x20], [0xc2, 0x85], [0xc2, 0xa0],
    [0xe1, 0x9a, 0x80]] ++
  (List.range 11).map (fun i => [0xe2, 0x80, 0x80 + UInt8.ofNat i]) ++
  [[0xe2, 0x80, 0xa8], [0xe2, 0x80, 0xa9], [0xe2, 0x80, 0xaf], [0xe2, 0x81, 0x9f],
    [0xe3, 0x80, 0x80]]

def trimLeftSpaces : Nat → Bytes → Bytes
  | 0, text => text
  | fuel + 1, text =>
    match spaces.find? (·.isPrefixOf text) with
    | some space => trimLeftSpaces fuel (text.drop space.length)
    | none => text

def trimRightSpaces : Nat → Bytes → Bytes
  | 0, text => text
  | fuel + 1, text =>
    match spaces.find? (·.isSuffixOf text) with
    | some space => trimRightSpaces fuel (text.take (text.length - space.length))
    | none => text

/-- `strings.TrimSpace`; every space takes a byte at least, so the length bounds the passes. -/
def trimSpace (text : Bytes) : Bytes :=
  trimRightSpaces text.length (trimLeftSpaces text.length text)

/-! ### Escaping -/

/-- The parts of a URL with rules of their own. -/
inductive Mode where
  | path
  | pathSegment
  | host
  | zone
  | userPassword
  | fragment
deriving DecidableEq, Repr

/-- `shouldEscape`. -/
def shouldEscape (c : UInt8) (mode : Mode) : Bool :=
  if isAlphanumeric c then false
  else if (mode = .host ∨ mode = .zone) ∧ c ∈ ascii "!$&'()*+,;=:[]<>\"" then false
  else if c ∈ ascii "-_.~" then false
  else if c ∈ ascii "$&+,/:;=?@" ∧ (mode ≠ .host ∧ mode ≠ .zone) then
    match mode with
    | .path => c = 0x3f
    | .pathSegment => c ∈ ascii "/;,?"
    | .userPassword => c ∈ ascii "@/?:"
    | _ => false
  else if mode = .fragment ∧ c ∈ ascii "!()*" then false
  else true

def unhex (c : UInt8) : Option UInt8 :=
  if isDigit c then some (c - 0x30)
  else if 0x61 ≤ c ∧ c ≤ 0x66 then some (c - 0x61 + 10)
  else if 0x41 ≤ c ∧ c ≤ 0x46 then some (c - 0x41 + 10)
  else none

def upperHex (n : UInt8) : UInt8 := if n < 10 then 0x30 + n else 0x41 + (n - 10)

def escape (mode : Mode) (text : Bytes) : Bytes :=
  text.flatMap fun c =>
    if shouldEscape c mode then [0x25, upperHex (c / 16), upperHex (c % 16)] else [c]

/-- The percent-escapes that a mode does not allow. -/
def refusesEscape (mode : Mode) (high low : UInt8) : Bool :=
  let v := high * 16 + low
  (mode = .host ∧ high < 8 ∧ v ≠ 0x25) ∨
    (mode = .zone ∧ v ≠ 0x25 ∧ v ≠ 0x20 ∧ shouldEscape v .host = true)

def unescape (mode : Mode) : Bytes → Option Bytes
  | [] => some []
  | c :: rest =>
    if c = 0x25 then
      match rest with
      | a :: b :: after =>
        match unhex a, unhex b with
        | some high, some low =>
          if refusesEscape mode high low then none
          else (unescape mode after).map fun text => (high * 16 + low) :: text
        | _, _ => none
      | _ => none
    else if (mode = .host ∨ mode = .zone) ∧ c < 0x80 ∧ shouldEscape c mode = true then
      none
    else
      (unescape mode rest).map (c :: ·)

/-! ### Parse -/

/-- What is kept of a parsed URL. -/
structure URL where
  scheme : Bytes
  host : Bytes
  path : Bytes
  fragment : Bytes
  rawFragment : Bytes
deriving DecidableEq, Repr

def validOptionalPort : Bytes → Bool
  | [] => true
  | c :: digits => c = 0x3a && digits.all isDigit

/-- The inside of a bracketed host: an IPv6 address with an optional zone. -/
def parseLiteral (inside : Bytes) : Option Bytes :=
  let valid (address : Bytes) : Bool :=
    (parseIPv6 (address.map fun b => Char.ofNat b.toNat)).isSome
  match cut (ascii "%25") inside with
  | some (address, zone) => do
    let address ← unescape .host address
    let zone ← unescape .zone (ascii "%25" ++ zone)
    if valid address ∧ zone ≠ ascii "%" then some (address ++ zone) else none
  | none => do
    let address ← unescape .host inside
    if valid address then some address else none

def parseHost (host : Bytes) : Option Bytes :=
  match host with
  | 0x5b :: rest =>
    match cutLastByte 0x5d rest with
    | none => none
    | some (inside, port) =>
      if validOptionalPort port then
        (parseLiteral inside).map fun address => 0x5b :: address ++ 0x5d :: port
      else
        none
  | _ =>
    if 0x5b ∈ host then
      none
    else
      match cutLastByte 0x3a host with
      | some (_, port) =>
        if validOptionalPort (0x3a :: port) then unescape .host host else none
      | none => unescape .host host

def validUserinfo (text : Bytes) : Bool :=
  text.all fun b => isAlphanumeric b || b ∈ ascii "-._:~!$&'()*+,;=%@"

/-- `parseAuthority`, of which the host is kept. -/
def parseAuthority (authority : Bytes) : Option Bytes :=
  match cutLastByte 0x40 authority with
  | none => parseHost authority
  | some (userinfo, host) =>
    if validUserinfo userinfo ∧ (unescape .userPassword userinfo).isSome then parseHost host
    else none

/-- The loop of `getScheme` behind the first letters `front`; `none` is an error. -/
def getSchemeFrom (whole front : Bytes) : Bytes → Option (Bytes × Bytes)
  | [] => some ([], whole)
  | c :: rest =>
    if isUpper c || isLower c then getSchemeFrom whole (front ++ [c]) rest
    else if isDigit c || c ∈ ascii "+-." then
      if front = [] then some ([], whole) else getSchemeFrom whole (front ++ [c]) rest
    else if c = 0x3a then
      if front = [] then none else some (front, rest)
    else
      some ([], whole)

def getScheme (text : Bytes) : Option (Bytes × Bytes) := getSchemeFrom text [] text

def isControl (b : UInt8) : Bool := b < 0x20 || b = 0x7f

/-- The path of a URL behind its scheme, and its host. -/
def parseHierarchy (scheme rest : Bytes) : Option URL :=
  let withPath (host path : Bytes) : Option URL :=
    (unescape .path path).map fun path => ⟨scheme, host, path, [], []⟩
  match rest with
  | 0x2f :: 0x2f :: behind =>
    if scheme = [] ∧ behind.head? = some 0x2f then
      withPath [] rest
    else
      let authority := behind.takeWhile (· ≠ 0x2f)
      (parseAuthority authority).bind fun host => withPath host (behind.drop authority.length)
  | 0x2f :: _ => withPath [] rest
  | _ =>
    if scheme ≠ [] then
      -- a rootless path is opaque
      some ⟨scheme, [], [], [], []⟩
    else if 0x3a ∈ rest.takeWhile (· ≠ 0x2f) then
      none
    else
      withPath [] rest

/-- `parse` of a URL without its fragment. -/
def parseBare (text : Bytes) : Option URL :=
  if text.any isControl then
    none
  else if text = ascii "*" then
    some ⟨[], [], text, [], []⟩
  else
    (getScheme text).bind fun found =>
      parseHierarchy (toLower found.1) (cutByte 0x3f found.2).1

/-- `url.Parse`. -/
def parse (text : Bytes) : Option URL :=
  let (front, fragment) := cutByte 0x23 text
  (parseBare front).bind fun url =>
    match fragment with
    | none | some [] => some url
    | some raw =>
      (unescape .fragment raw).map fun decoded =>
        { url with
          fragment := decoded
          rawFragment := if escape .fragment decoded = raw then [] else raw }

/-! ### Trimming and cutting -/

/-- A printable ASCII character other than a blank. -/
def isGraphic (b : UInt8) : Bool := 0x20 < b && b < 0x7f

variable {d c a b : UInt8} {segments : List Bytes} {mode : Mode}
  {name segment space scheme out host path text front : Bytes}

theorem head_of_mem_spaces (h : space ∈ spaces) :
    ∃ b rest, space = b :: rest ∧ isGraphic b = false := by
  have hall : ∀ space ∈ spaces, space ≠ [] ∧ isGraphic (space.headD 0) = false := by decide
  obtain ⟨hne, hhead⟩ := hall space h
  obtain ⟨b, rest, rfl⟩ := List.exists_cons_of_ne_nil hne
  exact ⟨b, rest, rfl, hhead⟩

theorem last_of_mem_spaces (h : space ∈ spaces) :
    ∃ rest b, space = rest ++ [b] ∧ isGraphic b = false := by
  have hall : ∀ space ∈ spaces, space ≠ [] ∧ isGraphic (space.getLastD 0) = false := by decide
  obtain ⟨hne, hlast⟩ := hall space h
  refine ⟨space.dropLast, space.getLast hne, (List.dropLast_append_getLast hne).symm, ?_⟩
  rwa [List.getLastD_eq_getLast?, List.getLast?_eq_some_getLast hne] at hlast

/-- A text between graphic characters is not trimmed. -/
theorem trimSpace_of_graphic {tail : Bytes} (hhead : (front ++ tail).head? = some a)
    (ha : isGraphic a = true) (hne : tail ≠ []) (htail : ∀ b ∈ tail, isGraphic b = true) :
    trimSpace (front ++ tail) = front ++ tail := by
  have hleft : spaces.find? (·.isPrefixOf (front ++ tail)) = none := by
    rw [List.find?_eq_none]
    intro space hspace hpre
    obtain ⟨c, rest, rfl, hc⟩ := head_of_mem_spaces hspace
    rw [List.isPrefixOf_iff_prefix] at hpre
    obtain ⟨t, ht⟩ := hpre
    rw [← ht] at hhead
    cases hhead
    rw [hc] at ha
    cases ha
  have hright : spaces.find? (·.isSuffixOf (front ++ tail)) = none := by
    rw [List.find?_eq_none]
    intro space hspace hsuf
    obtain ⟨rest, c, rfl, hc⟩ := last_of_mem_spaces hspace
    rw [List.isSuffixOf_iff_suffix] at hsuf
    obtain ⟨t, ht⟩ := hsuf
    rw [← List.dropLast_append_getLast hne, ← List.append_assoc, ← List.append_assoc] at ht
    obtain ⟨-, hlast⟩ := List.append_inj' ht rfl
    have hgraphic := htail _ (List.getLast_mem hne)
    rw [← List.singleton_inj.mp hlast, hc] at hgraphic
    cases hgraphic
  obtain ⟨n, hpos⟩ : ∃ n, (front ++ tail).length = n + 1 :=
    Nat.exists_eq_succ_of_ne_zero (by simp [hne])
  rw [trimSpace, hpos, trimLeftSpaces, hleft]
  dsimp only
  rw [trimRightSpaces, hright]

theorem trimRight_append_of_notMem (front : Bytes) (hne : text ≠ []) (h : c ∉ text) :
    trimRight c (front ++ text) = front ++ text := by
  rw [trimRight, List.rdropWhile_eq_self_iff]
  intro _ hlast
  rw [List.getLast_append_of_ne_nil _ hne, decide_eq_true_eq] at hlast
  exact h (hlast ▸ List.getLast_mem hne)

theorem cutByte_of_notMem (h : c ∉ text) : cutByte c text = (text, none) := by
  have hall : text.dropWhile (· ≠ c) = [] := by
    rw [List.dropWhile_eq_nil_iff]
    intro b hb
    exact decide_eq_true fun hbc => h (hbc ▸ hb)
  rw [cutByte, hall]

theorem cutByte_append (h : c ∉ front) (after : Bytes) :
    cutByte c (front ++ c :: after) = (front, some after) := by
  have hall : ∀ b ∈ front, decide (b ≠ c) = true :=
    fun b hb => decide_eq_true fun hbc => h (hbc ▸ hb)
  rw [cutByte, List.dropWhile_append_of_pos hall, List.takeWhile_append_of_pos hall]
  simp

theorem isPrefixOf_cons_of_ne (h : a ≠ b) (sub text : Bytes) :
    (a :: sub).isPrefixOf (b :: text) = false := by
  rw [List.isPrefixOf_cons_cons, beq_false_of_ne h, Bool.false_and]

/-- A text that does not hold the first character of `sub` is skipped. -/
theorem cut_append_of_notMem {sub : Bytes} (h : c ∉ front) (text : Bytes) :
    cut (c :: sub) (front ++ text) =
      (cut (c :: sub) text).map fun found => (front ++ found.1, found.2) := by
  induction front with
  | nil => simp
  | cons b front ih =>
    rw [List.mem_cons, not_or] at h
    rw [List.cons_append, cut, isPrefixOf_cons_of_ne h.1, ih h.2]
    simp [Function.comp_def]

theorem cut_isSome (sub front text : Bytes) : (cut sub (front ++ (sub ++ text))).isSome = true := by
  induction front with
  | nil =>
    cases hsub : sub ++ text with
    | nil =>
      rw [List.append_eq_nil_iff] at hsub
      simp [hsub.1, cut]
    | cons b rest =>
      have hpre : sub.isPrefixOf (b :: rest) = true := by
        rw [List.isPrefixOf_iff_prefix, ← hsub]
        exact List.prefix_append _ _
      rw [List.nil_append, cut, if_pos hpre]
      rfl
  | cons b front ih =>
    rw [List.cons_append, cut]
    split
    · rfl
    · rw [Option.isSome_map]
      exact ih

/-! ### Segments -/

/-- A path of segments, each behind a delimiter. -/
def joinSegments (d : UInt8) (segments : List Bytes) : Bytes := segments.flatMap (d :: ·)

/-- A route name is read at a segment only if it is that segment. -/
theorem isPrefixOf_segment (hname : d ∉ name) (hsegment : d ∉ segment) (text : Bytes) :
    (name ++ [d]).isPrefixOf (segment ++ d :: text) = decide (name = segment) := by
  induction name generalizing segment with
  | nil =>
    cases segment with
    | nil => simp
    | cons b segment =>
      rw [List.mem_cons, not_or] at hsegment
      exact isPrefixOf_cons_of_ne hsegment.1 [] _
  | cons a name ih =>
    rw [List.mem_cons, not_or] at hname
    cases segment with
    | nil => exact isPrefixOf_cons_of_ne (Ne.symm hname.1) _ _
    | cons b segment =>
      rw [List.mem_cons, not_or] at hsegment
      rw [List.cons_append, List.cons_append, List.isPrefixOf_cons_cons, ih hname.2 hsegment.2]
      by_cases hab : a = b <;> simp [hab]

theorem cut_segment (hname : d ∉ name) (hsegment : d ∉ segment) (hne : name ≠ segment)
    (text : Bytes) :
    cut (d :: (name ++ [d])) (d :: (segment ++ d :: text)) =
      (cut (d :: (name ++ [d])) (d :: text)).map fun found =>
        (d :: (segment ++ found.1), found.2) := by
  have hpre : ((d :: (name ++ [d])).isPrefixOf (d :: (segment ++ d :: text))) = false := by
    rw [List.isPrefixOf_cons_cons, isPrefixOf_segment hname hsegment, decide_eq_false hne]
    exact Bool.and_false _
  rw [cut, hpre, cut_append_of_notMem hsegment, Option.map_map]
  rfl

theorem cut_route_here (name text : Bytes) :
    cut (d :: (name ++ [d])) (d :: (name ++ d :: text)) = some ([], text) := by
  have hsplit : d :: (name ++ d :: text) = (d :: (name ++ [d])) ++ text := by simp
  have hpre : (d :: (name ++ [d])).isPrefixOf (d :: (name ++ d :: text)) = true := by
    rw [List.isPrefixOf_iff_prefix, hsplit]
    exact List.prefix_append _ _
  rw [cut, hpre, if_pos rfl, hsplit, List.drop_left]

/-- The path behind `segments` starts with a delimiter, also where a segment stands before it. -/
theorem joinSegments_append_cons (segments : List Bytes) (text : Bytes) :
    ∃ rest, joinSegments d segments ++ d :: text = d :: rest ∧
      ∀ segment, joinSegments d (segment :: segments) ++ d :: text = d ::
        (segment ++ d :: rest) := by
  have hstart : ∃ rest, joinSegments d segments ++ d :: text = d :: rest := by
    cases segments with
    | nil => exact ⟨text, rfl⟩
    | cons segment segments => exact ⟨_, rfl⟩
  obtain ⟨rest, hrest⟩ := hstart
  refine ⟨rest, hrest, fun segment => ?_⟩
  rw [← hrest]
  simp [joinSegments]

/-- A route behind segments of other names is found there. -/
theorem cut_route (hname : d ∉ name) (hsegments : ∀ segment ∈ segments, d ∉ segment)
    (hnot : name ∉ segments) (text : Bytes) :
    cut (d :: (name ++ [d])) (joinSegments d segments ++ d :: (name ++ d :: text)) =
      some (joinSegments d segments, text) := by
  induction segments with
  | nil => exact cut_route_here name text
  | cons segment segments ih =>
    rw [List.forall_mem_cons] at hsegments
    rw [List.mem_cons, not_or] at hnot
    obtain ⟨rest, hrest, hwhole⟩ := joinSegments_append_cons segments (name ++ d :: text)
    have hbehind := ih hsegments.2 hnot.2
    rw [hwhole, cut_segment hname hsegments.1 hnot.1, ← hrest, hbehind]
    simp [joinSegments]

/-- A segment that has the route's name is taken for the route, and the delimiters of the
route's own occurrence stand behind it. -/
theorem cut_route_early (hname : d ∉ name) (hsegments : ∀ segment ∈ segments, d ∉ segment)
    (hmem : name ∈ segments) (text : Bytes) :
    ∃ front back, d ∈ back ∧
      cut (d :: (name ++ [d])) (joinSegments d segments ++ d :: (name ++ d :: text)) =
        some (front, back) := by
  induction segments with
  | nil => cases hmem
  | cons segment segments ih =>
    rw [List.forall_mem_cons] at hsegments
    obtain ⟨rest, hrest, hwhole⟩ := joinSegments_append_cons segments (name ++ d :: text)
    rw [hwhole]
    by_cases hhere : name = segment
    · subst hhere
      refine ⟨[], rest, ?_, cut_route_here name rest⟩
      -- the first delimiter of the path behind the segment is used up, a later one is not
      have hlater : d ∈ (d :: rest).tail := by
        rw [← hrest]
        cases segments with
        | nil => simp [joinSegments]
        | cons next segments => simp [joinSegments]
      exact hlater
    · have hmem' : name ∈ segments := (List.mem_cons.mp hmem).resolve_left hhere
      obtain ⟨front, back, hback, hcut⟩ := ih hsegments.2 hmem'
      refine ⟨d :: (segment ++ front), back, hback, ?_⟩
      rw [cut_segment hname hsegments.1 hhere, ← hrest, hcut]
      rfl

theorem joinSegments_concat (d : UInt8) (segments : List Bytes) (segment : Bytes) :
    joinSegments d (segments ++ [segment]) = joinSegments d segments ++ d :: segment := by
  simp [joinSegments]

/-- Trailing delimiters are trailing empty segments. -/
theorem trimRight_joinSegments (hfront : trimRight d front = front)
    (hsegments : ∀ segment ∈ segments, d ∉ segment) :
    trimRight d (front ++ joinSegments d segments) =
      front ++ joinSegments d (segments.rdropWhile (· = [])) := by
  induction segments using List.reverseRecOn with
  | nil => simpa [joinSegments] using hfront
  | append_singleton segments segment ih =>
    have hall : ∀ other ∈ segments, d ∉ other :=
      fun other hother => hsegments other (List.mem_append_left _ hother)
    have hlast : d ∉ segment := hsegments segment (by simp)
    rw [joinSegments_concat]
    by_cases hempty : segment = []
    · rw [hempty, List.rdropWhile_concat_pos _ _ _ (by simp), ← ih hall, ← List.append_assoc,
        trimRight, List.rdropWhile_concat_pos _ _ _ (by simp)]
      rfl
    · rw [List.rdropWhile_concat_neg _ _ _ (by simpa using hempty), joinSegments_concat]
      have hsplit : front ++ (joinSegments d segments ++ d :: segment) =
          (front ++ joinSegments d segments ++ [d]) ++ segment := by simp
      rw [hsplit, trimRight_append_of_notMem _ hempty hlast]

theorem mem_rdropWhile_of_not {α : Type} {p : α → Bool} {a : α} {l : List α} (h : a ∈ l)
    (hp : p a = false) : a ∈ l.rdropWhile p := by
  rw [← @List.rdropWhile_append_rtakeWhile _ p l, List.mem_append] at h
  refine h.resolve_right fun htail => ?_
  have hpa := List.mem_rtakeWhile_imp htail
  rw [hp] at hpa
  cases hpa

/-! ### Reading back -/

theorem escape_plain (h : ∀ b ∈ text, shouldEscape b mode = false) : escape mode text = text := by
  induction text with
  | nil => rfl
  | cons b text ih =>
    rw [List.forall_mem_cons] at h
    rw [escape, List.flatMap_cons, h.1]
    exact congrArg (b :: ·) (ih h.2)

theorem unescape_cons (h : b ≠ 0x25) (text : Bytes) :
    unescape mode (b :: text) =
      if (mode = .host ∨ mode = .zone) ∧ b < 0x80 ∧ shouldEscape b mode = true then none
      else (unescape mode text).map (b :: ·) := by
  rw [unescape.eq_def]
  exact if_neg h

theorem unescape_plain {mode : Mode} (hhost : mode ≠ .host) (hzone : mode ≠ .zone)
    {text : Bytes} (h : 0x25 ∉ text) : unescape mode text = some text := by
  induction text with
  | nil => rfl
  | cons b text ih =>
    rw [List.mem_cons, not_or] at h
    rw [unescape_cons (Ne.symm h.1), if_neg (by simp [hhost, hzone]), ih h.2]
    rfl

theorem cut_some {sub back : Bytes} (h : cut sub text = some (front, back)) :
    text = front ++ (sub ++ back) := by
  induction text generalizing front with
  | nil =>
    rw [cut] at h
    split at h
    · rename_i hsub
      cases h
      simp [hsub]
    · cases h
  | cons b rest ih =>
    rw [cut] at h
    split at h
    · rename_i hpre
      cases h
      obtain ⟨more, hmore⟩ := List.isPrefixOf_iff_prefix.mp hpre
      rw [← hmore, List.drop_left, List.nil_append]
    · obtain ⟨⟨front', back'⟩, hfound, heq⟩ := Option.map_eq_some_iff.mp h
      cases heq
      rw [ih hfound, List.cons_append]

theorem cutLastByte_none (h : cutLastByte c text = none) : c ∉ text := by
  unfold cutLastByte at h
  split at h
  · rename_i hall
    rw [List.dropWhile_eq_nil_iff] at hall
    intro hmem
    simpa using hall c (List.mem_reverse.mpr hmem)
  · cases h

theorem cutLastByte_some {back : Bytes} (h : cutLastByte c text = some (front, back)) :
    text = front ++ c :: back := by
  unfold cutLastByte at h
  split at h
  · cases h
  rename_i found rest hrest
  cases h
  have hfound : found = c := by
    have hhead := List.head?_dropWhile_not (fun b => decide (b ≠ c)) text.reverse
    rw [hrest] at hhead
    simpa using hhead
  have hwhole := congrArg List.reverse
    (List.takeWhile_append_dropWhile (p := (· ≠ c)) (l := text.reverse))
  rw [hrest, hfound] at hwhole
  simpa using hwhole.symm

/-- What unescaping leaves of a text: all of it, or less where it has a percent sign. -/
def Unescaped (text out : Bytes) : Prop :=
  0x25 ∉ text ∧ out = text ∨ 0x25 ∈ text ∧ out.length < text.length

theorem Unescaped.refl (h : 0x25 ∉ text) : Unescaped text text := .inl ⟨h, rfl⟩

theorem Unescaped.length_le (h : Unescaped text out) : out.length ≤ text.length := by
  rcases h with ⟨-, rfl⟩ | ⟨-, hlt⟩
  · exact Nat.le_refl _
  · exact Nat.le_of_lt hlt

theorem Unescaped.append {text' out' : Bytes} (h : Unescaped text out)
    (h' : Unescaped text' out') : Unescaped (text ++ text') (out ++ out') := by
  have hle := h.length_le
  have hle' := h'.length_le
  rcases h with ⟨hno, rfl⟩ | ⟨hmem, hlt⟩
  · rcases h' with ⟨hno', rfl⟩ | ⟨hmem', hlt'⟩
    · exact .inl ⟨by simp [hno, hno'], rfl⟩
    · exact .inr ⟨List.mem_append_right _ hmem', by simpa using hlt'⟩
  · refine .inr ⟨List.mem_append_left _ hmem, ?_⟩
    rw [List.length_append, List.length_append]
    omega

theorem unescape_some (h : unescape mode text = some out) : Unescaped text out := by
  fun_induction unescape mode text generalizing out with
  | case1 =>
    cases h
    exact .refl List.not_mem_nil
  | case3 a b after high low hlow hhigh hallowed ih =>
    obtain ⟨behind, hbehind, rfl⟩ := Option.map_eq_some_iff.mp h
    have hle := (ih hbehind).length_le
    refine .inr ⟨List.mem_cons_self, ?_⟩
    simp only [List.length_cons]
    omega
  | case7 c rest hpercent hallowed ih =>
    obtain ⟨behind, hbehind, rfl⟩ := Option.map_eq_some_iff.mp h
    have hsingle : (0x25 : UInt8) ∉ [c] := by simpa using Ne.symm hpercent
    exact (Unescaped.refl hsingle).append (ih hbehind)
  | _ => cases h

theorem parseLiteral_some {inside : Bytes} (h : parseLiteral inside = some out) :
    Unescaped inside out := by
  unfold parseLiteral at h
  split at h
  case h_1 address zone hcut =>
    obtain ⟨address', haddress, h⟩ := Option.bind_eq_some_iff.mp h
    obtain ⟨zone', hzone, h⟩ := Option.bind_eq_some_iff.mp h
    split at h
    case isTrue =>
      cases h
      rw [cut_some hcut]
      exact (unescape_some haddress).append (unescape_some hzone)
    case isFalse => cases h
  case h_2 =>
    obtain ⟨address', haddress, h⟩ := Option.bind_eq_some_iff.mp h
    split at h
    case isTrue =>
      cases h
      exact unescape_some haddress
    case isFalse => cases h

theorem percent_notMem_of_validOptionalPort {port : Bytes} (h : validOptionalPort port = true) :
    0x25 ∉ port := by
  cases port with
  | nil => exact List.not_mem_nil
  | cons c digits =>
    simp only [validOptionalPort, Bool.and_eq_true, decide_eq_true_eq, List.all_eq_true] at h
    rw [List.mem_cons, not_or]
    refine ⟨fun hc => ?_, fun hmem => ?_⟩
    · rw [h.1] at hc
      cases hc
    · exact absurd (h.2 _ hmem) (by decide)

theorem parseHost_some (h : parseHost host = some out) : Unescaped host out := by
  unfold parseHost at h
  split at h
  case h_1 rest =>
    split at h
    case h_1 => cases h
    case h_2 inside port hcut =>
      split at h
      case isTrue hport =>
        obtain ⟨address, haddress, rfl⟩ := Option.map_eq_some_iff.mp h
        have hopen : (0x25 : UInt8) ∉ [0x5b] := by decide
        have hbehind : (0x25 : UInt8) ∉ 0x5d :: port := by
          simpa using percent_notMem_of_validOptionalPort hport
        rw [cutLastByte_some hcut]
        exact (Unescaped.refl hopen).append
          ((parseLiteral_some haddress).append (.refl hbehind))
      case isFalse => cases h
  case h_2 =>
    split at h
    case isTrue => cases h
    case isFalse =>
      split at h
      case h_1 =>
        split at h
        case isTrue => exact unescape_some h
        case isFalse => cases h
      case h_2 => exact unescape_some h

/-- An authority is given back as it is written, or it has a percent sign or user information
and what is given back is shorter. -/
theorem parseAuthority_some {authority : Bytes} (h : parseAuthority authority = some out) :
    (0x40 ∉ authority ∧ 0x25 ∉ authority ∧ out = authority) ∨
      (0x40 ∈ authority ∨ 0x25 ∈ authority) ∧ out.length < authority.length := by
  unfold parseAuthority at h
  split at h
  case h_1 hcut =>
    rcases parseHost_some h with ⟨hno, heq⟩ | ⟨hmem, hlt⟩
    · exact .inl ⟨cutLastByte_none hcut, hno, heq⟩
    · exact .inr ⟨.inr hmem, hlt⟩
  case h_2 userinfo host hcut =>
    split at h
    case isTrue =>
      have hle := (parseHost_some h).length_le
      rw [cutLastByte_some hcut, List.length_append, List.length_cons]
      exact .inr ⟨.inl (by simp), by omega⟩
    case isFalse => cases h

/-- The characters of a scheme behind its first letter. -/
def isSchemeByte (b : UInt8) : Bool := isUpper b || isLower b || isDigit b || b ∈ ascii "+-."

/-- A scheme: a letter, then letters, digits, `+`, `-` and `.`. -/
def isScheme : Bytes → Bool
  | [] => false
  | c :: rest => (isUpper c || isLower c) && rest.all isSchemeByte

theorem getSchemeFrom_append {whole more : Bytes} (hfront : front ≠ [])
    (hmore : more.all isSchemeByte = true) (rest : Bytes) :
    getSchemeFrom whole front (more ++ 0x3a :: rest) = some (front ++ more, rest) := by
  induction more generalizing front with
  | nil =>
    rw [List.nil_append, getSchemeFrom, if_neg (by decide), if_neg (by decide), if_pos rfl,
      if_neg hfront, List.append_nil]
  | cons c more ih =>
    rw [List.all_cons, Bool.and_eq_true] at hmore
    have hnext := @ih (front ++ [c]) (by simp) hmore.2
    rw [List.append_assoc] at hnext
    rw [List.cons_append, getSchemeFrom]
    by_cases hletter : (isUpper c || isLower c) = true
    · rw [if_pos hletter]
      exact hnext
    · have hother : (isDigit c || decide (c ∈ ascii "+-.")) = true := by
        have hbyte := hmore.1
        simp only [isSchemeByte, Bool.or_eq_true] at hbyte hletter ⊢
        tauto
      rw [if_neg hletter, if_pos hother, if_neg hfront]
      exact hnext

theorem getScheme_append (h : isScheme scheme = true) (rest : Bytes) :
    getScheme (scheme ++ 0x3a :: rest) = some (scheme, rest) := by
  cases scheme with
  | nil => cases h
  | cons c more =>
    simp only [isScheme, Bool.and_eq_true] at h
    rw [getScheme, List.cons_append, getSchemeFrom, if_pos h.1]
    exact getSchemeFrom_append (by simp) h.2 rest

/-- The characters that a host, a path or a scheme may be written with: those that end neither
of them and are not refused. -/
def Plain (text : Bytes) : Prop :=
  ∀ b ∈ text, b ≠ 0x23 ∧ b ≠ 0x3f ∧ isControl b = false

theorem Plain.append {a b : Bytes} (ha : Plain a) (hb : Plain b) : Plain (a ++ b) := by
  intro c hc
  exact (List.mem_append.mp hc).elim (ha c) (hb c)

theorem parseHierarchy_authority (hscheme : scheme ≠ []) (hhost : 0x2f ∉ host)
    (hpath : path = [] ∨ path.head? = some 0x2f) (hplain : 0x25 ∉ path) :
    parseHierarchy scheme (0x2f :: 0x2f :: (host ++ path)) =
      (parseAuthority host).map fun h => ⟨scheme, h, path, [], []⟩ := by
  have hhost' : ∀ b ∈ host, decide (b ≠ 0x2f) = true :=
    fun b hb => decide_eq_true fun hbc => hhost (hbc ▸ hb)
  have hnone : path.takeWhile (· ≠ 0x2f) = [] := by
    rcases hpath with rfl | hhead
    · rfl
    · cases path with
      | nil => rfl
      | cons b path =>
        cases hhead
        rfl
  have hauthority : (host ++ path).takeWhile (· ≠ 0x2f) = host := by
    rw [List.takeWhile_append_of_pos hhost', hnone, List.append_nil]
  rw [parseHierarchy, if_neg (fun h => hscheme h.1)]
  dsimp only
  rw [hauthority, List.drop_left, unescape_plain (by decide) (by decide) hplain]
  cases parseAuthority host <;> rfl

/-- A URL without a fragment is read as its scheme in lower case, its host as the authority
reader gives it and its path. -/
theorem parseBare_absolute (hscheme : isScheme scheme = true)
    (hplain : Plain (scheme ++ 0x3a :: 0x2f :: 0x2f :: (host ++ path))) (hhost : 0x2f ∉ host)
    (hpath : path = [] ∨ path.head? = some 0x2f) (hpercent : 0x25 ∉ path) :
    parseBare (scheme ++ 0x3a :: 0x2f :: 0x2f :: (host ++ path)) =
      (parseAuthority host).map fun h => ⟨toLower scheme, h, path, [], []⟩ := by
  have hcontrol : (scheme ++ 0x3a :: 0x2f :: 0x2f :: (host ++ path)).any isControl = false := by
    rw [List.any_eq_false]
    intro b hb
    rw [(hplain b hb).2.2]
    decide
  have hne : scheme ≠ [] := by
    rintro rfl
    cases hscheme
  have hstar : scheme ++ 0x3a :: 0x2f :: 0x2f :: (host ++ path) ≠ ascii "*" := by
    intro h
    have hlength := congrArg List.length h
    have hone : (ascii "*").length = 1 := rfl
    rw [hone] at hlength
    simp only [List.length_append, List.length_cons] at hlength
    omega
  have hquery : 0x3f ∉ 0x2f :: 0x2f :: (host ++ path) := by
    intro hmem
    exact (hplain _ (List.mem_append_right _ (List.mem_cons_of_mem _ hmem))).2.1 rfl
  rw [parseBare, hcontrol, if_neg (by decide), if_neg hstar, getScheme_append hscheme,
    Option.bind_some, cutByte_of_notMem hquery]
  refine parseHierarchy_authority ?_ hhost hpath hpercent
  simpa [toLower] using hne

theorem parse_bare (h : 0x23 ∉ text) : parse text = parseBare text := by
  rw [parse, cutByte_of_notMem h]
  dsimp only
  cases parseBare text <;> rfl

theorem parse_fragment {fragment : Bytes} (h : 0x23 ∉ front) (hne : fragment ≠ [])
    (hpercent : 0x25 ∉ fragment) :
    parse (front ++ 0x23 :: fragment) =
      (parseBare front).map fun url =>
        { url with
          fragment := fragment
          rawFragment := if escape .fragment fragment = fragment then [] else fragment } := by
  obtain ⟨b, rest, rfl⟩ := List.exists_cons_of_ne_nil hne
  rw [parse, cutByte_append h]
  dsimp only
  rw [unescape_plain (by decide) (by decide) hpercent]
  cases parseBare front <;> rfl

end Url
end Foundations
end FlickDrop
