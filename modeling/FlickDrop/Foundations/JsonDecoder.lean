import FlickDrop.Foundations.Json

/-!
# Reading JSON token by token

The parts of `encoding/json` that read an object member by member: the value of a string
literal and the token stream of a `Decoder`.  A caller stops at its first error, so the error
that the decoder would keep is left out.

`AtMember.read` and `AtEnd.token` say what the calls return on an object of the grammar, and
`token_length` and `decode_length` that a loop over them ends on every input.
-/

namespace FlickDrop
namespace Foundations
namespace Json

/-! ### String literals -/

def hexValue (c : UInt8) : Nat :=
  if isDigit c then c.toNat - 0x30
  else if c ≤ 0x46 then c.toNat - 0x41 + 10
  else c.toNat - 0x61 + 10

/-- `getu4`: the code unit of a `\u` escape, and what stands behind it. -/
def getu4 : Bytes → Option (Nat × Bytes)
  | b :: u :: h₁ :: h₂ :: h₃ :: h₄ :: rest =>
    if b = backslash && u = 0x75 && (isHex h₁ && isHex h₂ && isHex h₃ && isHex h₄) then
      some (((hexValue h₁ * 16 + hexValue h₂) * 16 + hexValue h₃) * 16 + hexValue h₄, rest)
    else none
  | _ => none

/-- `unicode.ReplacementChar`. -/
def replacementChar : Char := Char.ofNat 0xFFFD

/-- `utf16.IsSurrogate`. -/
def isSurrogate (code : Nat) : Bool := 0xD800 ≤ code && code < 0xE000

/-- `utf16.DecodeRune`. -/
def decodeSurrogates (high low : Nat) : Option Char :=
  if 0xD800 ≤ high && high < 0xDC00 && (0xDC00 ≤ low && low < 0xE000) then
    some (Char.ofNat ((high - 0xD800) * 0x400 + (low - 0xDC00) + 0x10000))
  else none

/-- The bytes that may follow the first one of a longer character. -/
def isContinuation (c : UInt8) : Bool := 0x80 ≤ c && c ≤ 0xBF

/-- The second bytes that `first` accepts: no overlong form, no surrogate, nothing above
U+10FFFF. -/
def acceptsSecond (first second : UInt8) : Bool :=
  isContinuation second && (first ≠ 0xE0 || 0xA0 ≤ second) && (first ≠ 0xED || second ≤ 0x9F) &&
    (first ≠ 0xF0 || 0x90 ≤ second) && (first ≠ 0xF4 || second ≤ 0x8F)

/-- `utf8.DecodeRune` of a character that is not ASCII: an invalid byte is replaced. -/
def decodeRune (c : UInt8) (rest : Bytes) : Char × Bytes :=
  if 0xC2 ≤ c && c ≤ 0xDF then
    match rest with
    | c₁ :: tail =>
      if isContinuation c₁ then
        (Char.ofNat (c.toNat % 0x20 * 0x40 + c₁.toNat % 0x40), tail)
      else (replacementChar, rest)
    | [] => (replacementChar, rest)
  else if 0xE0 ≤ c && c ≤ 0xEF then
    match rest with
    | c₁ :: c₂ :: tail =>
      if acceptsSecond c c₁ && isContinuation c₂ then
        (Char.ofNat ((c.toNat % 0x10 * 0x40 + c₁.toNat % 0x40) * 0x40 + c₂.toNat % 0x40), tail)
      else (replacementChar, rest)
    | _ => (replacementChar, rest)
  else if 0xF0 ≤ c && c ≤ 0xF4 then
    match rest with
    | c₁ :: c₂ :: c₃ :: tail =>
      if acceptsSecond c c₁ && isContinuation c₂ && isContinuation c₃ then
        (Char.ofNat (((c.toNat % 0x08 * 0x40 + c₁.toNat % 0x40) * 0x40 + c₂.toNat % 0x40) * 0x40 +
          c₃.toNat % 0x40), tail)
      else (replacementChar, rest)
    | _ => (replacementChar, rest)
  else (replacementChar, rest)

/-- What an escape of one letter stands for. -/
def escapeChar (e : UInt8) : Option Char :=
  if e = quote || e = backslash || e = 0x2f || e = 0x27 then some (Char.ofNat e.toNat)
  else if e = 0x62 then some (Char.ofNat 0x08)
  else if e = 0x66 then some (Char.ofNat 0x0c)
  else if e = 0x6e then some '\n'
  else if e = 0x72 then some '\r'
  else if e = 0x74 then some '\t'
  else none

/-- The next character of a string literal. -/
def nextChar : Bytes → Option (Char × Bytes)
  | [] => none
  | c :: rest =>
    if c = backslash then
      match getu4 (c :: rest) with
      | some (high, behind) =>
        if isSurrogate high then
          match getu4 behind with
          | some (low, behind') =>
            match decodeSurrogates high low with
            | some char => some (char, behind')
            | none => some (replacementChar, behind)
          | none => some (replacementChar, behind)
        else some (Char.ofNat high, behind)
      | none =>
        match rest with
        | [] => none
        | e :: rest => (escapeChar e).map fun char => (char, rest)
    else if c = quote || c < 0x20 then none
    else if c < 0x80 then some (Char.ofNat c.toNat, rest)
    else some (decodeRune c rest)

/-- The characters of a string literal; every one takes a byte, so the length bounds their
number. -/
def unquoteChars : Nat → Bytes → Option (List Char)
  | _, [] => some []
  | 0, _ :: _ => none
  | fuel + 1, c :: text =>
    (nextChar (c :: text)).bind fun p => (unquoteChars fuel p.2).map fun chars => p.1 :: chars

/-- `unquote`. -/
def unquote : Bytes → Option String
  | [] => none
  | c :: rest =>
    if c = quote && rest.getLast? = some quote then
      (unquoteChars rest.length rest.dropLast).map String.ofList
    else none

/-- The ASCII bytes that `bytes.TrimSpace` trims. -/
def isTrimmed (c : UInt8) : Bool := c = 0x20 || (0x09 ≤ c && c ≤ 0x0d)

/-- `bytes.TrimSpace` of a text that starts and ends with an ASCII byte, as every value does. -/
def trimSpace (text : Bytes) : Bytes :=
  ((text.dropWhile isTrimmed).reverse.dropWhile isTrimmed).reverse

/-! ### The token stream -/

inductive TokenState where
  | topValue
  | arrayStart
  | arrayValue
  | arrayComma
  | objectStart
  | objectKey
  | objectColon
  | objectValue
  | objectComma
  deriving DecidableEq, Repr

/-- `tokenValueAllowed`. -/
def TokenState.valueAllowed : TokenState → Bool
  | .topValue | .arrayStart | .arrayValue | .objectValue => true
  | _ => false

/-- `tokenValueEnd`. -/
def TokenState.valueEnd : TokenState → TokenState
  | .arrayStart | .arrayValue => .arrayComma
  | .objectValue => .objectComma
  | state => state

/-- The unread bytes and the state of the token stream. -/
structure Decoder where
  rest : Bytes
  state : TokenState
  stack : List TokenState

/-- `malformed` is any error but the end of the input. -/
inductive DecodeError where
  | eof
  | malformed
  deriving DecidableEq, Repr

/-- A string token is a key; the text of any other value stands for what it decodes to. -/
inductive Token where
  | delim (c : UInt8)
  | string (s : String)
  | value (text : Bytes)

/-- How deep a value inside an object or an array of the outermost level may be nested. -/
def maxInnerDepth : Nat := 9999

/-- `maxNestingDepth`. -/
def maxNestingDepth : Nat := maxInnerDepth + 1

def newDecoder (data : Bytes) : Decoder := ⟨data, .topValue, []⟩

namespace Decoder

/-- `peek`: the next byte that is no space.  That the decoder moves there makes no difference,
since whatever reads next skips the space again. -/
def peek (d : Decoder) : Option UInt8 := (skipSpace d.rest).head?

/-- `More`. -/
def more (d : Decoder) : Bool :=
  match d.peek with
  | none => false
  | some c => c ≠ closeBracket && c ≠ closeBrace

/-- `readValue`: the next value and what stands behind it. -/
def readValue (d : Decoder) : Except DecodeError (Bytes × Bytes) :=
  if skipSpace d.rest = [] then .error .eof
  else
    match Json.valueEnd maxNestingDepth (skipSpace d.rest) with
    | none => .error .malformed
    | some rest => .ok (consumed (skipSpace d.rest) rest, rest)

/-- `tokenPrepareForDecode`: the separator before the value. -/
def prepare (d : Decoder) : Except DecodeError Decoder :=
  match d.state with
  | .arrayComma =>
    match skipSpace d.rest with
    | [] => .error .eof
    | c :: rest => if c = comma then .ok ⟨rest, .arrayValue, d.stack⟩ else .error .malformed
  | .objectColon =>
    match skipSpace d.rest with
    | [] => .error .eof
    | c :: rest => if c = colon then .ok ⟨rest, .objectValue, d.stack⟩ else .error .malformed
  | _ => .ok d

/-- `Decode` into a `RawMessage`. -/
def decode (d : Decoder) : Except DecodeError (Bytes × Decoder) :=
  match d.prepare with
  | .error err => .error err
  | .ok d =>
    if d.state.valueAllowed = false then .error .malformed
    else
      match d.readValue with
      | .error err => .error err
      | .ok (raw, rest) => .ok (raw, ⟨rest, d.state.valueEnd, d.stack⟩)

/-- A colon or a comma that `Token` passes over.  The state behind it allows no other one. -/
def skipSeparator (d : Decoder) : Decoder :=
  match skipSpace d.rest with
  | [] => d
  | c :: rest =>
    if c = colon && d.state = .objectColon then ⟨rest, .objectValue, d.stack⟩
    else if c = comma && d.state = .arrayComma then ⟨rest, .arrayValue, d.stack⟩
    else if c = comma && d.state = .objectComma then ⟨rest, .objectKey, d.stack⟩
    else d

/-- The end of the array or object the decoder is in. -/
def pop (d : Decoder) (c : UInt8) (rest : Bytes) : Except DecodeError (Token × Decoder) :=
  match d.stack with
  | [] => .error .malformed
  | state :: stack => .ok (.delim c, ⟨rest, state.valueEnd, stack⟩)

/-- The token at the front. -/
def tokenHere (d : Decoder) : Except DecodeError (Token × Decoder) :=
  match skipSpace d.rest with
  | [] => .error .eof
  | c :: rest =>
    if c = openBracket then
      if d.state.valueAllowed then .ok (.delim c, ⟨rest, .arrayStart, d.state :: d.stack⟩)
      else .error .malformed
    else if c = closeBracket then
      if d.state = .arrayStart || d.state = .arrayComma then d.pop c rest else .error .malformed
    else if c = openBrace then
      if d.state.valueAllowed then .ok (.delim c, ⟨rest, .objectStart, d.state :: d.stack⟩)
      else .error .malformed
    else if c = closeBrace then
      if d.state = .objectStart || d.state = .objectComma then d.pop c rest else .error .malformed
    else if c = colon || c = comma then .error .malformed
    else if c = quote && (d.state = .objectStart || d.state = .objectKey) then
      match decode ⟨c :: rest, .topValue, d.stack⟩ with
      | .error err => .error err
      | .ok (raw, d') =>
        match unquote raw with
        | none => .error .malformed
        | some key => .ok (.string key, ⟨d'.rest, .objectColon, d.stack⟩)
    else if d.state.valueAllowed then
      match d.decode with
      | .error err => .error err
      | .ok (raw, d') => .ok (.value raw, d')
    else .error .malformed

/-- `Token`. -/
def token (d : Decoder) : Except DecodeError (Token × Decoder) := d.skipSeparator.tokenHere

end Decoder

/-! ### Literals of the grammar -/

theorem Chars.tail {c : UInt8} {rest : Bytes} (h : Chars (c :: rest)) (hc : c ≠ backslash) :
    Chars rest := by
  cases h with
  | plain _ _ _ _ hrest => exact hrest
  | escape => exact absurd rfl hc
  | unicode => exact absurd rfl hc

theorem Chars.getu4 {text behind : Bytes} {code : Nat} (h : Chars text)
    (hget : getu4 text = some (code, behind)) : Chars behind ∧ behind.length < text.length := by
  unfold Json.getu4 at hget
  split at hget
  · split at hget
    · rename_i hguard
      cases hget
      simp only [Bool.and_eq_true, decide_eq_true_eq] at hguard
      obtain ⟨⟨rfl, rfl⟩, -⟩ := hguard
      refine ⟨?_, by simp only [List.length_cons]; omega⟩
      cases h with
      | plain _ _ hbackslash => exact absurd rfl hbackslash
      | escape _ he => exact absurd he (by decide)
      | unicode _ _ _ _ _ hrest => exact hrest
    · cases hget
  · cases hget

/-- A longer character has continuation bytes only behind its first one. -/
theorem Chars.decodeRune {c : UInt8} {rest : Bytes} (h : Chars rest) :
    Chars (decodeRune c rest).2 ∧ (decodeRune c rest).2.length ≤ rest.length := by
  have hne {d : UInt8} (hd : isContinuation d = true) : d ≠ backslash := by
    rintro rfl
    exact absurd hd (by decide)
  have hsecond {d : UInt8} (hd : acceptsSecond c d = true) : d ≠ backslash := by
    simp only [acceptsSecond, Bool.and_eq_true] at hd
    exact hne hd.1.1.1.1
  unfold Json.decodeRune
  split
  · split
    · split
      · rename_i hd
        exact ⟨h.tail (hne hd), by simp⟩
      · exact ⟨h, Nat.le_refl _⟩
    · exact ⟨h, Nat.le_refl _⟩
  · split
    · split
      · split
        · rename_i hd
          rw [Bool.and_eq_true] at hd
          exact ⟨(h.tail (hsecond hd.1)).tail (hne hd.2), by simp only [List.length_cons]; omega⟩
        · exact ⟨h, Nat.le_refl _⟩
      · exact ⟨h, Nat.le_refl _⟩
    · split
      · split
        · split
          · rename_i hd
            rw [Bool.and_eq_true, Bool.and_eq_true] at hd
            exact ⟨((h.tail (hsecond hd.1.1)).tail (hne hd.1.2)).tail (hne hd.2),
              by simp only [List.length_cons]; omega⟩
          · exact ⟨h, Nat.le_refl _⟩
        · exact ⟨h, Nat.le_refl _⟩
      · exact ⟨h, Nat.le_refl _⟩

theorem escapeChar_of_isEscape {e : UInt8} (h : isEscape e = true) :
    ∃ c, escapeChar e = some c := by
  simp only [isEscape, Bool.or_eq_true, decide_eq_true_eq] at h
  rcases h with ((((((rfl | rfl) | rfl) | rfl) | rfl) | rfl) | rfl) | rfl <;> exact ⟨_, rfl⟩

/-- Every literal of the grammar goes on with a character. -/
theorem Chars.nextChar {text : Bytes} (h : Chars text) (hne : text ≠ []) :
    ∃ c rest, nextChar text = some (c, rest) ∧ Chars rest ∧ rest.length < text.length := by
  cases h with
  | nil => exact absurd rfl hne
  | @plain c rest hquote hbackslash hcontrol hrest =>
    rw [Json.nextChar.eq_def]
    dsimp only
    rw [if_neg hbackslash, if_neg (by simp [hquote, hcontrol])]
    split
    · exact ⟨_, rest, rfl, hrest, by simp⟩
    · have htail := Chars.decodeRune (c := c) hrest
      exact ⟨(Json.decodeRune c rest).1, (Json.decodeRune c rest).2, rfl, htail.1,
        Nat.lt_succ_of_le htail.2⟩
  | @escape e rest he hrest =>
    obtain ⟨char, hchar⟩ := escapeChar_of_isEscape he
    have hnot : Json.getu4 (backslash :: e :: rest) = none := by
      unfold Json.getu4
      split
      · rename_i heq
        cases heq
        refine if_neg ?_
        simp only [Bool.and_eq_true, decide_eq_true_eq]
        rintro ⟨⟨-, rfl⟩, -⟩
        exact absurd he (by decide)
      · rfl
    refine ⟨char, rest, ?_, hrest, by simp only [List.length_cons]; omega⟩
    rw [Json.nextChar.eq_def]
    dsimp only
    rw [if_pos rfl, hnot]
    dsimp only
    rw [hchar, Option.map_some]
  | @unicode h₁ h₂ h₃ h₄ rest hhex hrest =>
    obtain ⟨code, hcode⟩ : ∃ code,
        Json.getu4 (backslash :: 0x75 :: h₁ :: h₂ :: h₃ :: h₄ :: rest) = some (code, rest) :=
      ⟨_, if_pos (by simp only [hhex]; decide)⟩
    rw [Json.nextChar.eq_def]
    dsimp only
    rw [if_pos rfl, hcode]
    dsimp only
    split
    · split
      · rename_i low behind hlow
        have hbehind := Chars.getu4 hrest hlow
        split
        · exact ⟨_, behind, rfl, hbehind.1, by simp only [List.length_cons]; omega⟩
        · exact ⟨_, rest, rfl, hrest, by simp only [List.length_cons]; omega⟩
      · exact ⟨_, rest, rfl, hrest, by simp only [List.length_cons]; omega⟩
    · exact ⟨_, rest, rfl, hrest, by simp only [List.length_cons]; omega⟩

theorem Chars.unquote {text : Bytes} (h : Chars text) {fuel : Nat} (hfuel : text.length ≤ fuel) :
    ∃ chars, unquoteChars fuel text = some chars := by
  induction fuel generalizing text with
  | zero =>
    cases text with
    | nil => exact ⟨[], rfl⟩
    | cons c text => cases hfuel
  | succ fuel ih =>
    cases text with
    | nil => exact ⟨[], rfl⟩
    | cons c text =>
      obtain ⟨char, rest, hnext, hrest, hlength⟩ := h.nextChar (List.cons_ne_nil c text)
      obtain ⟨chars, hchars⟩ := ih hrest (by omega)
      exact ⟨char :: chars, by rw [unquoteChars, hnext, Option.bind_some, hchars]; rfl⟩

/-- Every string literal has a value. -/
theorem IsString.unquote {text : Bytes} (h : IsString text) : ∃ s, unquote text = some s := by
  obtain ⟨literal, rfl, hchars⟩ := h
  obtain ⟨chars, hvalue⟩ := hchars.unquote
    (show literal.length ≤ (literal ++ [quote]).length by simp)
  refine ⟨String.ofList chars, ?_⟩
  rw [Json.unquote, if_pos (by simp), List.dropLast_concat, hvalue, Option.map_some]

/-! ### Null -/

/-- Only `null` starts with its letter, and no value starts with a space. -/
theorem IsValue.null_or_head {depth : Nat} {text : Bytes} (h : IsValue depth text) :
    text = nullText ∨ ∃ c tail, text = c :: tail ∧ c ≠ 0x6e ∧ isTrimmed c = false := by
  have hscalar : IsScalar text →
      text = nullText ∨ ∃ c tail, text = c :: tail ∧ c ≠ 0x6e ∧ isTrimmed c = false := by
    rintro (⟨chars, rfl, -⟩ | rfl | rfl | rfl | hnumber)
    · exact Or.inr ⟨quote, _, rfl, by decide⟩
    · exact Or.inr ⟨_, _, rfl, by decide⟩
    · exact Or.inr ⟨_, _, rfl, by decide⟩
    · exact Or.inl rfl
    · obtain ⟨c, tail, rfl, hc⟩ := hnumber.head
      obtain ⟨-, -, -, hletter, -⟩ := number_head hc
      refine Or.inr ⟨c, tail, rfl, hletter, ?_⟩
      rcases hc with rfl | hc
      · decide
      · simp only [isDigit, Bool.and_eq_true, decide_eq_true_eq, UInt8.le_iff_toNat_le] at hc
        simp only [isTrimmed, Bool.or_eq_false_iff, decide_eq_false_iff_not, Bool.and_eq_false_iff,
          UInt8.le_iff_toNat_le, ← UInt8.toNat_inj, UInt8.reduceToNat] at hc ⊢
        omega
  cases depth with
  | zero => exact hscalar h
  | succ depth =>
    rcases h with h | ⟨items, body, rfl, -⟩ | ⟨members, body, rfl, -⟩
    · exact hscalar h
    · exact Or.inr ⟨openBracket, _, rfl, by decide⟩
    · exact Or.inr ⟨openBrace, _, rfl, by decide⟩

theorem IsValue.trimSpace_eq_null {depth : Nat} {text : Bytes} (h : IsValue depth text) :
    trimSpace text = nullText ↔ text = nullText := by
  constructor
  · intro htrim
    rcases h.null_or_head with hnull | ⟨c, tail, rfl, hc, hspace⟩
    · exact hnull
    · -- what is left is a front part of the text, which starts with another letter
      rw [trimSpace, List.dropWhile_cons_of_neg (by simp [hspace])] at htrim
      have hfront := List.reverse_prefix.mpr
        (List.dropWhile_suffix (l := (c :: tail).reverse) isTrimmed)
      rw [htrim, List.reverse_reverse] at hfront
      obtain ⟨rest, hrest⟩ := hfront
      cases hrest
      exact absurd rfl hc
  · rintro rfl
    decide

/-! ### Tokens of an object -/

theorem valueEnd_value {value rest : Bytes} (h : IsValue maxInnerDepth value) (hrest : Stops rest) :
    valueEnd maxNestingDepth (value ++ rest) = some rest :=
  (valueEnd_reads maxNestingDepth).complete h.succ hrest

namespace Decoder

theorem readValue_value {before value rest : Bytes} (hbefore : Spaces before)
    (h : IsValue maxInnerDepth value) (hrest : Stops rest) (state : TokenState)
    (stack : List TokenState) :
    readValue ⟨before ++ (value ++ rest), state, stack⟩ = .ok (value, rest) := by
  have hskip : skipSpace (before ++ (value ++ rest)) = value ++ rest := by
    rw [skipSpace_append hbefore, (valueEnd_reads maxInnerDepth).skipSpace h]
  have hne : value ++ rest ≠ [] := by
    obtain ⟨c, tail, rfl, -⟩ := (valueEnd_reads maxInnerDepth).head h
    exact List.cons_ne_nil _ _
  rw [readValue, hskip, if_neg hne, valueEnd_value h hrest]
  dsimp only
  rw [consumed_append]

/-- The decoder stands before a member. -/
def AtMember (d : Decoder) (text : Bytes) : Prop :=
  (d.state = .objectStart ∧ d.rest = text) ∨
    (d.state = .objectComma ∧ ∃ space, Spaces space ∧ d.rest = space ++ comma :: text)

/-- The decoder stands before the end of its object. -/
def AtEnd (d : Decoder) (after : Bytes) : Prop :=
  (d.state = .objectStart ∨ d.state = .objectComma) ∧
    ∃ space, Spaces space ∧ d.rest = space ++ closeBrace :: after

variable {d d' : Decoder} {text rest after data raw : Bytes} {member : Bytes × Bytes} {key : String}
  {c : UInt8}

theorem AtMember.skipSeparator (h : d.AtMember text) :
    ∃ state, (state = .objectStart ∨ state = .objectKey) ∧
      d.skipSeparator = ⟨text, state, d.stack⟩ := by
  obtain ⟨drest, state, stack⟩ := d
  rcases h with ⟨hstate, hrest⟩ | ⟨hstate, space, hspace, hrest⟩
  · dsimp only at hstate hrest
    subst hstate hrest
    refine ⟨.objectStart, Or.inl rfl, ?_⟩
    unfold Decoder.skipSeparator
    split
    · rfl
    · simp
  · dsimp only at hstate hrest
    subst hstate hrest
    refine ⟨.objectKey, Or.inr rfl, ?_⟩
    have hskip : skipSpace (space ++ comma :: text) = comma :: text := by
      rw [skipSpace_append hspace, skipSpace_cons (by decide)]
    unfold Decoder.skipSeparator
    dsimp only
    rw [hskip]
    rfl

theorem AtMember.more {V : Bytes → Prop} (h : d.AtMember (text ++ rest))
    (htext : MemberText V member text) : d.more = true := by
  have hpeek : ∃ c, d.peek = some c ∧ c ≠ closeBracket ∧ c ≠ closeBrace := by
    rcases h with ⟨-, hrest⟩ | ⟨-, space, hspace, hrest⟩
    · obtain ⟨before, mid, tail, rfl, hbefore, ⟨chars, hkey, -⟩, -⟩ := htext
      refine ⟨quote, ?_, by decide⟩
      rw [peek, hrest, hkey, List.append_assoc, skipSpace_append hbefore, List.cons_append,
        List.cons_append, skipSpace_cons (by decide)]
      rfl
    · refine ⟨comma, ?_, by decide⟩
      rw [peek, hrest, skipSpace_append hspace, skipSpace_cons (by decide)]
      rfl
  obtain ⟨c, hc, hbracket, hbrace⟩ := hpeek
  rw [Decoder.more, hc]
  simp [hbracket, hbrace]

/-- **A member is two calls**: a token for its key and a value. -/
theorem AtMember.read (h : d.AtMember (text ++ rest))
    (htext : MemberText (IsValue maxInnerDepth) member text) (hrest : Stops rest) :
    ∃ key behind space, unquote member.1 = some key ∧
      d.token = .ok (.string key, ⟨behind, .objectColon, d.stack⟩) ∧ Spaces space ∧
      decode ⟨behind, .objectColon, d.stack⟩ =
        .ok (member.2, ⟨space ++ rest, .objectComma, d.stack⟩) := by
  obtain ⟨keyText, value⟩ := member
  obtain ⟨before, mid, tail, rfl, hbefore, hstring, hmid,
    ⟨before', after', rfl, hbefore', hvalue, hafter'⟩⟩ := htext
  obtain ⟨key, hkey⟩ := hstring.unquote
  obtain ⟨state, hstate, hskip⟩ := h.skipSeparator
  refine ⟨key, mid ++ colon :: (before' ++ (value ++ (after' ++ rest))), after', hkey, ?_, hafter',
    ?_⟩
  · have hfront : skipSpace
        (before ++ (keyText ++ (mid ++ colon :: (before' ++ (value ++ after')))) ++
          rest) = keyText ++ (mid ++ colon :: (before' ++ (value ++ (after' ++ rest)))) := by
      rw [List.append_assoc, skipSpace_append hbefore, List.append_assoc,
        scalarEnd_reads.skipSpace (Or.inl hstring)]
      simp only [List.append_assoc, List.cons_append]
    have hempty : Spaces [] := fun _ h => by cases h
    have hread := readValue_value hempty (IsScalar.isValue (Or.inl hstring) maxInnerDepth)
      (stops_append hmid (stops_cons (Or.inr (Or.inl rfl))
        (before' ++ (value ++ (after' ++ rest))))) .topValue d.stack
    dsimp only at hkey hfront hread
    obtain ⟨chars, rfl, -⟩ := hstring
    rw [token, hskip, tokenHere]
    dsimp only
    rw [hfront]
    simp only [List.cons_append, List.nil_append] at hread ⊢
    rw [if_neg (by decide), if_neg (by decide), if_neg (by decide), if_neg (by decide),
      if_neg (by decide), if_pos (by rcases hstate with rfl | rfl <;> rfl), decode]
    dsimp only [prepare]
    rw [if_neg (by decide), hread]
    dsimp only
    rw [hkey]
  · have hcolon : skipSpace (mid ++ colon :: (before' ++ (value ++ (after' ++ rest)))) =
        colon :: (before' ++ (value ++ (after' ++ rest))) := by
      rw [skipSpace_append hmid, skipSpace_cons (by decide)]
    have hread := readValue_value hbefore' hvalue (stops_append hafter' hrest) .objectValue d.stack
    rw [decode, prepare]
    dsimp only
    rw [hcolon]
    dsimp only
    rw [if_pos rfl]
    dsimp only
    rw [if_neg (by decide), hread]
    rfl

theorem AtEnd.more (h : d.AtEnd after) : d.more = false := by
  obtain ⟨-, space, hspace, hrest⟩ := h
  rw [Decoder.more, peek, hrest, skipSpace_append hspace, skipSpace_cons (by decide)]
  rfl

theorem AtEnd.token (h : d.AtEnd after) {state : TokenState} {stack : List TokenState}
    (hstack : d.stack = state :: stack) :
    d.token = .ok (.delim closeBrace, ⟨after, state.valueEnd, stack⟩) := by
  obtain ⟨drest, dstate, dstack⟩ := d
  obtain ⟨hstate, space, hspace, hrest⟩ := h
  dsimp only at hstate hrest hstack
  subst hrest hstack
  have hskip : skipSpace (space ++ closeBrace :: after) = closeBrace :: after := by
    rw [skipSpace_append hspace, skipSpace_cons (by decide)]
  have hseparator : Decoder.skipSeparator ⟨space ++ closeBrace :: after, dstate, state :: stack⟩ =
      ⟨space ++ closeBrace :: after, dstate, state :: stack⟩ := by
    unfold Decoder.skipSeparator
    dsimp only
    rw [hskip]
    rfl
  rw [Decoder.token, hseparator, tokenHere]
  dsimp only
  rw [hskip]
  dsimp only
  rw [if_neg (by decide), if_neg (by decide), if_neg (by decide), if_pos rfl,
    if_pos (by rcases hstate with rfl | rfl <;> rfl)]
  rfl

theorem newDecoder_skipSeparator (data : Bytes) :
    (newDecoder data).skipSeparator = newDecoder data := by
  unfold Decoder.skipSeparator
  split
  · rfl
  · simp [newDecoder]

/-- The first token of an object. -/
theorem newDecoder_token (h : skipSpace data = openBrace :: rest) :
    (newDecoder data).token = .ok (.delim openBrace, ⟨rest, .objectStart, [.topValue]⟩) := by
  rw [Decoder.token, newDecoder_skipSeparator, tokenHere]
  dsimp only [newDecoder]
  rw [h]
  rfl

/-- A bracket token is the byte at the front. -/
theorem tokenHere_delim (h : d.tokenHere = .ok (.delim c, d')) :
    skipSpace d.rest = c :: d'.rest := by
  rw [tokenHere] at h
  split at h
  · cases h
  rename_i b tail heq
  have hpop : d.pop b tail = .ok (.delim c, d') → b :: tail = c :: d'.rest := by
    intro hpop
    unfold pop at hpop
    split at hpop <;> cases hpop
    rfl
  refine heq.trans ?_
  repeat' split at h
  all_goals try cases h
  · rfl
  · exact hpop h
  · rfl
  · exact hpop h

theorem skipSpace_of_token (h : (newDecoder data).token = .ok (.delim c, d)) :
    skipSpace data = c :: d.rest := by
  rw [Decoder.token, newDecoder_skipSeparator] at h
  exact tokenHere_delim h

/-- Nothing but space is the end of the input. -/
theorem decode_spaces (h : Spaces after) (stack : List TokenState) :
    decode ⟨after, .topValue, stack⟩ = .error .eof := by
  rw [decode, prepare]
  dsimp only
  rw [if_neg (by decide), readValue]
  dsimp only
  rw [if_pos (skipSpace_of_spaces h)]

/-! ### Progress -/

theorem skipSpace_length_le (text : Bytes) : (skipSpace text).length ≤ text.length :=
  List.length_dropWhile_le _ _

theorem readValue_length (h : d.readValue = .ok (raw, rest)) : rest.length < d.rest.length := by
  rw [readValue] at h
  split at h
  · cases h
  split at h
  · cases h
  rename_i rest' hread
  cases h
  obtain ⟨front, hfront, hvalue⟩ := (valueEnd_reads maxNestingDepth).sound hread
  obtain ⟨c, tail, rfl, -⟩ := (valueEnd_reads maxNestingDepth).head hvalue
  have hlength := congrArg List.length hfront
  have hskip := skipSpace_length_le d.rest
  rw [List.length_append, List.length_cons] at hlength
  omega

theorem prepare_length (h : d.prepare = .ok d') : d'.rest.length ≤ d.rest.length := by
  have hskip := skipSpace_length_le d.rest
  have hseparator : ∀ {c : UInt8} {rest : Bytes}, skipSpace d.rest = c :: rest →
      rest.length ≤ d.rest.length := by
    intro c rest heq
    rw [heq, List.length_cons] at hskip
    omega
  unfold prepare at h
  split at h
  · split at h
    · cases h
    rename_i heq
    split at h
    · cases h
      exact hseparator heq
    · cases h
  · split at h
    · cases h
    rename_i heq
    split at h
    · cases h
      exact hseparator heq
    · cases h
  · cases h
    exact Nat.le_refl _

theorem decode_length (h : d.decode = .ok (raw, d')) : d'.rest.length < d.rest.length := by
  rw [decode] at h
  split at h
  · cases h
  rename_i hprepare
  split at h
  · cases h
  split at h
  · cases h
  rename_i hread
  cases h
  exact Nat.lt_of_lt_of_le (readValue_length hread) (prepare_length hprepare)

theorem skipSeparator_length (d : Decoder) : d.skipSeparator.rest.length ≤ d.rest.length := by
  have hskip := skipSpace_length_le d.rest
  unfold skipSeparator
  split
  · exact Nat.le_refl _
  · rename_i heq
    rw [heq, List.length_cons] at hskip
    split
    · exact Nat.le_of_succ_le hskip
    · split
      · exact Nat.le_of_succ_le hskip
      · split
        · exact Nat.le_of_succ_le hskip
        · exact Nat.le_refl _

/-- Only a key comes as a string token where a key may stand. -/
theorem tokenHere_length (h : d.tokenHere = .ok (.string key, d')) :
    d'.rest.length < d.rest.length := by
  have hskip := skipSpace_length_le d.rest
  rw [tokenHere] at h
  split at h
  · cases h
  rename_i c tail heq
  rw [heq] at hskip
  repeat' split at h
  all_goals try cases h
  · unfold pop at h
    split at h <;> cases h
  · unfold pop at h
    split at h <;> cases h
  · rename_i raw d₁ hdecode _ _
    have hlength := decode_length hdecode
    exact Nat.lt_of_lt_of_le hlength hskip

theorem token_length (h : d.token = .ok (.string key, d')) : d'.rest.length < d.rest.length :=
  Nat.lt_of_lt_of_le (tokenHere_length h) (skipSeparator_length d)

end Decoder

end Json
end Foundations
end FlickDrop
