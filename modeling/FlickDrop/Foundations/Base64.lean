import Mathlib.Data.List.Basic
import Mathlib.Data.String.Basic

/-!
# Base64 as Go decodes it

Model of `encoding/base64`: an alphabet of 64 characters, an optional padding character
and the strict mode that refuses non-zero bits behind the last byte.  The decoder
ignores carriage returns and line feeds wherever they stand, so a text has many
spellings; programs that need one spelling encode the bytes again and compare.
-/

namespace FlickDrop
namespace Foundations

abbrev Bytes := List UInt8

/-- `base64.Encoding`. -/
structure Base64 where
  alphabet : List Char
  padding : Option Char
  strict : Bool

def base64Letters : List Char :=
  "ABCDEFGHIJKLMNOPQRSTUVWXYZabcdefghijklmnopqrstuvwxyz0123456789".toList

/-- `base64.StdEncoding`. -/
def stdEncoding : Base64 := ⟨base64Letters ++ ['+', '/'], some '=', false⟩

/-- `base64.RawURLEncoding`. -/
def rawURLEncoding : Base64 := ⟨base64Letters ++ ['-', '_'], none, false⟩

namespace Base64

/-- `Encoding.Strict`. -/
def asStrict (enc : Base64) : Base64 := { enc with strict := true }

/-- The six bits a character stands for. -/
def value (enc : Base64) (c : Char) : Option Nat :=
  enc.alphabet.findIdx? fun a => decide (a = c)

def letter (enc : Base64) (v : Nat) : Char :=
  enc.alphabet.getD v 'A'

def isPadding (enc : Base64) (c : Char) : Bool :=
  decide (enc.padding = some c)

/-- The end of a text that fills two of the four characters of a quantum. -/
def endOfTwo (enc : Base64) (a b : Char) : Option Bytes :=
  match enc.value a, enc.value b with
  | some x, some y =>
    if enc.strict ∧ y % 16 ≠ 0 then none else some [UInt8.ofNat (x * 4 + y / 16)]
  | _, _ => none

/-- The end of a text that fills three of them. -/
def endOfThree (enc : Base64) (a b c : Char) : Option Bytes :=
  match enc.value a, enc.value b, enc.value c with
  | some x, some y, some z =>
    if enc.strict ∧ z % 4 ≠ 0 then none
    else some [UInt8.ofNat (x * 4 + y / 16), UInt8.ofNat (y % 16 * 16 + z / 4)]
  | _, _, _ => none

/-- The quanta of a text without line breaks. -/
def decodeQuanta (enc : Base64) : List Char → Option Bytes
  | [] => some []
  | [_] => none
  | [a, b] => if enc.padding.isSome then none else enc.endOfTwo a b
  | [a, b, c] => if enc.padding.isSome then none else enc.endOfThree a b c
  | a :: b :: c :: d :: rest =>
    match enc.value d with
    | some v =>
      match enc.value a, enc.value b, enc.value c, enc.decodeQuanta rest with
      | some x, some y, some z, some bytes =>
        some (UInt8.ofNat (x * 4 + y / 16) :: UInt8.ofNat (y % 16 * 16 + z / 4) ::
          UInt8.ofNat (z % 4 * 64 + v) :: bytes)
      | _, _, _, _ => none
    | none =>
      if enc.isPadding d ∧ rest = [] then
        if enc.isPadding c then enc.endOfTwo a b else enc.endOfThree a b c
      else
        none

/-- `Encoding.DecodeString`. -/
def decodeString (enc : Base64) (text : String) : Option Bytes :=
  enc.decodeQuanta (text.toList.filter fun c => c ≠ '\r' && c ≠ '\n')

def pads (enc : Base64) (n : Nat) : List Char :=
  match enc.padding with
  | some c => List.replicate n c
  | none => []

def encode (enc : Base64) : Bytes → List Char
  | [] => []
  | [a] =>
    [enc.letter (a.toNat / 4), enc.letter (a.toNat % 4 * 16)] ++ enc.pads 2
  | [a, b] =>
    [enc.letter (a.toNat / 4), enc.letter (a.toNat % 4 * 16 + b.toNat / 16),
      enc.letter (b.toNat % 16 * 4)] ++ enc.pads 1
  | a :: b :: c :: rest =>
    enc.letter (a.toNat / 4) :: enc.letter (a.toNat % 4 * 16 + b.toNat / 16) ::
      enc.letter (b.toNat % 16 * 4 + c.toNat / 64) :: enc.letter (c.toNat % 64) ::
      enc.encode rest

/-- `Encoding.EncodeToString`. -/
def encodeToString (enc : Base64) (bytes : Bytes) : String :=
  String.ofList (enc.encode bytes)

/-- `Encoding.DecodedLen`. -/
def decodedLen (enc : Base64) (n : Nat) : Nat :=
  match enc.padding with
  | some _ => n / 4 * 3
  | none => n / 4 * 3 + n % 4 * 6 / 8

/-- `Encoding.EncodedLen`. -/
def encodedLen (enc : Base64) (n : Nat) : Nat :=
  match enc.padding with
  | some _ => (n + 2) / 3 * 4
  | none => n / 3 * 4 + (n % 3 * 8 + 5) / 6

/-! ### Encoding and decoding -/

/-- An alphabet of 64 different ASCII characters, none of them a line break.  The padding
character, where there is one, is a further such character. -/
structure Lawful (enc : Base64) : Prop where
  value_letter : ∀ v < 64, enc.value (enc.letter v) = some v
  oneLine : ∀ v < 64, (enc.letter v ≠ '\r' && enc.letter v ≠ '\n') = true
  ascii : ∀ v < 64, (enc.letter v).utf8Size = 1
  padding : ∀ c, enc.padding = some c →
    enc.value c = none ∧ (c ≠ '\r' && c ≠ '\n') = true ∧ c.utf8Size = 1

theorem asStrict_lawful {enc : Base64} (h : enc.Lawful) : enc.asStrict.Lawful :=
  ⟨h.value_letter, h.oneLine, h.ascii, h.padding⟩

theorem encode_asStrict (enc : Base64) (bytes : Bytes) :
    enc.asStrict.encode bytes = enc.encode bytes := by
  induction bytes using encode.induct with
  | case1 | case2 | case3 => rfl
  | case4 a b c rest ih =>
    rw [encode, encode, ih]
    rfl

section

variable {enc : Base64} {bytes : Bytes} {c : Char} {n : Nat}

theorem byte_of_sextets {a : UInt8} (h : n = a.toNat) : UInt8.ofNat n = a := by
  rw [h, UInt8.ofNat_toNat]

/-- The last byte is read back; the bits behind it are zero, so a strict decoder accepts
the text too. -/
theorem endOfTwo_letter (h : enc.Lawful) (a : UInt8) :
    enc.endOfTwo (enc.letter (a.toNat / 4)) (enc.letter (a.toNat % 4 * 16)) = some [a] := by
  have ha := a.toNat_lt
  have h₁ := h.value_letter (a.toNat / 4) (by omega)
  have h₂ := h.value_letter (a.toNat % 4 * 16) (by omega)
  rw [endOfTwo, h₁, h₂]
  dsimp only
  rw [if_neg (fun hbits => hbits.2 (by omega)), byte_of_sextets (a := a) (by omega)]

theorem endOfThree_letter (h : enc.Lawful) (a b : UInt8) :
    enc.endOfThree (enc.letter (a.toNat / 4)) (enc.letter (a.toNat % 4 * 16 + b.toNat / 16))
      (enc.letter (b.toNat % 16 * 4)) = some [a, b] := by
  have ha := a.toNat_lt
  have hb := b.toNat_lt
  have h₁ := h.value_letter (a.toNat / 4) (by omega)
  have h₂ := h.value_letter (a.toNat % 4 * 16 + b.toNat / 16) (by omega)
  have h₃ := h.value_letter (b.toNat % 16 * 4) (by omega)
  rw [endOfThree, h₁, h₂, h₃]
  dsimp only
  rw [if_neg (fun hbits => hbits.2 (by omega)), byte_of_sextets (a := a) (by omega),
    byte_of_sextets (a := b) (by omega)]

/-- No character of the alphabet pads. -/
theorem isPadding_letter (h : enc.Lawful) {v : Nat} (hv : v < 64) :
    enc.isPadding (enc.letter v) = false := by
  rw [isPadding, decide_eq_false_iff_not]
  intro hpadding
  have hvalue := (h.padding _ hpadding).1
  rw [h.value_letter v hv] at hvalue
  cases hvalue

/-- Decoding gives back what was encoded. -/
theorem decodeQuanta_encode (h : enc.Lawful) (bytes : Bytes) :
    enc.decodeQuanta (enc.encode bytes) = some bytes := by
  induction bytes using encode.induct with
  | case1 => rfl
  | case2 a =>
    rw [encode, pads]
    cases hpad : enc.padding with
    | none =>
      rw [List.append_nil, decodeQuanta, hpad, if_neg (by decide), endOfTwo_letter h]
    | some c =>
      have hc : enc.isPadding c = true := decide_eq_true hpad
      show enc.decodeQuanta [_, _, c, c] = _
      rw [decodeQuanta, (h.padding c hpad).1]
      dsimp only
      rw [if_pos ⟨hc, rfl⟩, if_pos hc, endOfTwo_letter h]
  | case3 a b =>
    have hb := b.toNat_lt
    rw [encode, pads]
    cases hpad : enc.padding with
    | none =>
      rw [List.append_nil, decodeQuanta, hpad, if_neg (by decide), endOfThree_letter h]
    | some c =>
      have hc : enc.isPadding c = true := decide_eq_true hpad
      show enc.decodeQuanta [_, _, _, c] = _
      rw [decodeQuanta, (h.padding c hpad).1]
      dsimp only
      rw [if_pos ⟨hc, rfl⟩, isPadding_letter h (by omega), if_neg (by decide),
        endOfThree_letter h]
  | case4 a b c rest ih =>
    have ha := a.toNat_lt
    have hb := b.toNat_lt
    have hc := c.toNat_lt
    have h₁ := h.value_letter (a.toNat / 4) (by omega)
    have h₂ := h.value_letter (a.toNat % 4 * 16 + b.toNat / 16) (by omega)
    have h₃ := h.value_letter (b.toNat % 16 * 4 + c.toNat / 64) (by omega)
    have h₄ := h.value_letter (c.toNat % 64) (by omega)
    rw [encode, decodeQuanta, h₁, h₂, h₃, h₄, ih]
    dsimp only
    rw [byte_of_sextets (a := a) (by omega), byte_of_sextets (a := b) (by omega),
      byte_of_sextets (a := c) (by omega)]

theorem mem_pads (hc : c ∈ enc.pads n) : enc.padding = some c := by
  unfold pads at hc
  split at hc
  · rename_i d hpad
    rw [hpad, (List.mem_replicate.mp hc).2]
  · cases hc

theorem mem_encode (hc : c ∈ enc.encode bytes) :
    (∃ v < 64, c = enc.letter v) ∨ enc.padding = some c := by
  induction bytes using encode.induct with
  | case1 => cases hc
  | case2 a =>
    have ha := a.toNat_lt
    simp only [encode, List.cons_append, List.nil_append, List.mem_cons] at hc
    rcases hc with rfl | rfl | hpad
    · exact Or.inl ⟨_, by omega, rfl⟩
    · exact Or.inl ⟨_, by omega, rfl⟩
    · exact Or.inr (mem_pads hpad)
  | case3 a b =>
    have ha := a.toNat_lt
    have hb := b.toNat_lt
    simp only [encode, List.cons_append, List.nil_append, List.mem_cons] at hc
    rcases hc with rfl | rfl | rfl | hpad
    · exact Or.inl ⟨_, by omega, rfl⟩
    · exact Or.inl ⟨_, by omega, rfl⟩
    · exact Or.inl ⟨_, by omega, rfl⟩
    · exact Or.inr (mem_pads hpad)
  | case4 a b c' rest ih =>
    have ha := a.toNat_lt
    have hb := b.toNat_lt
    have hc' := c'.toNat_lt
    simp only [encode, List.mem_cons] at hc
    rcases hc with rfl | rfl | rfl | rfl | hrest
    · exact Or.inl ⟨_, by omega, rfl⟩
    · exact Or.inl ⟨_, by omega, rfl⟩
    · exact Or.inl ⟨_, by omega, rfl⟩
    · exact Or.inl ⟨_, by omega, rfl⟩
    · exact ih hrest

theorem length_encode (bytes : Bytes) :
    (enc.encode bytes).length = enc.encodedLen bytes.length := by
  rw [encodedLen]
  induction bytes using encode.induct with
  | case1 => cases enc.padding <;> rfl
  | case2 a => cases hpad : enc.padding <;> simp [encode, pads, hpad]
  | case3 a b => cases hpad : enc.padding <;> simp [encode, pads, hpad]
  | case4 a b c rest ih =>
    rw [encode]
    cases hpad : enc.padding with
    | none =>
      rw [hpad] at ih
      simp only [List.length_cons, ih]
      omega
    | some p =>
      rw [hpad] at ih
      simp only [List.length_cons, ih]
      omega

theorem encodedLen_mono {m : Nat} (h : m ≤ n) : enc.encodedLen m ≤ enc.encodedLen n := by
  rw [encodedLen, encodedLen]
  cases enc.padding with
  | none => dsimp only; omega
  | some p => dsimp only; omega

/-- **Round trip.** -/
theorem decodeString_encodeToString (h : enc.Lawful) (bytes : Bytes) :
    enc.decodeString (enc.encodeToString bytes) = some bytes := by
  have hlines : (enc.encode bytes).filter (fun c => c ≠ '\r' && c ≠ '\n') = enc.encode bytes := by
    rw [List.filter_eq_self]
    intro c hc
    rcases mem_encode hc with ⟨v, hv, rfl⟩ | hpad
    · exact h.oneLine v hv
    · exact (h.padding c hpad).2.1
  rw [decodeString, encodeToString, String.toList_ofList, hlines, decodeQuanta_encode h]

/-- A strict decoder reads the text too. -/
theorem decodeString_asStrict_encodeToString (h : enc.Lawful) (bytes : Bytes) :
    enc.asStrict.decodeString (enc.encodeToString bytes) = some bytes := by
  have hstrict := decodeString_encodeToString (asStrict_lawful h) bytes
  rwa [encodeToString, encode_asStrict] at hstrict

/-- The length of the text in bytes. -/
theorem utf8ByteSize_encodeToString (h : enc.Lawful) (bytes : Bytes) :
    (enc.encodeToString bytes).utf8ByteSize = enc.encodedLen bytes.length := by
  have hsize : ∀ text : List Char, (∀ c ∈ text, c.utf8Size = 1) →
      String.utf8Len text = text.length := by
    intro text
    induction text with
    | nil => exact fun _ => rfl
    | cons c rest ih =>
      intro htext
      rw [String.utf8Len, ih fun d hd => htext d (List.mem_cons_of_mem _ hd),
        htext c List.mem_cons_self, List.length_cons]
  rw [encodeToString, String.utf8ByteSize_ofList, hsize, length_encode]
  intro c hc
  rcases mem_encode hc with ⟨v, hv, rfl⟩ | hpad
  · exact h.ascii v hv
  · exact (h.padding c hpad).2.2

/-- Two texts of one string of bytes are the same text. -/
theorem encodeToString_injective (h : enc.Lawful) {a b : Bytes}
    (heq : enc.encodeToString a = enc.encodeToString b) : a = b := by
  have ha := decodeString_encodeToString h a
  rw [heq, decodeString_encodeToString h b] at ha
  exact (Option.some.inj ha).symm

/-! ### What a decoder reads -/

theorem endOfTwo_mem {a b : Char} (h : enc.endOfTwo a b = some bytes) :
    (enc.value a).isSome ∧ (enc.value b).isSome := by
  unfold endOfTwo at h
  split at h
  · rename_i x y ha hb
    rw [ha, hb]
    exact ⟨rfl, rfl⟩
  · cases h

theorem endOfThree_mem {a b : Char} (h : enc.endOfThree a b c = some bytes) :
    (enc.value a).isSome ∧ (enc.value b).isSome ∧ (enc.value c).isSome := by
  unfold endOfThree at h
  split at h
  · rename_i x y z ha hb hc
    rw [ha, hb, hc]
    exact ⟨rfl, rfl, rfl⟩
  · cases h

/-- Every character of a text without line breaks that decodes is of the alphabet, or pads. -/
theorem decodeQuanta_mem {text : List Char} (h : enc.decodeQuanta text = some bytes) :
    ∀ c ∈ text, (enc.value c).isSome ∨ enc.isPadding c := by
  fun_induction decodeQuanta enc text generalizing bytes with
  | case1 => exact fun c hc => by cases hc
  | case2 a => cases h
  | case3 a b hpad => cases h
  | case4 a b hpad =>
    have hmem := endOfTwo_mem h
    simp [hmem]
  | case5 a b c hpad => cases h
  | case6 a b c hpad =>
    have hmem := endOfThree_mem h
    simp [hmem]
  | case7 a b c d rest v hd x y z bytes' hrest hz hy hx ih =>
    have hmem := ih hrest
    simpa [hd, hx, hy, hz] using hmem
  | case8 => cases h
  | case9 a b c d rest hd hlast hc =>
    have hmem := endOfTwo_mem h
    simp [hmem, hlast, hc]
  | case10 a b c d rest hd hlast hc =>
    have hmem := endOfThree_mem h
    simp [hmem, hlast]
  | case11 => cases h

end

theorem rawURLEncoding_lawful : rawURLEncoding.Lawful where
  value_letter := by decide +kernel
  oneLine := by decide +kernel
  ascii := by decide +kernel
  padding := fun _ h => by cases h

theorem stdEncoding_lawful : stdEncoding.Lawful where
  value_letter := by decide +kernel
  oneLine := by decide +kernel
  ascii := by decide +kernel
  padding := by
    rintro c ⟨⟩
    decide +kernel

theorem quote_notMem_stdEncoding (bytes : Bytes) :
    '"' ∉ (stdEncoding.encodeToString bytes).toList := by
  have hletter : ∀ v < 64, stdEncoding.letter v ≠ '"' := by decide +kernel
  intro hmem
  rw [encodeToString, String.toList_ofList] at hmem
  rcases mem_encode hmem with ⟨v, hv, hc⟩ | hpadding
  · exact hletter v hv hc.symm
  · cases hpadding

end Base64

end Foundations
end FlickDrop
