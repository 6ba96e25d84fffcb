import Mathlib.Data.List.TakeWhile
import FlickDrop.Foundations.Base64

/-!
# JSON texts

The grammar of JSON as `encoding/json` accepts it, over bytes, and the recogniser that reads a
value off the front of a text.  A recogniser returns what is left of the text.  The grammar
counts the nesting: `IsValue d` are the values that are nested at most `d` deep.

The main lemmas are `IsValue.read`, which says that the recogniser takes a value of the
grammar and stops right behind it, and `isValue_of_read`, which says that what it takes is a
value of the grammar.
-/

namespace FlickDrop
namespace Foundations
namespace Json

/-! ### Bytes -/

def quote : UInt8 := 0x22
def backslash : UInt8 := 0x5c
def comma : UInt8 := 0x2c
def colon : UInt8 := 0x3a
def openBracket : UInt8 := 0x5b
def closeBracket : UInt8 := 0x5d
def openBrace : UInt8 := 0x7b
def closeBrace : UInt8 := 0x7d
def minus : UInt8 := 0x2d
def plus : UInt8 := 0x2b
def point : UInt8 := 0x2e

def trueText : Bytes := [0x74, 0x72, 0x75, 0x65]
def falseText : Bytes := [0x66, 0x61, 0x6c, 0x73, 0x65]
def nullText : Bytes := [0x6e, 0x75, 0x6c, 0x6c]

def isSpace (c : UInt8) : Bool := c = 0x20 || c = 0x09 || c = 0x0a || c = 0x0d

def isDigit (c : UInt8) : Bool := 0x30 ≤ c && c ≤ 0x39

def isHex (c : UInt8) : Bool := isDigit c || (0x41 ≤ c && c ≤ 0x46) || (0x61 ≤ c && c ≤ 0x66)

/-- The characters that may follow a backslash, but for `u`. -/
def isEscape (c : UInt8) : Bool :=
  c = quote || c = backslash || c = 0x2f || c = 0x62 || c = 0x66 || c = 0x6e || c = 0x72 || c = 0x74

def isExponent (c : UInt8) : Bool := c = 0x65 || c = 0x45

/-! ### Recognisers -/

def skipSpace (text : Bytes) : Bytes := text.dropWhile isSpace

/-- What `after` leaves of `before` in front of it. -/
def consumed (before after : Bytes) : Bytes := before.take (before.length - after.length)

/-- The rest of a string, behind its opening quote. -/
def stringEnd : Bytes → Option Bytes
  | [] => none
  | c :: rest =>
    if c = quote then some rest
    else if c = backslash then
      match rest with
      | [] => none
      | e :: rest =>
        if isEscape e then stringEnd rest
        else if e = 0x75 then
          match rest with
          | h₁ :: h₂ :: h₃ :: h₄ :: rest =>
            if isHex h₁ && isHex h₂ && isHex h₃ && isHex h₄ then stringEnd rest else none
          | _ => none
        else none
    else if c < 0x20 then none
    else stringEnd rest

/-- One digit or more. -/
def digitsEnd : Bytes → Option Bytes
  | [] => none
  | c :: rest => if isDigit c then some (rest.dropWhile isDigit) else none

def exponentEnd : Bytes → Option Bytes
  | [] => some []
  | c :: rest =>
    if isExponent c then
      match rest with
      | [] => none
      | s :: rest => if s = plus || s = minus then digitsEnd rest else digitsEnd (s :: rest)
    else some (c :: rest)

def fractionEnd : Bytes → Option Bytes
  | [] => some []
  | c :: rest => if c = point then (digitsEnd rest).bind exponentEnd else exponentEnd (c :: rest)

def integerEnd : Bytes → Option Bytes
  | [] => none
  | c :: rest =>
    if c = 0x30 then fractionEnd rest
    else if isDigit c then fractionEnd (rest.dropWhile isDigit)
    else none

def numberEnd : Bytes → Option Bytes
  | [] => none
  | c :: rest => if c = minus then integerEnd rest else integerEnd (c :: rest)

def literalEnd (word text : Bytes) : Option Bytes :=
  if word.isPrefixOf text then some (text.drop word.length) else none

/-- A value that is no array and no object. -/
def scalarEnd : Bytes → Option Bytes
  | [] => none
  | c :: rest =>
    if c = quote then stringEnd rest
    else if c = 0x74 then literalEnd trueText (c :: rest)
    else if c = 0x66 then literalEnd falseText (c :: rest)
    else if c = 0x6e then literalEnd nullText (c :: rest)
    else numberEnd (c :: rest)

section

variable {Item : Type}

/-- Items with commas between them, up to `close`; `fuel` bounds their number. -/
def readItems (item : Bytes → Option (Item × Bytes)) (close : UInt8) :
    Nat → Bytes → Option (List Item × Bytes)
  | 0, _ => none
  | fuel + 1, text =>
    match item text with
    | some (a, c :: rest) =>
      if c = comma then (readItems item close fuel rest).map fun p => (a :: p.1, p.2)
      else if c = close then some ([a], rest)
      else none
    | _ => none

/-- What stands behind an opening bracket.  Every item takes a byte, so the length of the text
bounds their number. -/
def readSequence (item : Bytes → Option (Item × Bytes)) (close : UInt8) (text : Bytes) :
    Option (List Item × Bytes) :=
  match skipSpace text with
  | [] => none
  | c :: rest => if c = close then some ([], rest) else readItems item close text.length text

end

/-- An element of an array, with the space around it. -/
def readElement (value : Bytes → Option Bytes) (text : Bytes) : Option (Bytes × Bytes) :=
  (value (skipSpace text)).map fun rest => (consumed (skipSpace text) rest, skipSpace rest)

/-- A member of an object: the texts of its key and its value. -/
def readMember (value : Bytes → Option Bytes) (text : Bytes) : Option ((Bytes × Bytes) × Bytes) :=
  match skipSpace text with
  | [] => none
  | c :: start =>
    if c = quote then
      match stringEnd start with
      | none => none
      | some rest =>
        match skipSpace rest with
        | [] => none
        | d :: rest' =>
          if d = colon then
            (readElement value rest').map fun p => ((consumed (c :: start) rest, p.1), p.2)
          else none
    else none

/-- **A value** that is nested at most `depth` deep. -/
def valueEnd : Nat → Bytes → Option Bytes
  | 0, text => scalarEnd text
  | _ + 1, [] => none
  | depth + 1, c :: rest =>
    if c = openBracket then
      (readSequence (readElement (valueEnd depth)) closeBracket rest).map Prod.snd
    else if c = openBrace then
      (readSequence (readMember (valueEnd depth)) closeBrace rest).map Prod.snd
    else scalarEnd (c :: rest)

/-! ### The grammar -/

def Spaces (text : Bytes) : Prop := ∀ c ∈ text, isSpace c = true

def Digits (text : Bytes) : Prop := ∀ c ∈ text, isDigit c = true

/-- What may stand between the quotes of a string. -/
inductive Chars : Bytes → Prop
  | nil : Chars []
  | plain (c : UInt8) {rest : Bytes} (hquote : c ≠ quote) (hbackslash : c ≠ backslash)
      (hcontrol : ¬ c < 0x20) : Chars rest → Chars (c :: rest)
  | escape (e : UInt8) {rest : Bytes} (he : isEscape e = true) : Chars rest →
      Chars (backslash :: e :: rest)
  | unicode (h₁ h₂ h₃ h₄ : UInt8) {rest : Bytes}
      (hhex : (isHex h₁ && isHex h₂ && isHex h₃ && isHex h₄) = true) : Chars rest →
      Chars (backslash :: 0x75 :: h₁ :: h₂ :: h₃ :: h₄ :: rest)

def IsString (text : Bytes) : Prop := ∃ chars, text = quote :: (chars ++ [quote]) ∧ Chars chars

inductive IsInteger : Bytes → Prop
  | zero : IsInteger [0x30]
  | digits (c : UInt8) {ds : Bytes} (hc : isDigit c = true) (hzero : c ≠ 0x30) (hds : Digits ds) :
      IsInteger (c :: ds)

inductive IsFraction : Bytes → Prop
  | none : IsFraction []
  | digits (c : UInt8) {ds : Bytes} (hc : isDigit c = true) (hds : Digits ds) :
      IsFraction (point :: c :: ds)

inductive IsExponent : Bytes → Prop
  | none : IsExponent []
  | unsigned (e c : UInt8) {ds : Bytes} (he : isExponent e = true) (hc : isDigit c = true)
      (hds : Digits ds) : IsExponent (e :: c :: ds)
  | signed (e s c : UInt8) {ds : Bytes} (he : isExponent e = true) (hs : s = plus ∨ s = minus)
      (hc : isDigit c = true) (hds : Digits ds) : IsExponent (e :: s :: c :: ds)

def IsNumber (text : Bytes) : Prop :=
  ∃ sign int fraction exponent, text = sign ++ (int ++ (fraction ++ exponent)) ∧
    (sign = [] ∨ sign = [minus]) ∧ IsInteger int ∧ IsFraction fraction ∧ IsExponent exponent

def IsScalar (text : Bytes) : Prop :=
  IsString text ∨ text = trueText ∨ text = falseText ∨ text = nullText ∨ IsNumber text

/-- Items with commas between them; `R` says what the text of an item is. -/
inductive Items {Item : Type} (R : Item → Bytes → Prop) : List Item → Bytes → Prop
  | one {a : Item} {text : Bytes} : R a text → Items R [a] text
  | more {a : Item} {text : Bytes} {items : List Item} {body : Bytes} : R a text →
      Items R items body → Items R (a :: items) (text ++ comma :: body)

/-- What stands between two brackets. -/
def Body {Item : Type} (R : Item → Bytes → Prop) (items : List Item) (body : Bytes) : Prop :=
  items = [] ∧ Spaces body ∨ Items R items body

/-- The text of an element: a value with space around it. -/
def ElementText (V : Bytes → Prop) (value text : Bytes) : Prop :=
  ∃ before after, text = before ++ (value ++ after) ∧ Spaces before ∧ V value ∧ Spaces after

/-- The text of a member. -/
def MemberText (V : Bytes → Prop) (member : Bytes × Bytes) (text : Bytes) : Prop :=
  ∃ before mid value, text = before ++ (member.1 ++ (mid ++ colon :: value)) ∧ Spaces before ∧
    IsString member.1 ∧ Spaces mid ∧ ElementText V member.2 value

/-- **The values** that are nested at most so deep. -/
def IsValue : Nat → Bytes → Prop
  | 0, text => IsScalar text
  | depth + 1, text =>
    IsScalar text ∨
    (∃ items body, text = openBracket :: (body ++ [closeBracket]) ∧
      Body (ElementText (IsValue depth)) items body) ∨
    ∃ members body, text = openBrace :: (body ++ [closeBrace]) ∧
      Body (MemberText (IsValue depth)) members body

/-! ### Space -/

section

variable {text rest ds : Bytes} {c : UInt8}

theorem exists_skipSpace (text : Bytes) :
    ∃ before, text = before ++ skipSpace text ∧ Spaces before :=
  ⟨text.takeWhile isSpace, List.takeWhile_append_dropWhile.symm,
    fun _ hc => List.mem_takeWhile_imp hc⟩

theorem skipSpace_append {before : Bytes} (h : Spaces before) (rest : Bytes) :
    skipSpace (before ++ rest) = skipSpace rest :=
  List.dropWhile_append_of_pos h

theorem skipSpace_cons (h : isSpace c = false) (rest : Bytes) :
    skipSpace (c :: rest) = c :: rest := by
  rw [skipSpace, List.dropWhile_cons_of_neg (by simp [h])]

theorem skipSpace_of_spaces (h : Spaces text) : skipSpace text = [] := by
  have hall := skipSpace_append h []
  rwa [List.append_nil] at hall

theorem consumed_append (text rest : Bytes) : consumed (text ++ rest) rest = text := by
  simp [consumed]

/-! ### Strings -/

theorem Chars.read {chars : Bytes} (h : Chars chars) (rest : Bytes) :
    stringEnd (chars ++ quote :: rest) = some rest := by
  induction h with
  | nil =>
    rw [List.nil_append, stringEnd.eq_def]
    exact if_pos rfl
  | plain c hquote hbackslash hcontrol _ ih =>
    rw [List.cons_append, stringEnd.eq_def]
    dsimp only
    rw [if_neg hquote, if_neg hbackslash, if_neg hcontrol, ih]
  | escape e he _ ih =>
    rw [List.cons_append, List.cons_append, stringEnd.eq_def]
    dsimp only
    rw [if_neg (by decide), if_pos rfl, if_pos he, ih]
  | unicode h₁ h₂ h₃ h₄ hhex _ ih =>
    simp only [List.cons_append]
    rw [stringEnd.eq_def]
    dsimp only
    rw [if_neg (by decide), if_pos rfl, if_neg (by decide), if_pos rfl, if_pos hhex, ih]

theorem chars_of_read (h : stringEnd text = some rest) :
    ∃ chars, text = chars ++ quote :: rest ∧ Chars chars := by
  fun_induction stringEnd text with
  | case1 => cases h
  | case2 rest' =>
    cases h
    exact ⟨[], rfl, .nil⟩
  | case3 => cases h
  | case4 e rest' he hbackslash ih =>
    obtain ⟨chars, rfl, hchars⟩ := ih h
    exact ⟨backslash :: e :: chars, rfl, .escape e he hchars⟩
  | case5 h₁ h₂ h₃ h₄ rest' hhex hbackslash hescape ih =>
    obtain ⟨chars, rfl, hchars⟩ := ih h
    exact ⟨backslash :: 0x75 :: h₁ :: h₂ :: h₃ :: h₄ :: chars, rfl,
      .unicode h₁ h₂ h₃ h₄ hhex hchars⟩
  | case6 | case7 | case8 | case9 => cases h
  | case10 c rest' hquote hbackslash hcontrol ih =>
    obtain ⟨chars, rfl, hchars⟩ := ih h
    exact ⟨c :: chars, rfl, .plain c hquote hbackslash hcontrol hchars⟩

/-! ### Numbers -/

/-- No byte that could continue a number. -/
def Stops (rest : Bytes) : Prop :=
  ∀ c ∈ rest.head?, isDigit c = false ∧ c ≠ point ∧ isExponent c = false

theorem dropWhile_digits (h : Digits ds) (hrest : ∀ c ∈ rest.head?, isDigit c = false) :
    (ds ++ rest).dropWhile isDigit = rest := by
  rw [List.dropWhile_append_of_pos h]
  cases rest with
  | nil => rfl
  | cons c rest => exact List.dropWhile_cons_of_neg (by simp [hrest c rfl])

theorem digitsEnd_read (hc : isDigit c = true) (h : Digits ds)
    (hrest : ∀ c ∈ rest.head?, isDigit c = false) : digitsEnd (c :: (ds ++ rest)) = some rest := by
  rw [digitsEnd, if_pos hc, dropWhile_digits h hrest]

theorem IsExponent.read (h : IsExponent text) (hrest : Stops rest) :
    exponentEnd (text ++ rest) = some rest := by
  have hdigits : ∀ c ∈ rest.head?, isDigit c = false := fun c hc => (hrest c hc).1
  cases h with
  | none =>
    cases rest with
    | nil => rfl
    | cons c rest =>
      rw [List.nil_append, exponentEnd.eq_def]
      dsimp only
      rw [if_neg (by simp [(hrest c rfl).2.2])]
  | unsigned e c he hc hds =>
    have hsign : (decide (c = plus) || decide (c = minus)) = false := by
      rw [Bool.or_eq_false_iff, decide_eq_false_iff_not, decide_eq_false_iff_not]
      constructor
      · rintro rfl
        exact absurd hc (by decide)
      · rintro rfl
        exact absurd hc (by decide)
    rw [List.cons_append, List.cons_append, exponentEnd.eq_def]
    dsimp only
    rw [if_pos he, hsign, if_neg (by decide), digitsEnd_read hc hds hdigits]
  | signed e s c he hs hc hds =>
    rw [List.cons_append, List.cons_append, List.cons_append, exponentEnd.eq_def]
    dsimp only
    rw [if_pos he, if_pos (by simpa using hs), digitsEnd_read hc hds hdigits]

/-- An exponent, or what follows it, starts with no digit and no point. -/
theorem IsExponent.head (h : IsExponent text) (hrest : Stops rest) :
    ∀ c ∈ (text ++ rest).head?, isDigit c = false ∧ c ≠ point := by
  have hexponent : ∀ e : UInt8, isExponent e = true → isDigit e = false ∧ e ≠ point := by
    intro e he
    rw [isExponent, Bool.or_eq_true, decide_eq_true_eq, decide_eq_true_eq] at he
    rcases he with rfl | rfl <;> decide
  cases h with
  | none => exact fun c hc => ⟨(hrest c hc).1, (hrest c hc).2.1⟩
  | unsigned e c he =>
    rintro _ ⟨⟩
    exact hexponent e he
  | signed e s c he =>
    rintro _ ⟨⟩
    exact hexponent e he

theorem IsFraction.read {exponent : Bytes} (h : IsFraction text) (hexponent : IsExponent exponent)
    (hrest : Stops rest) : fractionEnd (text ++ (exponent ++ rest)) = some rest := by
  have hhead := hexponent.head hrest
  have hread := hexponent.read hrest
  cases h with
  | none =>
    rw [List.nil_append]
    generalize exponent ++ rest = tail at hhead hread
    cases tail with
    | nil =>
      cases hread
      rfl
    | cons c tail => rw [fractionEnd, if_neg (hhead c rfl).2, hread]
  | digits c hc hds =>
    rw [List.cons_append, List.cons_append, fractionEnd, if_pos rfl,
      digitsEnd_read hc hds fun c hc => (hhead c hc).1, Option.bind_some, hread]

theorem IsNumber.read (h : IsNumber text) (hrest : Stops rest) :
    numberEnd (text ++ rest) = some rest := by
  obtain ⟨sign, int, fraction, exponent, rfl, hsign, hint, hfraction, hexponent⟩ := h
  have hread := hfraction.read hexponent hrest
  -- behind the integer part stands a point, an exponent or what stops a number
  have hhead : ∀ c ∈ (fraction ++ (exponent ++ rest)).head?, isDigit c = false := by
    cases hfraction with
    | none => exact fun c hc => (hexponent.head hrest c hc).1
    | digits c hc hds =>
      rintro _ ⟨⟩
      decide
  have hinteger : integerEnd (int ++ (fraction ++ (exponent ++ rest))) = some rest := by
    cases hint with
    | zero => rw [List.cons_append, integerEnd, if_pos rfl, List.nil_append, hread]
    | digits c hc hzero hds =>
      rw [List.cons_append, integerEnd, if_neg hzero, if_pos hc, dropWhile_digits hds hhead, hread]
  have hfirst : ∃ c tail, int = c :: tail ∧ c ≠ minus := by
    cases hint with
    | zero => exact ⟨_, _, rfl, by decide⟩
    | digits c hc hzero hds =>
      refine ⟨c, _, rfl, ?_⟩
      rintro rfl
      exact absurd hc (by decide)
  simp only [List.append_assoc]
  rcases hsign with rfl | rfl
  · obtain ⟨c, tail, rfl, hminus⟩ := hfirst
    rw [List.nil_append, List.cons_append, numberEnd, if_neg hminus, ← List.cons_append, hinteger]
  · rw [List.cons_append, numberEnd, if_pos rfl, List.nil_append, hinteger]

theorem digits_of_read (h : digitsEnd text = some rest) :
    ∃ c ds, text = c :: (ds ++ rest) ∧ isDigit c = true ∧ Digits ds := by
  cases text with
  | nil => cases h
  | cons c text =>
    rw [digitsEnd] at h
    split at h
    · rename_i hc
      cases h
      exact ⟨c, text.takeWhile isDigit, by rw [List.takeWhile_append_dropWhile], hc,
        fun _ hd => List.mem_takeWhile_imp hd⟩
    · cases h

theorem exponent_of_read (h : exponentEnd text = some rest) :
    ∃ exponent, text = exponent ++ rest ∧ IsExponent exponent := by
  cases text with
  | nil =>
    cases h
    exact ⟨[], rfl, .none⟩
  | cons e text =>
    rw [exponentEnd.eq_def] at h
    dsimp only at h
    split at h
    · rename_i he
      cases text with
      | nil => cases h
      | cons s text =>
        dsimp only at h
        split at h
        · rename_i hs
          obtain ⟨c, ds, rfl, hc, hds⟩ := digits_of_read h
          exact ⟨e :: s :: c :: ds, rfl, .signed e s c he (by simpa using hs) hc hds⟩
        · obtain ⟨c, ds, htext, hc, hds⟩ := digits_of_read h
          cases htext
          exact ⟨e :: s :: ds, rfl, .unsigned e s he hc hds⟩
    · cases h
      exact ⟨[], rfl, .none⟩

theorem fraction_of_read (h : fractionEnd text = some rest) :
    ∃ fraction exponent, text = fraction ++ (exponent ++ rest) ∧ IsFraction fraction ∧
      IsExponent exponent := by
  cases text with
  | nil =>
    cases h
    exact ⟨[], [], rfl, .none, .none⟩
  | cons c text =>
    rw [fractionEnd] at h
    split at h
    · rename_i hpoint
      obtain ⟨mid, hmid, htail⟩ := Option.bind_eq_some_iff.mp h
      obtain ⟨d, ds, rfl, hd, hds⟩ := digits_of_read hmid
      obtain ⟨exponent, rfl, hexponent⟩ := exponent_of_read htail
      exact ⟨point :: d :: ds, exponent, by rw [hpoint]; simp, .digits d hd hds, hexponent⟩
    · obtain ⟨exponent, htext, hexponent⟩ := exponent_of_read h
      exact ⟨[], exponent, htext, .none, hexponent⟩

theorem integer_of_read (h : integerEnd text = some rest) :
    ∃ int fraction exponent, text = int ++ (fraction ++ (exponent ++ rest)) ∧ IsInteger int ∧
      IsFraction fraction ∧ IsExponent exponent := by
  cases text with
  | nil => cases h
  | cons c text =>
    rw [integerEnd] at h
    split at h
    · rename_i hzero
      obtain ⟨fraction, exponent, rfl, hfraction, hexponent⟩ := fraction_of_read h
      exact ⟨[0x30], fraction, exponent, by rw [hzero]; rfl, .zero, hfraction, hexponent⟩
    · rename_i hzero
      split at h
      · rename_i hc
        obtain ⟨fraction, exponent, htext, hfraction, hexponent⟩ := fraction_of_read h
        refine ⟨c :: text.takeWhile isDigit, fraction, exponent, ?_,
          .digits c hc hzero fun _ hd => List.mem_takeWhile_imp hd, hfraction, hexponent⟩
        rw [List.cons_append, ← htext, List.takeWhile_append_dropWhile]
      · cases h

theorem number_of_read (h : numberEnd text = some rest) :
    ∃ number, text = number ++ rest ∧ IsNumber number := by
  cases text with
  | nil => cases h
  | cons c text =>
    rw [numberEnd] at h
    split at h
    · rename_i hminus
      obtain ⟨int, fraction, exponent, rfl, hint, hfraction, hexponent⟩ := integer_of_read h
      exact ⟨_, by rw [hminus]; simp, [minus], int, fraction, exponent, rfl, Or.inr rfl, hint,
        hfraction, hexponent⟩
    · obtain ⟨int, fraction, exponent, htext, hint, hfraction, hexponent⟩ := integer_of_read h
      exact ⟨int ++ (fraction ++ exponent), by rw [htext]; simp, [], int, fraction, exponent, rfl,
        Or.inl rfl, hint, hfraction, hexponent⟩

/-! ### Scalars -/

theorem literalEnd_append (word rest : Bytes) : literalEnd word (word ++ rest) = some rest := by
  rw [literalEnd, if_pos (List.isPrefixOf_iff_prefix.mpr (List.prefix_append word rest)),
    List.drop_left]

theorem literal_of_read {word : Bytes} (h : literalEnd word text = some rest) :
    text = word ++ rest := by
  rw [literalEnd] at h
  split at h
  · rename_i hword
    cases h
    obtain ⟨tail, rfl⟩ := List.isPrefixOf_iff_prefix.mp hword
    rw [List.drop_left]
  · cases h

/-- A number starts with its sign or a digit. -/
theorem IsNumber.head (h : IsNumber text) :
    ∃ c tail, text = c :: tail ∧ (c = minus ∨ isDigit c = true) := by
  obtain ⟨sign, int, fraction, exponent, rfl, rfl | rfl, hint, -, -⟩ := h
  · cases hint with
    | zero => exact ⟨_, _, rfl, Or.inr (by decide)⟩
    | digits c hc => exact ⟨c, _, rfl, Or.inr hc⟩
  · exact ⟨minus, _, rfl, Or.inl rfl⟩

/-- What else a byte is not that starts a number. -/
theorem number_head (h : c = minus ∨ isDigit c = true) :
    c ≠ quote ∧ c ≠ 0x74 ∧ c ≠ 0x66 ∧ c ≠ 0x6e ∧ isSpace c = false ∧ c ≠ openBracket ∧
      c ≠ openBrace ∧ c ≠ closeBracket ∧ c ≠ closeBrace := by
  rcases h with rfl | h
  · decide
  · refine ⟨?_, ?_, ?_, ?_, ?_, ?_, ?_, ?_, ?_⟩
    case refine_5 =>
      rw [← Bool.not_eq_true]
      intro hspace
      simp only [isSpace, Bool.or_eq_true, decide_eq_true_eq] at hspace
      rcases hspace with ((rfl | rfl) | rfl) | rfl <;> exact absurd h (by decide)
    all_goals
      rintro rfl
      exact absurd h (by decide)

theorem IsScalar.read (h : IsScalar text) (hrest : Stops rest) :
    scalarEnd (text ++ rest) = some rest := by
  rcases h with ⟨chars, rfl, hchars⟩ | rfl | rfl | rfl | hnumber
  · rw [List.cons_append, scalarEnd, if_pos rfl, List.append_assoc]
    exact hchars.read rest
  · exact literalEnd_append trueText rest
  · exact literalEnd_append falseText rest
  · exact literalEnd_append nullText rest
  · have hread := hnumber.read hrest
    obtain ⟨c, tail, rfl, hc⟩ := hnumber.head
    obtain ⟨hquote, htrue, hfalse, hnull, -⟩ := number_head hc
    rw [List.cons_append, scalarEnd, if_neg hquote, if_neg htrue, if_neg hfalse, if_neg hnull]
    exact hread

theorem scalar_of_read (h : scalarEnd text = some rest) :
    ∃ scalar, text = scalar ++ rest ∧ IsScalar scalar := by
  cases text with
  | nil => cases h
  | cons c text =>
    rw [scalarEnd] at h
    split at h
    · rename_i hquote
      obtain ⟨chars, rfl, hchars⟩ := chars_of_read h
      exact ⟨quote :: (chars ++ [quote]), by rw [hquote]; simp, Or.inl ⟨chars, rfl, hchars⟩⟩
    · split at h
      · exact ⟨trueText, literal_of_read h, Or.inr (Or.inl rfl)⟩
      · split at h
        · exact ⟨falseText, literal_of_read h, Or.inr (Or.inr (Or.inl rfl))⟩
        · split at h
          · exact ⟨nullText, literal_of_read h, Or.inr (Or.inr (Or.inr (Or.inl rfl)))⟩
          · obtain ⟨number, htext, hnumber⟩ := number_of_read h
            exact ⟨number, htext, Or.inr (Or.inr (Or.inr (Or.inr hnumber)))⟩

/-- A scalar starts with no space and no bracket. -/
theorem IsScalar.head (h : IsScalar text) :
    ∃ c tail, text = c :: tail ∧ isSpace c = false ∧ c ≠ openBracket ∧ c ≠ openBrace ∧
      c ≠ closeBracket ∧ c ≠ closeBrace := by
  rcases h with ⟨chars, rfl, -⟩ | rfl | rfl | rfl | hnumber
  · exact ⟨quote, _, rfl, by decide⟩
  · exact ⟨_, _, rfl, by decide⟩
  · exact ⟨_, _, rfl, by decide⟩
  · exact ⟨_, _, rfl, by decide⟩
  · obtain ⟨c, tail, rfl, hc⟩ := hnumber.head
    obtain ⟨-, -, -, -, hrest⟩ := number_head hc
    exact ⟨c, tail, rfl, hrest⟩

end

/-! ### Sequences -/

section

variable {Item : Type} {item : Bytes → Option (Item × Bytes)} {R : Item → Bytes → Prop}
  {close : UInt8} {items : List Item} {body : Bytes} {fuel : Nat}

/-- The recogniser takes an item up to what ends it. -/
def ReadsItems (item : Bytes → Option (Item × Bytes)) (R : Item → Bytes → Prop) (close : UInt8) :
    Prop :=
  ∀ {a : Item} {text rest : Bytes} {c : UInt8}, R a text → c = comma ∨ c = close →
    item (text ++ c :: rest) = some (a, c :: rest)

theorem Items.read (h : Items R items body) (hitem : ReadsItems item R close)
    (hclose : close ≠ comma) (hfuel : items.length ≤ fuel) (rest : Bytes) :
    readItems item close fuel (body ++ close :: rest) = some (items, rest) := by
  induction h generalizing fuel with
  | one ha =>
    obtain _ | fuel := fuel
    · cases hfuel
    · rw [readItems, hitem ha (Or.inr rfl)]
      dsimp only
      rw [if_neg hclose, if_pos rfl]
  | @more a text items body ha _ ih =>
    obtain _ | fuel := fuel
    · cases hfuel
    · rw [List.append_assoc, List.cons_append, readItems, hitem ha (Or.inl rfl)]
      dsimp only
      rw [if_pos rfl, ih (Nat.le_of_succ_le_succ hfuel)]
      rfl

theorem Items.length_le (h : Items R items body) : items.length ≤ body.length + 1 := by
  induction h with
  | one => simp
  | more _ _ ih =>
    simp only [List.length_append, List.length_cons]
    omega

theorem Body.read (h : Body R items body) (hitem : ReadsItems item R close) (hclose : close ≠ comma)
    (hspace : isSpace close = false)
    (hhead : ∀ {a text}, R a text → ∃ before c tail, text = before ++ c :: tail ∧ Spaces before ∧
      isSpace c = false ∧ c ≠ close) (rest : Bytes) :
    readSequence item close (body ++ close :: rest) = some (items, rest) := by
  rcases h with ⟨rfl, hspaces⟩ | hitems
  · rw [readSequence, skipSpace_append hspaces, skipSpace_cons hspace]
    exact if_pos rfl
  · -- the first item starts with no closing bracket
    have hfirst : ∃ before c tail, body = before ++ c :: tail ∧ Spaces before ∧
        isSpace c = false ∧ c ≠ close := by
      cases hitems with
      | one ha => exact hhead ha
      | more ha =>
        obtain ⟨before, c, tail, rfl, hbefore, hc⟩ := hhead ha
        exact ⟨before, c, _, by rw [List.append_assoc, List.cons_append], hbefore, hc⟩
    have hfuel : items.length ≤ (body ++ close :: rest).length := by
      have hlength := hitems.length_le
      simp only [List.length_append, List.length_cons]
      omega
    have hread := hitems.read hitem hclose hfuel rest
    obtain ⟨before, c, tail, hbody, hbefore, hc, hne⟩ := hfirst
    have hskip : skipSpace (body ++ close :: rest) = c :: (tail ++ close :: rest) := by
      rw [hbody, List.append_assoc, List.cons_append, skipSpace_append hbefore, skipSpace_cons hc]
    rw [readSequence, hskip]
    dsimp only
    rw [if_neg hne, hread]

theorem items_of_read (hsound : ∀ {text : Bytes} {a : Item} {rest : Bytes},
      item text = some (a, rest) → ∃ front, text = front ++ rest ∧ R a front) {text rest : Bytes}
    (h : readItems item close fuel text = some (items, rest)) :
    ∃ body, text = body ++ close :: rest ∧ Items R items body := by
  induction fuel generalizing text items with
  | zero => cases h
  | succ fuel ih =>
    rw [readItems] at h
    split at h
    · rename_i a c tail hread
      obtain ⟨front, rfl, ha⟩ := hsound hread
      split at h
      · rename_i hcomma
        obtain ⟨⟨items', rest'⟩, hmore, hpair⟩ := Option.map_eq_some_iff.mp h
        cases hpair
        obtain ⟨body, rfl, hitems⟩ := ih hmore
        exact ⟨front ++ comma :: body, by rw [hcomma]; simp, .more ha hitems⟩
      · split at h
        · rename_i hclose
          cases h
          exact ⟨front, by rw [hclose], .one ha⟩
        · cases h
    · cases h

theorem body_of_read (hsound : ∀ {text : Bytes} {a : Item} {rest : Bytes},
      item text = some (a, rest) → ∃ front, text = front ++ rest ∧ R a front)
    {text rest : Bytes} (h : readSequence item close text = some (items, rest)) :
    ∃ body, text = body ++ close :: rest ∧ Body R items body := by
  obtain ⟨before, htext, hbefore⟩ := exists_skipSpace text
  rw [readSequence] at h
  split at h
  · cases h
  rename_i c tail hskip
  split at h
  · rename_i hclose
    cases h
    exact ⟨before, by rw [← hclose, ← hskip]; exact htext, Or.inl ⟨rfl, hbefore⟩⟩
  · obtain ⟨body, hbody, hitems⟩ := items_of_read hsound h
    exact ⟨body, hbody, Or.inr hitems⟩

end

/-! ### Values -/

theorem stops_cons {c : UInt8} (h : c = comma ∨ c = colon ∨ c = closeBracket ∨ c = closeBrace)
    (rest : Bytes) : Stops (c :: rest) := by
  rintro _ ⟨⟩
  rcases h with rfl | rfl | rfl | rfl <;> decide

theorem stops_append {after : Bytes} (h : Spaces after) {rest : Bytes} (hrest : Stops rest) :
    Stops (after ++ rest) := by
  cases after with
  | nil => exact hrest
  | cons c after =>
    rintro _ ⟨⟩
    have hc := h c List.mem_cons_self
    simp only [isSpace, Bool.or_eq_true, decide_eq_true_eq] at hc
    rcases hc with ((rfl | rfl) | rfl) | rfl <;> decide

/-- `read` takes exactly the texts of `V` off the front of a text. -/
structure Reads (V : Bytes → Prop) (read : Bytes → Option Bytes) : Prop where
  complete {text rest : Bytes} : V text → Stops rest → read (text ++ rest) = some rest
  sound {text rest : Bytes} : read text = some rest → ∃ front, text = front ++ rest ∧ V front
  head {text : Bytes} : V text → ∃ c tail, text = c :: tail ∧ isSpace c = false ∧
    c ≠ closeBracket ∧ c ≠ closeBrace

section

variable {V : Bytes → Prop} {read : Bytes → Option Bytes} {rest body text value : Bytes}

theorem Reads.skipSpace (h : Reads V read) (htext : V text) (rest : Bytes) :
    skipSpace (text ++ rest) = text ++ rest := by
  obtain ⟨c, tail, rfl, hc, -⟩ := h.head htext
  exact skipSpace_cons hc _

theorem Reads.element (h : Reads V read) (htext : ElementText V value text) {c : UInt8}
    (hc : isSpace c = false) (hstops : Stops (c :: rest)) :
    readElement read (text ++ c :: rest) = some (value, c :: rest) := by
  obtain ⟨before, after, rfl, hbefore, hvalue, hafter⟩ := htext
  have hstart : Json.skipSpace (before ++ (value ++ after) ++ c :: rest) =
      value ++ (after ++ c :: rest) := by
    rw [List.append_assoc, skipSpace_append hbefore, List.append_assoc, h.skipSpace hvalue]
  rw [readElement, hstart, h.complete hvalue (stops_append hafter hstops), Option.map_some,
    consumed_append, skipSpace_append hafter, skipSpace_cons hc]

theorem Reads.element_sound (h : Reads V read) {text value : Bytes}
    (hread : readElement read text = some (value, rest)) :
    ∃ front, text = front ++ rest ∧ ElementText V value front := by
  obtain ⟨mid, hmid, hpair⟩ := Option.map_eq_some_iff.mp hread
  cases hpair
  obtain ⟨before, htext, hbefore⟩ := exists_skipSpace text
  obtain ⟨after, hrest, hafter⟩ := exists_skipSpace mid
  obtain ⟨front, hfront, hvalue⟩ := h.sound hmid
  rw [hfront, consumed_append]
  refine ⟨before ++ (front ++ after), ?_, before, after, rfl, hbefore, hvalue, hafter⟩
  rw [List.append_assoc, List.append_assoc, ← hrest, ← hfront]
  exact htext

theorem Reads.elements (h : Reads V read) :
    ReadsItems (readElement read) (ElementText V) closeBracket := by
  intro value text rest c htext hc
  rcases hc with rfl | rfl
  · exact h.element htext (by decide) (stops_cons (Or.inl rfl) rest)
  · exact h.element htext (by decide) (stops_cons (Or.inr (Or.inr (Or.inl rfl))) rest)

theorem Reads.member (h : Reads V read) {member : Bytes × Bytes} {text : Bytes}
    (htext : MemberText V member text) {c : UInt8} (hc : isSpace c = false)
    (hstops : Stops (c :: rest)) :
    readMember read (text ++ c :: rest) = some (member, c :: rest) := by
  obtain ⟨key, value⟩ := member
  obtain ⟨before, mid, tail, rfl, hbefore, ⟨chars, rfl, hchars⟩, hmid, hvalue⟩ := htext
  have helement := h.element hvalue hc hstops
  dsimp only at helement ⊢
  -- the key, the colon and the value, one after the other
  have hstart : Json.skipSpace (before ++ (quote :: (chars ++ [quote]) ++ (mid ++ colon :: tail)) ++
      c :: rest) = quote :: (chars ++ quote :: (mid ++ colon :: (tail ++ c :: rest))) := by
    rw [List.append_assoc, skipSpace_append hbefore]
    simp only [List.cons_append, List.append_assoc, List.nil_append]
    exact skipSpace_cons (by decide) _
  have hcolon : Json.skipSpace (mid ++ colon :: (tail ++ c :: rest)) =
      colon :: (tail ++ c :: rest) := by
    rw [skipSpace_append hmid, skipSpace_cons (by decide)]
  have hkey : consumed (quote :: (chars ++ quote :: (mid ++ colon :: (tail ++ c :: rest))))
      (mid ++ colon :: (tail ++ c :: rest)) = quote :: (chars ++ [quote]) := by
    rw [← consumed_append (quote :: (chars ++ [quote])) (mid ++ colon :: (tail ++ c :: rest))]
    simp only [List.cons_append, List.append_assoc, List.nil_append]
  rw [readMember, hstart]
  dsimp only
  rw [if_pos rfl, hchars.read]
  dsimp only
  rw [hcolon]
  dsimp only
  rw [if_pos rfl, helement, Option.map_some, hkey]

theorem Reads.member_sound (h : Reads V read) {member : Bytes × Bytes}
    (hread : readMember read text = some (member, rest)) :
    ∃ front, text = front ++ rest ∧ MemberText V member front := by
  obtain ⟨before, htext, hbefore⟩ := exists_skipSpace text
  rw [readMember] at hread
  split at hread
  · cases hread
  rename_i c start hstart
  split at hread
  · rename_i hc
    split at hread
    · cases hread
    rename_i behind hbehind
    split at hread
    · cases hread
    rename_i d tail hcolon
    split at hread
    · rename_i hd
      obtain ⟨⟨value, rest'⟩, helement, hpair⟩ := Option.map_eq_some_iff.mp hread
      cases hpair
      obtain ⟨chars, rfl, hchars⟩ := chars_of_read hbehind
      obtain ⟨mid, hmid, hspaces⟩ := exists_skipSpace behind
      obtain ⟨front, rfl, hfront⟩ := h.element_sound helement
      subst hc hd
      rw [hcolon] at hmid
      have hkey : consumed (quote :: (chars ++ quote :: behind)) behind =
          quote :: (chars ++ [quote]) := by
        rw [← consumed_append (quote :: (chars ++ [quote])) behind]
        simp only [List.cons_append, List.append_assoc, List.nil_append]
      refine ⟨before ++ (quote :: (chars ++ [quote]) ++ (mid ++ colon :: front)), ?_,
        before, mid, front, by rw [hkey], hbefore, ⟨chars, hkey, hchars⟩, hspaces, hfront⟩
      rw [htext, hstart]
      nth_rewrite 1 [hmid]
      simp only [List.cons_append, List.append_assoc, List.nil_append]
    · cases hread
  · cases hread

theorem Reads.members (h : Reads V read) :
    ReadsItems (readMember read) (MemberText V) closeBrace := by
  intro member text rest c htext hc
  rcases hc with rfl | rfl
  · exact h.member htext (by decide) (stops_cons (Or.inl rfl) rest)
  · exact h.member htext (by decide) (stops_cons (Or.inr (Or.inr (Or.inr rfl))) rest)

theorem Reads.array (h : Reads V read) {items : List Bytes}
    (hbody : Body (ElementText V) items body) (rest : Bytes) :
    readSequence (readElement read) closeBracket (body ++ closeBracket :: rest) =
      some (items, rest) := by
  refine hbody.read h.elements (by decide) (by decide) ?_ rest
  rintro value _ ⟨before, after, rfl, hbefore, hvalue, -⟩
  obtain ⟨c, tail, rfl, hc, hclose, -⟩ := h.head hvalue
  exact ⟨before, c, tail ++ after, rfl, hbefore, hc, hclose⟩

theorem Reads.object (h : Reads V read) {members : List (Bytes × Bytes)}
    (hbody : Body (MemberText V) members body) (rest : Bytes) :
    readSequence (readMember read) closeBrace (body ++ closeBrace :: rest) =
      some (members, rest) := by
  refine hbody.read h.members (by decide) (by decide) ?_ rest
  rintro ⟨key, value⟩ _ ⟨before, mid, tail, rfl, hbefore, ⟨chars, rfl, -⟩, -⟩
  exact ⟨before, quote, _, rfl, hbefore, by decide, by decide⟩

end

theorem scalarEnd_reads : Reads IsScalar scalarEnd where
  complete h := h.read
  sound := scalar_of_read
  head h := by
    obtain ⟨c, tail, htext, hc, -, -, hclose⟩ := h.head
    exact ⟨c, tail, htext, hc, hclose⟩

/-- **The recogniser takes exactly the values of the grammar.** -/
theorem valueEnd_reads (depth : Nat) : Reads (IsValue depth) (valueEnd depth) := by
  induction depth with
  | zero => exact scalarEnd_reads
  | succ depth ih =>
    constructor
    case complete =>
      rintro text rest (hscalar | ⟨items, body, rfl, hbody⟩ | ⟨members, body, rfl, hbody⟩) hrest
      · have hread := hscalar.read hrest
        obtain ⟨c, tail, rfl, -, hbracket, hbrace, -⟩ := hscalar.head
        rw [List.cons_append, valueEnd, if_neg hbracket, if_neg hbrace]
        exact hread
      · rw [List.cons_append, valueEnd, if_pos rfl, List.append_assoc, List.cons_append,
          List.nil_append, ih.array hbody rest, Option.map_some]
      · rw [List.cons_append, valueEnd, if_neg (by decide), if_pos rfl, List.append_assoc,
          List.cons_append, List.nil_append, ih.object hbody rest, Option.map_some]
    case sound =>
      intro text rest hread
      cases text with
      | nil => cases hread
      | cons c text =>
        rw [valueEnd] at hread
        split at hread
        · rename_i hc
          obtain ⟨⟨items, rest'⟩, hitems, hpair⟩ := Option.map_eq_some_iff.mp hread
          cases hpair
          obtain ⟨body, rfl, hbody⟩ := body_of_read ih.element_sound hitems
          exact ⟨openBracket :: (body ++ [closeBracket]), by rw [hc]; simp,
            Or.inr (Or.inl ⟨items, body, rfl, hbody⟩)⟩
        · split at hread
          · rename_i hc
            obtain ⟨⟨members, rest'⟩, hmembers, hpair⟩ := Option.map_eq_some_iff.mp hread
            cases hpair
            obtain ⟨body, rfl, hbody⟩ := body_of_read ih.member_sound hmembers
            exact ⟨openBrace :: (body ++ [closeBrace]), by rw [hc]; simp,
              Or.inr (Or.inr ⟨members, body, rfl, hbody⟩)⟩
          · obtain ⟨scalar, htext, hscalar⟩ := scalar_of_read hread
            exact ⟨scalar, htext, Or.inl hscalar⟩
    case head =>
      rintro text (hscalar | ⟨items, body, rfl, -⟩ | ⟨members, body, rfl, -⟩)
      · exact scalarEnd_reads.head hscalar
      · exact ⟨openBracket, _, rfl, by decide⟩
      · exact ⟨openBrace, _, rfl, by decide⟩

/-! ### Depth -/

theorem Items.mono {Item : Type} {R R' : Item → Bytes → Prop} (hR : ∀ a text, R a text → R' a text)
    {items : List Item} {body : Bytes} (h : Items R items body) : Items R' items body := by
  induction h with
  | one ha => exact .one (hR _ _ ha)
  | more ha _ ih => exact .more (hR _ _ ha) ih

theorem Body.mono {Item : Type} {R R' : Item → Bytes → Prop} (hR : ∀ a text, R a text → R' a text)
    {items : List Item} {body : Bytes} (h : Body R items body) : Body R' items body :=
  h.imp_right (Items.mono hR)

theorem ElementText.mono {V V' : Bytes → Prop} (hV : ∀ text, V text → V' text) {value text : Bytes}
    (h : ElementText V value text) : ElementText V' value text := by
  obtain ⟨before, after, htext, hbefore, hvalue, hafter⟩ := h
  exact ⟨before, after, htext, hbefore, hV value hvalue, hafter⟩

theorem MemberText.mono {V V' : Bytes → Prop} (hV : ∀ text, V text → V' text)
    {member : Bytes × Bytes} {text : Bytes} (h : MemberText V member text) :
    MemberText V' member text := by
  obtain ⟨before, mid, value, htext, hbefore, hkey, hmid, hvalue⟩ := h
  exact ⟨before, mid, value, htext, hbefore, hkey, hmid, hvalue.mono hV⟩

theorem IsScalar.isValue {text : Bytes} (h : IsScalar text) (depth : Nat) : IsValue depth text := by
  cases depth with
  | zero => exact h
  | succ depth => exact Or.inl h

theorem IsValue.succ {depth : Nat} {text : Bytes} (h : IsValue depth text) :
    IsValue (depth + 1) text := by
  induction depth generalizing text with
  | zero => exact Or.inl h
  | succ depth ih =>
    rcases h with hscalar | ⟨items, body, htext, hbody⟩ | ⟨members, body, htext, hbody⟩
    · exact Or.inl hscalar
    · exact Or.inr (Or.inl ⟨items, body, htext, hbody.mono fun _ _ => ElementText.mono fun _ => ih⟩)
    · exact Or.inr (Or.inr ⟨members, body, htext, hbody.mono fun _ _ => MemberText.mono fun _ =>
        ih⟩)

end Json
end Foundations
end FlickDrop
