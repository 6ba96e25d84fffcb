import Mathlib.Algebra.Group.Int.Defs
import Mathlib.Algebra.Group.Nat.Defs
import Mathlib.Data.List.Basic

/-!
# Go string helpers

The few functions of Go's `strings`, `strconv` and `unicode` packages the programs use.
-/

namespace FlickDrop
namespace Foundations

/-- `unicode.IsSpace`. -/
def isSpace (c : Char) : Bool :=
  let n := c.toNat
  (9 ≤ n && n ≤ 13) || n == 0x20 || n == 0x85 || n == 0xA0 || n == 0x1680 ||
    (0x2000 ≤ n && n ≤ 0x200A) || n == 0x2028 || n == 0x2029 || n == 0x202F || n == 0x205F ||
    n == 0x3000

/-- `strings.TrimSpace`. -/
def trimSpace (s : List Char) : List Char :=
  ((s.dropWhile isSpace).reverse.dropWhile isSpace).reverse

/-- `strings.TrimSpace(s) == ""`. -/
def blank (s : String) : Bool :=
  s.toList.all isSpace

/-- The lower-case ASCII letter a character folds to; the long s and the Kelvin sign are
the only others that fold to one. -/
def foldCase (c : Char) : Char :=
  if 'A' ≤ c ∧ c ≤ 'Z' then Char.ofNat (c.toNat + 32)
  else if c.toNat = 0x17F then 's'
  else if c.toNat = 0x212A then 'k'
  else c

/-- `strings.EqualFold` with a lower-case ASCII word. -/
def equalFold (s word : List Char) : Bool :=
  decide (s.map foldCase = word)

/-- The digits of a decimal number, after those that make `acc`. -/
def parseDigits (acc : Nat) : List Char → Option Nat
  | [] => some acc
  | c :: rest => if c.isDigit then parseDigits (acc * 10 + (c.toNat - '0'.toNat)) rest else none

/-- `strconv.ParseUint` without its range check. -/
def parseUint : List Char → Option Nat
  | [] => none
  | digits => parseDigits 0 digits

/-- `strconv.ParseInt(s, 10, 64)`. -/
def parseInt (s : List Char) : Option Int :=
  match s with
  | '-' :: digits => (parseUint digits).bind fun n => if n ≤ 2 ^ 63 then some (-n) else none
  | '+' :: digits => (parseUint digits).bind fun n => if n < 2 ^ 63 then some n else none
  | digits => (parseUint digits).bind fun n => if n < 2 ^ 63 then some n else none

theorem blank_empty : blank "" = true := by
  decide

/-! ### Header values -/

/-- The white space of `textproto`. -/
def isASCIISpace (c : Char) : Bool :=
  c = ' ' || c = '\t' || c = '\n' || c = '\r'

/-- `textproto.TrimString`. -/
def trimString (s : List Char) : List Char :=
  ((s.dropWhile isASCIISpace).reverse.dropWhile isASCIISpace).reverse

/-- `headerNewlineToSpace`. -/
def newlineToSpace (c : Char) : Char := if c = '\n' ∨ c = '\r' then ' ' else c

/-- What the peer of `net/http` gets of a header value. -/
def headerValue (value : String) : String :=
  String.ofList (trimString (value.toList.map newlineToSpace))

theorem isASCIISpace_newlineToSpace (c : Char) :
    isASCIISpace (newlineToSpace c) = isASCIISpace c := by
  unfold newlineToSpace
  split
  · rename_i hbreak
    rcases hbreak with rfl | rfl <;> rfl
  · rfl

/-- Line breaks at the ends are cut off like the spaces they become. -/
theorem trimString_map_newlineToSpace (s : List Char) :
    trimString (s.map newlineToSpace) = (trimString s).map newlineToSpace := by
  have hspace : isASCIISpace ∘ newlineToSpace = isASCIISpace :=
    funext isASCIISpace_newlineToSpace
  rw [trimString, trimString, List.dropWhile_map, hspace, ← List.map_reverse, List.dropWhile_map,
    hspace, List.map_reverse]

theorem filter_dropWhile {q p : Char → Bool} {s : List Char}
    (h : ∀ c ∈ s, p c = true → q c = false) : (s.dropWhile p).filter q = s.filter q := by
  induction s with
  | nil => rfl
  | cons c s ih =>
    rw [List.dropWhile_cons]
    split
    · rename_i hp
      rw [ih fun d hd => h d (List.mem_cons_of_mem c hd),
        List.filter_cons_of_neg (by simp [h c List.mem_cons_self hp])]
    · rfl

/-- Cutting off what a filter drops anyway changes nothing. -/
theorem filter_trimString {q : Char → Bool} {s : List Char}
    (h : ∀ c ∈ s, isASCIISpace c = true → q c = false) : (trimString s).filter q = s.filter q := by
  have hfront : ∀ c ∈ (s.dropWhile isASCIISpace).reverse, isASCIISpace c = true → q c = false := by
    intro c hc
    exact h c ((List.dropWhile_sublist _).subset (List.mem_reverse.mp hc))
  rw [trimString, List.filter_reverse, filter_dropWhile hfront, List.filter_reverse,
    List.reverse_reverse, filter_dropWhile h]

/-! ### Cutting a text at a character -/

/-- A text is cut at the first character of a kind in one way only. -/
theorem cut_inj {c : Char} {a b rest rest' : List Char} (ha : c ∉ a) (hb : c ∉ b)
    (h : a ++ c :: rest = b ++ c :: rest') : a = b ∧ rest = rest' := by
  induction a generalizing b with
  | nil =>
    cases b with
    | nil => exact ⟨rfl, (List.cons.inj h).2⟩
    | cons d b =>
      obtain ⟨rfl, -⟩ := List.cons.inj h
      exact absurd List.mem_cons_self hb
  | cons d a ih =>
    cases b with
    | nil =>
      obtain ⟨rfl, -⟩ := List.cons.inj h
      exact absurd List.mem_cons_self ha
    | cons e b =>
      obtain ⟨rfl, htail⟩ := List.cons.inj h
      obtain ⟨rfl, hrest⟩ := ih (fun hmem => ha (List.mem_cons_of_mem _ hmem))
        (fun hmem => hb (List.mem_cons_of_mem _ hmem)) htail
      exact ⟨rfl, hrest⟩

/-- The text before and after the last `c`. -/
def cutLast (c : Char) : List Char → Option (List Char × List Char)
  | [] => none
  | first :: rest =>
    match cutLast c rest with
    | some (front, back) => some (first :: front, back)
    | none => if first = c then some ([], rest) else none

theorem cutLast_some {c : Char} {text front back : List Char}
    (h : cutLast c text = some (front, back)) : text = front ++ c :: back := by
  induction text generalizing front with
  | nil => cases h
  | cons first rest ih =>
    unfold cutLast at h
    split at h
    · rename_i front' back' hrest
      simp only [Option.some.injEq, Prod.mk.injEq] at h
      obtain ⟨rfl, rfl⟩ := h
      rw [ih hrest, List.cons_append]
    · split at h
      · rename_i hfirst
        simp only [Option.some.injEq, Prod.mk.injEq] at h
        obtain ⟨rfl, rfl⟩ := h
        rw [hfirst, List.nil_append]
      · cases h

/-- `strings.TrimSuffix`. -/
def trimSuffix (s suffix : List Char) : List Char :=
  if suffix.isSuffixOf s then s.take (s.length - suffix.length) else s

theorem trimSuffix_append (a b : List Char) : trimSuffix (a ++ b) b = a := by
  rw [trimSuffix, if_pos (List.isSuffixOf_iff_suffix.mpr (List.suffix_append a b))]
  simp

theorem isDigit_of_mem_repr {n : Nat} {c : Char} (h : c ∈ n.repr.toList) : c.isDigit = true := by
  rw [Nat.repr_eq_ofList_toDigits, String.toList_ofList] at h
  exact Nat.isDigit_of_mem_toDigits (by decide) (by decide) h

theorem repr_toList_inj {m n : Nat} (h : m.repr.toList = n.repr.toList) : m = n := by
  simp only [Nat.repr_eq_ofList_toDigits, String.toList_ofList] at h
  have hvalue := congrArg (fun digits => Nat.ofDigitChars 10 digits 0) h
  simpa using hvalue

/-- A number has no comma in it. -/
theorem comma_notMem_toString (n : Int) : ',' ∉ (toString n).toList := by
  have hdigits : ∀ m : Nat, ',' ∉ m.repr.toList := by
    intro m hmem
    exact absurd (isDigit_of_mem_repr hmem) (by decide)
  rw [Int.toString_eq_repr, Int.repr_eq_if]
  split
  · exact hdigits _
  · rw [String.toList_append, List.mem_append, not_or]
    exact ⟨by decide, hdigits _⟩

theorem toString_toList_inj {m n : Int} (h : (toString m).toList = (toString n).toList) :
    m = n := by
  have hsign : ∀ i j : Nat, i.repr.toList ≠ ("-" ++ j.repr).toList := by
    intro i j heq
    have hdash : '-' ∈ i.repr.toList := by simp [heq]
    exact absurd (isDigit_of_mem_repr hdash) (by decide)
  rw [Int.toString_eq_repr, Int.toString_eq_repr, Int.repr_eq_if, Int.repr_eq_if] at h
  split at h <;> split at h
  · have heq := repr_toList_inj h
    omega
  · exact absurd h (hsign _ _)
  · exact absurd h.symm (hsign _ _)
  · rw [String.toList_append, String.toList_append] at h
    have heq := repr_toList_inj (List.append_cancel_left h)
    omega

end Foundations
end FlickDrop
