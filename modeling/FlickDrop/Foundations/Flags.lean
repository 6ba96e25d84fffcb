import Mathlib.Logic.Function.Basic
import FlickDrop.Foundations.Text

/-!
# Command-line flags

Go's `flag` package.  `token` is what one argument says, `parse` reads arguments up to the first
that is no flag, and `feed` reads a list of nothing but flags and their values.  A flag that still
waits for its value is carried along, so that every loop is over the arguments themselves.
-/

namespace FlickDrop
namespace Foundations
namespace Flags

/-- `strconv.ParseBool`. -/
def parseBool (s : String) : Option Bool :=
  if s ∈ ["1", "t", "T", "TRUE", "true", "True"] then some true
  else if s ∈ ["0", "f", "F", "FALSE", "false", "False"] then some false
  else none

/-- The nanoseconds of a unit of `time.ParseDuration`. -/
def durationUnit (unit : List Char) : Option Nat :=
  [("ns", 1), ("us", 1000), ("µs", 1000), ("μs", 1000), ("ms", 1000000), ("s", 1000000000),
    ("m", 60000000000), ("h", 3600000000000)].lookup (String.ofList unit)

/-- `leadingFraction` of digits: the fraction and its scale.  Digits that no longer fit are
skipped. -/
def leadingFraction (digits : List Char) : Nat × Nat :=
  let step := fun (acc : Nat × Nat × Bool) (c : Char) =>
    let (x, scale, overflow) := acc
    let y := x * 10 + (c.toNat - '0'.toNat)
    if overflow ∨ (2 ^ 63 - 1) / 10 < x ∨ 2 ^ 63 < y then (x, scale, true)
    else (y, scale * 10, false)
  let (x, scale, _) := digits.foldl step (0, 1, false)
  (x, scale)

/-- The `float64` nearest to `n / d`, ties to even, as a fraction; the numbers of a duration are
far from both ends of the exponents. -/
def roundFloat64 (n d : Nat) : Nat × Nat :=
  let least : Int := 52 + Nat.log2 d - Nat.log2 n
  -- the power of two that leaves 53 bits before the point
  let shift := if n * 2 ^ least.toNat < d * 2 ^ (52 + (-least).toNat) then least + 1 else least
  let numerator := n * 2 ^ shift.toNat
  let denominator := d * 2 ^ (-shift).toNat
  let floor := numerator / denominator
  let rest := 2 * (numerator % denominator)
  let mantissa :=
    if denominator < rest ∨ rest = denominator ∧ floor % 2 = 1 then floor + 1 else floor
  (mantissa * 2 ^ (-shift).toNat, 2 ^ shift.toNat)

/-- `uint64(float64(f) * (float64(unit) / scale))`; the scales are powers of ten that `float64`
holds. -/
def fractionOf (f unit scale : Nat) : Nat :=
  let whole := roundFloat64 f 1
  let part := roundFloat64 unit scale
  let product := roundFloat64 (whole.1 * part.1) (whole.2 * part.2)
  product.1 / product.2

/-- The loop of `time.ParseDuration`, after `total` nanoseconds. -/
def parseDurationFrom : Nat → Nat → List Char → Option Nat
  | _, total, [] => some total
  | 0, _, _ => none
  | fuel + 1, total, s =>
    let digits := s.takeWhile Char.isDigit
    let (fraction, rest) :=
      match s.drop digits.length with
      | '.' :: after => (after.takeWhile Char.isDigit, after.dropWhile Char.isDigit)
      | after => ([], after)
    let v := (parseDigits 0 digits).getD 0
    let unitText := rest.takeWhile fun c => c ≠ '.' ∧ c.isDigit = false
    if (digits = [] ∧ fraction = []) ∨ 2 ^ 63 < v then
      none
    else
      match durationUnit unitText with
      | none => none
      | some unit =>
        let (f, scale) := leadingFraction fraction
        let amount := v * unit + fractionOf f unit scale
        if 2 ^ 63 / unit < v ∨ 2 ^ 63 < amount ∨ 2 ^ 63 < total + amount then none
        else parseDurationFrom fuel (total + amount) (rest.drop unitText.length)

/-- `time.ParseDuration`, in nanoseconds. -/
def parseDuration (s : String) : Option Int :=
  let (neg, digits) :=
    match s.toList with
    | '-' :: rest => (true, rest)
    | '+' :: rest => (false, rest)
    | rest => (false, rest)
  if digits = ['0'] then some 0
  else if digits = [] then none
  else
    match parseDurationFrom digits.length 0 digits with
    | none => none
    | some d => if neg then some (-d) else if 2 ^ 63 - 1 < d then none else some d

/-- The value of a flag. -/
inductive Value where
  | text (s : String)
  | bool (b : Bool)
  | duration (d : Int)
deriving DecidableEq, Repr

/-- A flag: whether it stands alone, its default and its `Set`, which may refuse a text. -/
structure Flag where
  isBool : Bool
  initial : Value
  set : String → Option Value

def stringFlag (initial : String) : Flag := ⟨false, .text initial, fun s => some (.text s)⟩

def boolFlag (initial : Bool) : Flag := ⟨true, .bool initial, fun s => (parseBool s).map .bool⟩

def durationFlag (initial : Int) : Flag :=
  ⟨false, .duration initial, fun s => (parseDuration s).map .duration⟩

/-- The flags of a `FlagSet` by name. -/
abbrev FlagSet := String → Option Flag

/-- The value of each flag. -/
abbrev Values := String → Option Value

def FlagSet.initial (flags : FlagSet) : Values := fun name => (flags name).map Flag.initial

/-- The errors of `FlagSet.Parse`, with what their texts name. -/
inductive ParseError where
  | badSyntax (arg : String)
  | help
  | notDefined (name : String)
  | invalidBool (value name : String)
  | needsArgument (name : String)
  | invalidValue (value name : String)
deriving DecidableEq, Repr

/-- An argument that `Parse` takes for a flag or for the terminator. -/
def isFlag (arg : String) : Bool :=
  match arg.toList with
  | '-' :: _ :: _ => true
  | _ => false

/-- A flag argument without its one or two dashes. -/
def dropDashes : List Char → List Char
  | '-' :: '-' :: name => name
  | '-' :: name => name
  | name => name

/-- The name of a flag, and the value behind a `=`. -/
def cutInline (name : List Char) : String × Option String :=
  let front := name.takeWhile (· ≠ '=')
  match name.drop front.length with
  | [] => (String.ofList front, none)
  | _ :: value => (String.ofList front, some (String.ofList value))

/-- What a flag argument says by itself: nothing sensible, a value for a flag, or a flag that
waits for the next argument. -/
inductive Token where
  | bad (err : ParseError)
  | given (name : String) (value : Value)
  | waits (name : String) (flag : Flag)

/-- A value for a flag, or the error when its `Set` refuses the text. -/
def Token.ofSet (name : String) (err : ParseError) : Option Value → Token
  | some value => .given name value
  | none => .bad err

/-- What a flag says by its name and the value behind a `=`. -/
def namedToken (flags : FlagSet) (name : String) (inlined : Option String) : Token :=
  match flags name with
  | none => .bad (if name = "help" ∨ name = "h" then .help else .notDefined name)
  | some flag =>
    if flag.isBool then
      .ofSet name (.invalidBool (inlined.getD "true") name) (flag.set (inlined.getD "true"))
    else
      match inlined with
      | some text => .ofSet name (.invalidValue text name) (flag.set text)
      | none => .waits name flag

/-- The part of `parseOne` that reads one flag argument. -/
def token (flags : FlagSet) (arg : String) : Token :=
  let body := dropDashes arg.toList
  if body = [] ∨ body.head? = some '-' ∨ body.head? = some '=' then
    .bad (.badSyntax arg)
  else
    namedToken flags (cutInline body).1 (cutInline body).2

/-- `FlagSet.Parse`: the values, and the arguments that are left. -/
def parse (flags : FlagSet) : Values → Option (String × Flag) → List String →
    Except ParseError (Values × List String)
  | values, none, [] => .ok (values, [])
  | _, some (name, _), [] => .error (.needsArgument name)
  | values, some (name, flag), text :: rest =>
    match flag.set text with
    | none => .error (.invalidValue text name)
    | some value => parse flags (Function.update values name (some value)) none rest
  | values, none, arg :: rest =>
    if isFlag arg = false then .ok (values, arg :: rest)
    else if arg = "--" then .ok (values, rest)
    else
      match token flags arg with
      | .bad err => .error err
      | .given name value => parse flags (Function.update values name (some value)) none rest
      | .waits name flag => parse flags values (some (name, flag)) rest

/-- Arguments that are flags and their values: the values, and the flag that waits. -/
def feed (flags : FlagSet) : Values → Option (String × Flag) → List String →
    Except ParseError (Values × Option (String × Flag))
  | values, waiting, [] => .ok (values, waiting)
  | values, some (name, flag), text :: rest =>
    match flag.set text with
    | none => .error (.invalidValue text name)
    | some value => feed flags (Function.update values name (some value)) none rest
  | values, none, arg :: rest =>
    match token flags arg with
    | .bad err => .error err
    | .given name value => feed flags (Function.update values name (some value)) none rest
    | .waits name flag => feed flags values (some (name, flag)) rest

end Flags
end Foundations
end FlickDrop
