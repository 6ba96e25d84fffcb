import FlickDrop.Foundations.Flags
import FlickDrop.Foundations.Transaction

/-!
# Flags after positional arguments

Model of `hoistFlags` in `cmd/flick/main.go`, which moves flags ahead of the positional arguments
because Go's `flag` package stops at the first argument that is no flag.  `scan` is what it is for:
a flag may stand anywhere before the first `--`.
-/

namespace FlickDrop
namespace Flickcli

open Foundations Foundations.Flags

/-- The flags of `runSend`; `defaultURL` comes from the environment. -/
def sendFlags (defaultURL : String) : FlagSet
  | "file" => some (stringFlag "")
  | "passphrase" => some (boolFlag false)
  | "ttl" => some (durationFlag (60 * minute))
  | "url" => some (stringFlag defaultURL)
  | "share-url" => some (stringFlag "")
  | "json" => some (boolFlag false)
  | _ => none

/-- The flags of `runOpen`. -/
def openFlags : FlagSet
  | "output" => some (stringFlag "")
  | "output-dir" => some (stringFlag ".")
  | "url" => some (stringFlag "")
  | _ => none

def takesNoValue (flags : FlagSet) (name : String) : Bool :=
  match flags name with
  | none => true
  | some found => found.isBool

/-- Whether `hoistFlags` takes a flag argument without the one that follows it. -/
def standsAlone (flags : FlagSet) (arg : String) : Bool :=
  let cut := cutInline (dropDashes arg.toList)
  cut.2.isSome || takesNoValue flags cut.1

/-- The loop of `hoistFlags`: the hoisted and the positional arguments. -/
def hoist (flags : FlagSet) : List String → List String × List String
  | [] => ([], [])
  | arg :: rest =>
    if arg = "--" then
      ([], arg :: rest)
    else if isFlag arg = false then
      ((hoist flags rest).1, arg :: (hoist flags rest).2)
    else if standsAlone flags arg then
      (arg :: (hoist flags rest).1, (hoist flags rest).2)
    else
      match rest with
      | [] => ([arg], [])
      | value :: after => (arg :: value :: (hoist flags after).1, (hoist flags after).2)

def hoistFlags (flags : FlagSet) (args : List String) : List String :=
  (hoist flags args).1 ++ (hoist flags args).2

/-- The arguments read from left to right: the values, and the positional arguments after
`positional`. -/
def scan (flags : FlagSet) : Values → List String → Option (String × Flag) → List String →
    Except ParseError (Values × List String)
  | values, positional, none, [] => .ok (values, positional)
  | _, _, some (name, _), [] => .error (.needsArgument name)
  | values, positional, some (name, flag), text :: rest =>
    match flag.set text with
    | none => .error (.invalidValue text name)
    | some value => scan flags (Function.update values name (some value)) positional none rest
  | values, positional, none, arg :: rest =>
    if arg = "--" then .ok (values, positional ++ rest)
    else if isFlag arg = false then scan flags values (positional ++ [arg]) none rest
    else
      match token flags arg with
      | .bad err => .error err
      | .given name value =>
        scan flags (Function.update values name (some value)) positional none rest
      | .waits name flag => scan flags values positional (some (name, flag)) rest

/-! ### What is hoisted -/

section Hoist

variable {flags : FlagSet} {arg : String}

/-- A flag waits for the next argument exactly when `hoistFlags` takes it along. -/
theorem namedToken_cases (flags : FlagSet) (name : String) (inlined : Option String) :
    (∃ err, namedToken flags name inlined = .bad err) ∨
    ((inlined.isSome || takesNoValue flags name) = true ∧
      ∃ name' value, namedToken flags name inlined = .given name' value) ∨
    ((inlined.isSome || takesNoValue flags name) = false ∧
      ∃ name' flag, namedToken flags name inlined = .waits name' flag) := by
  unfold namedToken takesNoValue
  cases flags name with
  | none => exact .inl ⟨_, rfl⟩
  | some flag =>
    have hset : ∀ err (value : Option Value),
        (∃ err', Token.ofSet name err value = .bad err') ∨
          ∃ name' value', Token.ofSet name err value = .given name' value' := by
      intro err value
      cases value with
      | none => exact .inl ⟨err, rfl⟩
      | some value => exact .inr ⟨name, value, rfl⟩
    cases hbool : flag.isBool with
    | true =>
      simp only [hbool, if_true, Bool.or_true, true_and]
      exact (hset _ _).imp id .inl
    | false =>
      simp only [hbool, Bool.false_eq_true, if_false, Bool.or_false]
      cases inlined with
      | some text => exact (hset _ _).imp id fun hgiven => .inl ⟨rfl, hgiven⟩
      | none => exact .inr (.inr ⟨rfl, name, flag, rfl⟩)

theorem token_cases (flags : FlagSet) (arg : String) :
    (∃ err, token flags arg = .bad err) ∨
    (standsAlone flags arg = true ∧ ∃ name value, token flags arg = .given name value) ∨
    (standsAlone flags arg = false ∧ ∃ name flag, token flags arg = .waits name flag) := by
  rw [token, standsAlone]
  split
  · exact .inl ⟨_, rfl⟩
  · exact namedToken_cases flags _ _

/-! One equation for each kind of first argument. -/

@[simp] theorem hoist_nil (flags : FlagSet) : hoist flags [] = ([], []) := rfl

theorem hoist_cons (flags : FlagSet) (arg : String) (rest : List String) :
    hoist flags (arg :: rest) =
      if arg = "--" then
        ([], arg :: rest)
      else if isFlag arg = false then
        ((hoist flags rest).1, arg :: (hoist flags rest).2)
      else if standsAlone flags arg then
        (arg :: (hoist flags rest).1, (hoist flags rest).2)
      else
        match rest with
        | [] => ([arg], [])
        | value :: after => (arg :: value :: (hoist flags after).1, (hoist flags after).2) := by
  cases rest <;> rfl

theorem hoist_end (flags : FlagSet) (rest : List String) :
    hoist flags ("--" :: rest) = ([], "--" :: rest) := by
  rw [hoist_cons, if_pos rfl]

theorem hoist_positional (hend : arg ≠ "--") (hflag : isFlag arg = false) (rest : List String) :
    hoist flags (arg :: rest) = ((hoist flags rest).1, arg :: (hoist flags rest).2) := by
  rw [hoist_cons, if_neg hend, if_pos hflag]

theorem hoist_alone (hend : arg ≠ "--") (hflag : isFlag arg = true)
    (halone : standsAlone flags arg = true) (rest : List String) :
    hoist flags (arg :: rest) = (arg :: (hoist flags rest).1, (hoist flags rest).2) := by
  rw [hoist_cons, if_neg hend, if_neg (by simp [hflag]), if_pos halone]

theorem hoist_last (hend : arg ≠ "--") (hflag : isFlag arg = true)
    (halone : standsAlone flags arg = false) : hoist flags [arg] = ([arg], []) := by
  rw [hoist_cons, if_neg hend, if_neg (by simp [hflag]), if_neg (by simp [halone])]

theorem hoist_pair (hend : arg ≠ "--") (hflag : isFlag arg = true)
    (halone : standsAlone flags arg = false) (value : String) (after : List String) :
    hoist flags (arg :: value :: after) =
      (arg :: value :: (hoist flags after).1, (hoist flags after).2) := by
  rw [hoist_cons, if_neg hend, if_neg (by simp [hflag]), if_neg (by simp [halone])]

/-- The induction over arguments: a flag is refused, has its value, or is followed by it. -/
theorem args_induction (flags : FlagSet) {motive : List String → Prop} (nil : motive [])
    (terminator : ∀ rest, motive ("--" :: rest))
    (positional : ∀ arg rest, arg ≠ "--" → isFlag arg = false → motive rest → motive (arg :: rest))
    (refused : ∀ arg rest err more others, arg ≠ "--" → isFlag arg = true →
      token flags arg = .bad err → hoist flags (arg :: rest) = (arg :: more, others) →
      motive (arg :: rest))
    (given : ∀ arg rest name value, arg ≠ "--" → isFlag arg = true →
      token flags arg = .given name value →
      hoist flags (arg :: rest) = (arg :: (hoist flags rest).1, (hoist flags rest).2) →
      motive rest → motive (arg :: rest))
    (last : ∀ arg name flag, arg ≠ "--" → isFlag arg = true → token flags arg = .waits name flag →
      hoist flags [arg] = ([arg], []) → motive [arg])
    (pair : ∀ arg value after name flag, arg ≠ "--" → isFlag arg = true →
      token flags arg = .waits name flag →
      hoist flags (arg :: value :: after) =
        (arg :: value :: (hoist flags after).1, (hoist flags after).2) →
      motive after → motive (arg :: value :: after)) (args : List String) : motive args := by
  induction args using hoist.induct flags with
  | case1 => exact nil
  | case2 rest => exact terminator rest
  | case3 arg rest hend hflag ih => exact positional arg rest hend hflag ih
  | case4 arg rest hend hflag halone ih =>
    have hflag : isFlag arg = true := by simpa using hflag
    have hhoist := hoist_alone hend hflag halone rest
    rcases token_cases flags arg with ⟨err, htoken⟩ | ⟨-, name, value, htoken⟩ | ⟨hwaits, -⟩
    · exact refused arg rest err _ _ hend hflag htoken hhoist
    · exact given arg rest name value hend hflag htoken hhoist ih
    · rw [halone] at hwaits
      cases hwaits
  | case5 arg hend hflag halone =>
    have hflag : isFlag arg = true := by simpa using hflag
    have halone : standsAlone flags arg = false := by simpa using halone
    have hhoist := hoist_last hend hflag halone
    rcases token_cases flags arg with ⟨err, htoken⟩ | ⟨hgiven, -⟩ | ⟨-, name, flag, htoken⟩
    · exact refused arg [] err _ _ hend hflag htoken hhoist
    · rw [halone] at hgiven
      cases hgiven
    · exact last arg name flag hend hflag htoken hhoist
  | case6 arg hend hflag halone value after ih =>
    have hflag : isFlag arg = true := by simpa using hflag
    have halone : standsAlone flags arg = false := by simpa using halone
    have hhoist := hoist_pair hend hflag halone value after
    rcases token_cases flags arg with ⟨err, htoken⟩ | ⟨hgiven, -⟩ | ⟨-, name, flag, htoken⟩
    · exact refused arg _ err _ _ hend hflag htoken hhoist
    · rw [halone] at hgiven
      cases hgiven
    · exact pair arg value after name flag hend hflag htoken hhoist ih

/-- Parsing what was hoisted is feeding it, and going on with what follows. -/
theorem parse_hoisted (args : List String) (values : Values) (more : List String) :
    parse flags values none ((hoist flags args).1 ++ more) =
      match feed flags values none (hoist flags args).1 with
      | .error err => .error err
      | .ok (values', waiting) => parse flags values' waiting more := by
  induction args using args_induction flags generalizing values with
  | nil => rfl
  | terminator rest => rw [hoist_end]; rfl
  | positional arg rest hend hflag ih =>
    rw [hoist_positional hend hflag]
    exact ih values
  | refused arg rest err front others hend hflag htoken hhoist =>
    rw [hhoist]
    simp [parse, feed, hend, hflag, htoken]
  | given arg rest name value hend hflag htoken hhoist ih =>
    rw [hhoist]
    simpa [parse, feed, hend, hflag, htoken] using ih _
  | last arg name flag hend hflag htoken hhoist =>
    rw [hhoist]
    simp [parse, feed, hend, hflag, htoken]
  | pair arg value after name flag hend hflag htoken hhoist ih =>
    rw [hhoist]
    cases hset : flag.set value with
    | none => simp [parse, feed, hend, hflag, htoken, hset]
    | some v => simpa [parse, feed, hend, hflag, htoken, hset] using ih _

/-- Scanning reads the same flags, and leaves the positional arguments without the terminator. -/
theorem scan_eq (args : List String) (values : Values) (positional : List String) :
    scan flags values positional none args =
      match feed flags values none (hoist flags args).1 with
      | .error err => .error err
      | .ok (values', none) => .ok (values', positional ++ (hoist flags args).2.erase "--")
      | .ok (_, some (name, _)) => .error (.needsArgument name) := by
  induction args using args_induction flags generalizing values positional with
  | nil => simp [scan, feed]
  | terminator rest => simp [scan, hoist_end, feed]
  | positional arg rest hend hflag ih =>
    rw [hoist_positional hend hflag, scan, if_neg hend, if_pos hflag, ih]
    simp [hend]
  | refused arg rest err front others hend hflag htoken hhoist =>
    rw [hhoist]
    simp [scan, feed, hend, hflag, htoken]
  | given arg rest name value hend hflag htoken hhoist ih =>
    rw [hhoist]
    simpa [scan, feed, hend, hflag, htoken] using ih _ _
  | last arg name flag hend hflag htoken hhoist =>
    rw [hhoist]
    simp [scan, feed, hend, hflag, htoken]
  | pair arg value after name flag hend hflag htoken hhoist ih =>
    rw [hhoist]
    cases hset : flag.set value with
    | none => simp [scan, feed, hend, hflag, htoken, hset]
    | some v => simpa [scan, feed, hend, hflag, htoken, hset] using ih _ _

/-- What stands before the terminator is no flag. -/
theorem hoist_positional_isFlag (flags : FlagSet) (args : List String) :
    ∀ arg ∈ (hoist flags args).2.takeWhile (· ≠ "--"), isFlag arg = false := by
  induction args using hoist.induct flags with
  | case1 => simp
  | case2 rest => simp [hoist_end]
  | case3 arg rest hend hflag ih =>
    rw [hoist_positional hend hflag]
    intro other hmem
    rw [List.takeWhile_cons_of_pos (by simpa using hend)] at hmem
    rcases List.mem_cons.mp hmem with rfl | hmem
    · exact hflag
    · exact ih other hmem
  | case4 arg rest hend hflag halone ih =>
    rw [hoist_alone hend (by simpa using hflag) halone]
    exact ih
  | case5 arg hend hflag halone =>
    simp [hoist_last hend (by simpa using hflag) (by simpa using halone)]
  | case6 arg hend hflag halone value after ih =>
    rw [hoist_pair hend (by simpa using hflag) (by simpa using halone)]
    exact ih

/-- A flag still waits for its value only where the arguments end without a terminator. -/
theorem terminator_notMem_of_waiting {args : List String} {values values' : Values}
    {waiting : String × Flag}
    (h : feed flags values none (hoist flags args).1 = .ok (values', some waiting)) :
    "--" ∉ (hoist flags args).2 := by
  induction args using args_induction flags generalizing values with
  | nil => cases h
  | terminator rest =>
    rw [hoist_end] at h
    cases h
  | positional arg rest hend hflag ih =>
    rw [hoist_positional hend hflag] at h ⊢
    simpa [Ne.symm hend] using ih h
  | refused arg rest err front others hend hflag htoken hhoist =>
    rw [hhoist] at h
    simp [feed, htoken] at h
  | given arg rest name value hend hflag htoken hhoist ih =>
    rw [hhoist] at h ⊢
    simp only [feed, htoken] at h
    exact ih h
  | last arg name flag hend hflag htoken hhoist => simp [hhoist]
  | pair arg value after name flag hend hflag htoken hhoist ih =>
    rw [hhoist] at h ⊢
    simp only [feed, htoken] at h
    split at h
    · cases h
    exact ih h

end Hoist

/-- What the two slices must be like: a flag among the hoisted arguments is refused, or nothing
positional was seen before the terminator and the end, or there is no terminator and no flag that
still waits for its value. -/
def Unmixed (flags : FlagSet) (values : Values) (seen : Bool) (args : List String) : Prop :=
  match feed flags values none (hoist flags args).1 with
  | .error _ => True
  | .ok (_, waiting) =>
    (seen = false ∧ (hoist flags args).2.takeWhile (· ≠ "--") = []) ∨
      waiting = none ∧ "--" ∉ (hoist flags args).2

/-- Hoisting keeps the meaning exactly when the slices are unmixed. -/
theorem parse_hoistFlags_iff (flags : FlagSet) (args : List String) :
    parse flags flags.initial none (hoistFlags flags args) =
        scan flags flags.initial [] none args ↔
      Unmixed flags flags.initial false args := by
  rw [hoistFlags, parse_hoisted, scan_eq, Unmixed]
  simp only [true_and]
  have hplain := hoist_positional_isFlag flags args
  cases hfeed : feed flags flags.initial none (hoist flags args).1 with
  | error err => simp
  | ok out =>
    obtain ⟨values, waiting⟩ := out
    dsimp only
    cases hpositional : (hoist flags args).2 with
    | nil =>
      cases waiting with
      | none => simp [parse]
      | some waiting => simp [parse]
    | cons first rest =>
      rw [hpositional] at hplain
      by_cases hend : first = "--"
      · subst hend
        cases waiting with
        | none => simp [parse, isFlag]
        | some waiting =>
          have hno := terminator_notMem_of_waiting hfeed
          simp [hpositional] at hno
      · have hfirst : isFlag first = false :=
          hplain first (by
            rw [List.takeWhile_cons_of_pos (by simpa using hend)]
            exact List.mem_cons_self)
        have hbefore : (first :: rest).takeWhile (· ≠ "--") ≠ [] := by
          rw [List.takeWhile_cons_of_pos (by simpa using hend)]
          exact List.cons_ne_nil _ _
        cases waiting with
        | none =>
          -- `Parse` stops at the first argument and leaves the terminator in
          simp only [parse, hfirst, if_true, Except.ok.injEq, Prod.mk.injEq, true_and,
            List.nil_append, hbefore, false_or]
          rw [eq_comm, List.erase_eq_self_iff]
        | some waiting =>
          -- the flag takes the first argument for its value
          obtain ⟨name, flag⟩ := waiting
          have hno := terminator_notMem_of_waiting hfeed
          rw [hpositional] at hno
          have hrest : ∀ values', ∃ out, parse flags values' none rest = .ok out := by
            intro values'
            cases rest with
            | nil => exact ⟨_, rfl⟩
            | cons second others =>
              have hsecond : isFlag second = false := by
                refine hplain second ?_
                rw [List.takeWhile_cons_of_pos (by simpa using hend),
                  List.takeWhile_cons_of_pos]
                · simp
                · simpa using fun heq : second = "--" => hno (by simp [heq])
              exact ⟨(values', second :: others), by simp [parse, hsecond]⟩
          simp only [hbefore, false_or, reduceCtorEq, false_and, iff_false]
          rw [parse]
          cases flag.set first with
          | none => simp
          | some value =>
            obtain ⟨out, hout⟩ := hrest (Function.update values name (some value))
            simp [hout]

/-- The arguments read from left to right, as `scan` reads them: once a positional argument was
`seen`, neither the terminator nor a flag without its value may come, unless a flag is refused
before. -/
def unambiguous (flags : FlagSet) : Bool → Option Flag → List String → Bool
  | _, none, [] => true
  | seen, some _, [] => !seen
  | seen, some flag, text :: rest =>
    match flag.set text with
    | none => true
    | some _ => unambiguous flags seen none rest
  | seen, none, arg :: rest =>
    if arg = "--" then !seen
    else if isFlag arg = false then unambiguous flags true none rest
    else
      match token flags arg with
      | .bad _ => true
      | .given _ _ => unambiguous flags seen none rest
      | .waits _ flag => unambiguous flags seen (some flag) rest

theorem unambiguous_iff_unmixed {flags : FlagSet} (args : List String) (values : Values)
    (seen : Bool) : unambiguous flags seen none args = true ↔ Unmixed flags values seen args := by
  induction args using args_induction flags generalizing values seen with
  | nil => simp [unambiguous, Unmixed, feed]
  | terminator rest => simp [unambiguous, Unmixed, hoist_end, feed]
  | positional arg rest hend hflag ih =>
    rw [unambiguous, if_neg hend, if_pos hflag, ih values, Unmixed, Unmixed,
      hoist_positional hend hflag]
    simp [hend, Ne.symm hend]
  | refused arg rest err front others hend hflag htoken hhoist =>
    rw [Unmixed, hhoist]
    simp [unambiguous, feed, hend, hflag, htoken]
  | given arg rest name value hend hflag htoken hhoist ih =>
    rw [Unmixed, hhoist]
    simpa [unambiguous, Unmixed, feed, hend, hflag, htoken] using
      ih (Function.update values name (some value)) seen
  | last arg name flag hend hflag htoken hhoist =>
    rw [Unmixed, hhoist]
    simp [unambiguous, feed, hend, hflag, htoken]
  | pair arg value after name flag hend hflag htoken hhoist ih =>
    rw [Unmixed, hhoist]
    cases hset : flag.set value with
    | none => simp [unambiguous, feed, hend, hflag, htoken, hset]
    | some v =>
      simpa [unambiguous, Unmixed, feed, hend, hflag, htoken, hset] using
        ih (Function.update values name (some v)) seen

/-- **Hoisting keeps the meaning of the arguments** exactly when they are unambiguous. -/
theorem hoistFlags_iff (flags : FlagSet) (args : List String) :
    parse flags flags.initial none (hoistFlags flags args) =
        scan flags flags.initial [] none args ↔
      unambiguous flags false none args = true :=
  (parse_hoistFlags_iff flags args).trans
    (unambiguous_iff_unmixed args flags.initial false).symm

/-- A value-less flag at the end takes the text for its value, and a terminator behind a text stays
among the positional arguments. -/
theorem hoistFlags_changes_meaning :
    hoistFlags (sendFlags "") ["hello", "-file"] = ["-file", "hello"] ∧
    (parse (sendFlags "") (sendFlags "").initial none ["-file", "hello"]).toOption.map
      (fun out => (out.1 "file", out.2)) = some (some (.text "hello"), []) ∧
    scan (sendFlags "") (sendFlags "").initial [] none ["hello", "-file"] =
      .error (.needsArgument "file") ∧
    hoistFlags openFlags ["link", "--", "-x"] = ["link", "--", "-x"] ∧
    (parse openFlags openFlags.initial none ["link", "--", "-x"]).toOption.map Prod.snd =
      some ["link", "--", "-x"] ∧
    (scan openFlags openFlags.initial [] none ["link", "--", "-x"]).toOption.map Prod.snd =
      some ["link", "-x"] := by
  refine ⟨by decide +kernel, by decide +kernel, by rfl, by decide +kernel, by decide +kernel,
    by decide +kernel⟩

end Flickcli
end FlickDrop
