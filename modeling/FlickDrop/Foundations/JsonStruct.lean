import Mathlib.Logic.Function.Basic
import FlickDrop.Foundations.JsonDecoder
import FlickDrop.Foundations.Table
import FlickDrop.Foundations.Text

/-!
# Reading JSON into a struct

`Unmarshal` of `encoding/json` for flat structs.  A key finds the field of its name, or else the
first field whose name differs in case only.

`ObjectText` are the texts of one object with nothing but space around it, with its members
decoded.  `unmarshal_objectText` says what `Unmarshal` makes of such a text, and
`objectText_of_checkValid` that it accepts no other text that starts with a brace.
-/

namespace FlickDrop
namespace Foundations
namespace Json

/-! ### Structs -/

/-- The types of the fields: `string`, `int` and `int64`, `*int` and `json.RawMessage`. -/
inductive FieldType where
  | string
  | int
  | intPointer
  | raw
  deriving DecidableEq, Repr

inductive FieldValue where
  | string (s : String)
  | int (n : Int)
  | intPointer (n : Option Int)
  | raw (text : Bytes)
  deriving DecidableEq, Repr

structure Field where
  name : String
  type : FieldType
  deriving DecidableEq, Repr

/-- A struct type: the JSON names of its fields are distinct. -/
structure Struct where
  fields : List Field
  distinct : (fields.map Field.name).Nodup

/-- A struct: what its fields hold. -/
abbrev Target : Type := String → FieldValue

/-- The zero value of a type. -/
def FieldType.zero : FieldType → FieldValue
  | .string => .string ""
  | .int => .int 0
  | .intPointer => .intPointer none
  | .raw => .raw []

/-- The struct before anything is read into it. -/
def Struct.zero (s : Struct) : Target := fun name =>
  match s.fields.find? fun f => f.name = name with
  | none => .raw []
  | some field => field.type.zero

/-- `foldName`; `foldRune` is the case folding of the characters that are not ASCII. -/
def foldName (foldRune : Char → Char) (name : String) : List Char :=
  name.toList.map fun c =>
    if c.toNat < 0x80 then
      if 'a' ≤ c ∧ c ≤ 'z' then Char.ofNat (c.toNat - 32) else c
    else foldRune c

/-- The field of a key: the one of that name, or else the first one whose name differs in case
only. -/
def Struct.find (s : Struct) (foldRune : Char → Char) (key : String) : Option Field :=
  (s.fields.find? fun f => f.name = key).or
    (s.fields.find? fun f => foldName foldRune f.name = foldName foldRune key)

/-- The characters of an ASCII text. -/
def asciiChars (text : Bytes) : List Char := text.map fun c => Char.ofNat c.toNat

/-- What a text other than `null` stands for in a field of the type; `none` is a value that the
type cannot hold. -/
def FieldType.value : FieldType → Bytes → Option FieldValue
  | .string, text => (unquote text).map .string
  | .int, text => (parseInt (asciiChars text)).map .int
  | .intPointer, text => (parseInt (asciiChars text)).map fun n => .intPointer (some n)
  | .raw, text => some (.raw text)

/-- The value of a field after `null`. -/
def FieldType.null : FieldType → FieldValue → FieldValue
  | .string, old => old
  | .int, old => old
  | .intPointer, _ => .intPointer none
  | .raw, _ => .raw nullText

/-- A value stored in a field. -/
def FieldType.store (type : FieldType) (old : FieldValue) (text : Bytes) : Option FieldValue :=
  if text = nullText then some (type.null old) else type.value text

/-- The value of a key.  A key without a field is skipped; a value that the field cannot hold is
an error that `Unmarshal` returns in the end. -/
def storeField (s : Struct) (foldRune : Char → Char) (state : Target × Bool)
    (member : String × Bytes) : Target × Bool :=
  match s.find foldRune member.1 with
  | none => state
  | some field =>
    match field.type.store (state.1 field.name) member.2 with
    | none => (state.1, true)
    | some value => (Function.update state.1 field.name value, state.2)

/-- One member of the object. -/
def storeMember (s : Struct) (foldRune : Char → Char) (state : Target × Bool)
    (member : Bytes × Bytes) : Target × Bool :=
  match unquote member.1 with
  | none => state
  | some key => storeField s foldRune state (key, member.2)

/-- `checkValid`: one value and nothing but space around it. -/
def checkValid (data : Bytes) : Bool :=
  match valueEnd maxNestingDepth (skipSpace data) with
  | none => false
  | some rest => skipSpace rest = []

/-- `Unmarshal` into a struct. -/
def unmarshal (s : Struct) (foldRune : Char → Char) (data : Bytes) (target : Target) :
    Option Target :=
  if checkValid data = false then none
  else
    match skipSpace data with
    | [] => none
    | c :: rest =>
      if c = openBrace then
        match readSequence (readMember (valueEnd maxInnerDepth)) closeBrace rest with
        | none => none
        | some (members, _) =>
          match members.foldl (storeMember s foldRune) (target, false) with
          | (target', false) => some target'
          | (_, true) => none
      -- `null` leaves a struct as it is
      else if c = 0x6e then some target
      else none

/-! ### Texts of one object -/

/-- The text of a member whose key is decoded. -/
def NamedMember (member : String × Bytes) (text : Bytes) : Prop :=
  ∃ key, unquote key = some member.1 ∧ MemberText (IsValue maxInnerDepth) (key, member.2) text

/-- **One object** with nothing but space around it. -/
def ObjectText (members : List (String × Bytes)) (data : Bytes) : Prop :=
  ∃ before body after, data = before ++ openBrace :: (body ++ closeBrace :: after) ∧
    Spaces before ∧ Spaces after ∧ Body NamedMember members body

/-- The key of the first is that of the second as it is written. -/
def Spells (written : Bytes × Bytes) (member : String × Bytes) : Prop :=
  unquote written.1 = some member.1 ∧ written.2 = member.2

theorem Items.written {members : List (String × Bytes)} {body : Bytes}
    (h : Items NamedMember members body) :
    ∃ written, Items (MemberText (IsValue maxInnerDepth)) written body ∧
      List.Forall₂ Spells written members := by
  induction h with
  | @one member text hmember =>
    obtain ⟨key, hkey, htext⟩ := hmember
    exact ⟨[(key, member.2)], .one htext, .cons ⟨hkey, rfl⟩ .nil⟩
  | @more member text members body hmember _ ih =>
    obtain ⟨key, hkey, htext⟩ := hmember
    obtain ⟨written, hwritten, hspells⟩ := ih
    exact ⟨(key, member.2) :: written, .more htext hwritten, .cons ⟨hkey, rfl⟩ hspells⟩

theorem Body.written {members : List (String × Bytes)} {body : Bytes}
    (h : Body NamedMember members body) :
    ∃ written, Body (MemberText (IsValue maxInnerDepth)) written body ∧
      List.Forall₂ Spells written members := by
  rcases h with ⟨rfl, hspaces⟩ | hitems
  · exact ⟨[], Or.inl ⟨rfl, hspaces⟩, .nil⟩
  · obtain ⟨written, hwritten, hspells⟩ := hitems.written
    exact ⟨written, Or.inr hwritten, hspells⟩

/-- Every key of an object of the grammar has a value. -/
theorem MemberText.named {written : Bytes × Bytes} {text : Bytes}
    (h : MemberText (IsValue maxInnerDepth) written text) :
    ∃ member, NamedMember member text ∧ Spells written member := by
  obtain ⟨key, hkey⟩ : ∃ key, unquote written.1 = some key := by
    obtain ⟨-, -, -, -, -, hstring, -⟩ := h
    exact hstring.unquote
  exact ⟨(key, written.2), ⟨written.1, hkey, h⟩, hkey, rfl⟩

theorem Body.named {written : List (Bytes × Bytes)} {body : Bytes}
    (h : Body (MemberText (IsValue maxInnerDepth)) written body) :
    ∃ members, Body NamedMember members body := by
  rcases h with ⟨-, hspaces⟩ | hitems
  · exact ⟨[], Or.inl ⟨rfl, hspaces⟩⟩
  · suffices ∃ members, Items NamedMember members body from this.imp fun _ h => Or.inr h
    induction hitems with
    | one hmember =>
      obtain ⟨member, hnamed, -⟩ := hmember.named
      exact ⟨[member], .one hnamed⟩
    | more hmember _ ih =>
      obtain ⟨member, hnamed, -⟩ := hmember.named
      obtain ⟨members, hmembers⟩ := ih
      exact ⟨member :: members, .more hnamed hmembers⟩

variable {members members' : List (String × Bytes)} {data : Bytes}

/-- What the recognisers see of such a text. -/
theorem ObjectText.read (h : ObjectText members data) :
    ∃ written rest after, skipSpace data = openBrace :: rest ∧ Spaces after ∧
      readSequence (readMember (valueEnd maxInnerDepth)) closeBrace rest = some (written, after) ∧
      List.Forall₂ Spells written members := by
  obtain ⟨before, body, after, rfl, hbefore, hafter, hbody⟩ := h
  obtain ⟨written, hwritten, hspells⟩ := hbody.written
  refine ⟨written, body ++ closeBrace :: after, after, ?_, hafter, ?_, hspells⟩
  · rw [skipSpace_append hbefore, skipSpace_cons (by decide)]
  · exact (valueEnd_reads maxInnerDepth).object hwritten after

theorem Spells.unique {written : List (Bytes × Bytes)} (h : List.Forall₂ Spells written members)
    (h' : List.Forall₂ Spells written members') : members = members' := by
  induction h generalizing members' with
  | nil =>
    cases h'
    rfl
  | @cons w m _ _ hspells _ ih =>
    cases h' with
    | @cons _ m' _ _ hspells' hrest =>
      have hkey : m.1 = m'.1 := Option.some.inj (hspells.1.symm.trans hspells'.1)
      have hvalue : m.2 = m'.2 := hspells.2.symm.trans hspells'.2
      rw [Prod.ext hkey hvalue, ih hrest]

/-- The members of an object are determined by its text. -/
theorem ObjectText.unique (h : ObjectText members data) (h' : ObjectText members' data) :
    members = members' := by
  obtain ⟨written, rest, after, hskip, -, hread, hspells⟩ := h.read
  obtain ⟨written', rest', after', hskip', -, hread', hspells'⟩ := h'.read
  rw [hskip] at hskip'
  cases hskip'
  rw [hread] at hread'
  cases hread'
  exact Spells.unique hspells hspells'

theorem ObjectText.checkValid (h : ObjectText members data) : checkValid data = true := by
  obtain ⟨written, rest, after, hskip, hafter, hread, -⟩ := h.read
  have hvalue : valueEnd maxNestingDepth (openBrace :: rest) = some after := by
    rw [maxNestingDepth, valueEnd, if_neg (by decide), if_pos rfl, hread, Option.map_some]
  rw [Json.checkValid, hskip, hvalue]
  exact decide_eq_true (skipSpace_of_spaces hafter)

/-- A valid text that starts with a brace is one object. -/
theorem objectText_of_checkValid {rest : Bytes} (hvalid : checkValid data = true)
    (hskip : skipSpace data = openBrace :: rest) : ∃ members, ObjectText members data := by
  rw [checkValid, hskip, maxNestingDepth, valueEnd, if_neg (by decide), if_pos rfl] at hvalid
  split at hvalid
  · cases hvalid
  rename_i after hread
  obtain ⟨⟨written, after'⟩, hsequence, hpair⟩ := Option.map_eq_some_iff.mp hread
  cases hpair
  obtain ⟨body, rfl, hbody⟩ := body_of_read (valueEnd_reads maxInnerDepth).member_sound hsequence
  obtain ⟨members, hmembers⟩ := hbody.named
  obtain ⟨before, hdata, hbefore⟩ := exists_skipSpace data
  obtain ⟨space, hafter, hspace⟩ := exists_skipSpace after'
  have hnil : skipSpace after' = [] := of_decide_eq_true hvalid
  rw [hnil, List.append_nil] at hafter
  refine ⟨members, before, body, after', ?_, hbefore, by rwa [hafter], hmembers⟩
  rw [← hskip]
  exact hdata

/-! ### What is stored -/

section

variable {s : Struct} {foldRune : Char → Char} {member : String × Bytes} {field : Field}

theorem Spells.foldl {written : List (Bytes × Bytes)} (h : List.Forall₂ Spells written members)
    (state : Target × Bool) :
    written.foldl (storeMember s foldRune) state = members.foldl (storeField s foldRune) state := by
  induction h generalizing state with
  | nil => rfl
  | @cons w m _ _ hspells _ ih =>
    have hstep : storeMember s foldRune state w = storeField s foldRune state m := by
      rw [storeMember, hspells.1, hspells.2]
    rw [List.foldl_cons, List.foldl_cons, hstep, ih]

theorem unmarshal_objectText (h : ObjectText members data) (target : Target) :
    unmarshal s foldRune data target =
      match members.foldl (storeField s foldRune) (target, false) with
      | (target', false) => some target'
      | (_, true) => none := by
  obtain ⟨written, rest, after, hskip, -, hread, hspells⟩ := h.read
  rw [unmarshal, h.checkValid, if_neg (by decide), hskip]
  dsimp only
  rw [if_pos rfl, hread]
  dsimp only
  rw [Spells.foldl hspells]

/-- The value fits the field that its key finds. -/
def Fits (s : Struct) (foldRune : Char → Char) (member : String × Bytes) : Prop :=
  ∀ field, s.find foldRune member.1 = some field → (field.type.value member.2).isSome = true

theorem storeField_of_fits (hnull : member.2 ≠ nullText) (hfits : Fits s foldRune member)
    (state : Target × Bool) :
    (s.find foldRune member.1 = none ∧ storeField s foldRune state member = state) ∨
      ∃ field value, s.find foldRune member.1 = some field ∧
        field.type.value member.2 = some value ∧
        storeField s foldRune state member =
          (Function.update state.1 field.name value, state.2) := by
  cases hfind : s.find foldRune member.1 with
  | none => exact Or.inl ⟨rfl, by rw [storeField, hfind]⟩
  | some field =>
    obtain ⟨value, hvalue⟩ := Option.isSome_iff_exists.mp (hfits field hfind)
    refine Or.inr ⟨field, value, rfl, hvalue, ?_⟩
    rw [storeField, hfind]
    dsimp only
    rw [FieldType.store, if_neg hnull, hvalue]

theorem storeField_of_not_fits (hnull : member.2 ≠ nullText) (hfits : ¬ Fits s foldRune member)
    (state : Target × Bool) : storeField s foldRune state member = (state.1, true) := by
  rw [Fits, not_forall] at hfits
  obtain ⟨field, hfield⟩ := hfits
  rw [Classical.not_imp, Bool.not_eq_true, Option.isSome_eq_false_iff, Option.isNone_iff_eq_none]
    at hfield
  rw [storeField, hfield.1]
  dsimp only
  rw [FieldType.store, if_neg hnull, hfield.2]

/-- The error of a value that does not fit stays. -/
theorem foldl_storeField_error (hnull : ∀ m ∈ members, m.2 ≠ nullText) (state : Target × Bool) :
    (members.foldl (storeField s foldRune) state).2 = false ↔
      state.2 = false ∧ ∀ m ∈ members, Fits s foldRune m := by
  induction members generalizing state with
  | nil => simp
  | cons member members ih =>
    rw [List.foldl_cons, ih (fun m hm => hnull m (List.mem_cons_of_mem _ hm)), List.forall_mem_cons]
    have hhead := hnull member List.mem_cons_self
    by_cases hfits : Fits s foldRune member
    · rcases storeField_of_fits hhead hfits state with ⟨-, hstore⟩ | ⟨_, _, -, -, hstore⟩ <;>
        simp [hstore, hfits]
    · simp [storeField_of_not_fits hhead hfits state, hfits]

/-- **`Unmarshal` of an object without nulls** fails on a value that does not fit and on nothing
else. -/
theorem unmarshal_eq_some_iff (h : ObjectText members data)
    (hnull : ∀ m ∈ members, m.2 ≠ nullText) {target result : Target} :
    unmarshal s foldRune data target = some result ↔ (∀ m ∈ members, Fits s foldRune m) ∧
      result = (members.foldl (storeField s foldRune) (target, false)).1 := by
  have herror := @foldl_storeField_error members s foldRune hnull (target, false)
  rw [unmarshal_objectText h]
  rcases hfold : members.foldl (storeField s foldRune) (target, false) with ⟨target', failed⟩
  rw [hfold] at herror
  cases failed with
  | false =>
    rw [Option.some_inj]
    exact ⟨fun heq => ⟨(herror.mp rfl).2, heq.symm⟩, fun hboth => hboth.2.symm⟩
  | true =>
    constructor
    · intro hnone
      cases hnone
    · rintro ⟨hfits, -⟩
      cases herror.mpr ⟨rfl, hfits⟩

theorem checkValid_of_unmarshal {target result : Target}
    (h : unmarshal s foldRune data target = some result) : checkValid data = true := by
  rw [unmarshal] at h
  split at h
  · cases h
  rename_i hvalid
  rwa [Bool.not_eq_false] at hvalid

/-- A field that no key finds stays as it is. -/
theorem foldl_storeField_frame {name : String} (hnull : ∀ m ∈ members, m.2 ≠ nullText)
    (hfits : ∀ m ∈ members, Fits s foldRune m)
    (hname : ∀ m ∈ members, ∀ field, s.find foldRune m.1 = some field → field.name ≠ name)
    (state : Target × Bool) :
    (members.foldl (storeField s foldRune) state).1 name = state.1 name := by
  induction members generalizing state with
  | nil => rfl
  | cons member members ih =>
    rw [List.forall_mem_cons] at hnull hfits hname
    rw [List.foldl_cons, ih hnull.2 hfits.2 hname.2]
    rcases storeField_of_fits hnull.1 hfits.1 state with
      ⟨-, hstore⟩ | ⟨field, value, hfind, -, hstore⟩
    · rw [hstore]
    · rw [hstore]
      exact Function.update_of_ne (hname.1 field hfind).symm _ _

/-- A key of its own finds the field of its name. -/
theorem Struct.find_name (h : field ∈ s.fields) : s.find foldRune field.name = some field := by
  have hexact : (s.fields.find? fun f => f.name = field.name) = some field :=
    Table.lookup_of_mem s.distinct h
  rw [Struct.find, hexact, Option.some_or]

/-- A field holds the value of the key of its name, where every key is the name of a field. -/
theorem foldl_storeField_value {text : Bytes} (hfield : field ∈ s.fields)
    (hnull : ∀ m ∈ members, m.2 ≠ nullText) (hfits : ∀ m ∈ members, Fits s foldRune m)
    (hnames : ∀ m ∈ members, ∃ f ∈ s.fields, f.name = m.1) (hkeys : (members.map Prod.fst).Nodup)
    (hmem : (field.name, text) ∈ members) (state : Target × Bool) :
    field.type.value text = some ((members.foldl (storeField s foldRune) state).1 field.name) := by
  induction members generalizing state with
  | nil => cases hmem
  | cons member members ih =>
    rw [List.forall_mem_cons] at hnull hfits hnames
    rw [List.map_cons, List.nodup_cons] at hkeys
    rw [List.foldl_cons]
    rcases List.mem_cons.mp hmem with rfl | hmem
    · -- no later key finds the field again
      have hlater : ∀ m ∈ members, ∀ f, s.find foldRune m.1 = some f → f.name ≠ field.name := by
        intro m hm f hfind hname
        obtain ⟨f', hf', hf'name⟩ := hnames.2 m hm
        rw [← hf'name, Struct.find_name hf'] at hfind
        cases hfind
        exact hkeys.1 (List.mem_map.mpr ⟨m, hm, hf'name.symm.trans hname⟩)
      rw [foldl_storeField_frame hnull.2 hfits.2 hlater]
      rcases storeField_of_fits hnull.1 hfits.1 state with
        ⟨hnone, -⟩ | ⟨f, value, hfind, hvalue, hstore⟩
      · rw [Struct.find_name hfield] at hnone
        cases hnone
      · rw [Struct.find_name hfield] at hfind
        cases hfind
        rw [hstore, hvalue]
        exact congrArg some (Function.update_self field.name value state.1).symm
    · exact ih hnull.2 hfits.2 hnames.2 hkeys.2 hmem _

end

end Json
end Foundations
end FlickDrop
