import FlickDrop.Foundations.JsonStruct
import FlickDrop.Requests.Validation

/-!
# Strict objects

Model of `DecodeObject` in `internal/requests/validation.go`, which reads its input twice.  A
loop over the token stream refuses unknown and repeated keys, nulls, missing keys and anything
behind the object; the lenient `Unmarshal` then fills the target.

`decodeObject_reads` says that the two passes accept exactly the strict objects and that the
second pass stores the values the first one saw.
-/

namespace FlickDrop
namespace Requests

open Foundations Json

/-- The loop over the members, up to what is no member.  Every turn takes a key and a value, so
`fuel` above the length of the input is never used up. -/
def readMembers (allowed : List String) : Nat → Decoder → List String →
    Except Err (Decoder × List String)
  | 0, _, _ => .error .other
  | fuel + 1, d, seen =>
    if d.more = false then .ok (d, seen)
    else
      match d.token with
      | .ok (.string key, d) =>
        if key ∉ allowed ∨ key ∈ seen then .error .invalid
        else
          match d.decode with
          | .error _ => .error .invalid
          | .ok (raw, d) =>
            if trimSpace raw = nullText then .error .invalid
            else readMembers allowed fuel d (key :: seen)
      | _ => .error .invalid

/-- The first pass: the keys of the object. -/
def readKeys (allowed : List String) (data : Bytes) : Except Err (List String) :=
  match (newDecoder data).token with
  | .ok (.delim c, d) =>
    if c ≠ openBrace then .error .invalid
    else
      match readMembers allowed (data.length + 1) d [] with
      | .error err => .error err
      | .ok (d, seen) =>
        match d.token with
        | .ok (.delim c, d) =>
          if c ≠ closeBrace then .error .invalid
          else
            match d.decode with
            | .error .eof => .ok seen
            | _ => .error .invalid
        | _ => .error .invalid
  | _ => .error .invalid

/-- `DecodeObject`. -/
def decodeObject (foldRune : Char → Char) (s : Struct) (required optional : List String)
    (data : Bytes) (target : Target) : Except Err Target :=
  match readKeys (required ++ optional) data with
  | .error err => .error err
  | .ok seen =>
    if ∃ key ∈ required, key ∉ seen then .error .invalid
    else
      match unmarshal s foldRune data target with
      | none => .error .invalid
      | some target' => .ok target'

/-! ### The first pass -/

section

variable {allowed seen : List String} {d : Decoder} {fuel : Nat} {data : Bytes} {err : Err}

/-- The members that the loop lets pass after the keys `seen`. -/
def Admitted (allowed : List String) : List String → List (String × Bytes) → Prop
  | _, [] => True
  | seen, m :: members =>
    m.1 ∈ allowed ∧ m.1 ∉ seen ∧ m.2 ≠ nullText ∧ Admitted allowed (m.1 :: seen) members

theorem admitted_iff {members : List (String × Bytes)} :
    Admitted allowed seen members ↔ (members.map Prod.fst).Nodup ∧
      (∀ m ∈ members, m.1 ∈ allowed) ∧ (∀ m ∈ members, m.2 ≠ nullText) ∧
      ∀ m ∈ members, m.1 ∉ seen := by
  induction members generalizing seen with
  | nil => simp [Admitted]
  | cons m members ih =>
    rw [Admitted, ih, List.map_cons, List.nodup_cons, List.forall_mem_cons, List.forall_mem_cons,
      List.forall_mem_cons]
    simp only [List.mem_cons, not_or, List.mem_map, not_exists, not_and]
    constructor
    · rintro ⟨hallowed, hseen, hnull, hnodup, hall, hnulls, hfresh⟩
      exact ⟨⟨fun x hx heq => (hfresh x hx).1 heq, hnodup⟩, ⟨hallowed, hall⟩, ⟨hnull, hnulls⟩,
        hseen, fun x hx => (hfresh x hx).2⟩
    · rintro ⟨⟨hhead, hnodup⟩, ⟨hallowed, hall⟩, ⟨hnull, hnulls⟩, hseen, hfresh⟩
      exact ⟨hallowed, hseen, hnull, hnodup, hall, hnulls,
        fun x hx => ⟨fun heq => hhead x hx heq, hfresh x hx⟩⟩

/-- One turn of the loop on a member of the grammar. -/
theorem readMembers_step {member : String × Bytes} {text rest : Bytes}
    (h : d.AtMember (text ++ rest)) (htext : NamedMember member text) (hrest : Stops rest) :
    ∃ space, Spaces space ∧ readMembers allowed (fuel + 1) d seen =
      if member.1 ∉ allowed ∨ member.1 ∈ seen then .error .invalid
      else if member.2 = nullText then .error .invalid
      else readMembers allowed fuel ⟨space ++ rest, .objectComma, d.stack⟩ (member.1 :: seen) := by
  obtain ⟨written, hwritten, htext⟩ := htext
  have hvalue : IsValue maxInnerDepth member.2 := by
    obtain ⟨-, -, -, -, -, -, -, -, -, -, -, hvalue, -⟩ := htext
    exact hvalue
  obtain ⟨key, behind, space, hkey, htoken, hspace, hdecode⟩ := h.read htext hrest
  have hname : key = member.1 := Option.some.inj (hkey.symm.trans hwritten)
  subst hname
  refine ⟨space, hspace, ?_⟩
  rw [readMembers, h.more htext, if_neg (by decide), htoken]
  dsimp only
  rw [hdecode]
  dsimp only
  simp only [hvalue.trimSpace_eq_null]

/-- The loop goes on behind a member it lets pass, and stops at any other. -/
theorem readMembers_cases {member : String × Bytes} {text rest : Bytes}
    (h : d.AtMember (text ++ rest)) (htext : NamedMember member text) (hrest : Stops rest) :
    (member.1 ∈ allowed ∧ member.1 ∉ seen ∧ member.2 ≠ nullText ∧
        ∃ space, Spaces space ∧ readMembers allowed (fuel + 1) d seen =
          readMembers allowed fuel ⟨space ++ rest, .objectComma, d.stack⟩ (member.1 :: seen)) ∨
      ((∀ members, ¬ Admitted allowed seen (member :: members)) ∧
        readMembers allowed (fuel + 1) d seen = .error .invalid) := by
  obtain ⟨space, hspace, hstep⟩ := @readMembers_step allowed seen d fuel _ _ _ h htext hrest
  rw [hstep]
  split
  · rename_i hrefused
    refine Or.inr ⟨fun members hadmitted => ?_, rfl⟩
    exact hrefused.elim (fun h => h hadmitted.1) hadmitted.2.1
  · rename_i hkey
    rw [not_or, not_not] at hkey
    split
    · rename_i hnull
      exact Or.inr ⟨fun members hadmitted => hadmitted.2.2.1 hnull, rfl⟩
    · rename_i hnull
      exact Or.inl ⟨hkey.1, hkey.2, hnull, space, hspace, rfl⟩

/-- **The loop on the members of an object.** -/
theorem readMembers_items {members : List (String × Bytes)} {body after : Bytes}
    (hitems : Items NamedMember members body) (hfuel : members.length < fuel)
    (h : d.AtMember (body ++ closeBrace :: after)) :
    (Admitted allowed seen members ∧ ∃ d', d'.AtEnd after ∧ d'.stack = d.stack ∧
        readMembers allowed fuel d seen = .ok (d', (members.map Prod.fst).reverse ++ seen)) ∨
      (¬ Admitted allowed seen members ∧ readMembers allowed fuel d seen = .error .invalid) := by
  induction hitems generalizing d seen fuel with
  | @one member text hmember =>
    obtain ⟨fuel, rfl⟩ : ∃ n, fuel = n + 2 := ⟨fuel - 2, by simp at hfuel; omega⟩
    rcases @readMembers_cases allowed seen d (fuel + 1) _ _ _ h hmember
      (stops_cons (Or.inr (Or.inr (Or.inr rfl))) after) with
      ⟨hallowed, hseen, hnull, space, hspace, hstep⟩ | ⟨hrefused, hstep⟩
    · have hend : Decoder.AtEnd ⟨space ++ closeBrace :: after, .objectComma, d.stack⟩ after :=
        ⟨Or.inr rfl, space, hspace, rfl⟩
      refine Or.inl ⟨⟨hallowed, hseen, hnull, trivial⟩, _, hend, rfl, ?_⟩
      rw [hstep, readMembers, hend.more, if_pos rfl]
      rfl
    · exact Or.inr ⟨hrefused [], hstep⟩
  | @more member text members body hmember _ ih =>
    obtain ⟨fuel, rfl⟩ : ∃ n, fuel = n + 1 := ⟨fuel - 1, by simp at hfuel; omega⟩
    rw [List.append_assoc, List.cons_append] at h
    rcases @readMembers_cases allowed seen d fuel _ _ _ h hmember (stops_cons (Or.inl rfl) _) with
      ⟨hallowed, hseen, hnull, space, hspace, hstep⟩ | ⟨hrefused, hstep⟩
    · rw [hstep]
      have hnext : Decoder.AtMember ⟨space ++ comma :: (body ++ closeBrace :: after), .objectComma,
          d.stack⟩ (body ++ closeBrace :: after) := Or.inr ⟨rfl, space, hspace, rfl⟩
      rcases @ih (member.1 :: seen) _ fuel (Nat.lt_of_succ_lt_succ hfuel) hnext with
        ⟨hadmitted, d', hend, hstack, hread⟩ | ⟨hrefused, hread⟩
      · refine Or.inl ⟨⟨hallowed, hseen, hnull, hadmitted⟩, d', hend, hstack, ?_⟩
        rw [hread, List.map_cons, List.reverse_cons, List.append_assoc, List.cons_append,
          List.nil_append]
      · exact Or.inr ⟨fun hadmitted => hrefused hadmitted.2.2.2, hread⟩
    · exact Or.inr ⟨hrefused members, hstep⟩

theorem readMembers_body {members : List (String × Bytes)} {body after : Bytes}
    (hbody : Body NamedMember members body) (hfuel : members.length < fuel)
    (hstate : d.state = .objectStart) (hrest : d.rest = body ++ closeBrace :: after) :
    (Admitted allowed [] members ∧ ∃ d', d'.AtEnd after ∧ d'.stack = d.stack ∧
        readMembers allowed fuel d [] = .ok (d', (members.map Prod.fst).reverse)) ∨
      (¬ Admitted allowed [] members ∧ readMembers allowed fuel d [] = .error .invalid) := by
  rcases hbody with ⟨rfl, hspaces⟩ | hitems
  · have hend : d.AtEnd after := ⟨Or.inl hstate, body, hspaces, hrest⟩
    obtain ⟨fuel, rfl⟩ : ∃ n, fuel = n + 1 := ⟨fuel - 1, by simp at hfuel; omega⟩
    refine Or.inl ⟨trivial, d, hend, rfl, ?_⟩
    rw [readMembers, hend.more, if_pos rfl]
    rfl
  · have hloop := @readMembers_items allowed [] d fuel _ _ _ hitems hfuel (Or.inl ⟨hstate, hrest⟩)
    rwa [List.append_nil] at hloop

/-- **The first pass on an object**: its keys, if it admits them. -/
theorem readKeys_objectText {members : List (String × Bytes)} {data : Bytes}
    (h : ObjectText members data) :
    (Admitted allowed [] members ∧ readKeys allowed data = .ok (members.map Prod.fst).reverse) ∨
      (¬ Admitted allowed [] members ∧ readKeys allowed data = .error .invalid) := by
  obtain ⟨before, body, after, rfl, hbefore, hafter, hbody⟩ := h
  have hskip : skipSpace (before ++ openBrace :: (body ++ closeBrace :: after)) =
      openBrace :: (body ++ closeBrace :: after) := by
    rw [skipSpace_append hbefore, skipSpace_cons (by decide)]
  -- the members are fewer than the bytes of the text
  have hfuel : members.length <
      (before ++ openBrace :: (body ++ closeBrace :: after)).length + 1 := by
    have hcount : members.length ≤ body.length + 1 := by
      rcases hbody with ⟨rfl, -⟩ | hitems
      · exact Nat.zero_le _
      · exact hitems.length_le
    simp only [List.length_append, List.length_cons]
    omega
  rw [readKeys, Decoder.newDecoder_token hskip]
  dsimp only
  rw [if_neg (by decide)]
  rcases @readMembers_body allowed ⟨body ++ closeBrace :: after, .objectStart,
    [.topValue]⟩ _ _ _ after
    hbody hfuel rfl rfl with ⟨hadmitted, d', hend, hstack, hread⟩ | ⟨hrefused, hread⟩
  · refine Or.inl ⟨hadmitted, ?_⟩
    rw [hread]
    dsimp only
    rw [hend.token hstack]
    dsimp only [TokenState.valueEnd]
    rw [if_neg (by decide), Decoder.decode_spaces hafter]
  · refine Or.inr ⟨hrefused, ?_⟩
    rw [hread]

/-- The loop ends before its fuel does. -/
theorem readMembers_error (hfuel : d.rest.length < fuel)
    (h : readMembers allowed fuel d seen = .error err) : err = .invalid := by
  induction fuel generalizing d seen with
  | zero => cases hfuel
  | succ fuel ih =>
    rw [readMembers] at h
    split at h
    · cases h
    split at h
    · rename_i key d₁ htoken
      split at h
      · cases h
        rfl
      · split at h
        · cases h
          rfl
        · rename_i raw d₂ hdecode
          split at h
          · cases h
            rfl
          · have htoken := Decoder.token_length htoken
            have hdecode := Decoder.decode_length hdecode
            exact ih (by omega) h
    · cases h
      rfl

theorem readKeys_error (h : readKeys allowed data = .error err) : err = .invalid := by
  rw [readKeys] at h
  split at h
  · rename_i c d htoken
    have hskip := Decoder.skipSpace_of_token htoken
    have hlength := Decoder.skipSpace_length_le data
    rw [hskip, List.length_cons] at hlength
    split at h
    · cases h
      rfl
    · split at h
      · rename_i err' hread
        cases h
        exact readMembers_error (by omega) hread
      · split at h
        · split at h
          · cases h
            rfl
          · split at h
            · cases h
            cases h
            rfl
        · cases h
          rfl
  · cases h
    rfl

theorem readKeys_openBrace (h : readKeys allowed data = .ok seen) :
    ∃ rest, skipSpace data = openBrace :: rest := by
  rw [readKeys] at h
  split at h
  · rename_i c d htoken
    split at h
    · cases h
    rename_i hc
    rw [not_not] at hc
    subst hc
    exact ⟨_, Decoder.skipSpace_of_token htoken⟩
  · cases h

end

/-! ### Both passes -/

section

variable {foldRune : Char → Char} {s : Struct} {required optional : List String} {data : Bytes}
  {target : Target} {members : List (String × Bytes)}

/-- **The strict objects**: one object and nothing else, with distinct keys out of the allowed
ones and all the required ones, no null and no value that its field cannot hold. -/
structure IsStrict (foldRune : Char → Char) (s : Struct) (required optional : List String)
    (members : List (String × Bytes)) (data : Bytes) : Prop where
  object : ObjectText members data
  distinct : (members.map Prod.fst).Nodup
  allowed : ∀ m ∈ members, m.1 ∈ required ++ optional
  complete : ∀ key ∈ required, key ∈ members.map Prod.fst
  nonnull : ∀ m ∈ members, m.2 ≠ nullText
  fits : ∀ m ∈ members, Fits s foldRune m

theorem IsStrict.readKeys (h : IsStrict foldRune s required optional members data) :
    readKeys (required ++ optional) data = .ok (members.map Prod.fst).reverse := by
  have hadmitted : Admitted (required ++ optional) [] members :=
    admitted_iff.mpr ⟨h.distinct, h.allowed, h.nonnull, fun _ _ => List.not_mem_nil⟩
  rcases @readKeys_objectText (required ++ optional) _ _ h.object with ⟨-, hread⟩ | ⟨hrefused, -⟩
  · exact hread
  · exact absurd hadmitted hrefused

/-- Both passes accept the strict objects and no others. -/
theorem decodeObject_ok_iff {result : Target} :
    decodeObject foldRune s required optional data target = .ok result ↔
      ∃ members, IsStrict foldRune s required optional members data ∧
        result = (members.foldl (storeField s foldRune) (target, false)).1 := by
  rw [decodeObject]
  constructor
  · intro h
    split at h
    · cases h
    rename_i seen hkeys
    split at h
    · cases h
    rename_i hcomplete
    split at h
    · cases h
    rename_i target' hfill
    cases h
    -- the second pass accepts valid texts only, and the first one asks for a brace
    obtain ⟨rest, hskip⟩ := readKeys_openBrace hkeys
    obtain ⟨members, hobject⟩ := objectText_of_checkValid (checkValid_of_unmarshal hfill) hskip
    rcases @readKeys_objectText (required ++ optional) _ _ hobject with
      ⟨hadmitted, hread⟩ | ⟨-, hread⟩
    · rw [hread] at hkeys
      cases hkeys
      obtain ⟨hdistinct, hallowed, hnull, -⟩ := admitted_iff.mp hadmitted
      obtain ⟨hfits, hresult⟩ := (unmarshal_eq_some_iff hobject hnull).mp hfill
      refine ⟨members, ⟨hobject, hdistinct, hallowed, ?_, hnull, hfits⟩, hresult⟩
      simpa using hcomplete
    · rw [hread] at hkeys
      cases hkeys
  · rintro ⟨members, hstrict, hresult⟩
    have hfill := (unmarshal_eq_some_iff hstrict.object hstrict.nonnull).mpr ⟨hstrict.fits, hresult⟩
    have hcomplete : ¬ ∃ key ∈ required, key ∉ (members.map Prod.fst).reverse := by
      rintro ⟨key, hkey, hnot⟩
      exact hnot (List.mem_reverse.mpr (hstrict.complete key hkey))
    rw [hstrict.readKeys]
    dsimp only
    rw [if_neg hcomplete, hfill]

/-- `DecodeObject` has one error. -/
theorem decodeObject_error {err : Err}
    (h : decodeObject foldRune s required optional data target = .error err) : err = .invalid := by
  rw [decodeObject] at h
  split at h
  · rename_i hkeys
    cases h
    exact readKeys_error hkeys
  · split at h
    · cases h
      rfl
    · split at h
      · cases h
        rfl
      · cases h

/-- A valid text whose second member has the key of the first. -/
def duplicateText : Bytes :=
  "\x7b\"version\":2,\"version\":2\x7d".toList.map fun c => UInt8.ofNat c.toNat

theorem decodeObject_error_duplicate : ∃ err,
    checkValid duplicateText = true ∧
    decodeObject id ⟨[⟨"version", .int⟩], by decide⟩ ["version"] [] duplicateText
      (fun _ => .int 0) = .error err ∧ err = .invalid := by
  have hkeys : readKeys ["version"] duplicateText = .error .invalid := by decide +kernel
  have hdecode : decodeObject id ⟨[⟨"version", .int⟩], by decide⟩ ["version"] [] duplicateText
      (fun _ => .int 0) = .error .invalid := by
    rw [decodeObject, List.append_nil, hkeys]
  exact ⟨_, by decide +kernel, hdecode, decodeObject_error hdecode⟩

/-- What the target holds, where every allowed name is the name of a field. -/
theorem IsStrict.filled (h : IsStrict foldRune s required optional members data)
    (hnames : ∀ key ∈ required ++ optional, ∃ field ∈ s.fields, field.name = key)
    (state : Target × Bool) :
    (∀ field ∈ s.fields, ∀ text, (field.name, text) ∈ members →
      field.type.value text = some ((members.foldl (storeField s foldRune) state).1 field.name)) ∧
    ∀ name, name ∉ members.map Prod.fst →
      (members.foldl (storeField s foldRune) state).1 name = state.1 name := by
  have hfields : ∀ m ∈ members, ∃ field ∈ s.fields, field.name = m.1 :=
    fun m hm => hnames m.1 (h.allowed m hm)
  constructor
  · intro field hfield text hmem
    exact foldl_storeField_value hfield h.nonnull h.fits hfields h.distinct hmem _
  · intro name hname
    refine foldl_storeField_frame h.nonnull h.fits ?_ _
    -- a key finds the field of its name and no other one
    intro m hm field hfind hfield
    obtain ⟨field', hfield', hname'⟩ := hfields m hm
    rw [← hname', Struct.find_name hfield'] at hfind
    cases hfind
    exact hname (List.mem_map.mpr ⟨m, hm, hname'.symm.trans hfield⟩)

end

/-! ### The objects of the interface -/

/-- A struct with the names that are allowed for it, each the name of a field. -/
structure Form where
  struct : Struct
  required : List String
  optional : List String
  named : ∀ key ∈ required ++ optional, ∃ field ∈ struct.fields, field.name = key

/-- `Envelope`, as `validateEnvelope` reads it. -/
def envelopeForm : Form where
  struct := ⟨[⟨"version", .int⟩, ⟨"encrypted_filename", .string⟩], by decide⟩
  required := ["version"]
  optional := ["encrypted_filename"]
  named := by decide

/-- `DecodeObject` into an empty struct. -/
def Form.decode (form : Form) (foldRune : Char → Char) (data : Bytes) : Except Err Target :=
  decodeObject foldRune form.struct form.required form.optional data form.struct.zero

/-- The envelope of a submission: the decoder that `validateEnvelope` is given. -/
def decodeEnvelope (foldRune : Char → Char) (raw : Bytes) : Option Envelope :=
  match envelopeForm.decode foldRune raw with
  | .error _ => none
  | .ok target =>
    match target "version", target "encrypted_filename" with
    | .int version, .string name => some ⟨version, name⟩
    | _, _ => none

/-- An envelope has the version of its object, and its filename where there is one. -/
theorem decodeEnvelope_eq_some {foldRune : Char → Char} {raw : Bytes} {e : Envelope}
    (h : decodeEnvelope foldRune raw = some e) :
    ∃ members, IsStrict foldRune envelopeForm.struct ["version"]
      ["encrypted_filename"] members raw ∧
      (∃ text, ("version", text) ∈ members ∧ parseInt (asciiChars text) = some e.version) ∧
      ((∃ text, ("encrypted_filename", text) ∈ members ∧ unquote text = some e.encryptedFilename) ∨
        "encrypted_filename" ∉ members.map Prod.fst ∧ e.encryptedFilename = "") := by
  rw [decodeEnvelope] at h
  split at h
  · cases h
  rename_i target hdecode
  obtain ⟨members, hstrict, rfl⟩ := decodeObject_ok_iff.mp hdecode
  obtain ⟨hvalues, hframe⟩ := hstrict.filled envelopeForm.named (envelopeForm.struct.zero, false)
  split at h
  · rename_i version name hversion hname
    cases h
    refine ⟨members, hstrict, ?_, ?_⟩
    · obtain ⟨m, hm, hkey⟩ := List.mem_map.mp (hstrict.complete "version" (by decide))
      have hmem : ("version", m.2) ∈ members := by rwa [← hkey]
      have hvalue := hvalues ⟨"version", .int⟩ (by decide) m.2 hmem
      rw [hversion] at hvalue
      obtain ⟨n, hn, heq⟩ := Option.map_eq_some_iff.mp hvalue
      cases heq
      exact ⟨m.2, hmem, hn⟩
    · by_cases hkey : "encrypted_filename" ∈ members.map Prod.fst
      · obtain ⟨m, hm, hkey⟩ := List.mem_map.mp hkey
        have hmem : ("encrypted_filename", m.2) ∈ members := by rwa [← hkey]
        have hvalue := hvalues ⟨"encrypted_filename", .string⟩ (by decide) m.2 hmem
        rw [hname] at hvalue
        obtain ⟨text, htext, heq⟩ := Option.map_eq_some_iff.mp hvalue
        cases heq
        exact Or.inl ⟨m.2, hmem, htext⟩
      · -- the field keeps its zero value
        have hzero := hframe "encrypted_filename" hkey
        rw [hname] at hzero
        cases hzero
        exact Or.inr ⟨hkey, rfl⟩
  · cases h

/-- **`DecodeObject` accepts the strict objects**, whatever lists it is given.  The first pass
then saw the keys of the one object the text stands for.  Where every allowed name is the name of
a field, each field holds what the object says under its name, and the fields it does not mention
stay as they are. -/
theorem decodeObject_reads (foldRune : Char → Char) (s : Struct) (required optional : List String)
    (data : Bytes) (target : Target) :
    ((∃ result, decodeObject foldRune s required optional data target = .ok result) ↔
      ∃ members, IsStrict foldRune s required optional members data) ∧
    ∀ result, decodeObject foldRune s required optional data target = .ok result →
      (∀ key ∈ required ++ optional, ∃ field ∈ s.fields, field.name = key) →
      ∃ members, (∀ others, ObjectText others data ↔ others = members) ∧
        readKeys (required ++ optional) data = .ok (members.map Prod.fst).reverse ∧
        (∀ field ∈ s.fields, ∀ text, (field.name, text) ∈ members →
          field.type.value text = some (result field.name)) ∧
        ∀ name, name ∉ members.map Prod.fst → result name = target name := by
  constructor
  · constructor
    · rintro ⟨result, h⟩
      obtain ⟨members, hstrict, -⟩ := decodeObject_ok_iff.mp h
      exact ⟨members, hstrict⟩
    · rintro ⟨members, hstrict⟩
      exact ⟨_, decodeObject_ok_iff.mpr ⟨members, hstrict, rfl⟩⟩
  · intro result h hnames
    obtain ⟨members, hstrict, rfl⟩ := decodeObject_ok_iff.mp h
    refine ⟨members, ?_, ?_, hstrict.filled hnames (target, false)⟩
    · intro others
      constructor
      · exact fun hothers => hothers.unique hstrict.object
      · rintro rfl
        exact hstrict.object
    · exact hstrict.readKeys

/-- An envelope without a filename, with an escape in its key. -/
def sampleEnvelope : Bytes :=
  "\x7b \"\\u0076ersion\" : 2\x7d\n".toList.map fun c => UInt8.ofNat c.toNat

theorem decodeObject_reads_sample :
    ∃ result members, envelopeForm.decode id sampleEnvelope = .ok result ∧
      ObjectText members sampleEnvelope ∧ members.map Prod.fst = ["version"] ∧
      ∀ text, ("version", text) ∈ members →
        FieldType.int.value text = some (result "version") := by
  have hok : (envelopeForm.decode id sampleEnvelope).isOk = true := by decide +kernel
  have hkeys : readKeys ["version", "encrypted_filename"] sampleEnvelope = .ok ["version"] := by
    decide +kernel
  cases hdecode : envelopeForm.decode id sampleEnvelope with
  | error err =>
    rw [hdecode] at hok
    cases hok
  | ok result =>
    obtain ⟨members, hobject, hread, hvalues, -⟩ := (decodeObject_reads id envelopeForm.struct
      ["version"] ["encrypted_filename"] sampleEnvelope envelopeForm.struct.zero).2 result hdecode
      envelopeForm.named
    have hmembers : (members.map Prod.fst).reverse = ["version"] :=
      Except.ok.inj (hread.symm.trans hkeys)
    exact ⟨result, members, rfl, (hobject members).mpr rfl, List.reverse_eq_iff.mp hmembers,
      hvalues ⟨"version", .int⟩ (by decide)⟩

end Requests
end FlickDrop
