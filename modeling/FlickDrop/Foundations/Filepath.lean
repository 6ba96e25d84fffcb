import FlickDrop.Foundations.Text

/-!
# Unix paths

Go's `path/filepath` on Unix: `Clean`, `Join`, `Base`, `Dir` and `Ext`.  A cleaned path is a list
of components, the last on top of a stack; `front` is what stands before a name joined to a
directory.
-/

namespace FlickDrop
namespace Foundations
namespace Filepath

/-- One component of a path that is being cleaned. -/
def push (rooted : Bool) (stack : List (List Char)) (part : List Char) : List (List Char) :=
  if part = [] ∨ part = ['.'] then
    stack
  else if part = ['.', '.'] then
    match stack with
    | [] => if rooted then [] else [part]
    | top :: rest => if top = ['.', '.'] then part :: top :: rest else rest
  else
    part :: stack

def rooted (path : List Char) : Bool := path.head? == some '/'

/-- The components that cleaning keeps, the last one first. -/
def stack (path : List Char) : List (List Char) :=
  (path.splitOn '/').foldl (push (rooted path)) []

def render (rooted : Bool) (parts : List (List Char)) : List Char :=
  if rooted then '/' :: ['/'].intercalate parts
  else if parts = [] then ['.']
  else ['/'].intercalate parts

/-- `filepath.Clean`. -/
def clean (path : List Char) : List Char := render (rooted path) (stack path).reverse

/-- `filepath.Join` of a directory and a name. -/
def join (dir name : List Char) : List Char :=
  if dir ≠ [] then clean (dir ++ '/' :: name)
  else if name ≠ [] then clean name
  else []

/-- The text after the last separator. -/
def lastPart (path : List Char) : List Char := (path.reverse.takeWhile (· ≠ '/')).reverse

/-- `filepath.Base`. -/
def base (path : List Char) : List Char :=
  if path = [] then
    ['.']
  else
    let last := lastPart (path.reverse.dropWhile (· = '/')).reverse
    if last = [] then ['/'] else last

/-- `filepath.Dir`. -/
def dir (path : List Char) : List Char := clean (path.reverse.dropWhile (· ≠ '/')).reverse

/-- `filepath.Ext`. -/
def ext (path : List Char) : List Char :=
  match cutLast '.' (lastPart path) with
  | some (_, rest) => '.' :: rest
  | none => []

/-- A name that stands for one directory entry. -/
def IsComponent (name : List Char) : Prop :=
  name ≠ [] ∧ '/' ∉ name ∧ name ≠ ['.'] ∧ name ≠ ['.', '.']

instance (name : List Char) : Decidable (IsComponent name) :=
  inferInstanceAs (Decidable (_ ∧ _ ∧ _ ∧ _))

/-! ### Cleaned components -/

/-- What a stack of cleaned components looks like: parent components stand only at the bottom of
a relative path. -/
def Cleaned (rooted : Bool) : List (List Char) → Prop
  | [] => True
  | part :: rest =>
    (part ≠ [] ∧ part ≠ ['.'] ∧ '/' ∉ part) ∧
    (part = ['.', '.'] → rooted = false ∧ ∀ below ∈ rest, below = ['.', '.']) ∧
    Cleaned rooted rest

variable {name part text : List Char} {c : Char}

theorem push_component {rooted : Bool} {stack : List (List Char)} (h : IsComponent name) :
    push rooted stack name = name :: stack := by
  obtain ⟨hne, -, hdot, hparent⟩ := h
  unfold push
  rw [if_neg (by simp [hne, hdot]), if_neg hparent]

/-- A cleaned stack is rebuilt by pushing its own components. -/
theorem push_cleaned {rooted : Bool} {rest : List (List Char)} (h : Cleaned rooted (part :: rest)) :
    push rooted rest part = part :: rest := by
  obtain ⟨⟨hne, hdot, -⟩, hparent, hrest⟩ := h
  unfold push
  rw [if_neg (by simp [hne, hdot])]
  split
  · rename_i hup
    obtain ⟨hroot, hbelow⟩ := hparent hup
    cases rest with
    | nil => simp [hroot]
    | cons top rest => simp [hbelow top List.mem_cons_self]
  · rfl

theorem foldl_push_cleaned {rooted : Bool} {stack : List (List Char)} (h : Cleaned rooted stack) :
    stack.reverse.foldl (push rooted) [] = stack := by
  induction stack with
  | nil => rfl
  | cons part rest ih =>
    rw [List.reverse_cons, List.foldl_append, ih h.2.2, List.foldl_cons, List.foldl_nil,
      push_cleaned h]

theorem Cleaned.push {rooted : Bool} {stack : List (List Char)} (h : Cleaned rooted stack)
    (hpart : '/' ∉ part) : Cleaned rooted (push rooted stack part) := by
  unfold Filepath.push
  split
  · exact h
  · rename_i hskip
    have hname : part ≠ [] ∧ part ≠ ['.'] := not_or.mp hskip
    split
    · rename_i hup
      split
      · split
        · trivial
        · rename_i hrelative
          refine ⟨⟨hname.1, hname.2, hpart⟩, fun _ => ⟨by simpa using hrelative, ?_⟩, trivial⟩
          intro below hno
          cases hno
      · rename_i top rest
        split
        · rename_i htop
          obtain ⟨hroot, hbelow⟩ := h.2.1 htop
          refine ⟨⟨hname.1, hname.2, hpart⟩, fun _ => ⟨hroot, ?_⟩, h⟩
          intro below hmem
          rcases List.mem_cons.mp hmem with rfl | hmem
          · exact htop
          · exact hbelow below hmem
        · exact h.2.2
    · rename_i hdown
      exact ⟨⟨hname.1, hname.2, hpart⟩, fun hup => absurd hup hdown, h⟩

theorem foldl_push_cleaned_of {rooted : Bool} {parts stack : List (List Char)}
    (h : Cleaned rooted stack) (hparts : ∀ part ∈ parts, '/' ∉ part) :
    Cleaned rooted (parts.foldl (Filepath.push rooted) stack) := by
  induction parts generalizing stack with
  | nil => exact h
  | cons part rest ih =>
    exact ih (h.push (hparts part List.mem_cons_self))
      fun later hmem => hparts later (List.mem_cons_of_mem _ hmem)

theorem notMem_of_mem_splitOn (h : part ∈ text.splitOn c) : c ∉ part := by
  induction text generalizing part with
  | nil =>
    have hempty : part = [] := by simpa [List.splitOn] using h
    simp [hempty]
  | cons x rest ih =>
    rw [List.splitOn, List.splitOnP_cons_eq_if_modifyHead, ← List.splitOn] at h
    split at h
    · rcases List.mem_cons.mp h with rfl | h
      · simp
      · exact ih h
    · rename_i hx
      cases hrest : rest.splitOn c with
      | nil => simp [hrest] at h
      | cons first others =>
        rw [hrest] at h ih
        rcases List.mem_cons.mp h with rfl | h
        · have hne : c ≠ x := fun heq => hx (by simp [heq])
          simpa [hne] using ih List.mem_cons_self
        · exact ih (List.mem_cons_of_mem _ h)

theorem stack_cleaned (path : List Char) : Cleaned (rooted path) (stack path) :=
  foldl_push_cleaned_of trivial fun _ => notMem_of_mem_splitOn

/-! ### A name in a directory -/

/-- The components of a path, each with its separator. -/
def separated (parts : List (List Char)) : List Char := parts.flatMap (· ++ ['/'])

/-- What stands before a name that is joined to a directory. -/
def front (d : List Char) : List Char :=
  (if rooted d then ['/'] else []) ++ separated (stack d).reverse

theorem intercalate_concat (parts : List (List Char)) (name : List Char) :
    ['/'].intercalate (parts ++ [name]) = separated parts ++ name := by
  induction parts with
  | nil => simp [separated]
  | cons part rest ih =>
    rw [List.cons_append, List.intercalate_cons_of_ne_nil (by simp), ih]
    simp [separated]

theorem splitOn_of_notMem (h : c ∉ text) : text.splitOn c = [text] := by
  refine List.splitOnP_eq_singleton ?_
  intro x hx
  simpa using fun heq : x = c => h (heq ▸ hx)

theorem splitOn_separated {parts : List (List Char)} (h : ∀ part ∈ parts, '/' ∉ part) :
    (separated parts).splitOn '/' = parts ++ [[]] := by
  induction parts with
  | nil => simp [separated, List.splitOn]
  | cons part rest ih =>
    have hsplit : separated (part :: rest) = part ++ '/' :: separated rest := by simp [separated]
    rw [hsplit, List.splitOn_append_cons_self, splitOn_of_notMem (h part List.mem_cons_self),
      ih fun later hmem => h later (List.mem_cons_of_mem _ hmem)]
    rfl

theorem Cleaned.parts {rooted : Bool} {stack : List (List Char)} (h : Cleaned rooted stack) :
    ∀ part ∈ stack, part ≠ [] ∧ '/' ∉ part := by
  induction stack with
  | nil => simp
  | cons part rest ih =>
    intro p hmem
    rcases List.mem_cons.mp hmem with rfl | hmem
    · exact ⟨h.1.1, h.1.2.2⟩
    · exact ih h.2.2 p hmem

theorem push_nil (rooted : Bool) (stack : List (List Char)) : push rooted stack [] = stack := by
  unfold push
  exact if_pos (.inl rfl)

theorem rooted_front (d : List Char) : rooted (front d) = rooted d := by
  cases hroot : rooted d with
  | true =>
    rw [front, hroot]
    rfl
  | false =>
    have hparts := (stack_cleaned d).parts
    rw [front, hroot]
    cases hstack : (stack d).reverse with
    | nil => rfl
    | cons part rest =>
      obtain ⟨hne, hslash⟩ := hparts part
        (List.mem_reverse.mp (by rw [hstack]; exact List.mem_cons_self))
      cases part with
      | nil => exact absurd rfl hne
      | cons c more =>
        have hc : c ≠ '/' := fun heq => hslash (by simp [heq])
        simp [separated, rooted, hc]

theorem stack_front (d : List Char) : stack (front d) = stack d := by
  have hcleaned := stack_cleaned d
  have hparts : ∀ part ∈ (stack d).reverse, '/' ∉ part :=
    fun part hmem => (hcleaned.parts part (List.mem_reverse.mp hmem)).2
  have hfold : ((stack d).reverse ++ [[]]).foldl (push (rooted d)) [] = stack d := by
    rw [List.foldl_append, foldl_push_cleaned hcleaned, List.foldl_cons, List.foldl_nil, push_nil]
  rw [stack, rooted_front, front]
  cases hroot : rooted d with
  | true =>
    rw [hroot] at hfold
    rw [if_pos rfl, List.singleton_append, ← List.nil_append ('/' :: _),
      List.splitOn_append_cons_self, splitOn_separated hparts, List.foldl_append]
    simpa [List.splitOn, push_nil] using hfold
  | false =>
    rw [hroot] at hfold
    rw [if_neg (by simp), List.nil_append, splitOn_separated hparts]
    exact hfold

theorem clean_front (d : List Char) : clean (front d) = clean d := by
  rw [clean, clean, rooted_front, stack_front]

/-- A name joined to a directory stands behind its separator. -/
theorem join_component (d : List Char) (h : IsComponent name) : join d name = front d ++ name := by
  have hrender : ∀ parts root, render root (parts ++ [name]) =
      (if root then ['/'] else []) ++ separated parts ++ name := by
    intro parts root
    cases root with
    | true => simp [render, intercalate_concat]
    | false => simp [render, intercalate_concat]
  rw [join]
  split
  · rename_i hdir
    have hroot : rooted (d ++ '/' :: name) = rooted d := by
      cases d with
      | nil => exact absurd rfl hdir
      | cons c rest => rfl
    have hstack : stack (d ++ '/' :: name) = name :: stack d := by
      rw [stack, hroot, List.splitOn_append_cons_self, splitOn_of_notMem h.2.1, List.foldl_append,
        List.foldl_cons, List.foldl_nil, ← stack, push_component h]
    rw [clean, hroot, hstack, List.reverse_cons, hrender, front]
  · rename_i hdir
    have hnil : d = [] := not_not.mp hdir
    have hroot : rooted name = false := by
      cases name with
      | nil => rfl
      | cons c rest =>
        have hc : c ≠ '/' := fun heq => h.2.1 (by simp [heq])
        simp [rooted, hc]
    have hstack : stack name = [name] := by
      rw [stack, splitOn_of_notMem h.2.1, List.foldl_cons, List.foldl_nil, push_component h]
    rw [if_pos h.1, clean, hroot, hstack, hnil]
    simp [render, front, rooted, stack, separated, List.splitOn, push_nil]

theorem front_ends (d : List Char) : front d = [] ∨ ∃ text, front d = text ++ ['/'] := by
  cases hstack : stack d with
  | nil =>
    cases hroot : rooted d with
    | true => exact .inr ⟨[], by simp [front, hroot, hstack, separated]⟩
    | false => exact .inl (by simp [front, hroot, hstack, separated])
  | cons part rest =>
    refine .inr ⟨(if rooted d then ['/'] else []) ++ (separated rest.reverse ++ part), ?_⟩
    simp [front, hstack, separated]

section Named

variable {name : List Char}

theorem takeWhile_named (d : List Char) (h : '/' ∉ name) :
    (front d ++ name).reverse.takeWhile (· ≠ '/') = name.reverse ∧
      (front d ++ name).reverse.dropWhile (· ≠ '/') = (front d).reverse := by
  have hall : ∀ c ∈ name.reverse, decide (c ≠ '/') = true := by
    intro c hmem
    simpa using fun heq : c = '/' => h (heq ▸ List.mem_reverse.mp hmem)
  rw [List.reverse_append, List.takeWhile_append_of_pos hall, List.dropWhile_append_of_pos hall]
  rcases front_ends d with hnil | ⟨text, hends⟩
  · simp [hnil]
  · simp [hends]

/-- The directory of a joined name is the directory it was joined to. -/
theorem dir_named (d : List Char) (h : '/' ∉ name) : dir (front d ++ name) = clean d := by
  rw [dir, (takeWhile_named d h).2, List.reverse_reverse, clean_front]

theorem lastPart_named (d : List Char) (h : '/' ∉ name) : lastPart (front d ++ name) = name := by
  rw [lastPart, (takeWhile_named d h).1, List.reverse_reverse]

theorem base_named (d : List Char) (h : '/' ∉ name) (hne : name ≠ []) :
    base (front d ++ name) = name := by
  have hkeep : (front d ++ name).reverse.dropWhile (· = '/') = (front d ++ name).reverse := by
    rw [List.reverse_append]
    cases hname : name.reverse with
    | nil => exact absurd (List.reverse_eq_nil_iff.mp hname) hne
    | cons c rest =>
      have hc : c ≠ '/' := by
        intro heq
        exact h (List.mem_reverse.mp (by rw [hname, heq]; exact List.mem_cons_self))
      simp [hc]
  rw [base, if_neg (by simp [hne])]
  simp only [hkeep, List.reverse_reverse, lastPart_named d h, if_neg hne]

theorem lastPart_of_notMem (h : '/' ∉ name) : lastPart name = name :=
  lastPart_named [] h

theorem ext_named (d : List Char) (h : '/' ∉ name) : ext (front d ++ name) = ext name := by
  rw [ext, ext, lastPart_named d h, lastPart_of_notMem h]

end Named

/-- A name is its stem and its extension. -/
theorem exists_stem (h : '/' ∉ name) : ∃ stem, name = stem ++ ext name := by
  rw [ext, lastPart_of_notMem h]
  split
  · rename_i stem rest hcut
    exact ⟨stem, cutLast_some hcut⟩
  · exact ⟨name, by simp⟩

end Filepath
end Foundations
end FlickDrop
