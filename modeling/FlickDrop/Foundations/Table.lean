import Mathlib.Data.Finset.Card
import Mathlib.Data.List.Nodup

/-!
# Relational tables with a primary key

A table is the list of its rows in insertion order.  The four statement forms the
programs use are modelled here once: a lookup by primary key, a conditional
`update`, a conditional `delete` and an `insert` at the end, together with the
number of rows a conditional statement affects.

The lemmas say what a lookup sees after each statement, which is all that later
proofs need.  Uniqueness of the key column is a hypothesis (`UniqueKey`), and
every statement form preserves it.
-/

namespace FlickDrop
namespace Foundations
namespace Table

variable {Row Key : Type*} {change : Row → Row}

/-- `update ... set change where cond`. -/
def update (cond : Row → Bool) (change : Row → Row) (rows : List Row) : List Row :=
  rows.map fun row => if cond row then change row else row

/-- `delete from ... where cond`. -/
def delete (cond : Row → Bool) (rows : List Row) : List Row :=
  rows.filter fun row => !cond row

theorem delete_subset (cond : Row → Bool) (rows : List Row) : delete cond rows ⊆ rows :=
  List.filter_sublist.subset

/-- The affected-row count of a conditional statement. -/
def affected (cond : Row → Bool) (rows : List Row) : Nat :=
  rows.countP cond

/-- The key column has no repeated value. -/
def UniqueKey (key : Row → Key) (rows : List Row) : Prop :=
  (rows.map key).Nodup

/-- A selection whose condition the change does not affect commutes with the update. -/
theorem filter_update {cond sel : Row → Bool} (hsel : ∀ row, sel (change row) = sel row)
    (rows : List Row) :
    (update cond change rows).filter sel = update cond change (rows.filter sel) := by
  induction rows with
  | nil => rfl
  | cons head rest ih =>
    have hhead : sel (if cond head then change head else head) = sel head := by
      split
      · exact hsel head
      · rfl
    simp only [update, List.map_cons, List.filter_cons, hhead] at ih ⊢
    split
    · rw [List.map_cons, ih]
    · exact ih

/-- An update changes nothing where its condition holds nowhere. -/
theorem update_of_none {cond : Row → Bool} {rows : List Row}
    (hnone : ∀ row ∈ rows, cond row = false) : update cond change rows = rows := by
  conv_rhs => rw [← List.map_id rows]
  apply List.map_congr_left
  intro row hrow
  simp [hnone row hrow]

section Lookup

variable [DecidableEq Key] (key : Row → Key)

/-- `select * from ... where key = k`. -/
def lookup (k : Key) (rows : List Row) : Option Row :=
  rows.find? fun row => decide (key row = k)

/-- The keys of the rows that `sel` holds of. -/
def keysWhere (sel : Row → Bool) (rows : List Row) : Finset Key :=
  ((rows.filter sel).map key).toFinset

variable {key} {rows : List Row} {cond : Row → Bool} {k : Key} {row : Row} {change : Row → Row}

theorem lookup_key (h : lookup key k rows = some row) : key row = k := by
  have := List.find?_some h
  simpa using this

theorem lookup_mem (h : lookup key k rows = some row) : row ∈ rows :=
  List.mem_of_find?_eq_some h

theorem lookup_eq_none : lookup key k rows = none ↔ ∀ row ∈ rows, key row ≠ k := by
  simp [lookup]

@[simp] theorem lookup_nil (k : Key) : lookup key k ([] : List Row) = none := rfl

theorem lookup_cons (k : Key) (row : Row) (rows : List Row) :
    lookup key k (row :: rows) = if key row = k then some row else lookup key k rows := by
  by_cases h : key row = k <;> simp [lookup, h]

/-- With a unique key a lookup finds exactly the row that is there. -/
theorem lookup_of_mem (hunique : UniqueKey key rows) (hmem : row ∈ rows) :
    lookup key (key row) rows = some row := by
  induction rows with
  | nil => simp at hmem
  | cons head rest ih =>
    rw [UniqueKey, List.map_cons, List.nodup_cons] at hunique
    rw [lookup_cons]
    rcases List.mem_cons.mp hmem with rfl | hrest
    · simp
    · have hne : key head ≠ key row := by
        intro heq
        exact hunique.1 (heq ▸ List.mem_map_of_mem hrest)
      rw [if_neg hne]
      exact ih hunique.2 hrest

theorem lookup_append (k : Key) (rows : List Row) (row : Row) :
    lookup key k (rows ++ [row]) =
      (lookup key k rows).or (if key row = k then some row else none) := by
  by_cases h : key row = k <;> simp [lookup, List.find?_append, h]

/-- A conditional update that leaves the key column alone acts on the row a
lookup finds, and on nothing else the lookup can see. -/
theorem lookup_update (hkey : ∀ row, key (change row) = key row) (k : Key) (rows : List Row) :
    lookup key k (update cond change rows) =
      (lookup key k rows).map fun row => if cond row then change row else row := by
  induction rows with
  | nil => rfl
  | cons head rest ih =>
    have hhead : key (if cond head then change head else head) = key head := by
      split
      · exact hkey head
      · rfl
    rw [update, List.map_cons, lookup_cons, lookup_cons, hhead]
    by_cases h : key head = k
    · simp [h]
    · rw [if_neg h, if_neg h]
      exact ih

/-- An update whose condition pins the key column is invisible under any other key. -/
theorem lookup_update_other {other : Key} (hkey : ∀ row, key (change row) = key row)
    (hcond : ∀ row, cond row = true → key row = k) (hne : other ≠ k) (rows : List Row) :
    lookup key other (update cond change rows) = lookup key other rows := by
  rw [lookup_update hkey]
  cases hfound : lookup key other rows with
  | none => rfl
  | some row =>
    have hcondition : ¬ cond row = true := by
      intro htrue
      exact hne ((lookup_key hfound).symm.trans (hcond row htrue))
    rw [Option.map_some, if_neg hcondition]

/-- An update of the one row under a key. -/
theorem lookup_update_at (hkey : ∀ row, key (change row) = key row)
    (hpin : ∀ row, cond row = true → key row = k) (hfound : lookup key k rows = some row)
    (hcond : cond row = true) (other : Key) :
    lookup key other (update cond change rows) =
      if other = k then some (change row) else lookup key other rows := by
  split
  · rename_i heq
    rw [lookup_update hkey, heq, hfound, Option.map_some, if_pos hcond]
  · rename_i hne
    exact lookup_update_other hkey hpin hne rows

/-- A conditional delete hides the row it matches. -/
theorem lookup_delete (hunique : UniqueKey key rows) (cond : Row → Bool) (k : Key) :
    lookup key k (delete cond rows) =
      (lookup key k rows).filter fun row => !cond row := by
  induction rows with
  | nil => rfl
  | cons head rest ih =>
    rw [UniqueKey, List.map_cons, List.nodup_cons] at hunique
    rw [lookup_cons]
    cases hcond : cond head with
    | false =>
      rw [delete, List.filter_cons_of_pos (by simp [hcond]), lookup_cons]
      by_cases h : key head = k
      · simp [h, hcond, Option.filter]
      · rw [if_neg h, if_neg h]
        exact ih hunique.2
    | true =>
      rw [delete, List.filter_cons_of_neg (by simp [hcond])]
      by_cases h : key head = k
      · have habsent : lookup key k rest = none := by
          rw [lookup_eq_none]
          intro row hrow heq
          exact hunique.1 (h ▸ heq ▸ List.mem_map_of_mem hrow)
        have hstill := ih hunique.2
        rw [habsent] at hstill
        rw [if_pos h]
        simpa [hcond, delete, Option.filter] using hstill
      · rw [if_neg h]
        exact ih hunique.2

/-- A row that survives a delete was there. -/
theorem lookup_of_delete (hunique : UniqueKey key rows)
    (h : lookup key k (delete cond rows) = some row) : lookup key k rows = some row := by
  rw [lookup_delete hunique, Option.filter_eq_some_iff] at h
  exact h.1

/-- A selection that pins the key looks at the one row a lookup finds. -/
theorem find?_key (hunique : UniqueKey key rows) (k : Key) (cond : Row → Bool) :
    (rows.find? fun row => decide (key row = k) && cond row) =
      (lookup key k rows).filter cond := by
  have hdelete := lookup_delete hunique (fun row => !cond row) k
  simpa [delete, lookup, List.find?_filter, Bool.and_comm] using hdelete

/-- How many rows a statement guarded by `key = k and cond` affects. -/
theorem affected_key (hunique : UniqueKey key rows) (k : Key) (cond : Row → Bool) :
    affected (fun row => decide (key row = k) && cond row) rows =
      match lookup key k rows with
      | some row => if cond row then 1 else 0
      | none => 0 := by
  induction rows with
  | nil => rfl
  | cons head rest ih =>
    rw [UniqueKey, List.map_cons, List.nodup_cons] at hunique
    have hrest := ih hunique.2
    rw [affected] at hrest
    rw [affected, List.countP_cons, lookup_cons, hrest]
    by_cases h : key head = k
    · have habsent : lookup key k rest = none := by
        rw [lookup_eq_none]
        intro row hrow heq
        exact hunique.1 (h ▸ heq ▸ List.mem_map_of_mem hrow)
      simp [h, habsent]
    · simp [h]

/-- A statement that pins the key and affected a row: the row is the one a lookup finds. -/
theorem lookup_of_affected (hunique : UniqueKey key rows)
    (hpin : ∀ row, cond row = true → key row = k) (h : affected cond rows ≠ 0) :
    ∃ row, lookup key k rows = some row ∧ cond row = true := by
  obtain ⟨row, hrow, hcond⟩ := List.countP_pos_iff.mp (Nat.pos_of_ne_zero h)
  refine ⟨row, ?_, hcond⟩
  rw [← hpin row hcond]
  exact lookup_of_mem hunique hrow

theorem mem_keysWhere (hunique : UniqueKey key rows) {sel : Row → Bool} :
    k ∈ keysWhere key sel rows ↔ ∃ row, lookup key k rows = some row ∧ sel row = true := by
  simp only [keysWhere, List.mem_toFinset, List.mem_map, List.mem_filter]
  constructor
  · rintro ⟨row, ⟨hrow, hsel⟩, rfl⟩
    exact ⟨row, lookup_of_mem hunique hrow, hsel⟩
  · rintro ⟨row, hfound, hsel⟩
    exact ⟨row, ⟨lookup_mem hfound, hsel⟩, lookup_key hfound⟩

/-- With a unique key the rows of a selection are counted by their keys. -/
theorem affected_eq_card (hunique : UniqueKey key rows) (sel : Row → Bool) :
    affected sel rows = (keysWhere key sel rows).card := by
  have hnodup : ((rows.filter sel).map key).Nodup :=
    List.Nodup.sublist (List.Sublist.map key List.filter_sublist) hunique
  rw [keysWhere, List.toFinset_card_of_nodup hnodup, List.length_map, affected,
    List.countP_eq_length_filter]

end Lookup

section Unique

variable {key : Row → Key} {rows : List Row}

theorem UniqueKey.update (hunique : UniqueKey key rows) {cond : Row → Bool}
    (hkey : ∀ row, key (change row) = key row) : UniqueKey key (Table.update cond change rows) := by
  have hsame : (Table.update cond change rows).map key = rows.map key := by
    rw [Table.update, List.map_map]
    apply List.map_congr_left
    intro row _
    by_cases h : cond row = true <;> simp [h, hkey]
  rw [UniqueKey, hsame]
  exact hunique

theorem UniqueKey.delete (hunique : UniqueKey key rows) (cond : Row → Bool) :
    UniqueKey key (Table.delete cond rows) :=
  List.Nodup.sublist (List.Sublist.map key List.filter_sublist) hunique

theorem UniqueKey.append (hunique : UniqueKey key rows) {row : Row}
    (hfresh : ∀ old ∈ rows, key old ≠ key row) : UniqueKey key (rows ++ [row]) := by
  rw [UniqueKey, List.map_append, List.nodup_append]
  refine ⟨hunique, by simp, ?_⟩
  intro a ha b hb
  obtain ⟨old, hold, rfl⟩ := List.mem_map.mp ha
  simp only [List.map_cons, List.map_nil, List.mem_singleton] at hb
  subst hb
  exact hfresh old hold

end Unique

end Table
end Foundations
end FlickDrop
