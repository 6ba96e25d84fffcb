import Mathlib.Data.List.Pairwise
import FlickDrop.Events.Outbox
import FlickDrop.Foundations.Timestamp

/-!
# Which jobs are due

`ListDue` compares and sorts `next_attempt_at` as text.  The texts are those of
`formatTime`, with their `Z`, and two of them can compare the other way round than the
instants they stand for: a job that is due at a whole second sorts behind every fraction
of that second.  The selection is chronological exactly when no two of the instants it
has to tell apart are of that kind.

Instants count from Go's zero time, as everywhere in this package.  From the year 10000 on
`formatTime` writes what `parseTime` does not read back, and such times are left out.
-/

namespace FlickDrop
namespace Events

open Foundations

/-- The comparison of two stored times. -/
def storedLe (a b : Nat) : Bool := textLe (formatTime a) (formatTime b)

theorem storedLe_total (a b : Nat) : storedLe a b = true ∨ storedLe b a = true := by
  simp only [storedLe, textLe, decide_eq_true_eq]
  rcases lt_or_ge (formatTime a) (formatTime b) with hlt | hge
  · exact .inl (not_lt_of_gt hlt)
  · exact .inr (not_lt_of_ge hge)

theorem storedLe_trans {a b c : Nat} (hab : storedLe a b = true) (hbc : storedLe b c = true) :
    storedLe a c = true := by
  simp only [storedLe, textLe, decide_eq_true_eq, not_lt] at hab hbc ⊢
  exact le_trans hab hbc

section

variable (le : Nat → Nat → Bool)

/-- `order by next_attempt_at, created_at` is an order if the comparison is one. -/
theorem dueBefore_total (htotal : ∀ a b, le a b = true ∨ le b a = true) (a b : OutboxRow) :
    (a.dueBefore le b || b.dueBefore le a) = true := by
  simp only [OutboxRow.dueBefore, Bool.or_eq_true, Bool.and_eq_true, Bool.not_eq_true']
  by_cases hab : le a.nextAttemptAt b.nextAttemptAt = true
  · by_cases hba : le b.nextAttemptAt a.nextAttemptAt = true
    · rcases htotal a.createdAt b.createdAt with hcreated | hcreated
      · exact .inl ⟨hab, .inr hcreated⟩
      · exact .inr ⟨hba, .inr hcreated⟩
    · exact .inl ⟨hab, .inl (Bool.eq_false_iff.mpr hba)⟩
  · have hba := (htotal a.nextAttemptAt b.nextAttemptAt).resolve_left hab
    exact .inr ⟨hba, .inl (Bool.eq_false_iff.mpr hab)⟩

theorem dueBefore_trans (htrans : ∀ {a b c}, le a b = true → le b c = true → le a c = true)
    (a b c : OutboxRow) (hab : a.dueBefore le b = true) (hbc : b.dueBefore le c = true) :
    a.dueBefore le c = true := by
  simp only [OutboxRow.dueBefore, Bool.and_eq_true, Bool.or_eq_true, Bool.not_eq_true'] at hab hbc ⊢
  refine ⟨htrans hab.1 hbc.1, ?_⟩
  by_cases hca : le c.nextAttemptAt a.nextAttemptAt = true
  · -- then all three have the same time
    have hba : le b.nextAttemptAt a.nextAttemptAt = true := htrans hbc.1 hca
    have hcb : le c.nextAttemptAt b.nextAttemptAt = true := htrans hca hab.1
    rcases hab.2 with hno | hab'
    · rw [hba] at hno
      cases hno
    · rcases hbc.2 with hno | hbc'
      · rw [hcb] at hno
        cases hno
      · exact .inr (htrans hab' hbc')
  · exact .inl (Bool.eq_false_iff.mpr hca)

end

/-- A row that is still to be published. -/
def OutboxRow.waiting (row : OutboxRow) : Bool :=
  decide (row.state = .pending) || decide (row.state = .failed)

/-- The rows that are due at an instant. -/
def dueRows (dueAt : Nat) (rows : List OutboxRow) : List OutboxRow :=
  rows.filter fun row => row.waiting && decide (row.nextAttemptAt ≤ dueAt)

theorem mem_dueRows {dueAt : Nat} {rows : List OutboxRow} {row : OutboxRow} :
    row ∈ dueRows dueAt rows ↔ row ∈ rows ∧ row.waiting = true ∧ row.nextAttemptAt ≤ dueAt := by
  simp [dueRows]

/-- The rows the query selects, in its order. -/
def listed (dueAt : Nat) (rows : List OutboxRow) : List OutboxRow :=
  (rows.filter fun row => row.waiting && storedLe row.nextAttemptAt dueAt).mergeSort
    (OutboxRow.dueBefore storedLe)

theorem mem_listed {dueAt : Nat} {rows : List OutboxRow} {row : OutboxRow} :
    row ∈ listed dueAt rows ↔
      row ∈ rows ∧ row.waiting = true ∧ storedLe row.nextAttemptAt dueAt = true := by
  simp [listed]

theorem listed_pairwise (dueAt : Nat) (rows : List OutboxRow) :
    (listed dueAt rows).Pairwise fun a b => storedLe a.nextAttemptAt b.nextAttemptAt = true := by
  refine (List.pairwise_mergeSort (dueBefore_trans storedLe storedLe_trans)
    (dueBefore_total storedLe storedLe_total) _).imp fun hbefore => ?_
  rw [OutboxRow.dueBefore, Bool.and_eq_true] at hbefore
  exact hbefore.1

/-- Rows whose payload is an event can always be listed. -/
theorem listDue_ok {codec : Codec} {rows : List OutboxRow}
    (hpayloads : ∀ row ∈ rows, ∃ e, Encodes codec e row.payloadJSON) (dueAt : Nat) {limit : Int}
    (hlimit : 0 < limit) :
    listDue codec storedLe dueAt limit rows = .ok ((listed dueAt rows).take limit.toNat) := by
  rw [listDue, if_neg (by omega)]
  dsimp only
  split
  · rename_i err herr
    obtain ⟨row, hrow, hfound⟩ := List.exists_of_findSome?_eq_some herr
    obtain ⟨e, he⟩ := hpayloads row (mem_listed.mp (List.mem_of_mem_take hrow)).1
    rw [he.decodes] at hfound
    cases hfound
  · rfl

/-- For every limit, a front part of the due rows is listed in the order of their instants,
cut at the limit. -/
def Chronological (codec : Codec) (dueAt : Nat) (rows : List OutboxRow) : Prop :=
  ∀ limit : Int, 0 < limit →
    ∃ records rest, listDue codec storedLe dueAt limit rows = .ok records ∧
      (records ++ rest).Perm (dueRows dueAt rows) ∧
      (records ++ rest).Pairwise (fun a b => a.nextAttemptAt ≤ b.nextAttemptAt) ∧
      records.length = min limit.toNat (dueRows dueAt rows).length

/-- Of two instants, neither continues the digits of the other one's fraction. -/
def Apart (a b : Nat) : Prop := ¬ Continues a b ∧ ¬ Continues b a

instance (a b : Nat) : Decidable (Apart a b) := inferInstanceAs (Decidable (_ ∧ _))

/-- No row still to be published is due at an instant too close to `dueAt`, and no two of the
due rows are due at instants too close to each other. -/
def Comparable (dueAt : Nat) (rows : List OutboxRow) : Prop :=
  (∀ row ∈ rows, row.waiting = true → Apart row.nextAttemptAt dueAt) ∧
    ∀ a ∈ dueRows dueAt rows, ∀ b ∈ dueRows dueAt rows, Apart a.nextAttemptAt b.nextAttemptAt

instance (dueAt : Nat) (rows : List OutboxRow) : Decidable (Comparable dueAt rows) :=
  inferInstanceAs (Decidable (_ ∧ _))

theorem yearOf_nonneg (t : Nat) : 0 ≤ yearOf t := by
  have hzero : yearOf 0 = 1 := by decide
  have hmono : yearOf 0 ≤ yearOf t := yearOf_mono (Int.natCast_nonneg t)
  omega

/-- Stored times compare as their instants do exactly when these are apart. -/
theorem storedLe_iff {a b : Nat} (ha : yearOf a ≤ 9999) (hb : yearOf b ≤ 9999) :
    (storedLe a b = true ↔ a ≤ b) ↔ Apart a b := by
  constructor
  · intro hsame
    constructor
    · intro hcontinues
      obtain ⟨hlt, htext⟩ := hcontinues.reversed
      exact of_decide_eq_true (hsame.mpr (Int.ofNat_le.mp (Int.le_of_lt hlt))) htext
    · intro hcontinues
      obtain ⟨hlt, htext⟩ := hcontinues.reversed
      have hle := hsame.mp (decide_eq_true (not_lt_of_gt htext))
      omega
  · rintro ⟨hab, hba⟩
    exact (textLe_formatTime (yearOf_nonneg a) ha (yearOf_nonneg b) hb hab hba).trans Int.ofNat_le

/-- Chronological selection is about the whole listing: limits only cut it. -/
theorem chronological_iff {codec : Codec} {rows : List OutboxRow}
    (hpayloads : ∀ row ∈ rows, ∃ e, Encodes codec e row.payloadJSON) (dueAt : Nat) :
    Chronological codec dueAt rows ↔ (listed dueAt rows).Perm (dueRows dueAt rows) ∧
      (listed dueAt rows).Pairwise fun a b => a.nextAttemptAt ≤ b.nextAttemptAt := by
  constructor
  · intro hchronological
    -- a limit beyond all rows lists everything that is selected
    obtain ⟨records, rest, hlist, hperm, hsorted, hlength⟩ :=
      hchronological ((listed dueAt rows).length + 1) (by omega)
    rw [listDue_ok hpayloads dueAt (by omega), List.take_of_length_le (by omega)] at hlist
    cases hlist
    have hcount := hperm.length_eq
    rw [List.length_append] at hcount
    obtain rfl : rest = [] := List.length_eq_zero_iff.mp (by omega)
    rw [List.append_nil] at hperm hsorted
    exact ⟨hperm, hsorted⟩
  · rintro ⟨hperm, hsorted⟩ limit hlimit
    refine ⟨_, (listed dueAt rows).drop limit.toNat, listDue_ok hpayloads dueAt hlimit, ?_, ?_, ?_⟩
    · rw [List.take_append_drop]
      exact hperm
    · rw [List.take_append_drop]
      exact hsorted
    · rw [List.length_take, hperm.length_eq]

/-- The due rows are selected exactly when they are all apart from `dueAt`. -/
theorem listed_perm_iff {rows : List OutboxRow} {dueAt : Nat} (hdueAt : yearOf dueAt ≤ 9999)
    (hyears : ∀ row ∈ rows, row.waiting = true → yearOf row.nextAttemptAt ≤ 9999) :
    (listed dueAt rows).Perm (dueRows dueAt rows) ↔
      ∀ row ∈ rows, row.waiting = true → Apart row.nextAttemptAt dueAt := by
  constructor
  · intro hperm row hrow hwaiting
    have hsame := hperm.mem_iff (a := row)
    simp only [mem_listed, mem_dueRows, hrow, hwaiting, true_and] at hsame
    exact (storedLe_iff (hyears row hrow hwaiting) hdueAt).mp hsame
  · intro hdue
    refine (List.mergeSort_perm _ _).trans (List.Perm.of_eq ?_)
    refine List.filter_congr fun row hrow => ?_
    cases hwaiting : row.waiting with
    | false => rw [Bool.false_and, Bool.false_and]
    | true =>
      rw [Bool.true_and, Bool.true_and, Bool.eq_iff_iff, decide_eq_true_eq]
      exact (storedLe_iff (hyears row hrow hwaiting) hdueAt).mpr (hdue row hrow hwaiting)

/-- The listed rows are in the order of their instants exactly when they are apart. -/
theorem listed_sorted_iff {rows : List OutboxRow} {dueAt : Nat}
    (hyears : ∀ row ∈ listed dueAt rows, yearOf row.nextAttemptAt ≤ 9999) :
    (listed dueAt rows).Pairwise (fun a b => a.nextAttemptAt ≤ b.nextAttemptAt) ↔
      ∀ a ∈ listed dueAt rows, ∀ b ∈ listed dueAt rows,
        Apart a.nextAttemptAt b.nextAttemptAt := by
  have hpairs := listed_pairwise dueAt rows
  constructor
  · intro hsorted a ha b hb
    -- two listed rows are in order both by their texts and by their instants
    have hapart : (listed dueAt rows).Pairwise
        fun a b => Apart a.nextAttemptAt b.nextAttemptAt := by
      refine (hpairs.and hsorted).imp_of_mem fun hx hy h => ?_
      exact (storedLe_iff (hyears _ hx) (hyears _ hy)).mp (iff_of_true h.1 h.2)
    have : Std.Symm fun a b : OutboxRow => Apart a.nextAttemptAt b.nextAttemptAt :=
      ⟨fun _ _ => And.symm⟩
    exact hapart.forall_of_forall (fun _ _ => ⟨fun h => h.2.1 rfl, fun h => h.2.1 rfl⟩) ha hb
  · intro hapart
    refine hpairs.imp_of_mem fun ha hb hle => ?_
    exact ((storedLe_iff (hyears _ ha) (hyears _ hb)).mpr (hapart _ ha _ hb)).mp hle

/-- **Due selection is chronological** exactly when the instants it compares are apart, for rows
whose payload is an event and whose times have years of four digits. -/
theorem listDue_chronological {codec : Codec} {rows : List OutboxRow} {dueAt : Nat}
    (hpayloads : ∀ row ∈ rows, ∃ e, Encodes codec e row.payloadJSON) (hdueAt : yearOf dueAt ≤ 9999)
    (hyears : ∀ row ∈ rows, row.waiting = true → yearOf row.nextAttemptAt ≤ 9999) :
    Chronological codec dueAt rows ↔ Comparable dueAt rows := by
  have hlisted : ∀ row ∈ listed dueAt rows, yearOf row.nextAttemptAt ≤ 9999 := fun row hrow =>
    hyears row (mem_listed.mp hrow).1 (mem_listed.mp hrow).2.1
  rw [chronological_iff hpayloads dueAt, listed_sorted_iff hlisted, Comparable,
    ← listed_perm_iff hdueAt hyears]
  refine and_congr_right fun hperm => ?_
  simp only [hperm.mem_iff]

/-! ### Concrete selections -/

def sampleJob : JobEvent where
  jobID := "job"
  kind := .deleteSecret
  secretID := "secret"
  objectKey := ""
  reason := .consumed
  requestedAt := 1
  traceContext := []

/-- The row of the sample job, due at `next`. -/
def sampleJobRow (next : Nat) : OutboxRow := OutboxRow.pending "jobs" "event" next sampleJob

/-- A job due at 5 s is listed at 6 s; two that are not due yet may be as close as they like. -/
theorem listDue_chronological_seconds :
    Chronological (singleCodec sampleJob) (6 * second)
      [sampleJobRow (7 * second + 500000000), sampleJobRow (7 * second),
        sampleJobRow (5 * second)] := by
  refine (listDue_chronological (fun row hrow => ?_) ?_ ?_).mpr ?_
  · have hpayload : row.payloadJSON = (sampleJobRow 0).payloadJSON := by
      simp only [List.mem_cons, List.not_mem_nil, or_false] at hrow
      rcases hrow with rfl | rfl | rfl <;> rfl
    rw [hpayload]
    exact ⟨sampleJob, by decide, by decide⟩
  · decide
  · decide +kernel
  · decide +kernel

/-- **Half a second early, half a second late.**  A job that is due at 5.5 s is listed at
5 s; a job that is due at 5 s is not listed at 5.5 s. -/
theorem fraction_listed_early_second_late :
    listDue (singleCodec sampleJob) storedLe (5 * second) 10
      [sampleJobRow (5 * second + 500000000)] = .ok [sampleJobRow (5 * second + 500000000)] ∧
    listDue (singleCodec sampleJob) storedLe (5 * second + 500000000) 10
      [sampleJobRow (5 * second)] = .ok [] := by
  constructor <;> decide +kernel

end Events
end FlickDrop
