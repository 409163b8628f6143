import Telemetry.Proofs.Entries
import Telemetry.Reduction.Engine

/-!
# Writing to a sink

Values are written one by one, and then each of them is refused on its own, or as a batch, which is
refused as a whole. What is read afterwards is the last value of a key, or what was there before.

## Main definitions

* `Sink.refuses`, `Sink.refusesBatch`: whether a sink refuses a key, or a batch.
* `Sink.writeAll`: values written one by one.

## Main statements

* `Sink.get?_writeAll`, `Sink.get?_writeBatch`: what is read behind either way of writing.
-/
namespace Telemetry.Sink

open ReductionEngine (write writeBatch)

variable {s s' : Sink} {key : String} {value : Bytes} {batch : List (String × Bytes)}

/-! ## Stored values -/

theorem lookup_store (data : List (String × Bytes)) (key : String) (value : Bytes) (key' : String) :
    (store data key value).lookup key' = if key' = key then some value else data.lookup key' := by
  rw [store, List.lookup_cons, Entries.lookup_filter_ne]
  by_cases h : key' = key
  · simp [h]
  · simp [h, beq_eq_false_iff_ne.mpr h]

/-- Of several values for a key the last one is stored. -/
theorem lookup_foldl_store (data batch : List (String × Bytes)) (key : String) :
    (batch.foldl (fun data (key, value) => store data key value) data).lookup key
      = (batch.reverse.lookup key).or (data.lookup key) := by
  induction batch generalizing data with
  | nil => rfl
  | cons entry batch ih =>
    rw [List.foldl_cons, ih, lookup_store, List.reverse_cons, List.lookup_append, Option.or_assoc]
    rw [Entries.lookup_singleton]
    congr 1
    by_cases h : key = entry.1
    · simp [h]
    · simp [h]

theorem lookup_foldl_drop (data : List (String × Bytes)) (keys : List String) (key : String) :
    (keys.foldl drop data).lookup key = if key ∈ keys then none else data.lookup key := by
  induction keys generalizing data with
  | nil => simp
  | cons key' keys ih =>
    rw [List.foldl_cons, ih, drop, Entries.lookup_filter_ne]
    by_cases h : key = key'
    · simp [h]
    · simp [h]

/-! ## Refusals -/

/-- Whether the sink refuses writes to a key. -/
def refuses (s : Sink) (key : String) : Bool := s.failing.contains key

/-- Whether the sink refuses a batch, which it does because of a single key. -/
def refusesBatch (s : Sink) (batch : List (String × Bytes)) : Bool :=
  batch.any fun entry => s.refuses entry.1

theorem firstRefused?_eq_none_iff (keys : List String) :
    s.firstRefused? keys = none ↔ ∀ key ∈ keys, s.refuses key = false := by
  simp [firstRefused?, refuses]

theorem refusesBatch_eq_false_iff :
    s.refusesBatch batch = false ↔ ∀ key ∈ batch.map Prod.fst, s.refuses key = false := by
  simp [refusesBatch]

/-! ## One value -/

theorem erase_of_refuses (h : s.refuses key = true) : s.erase key = .error (refused key) := by
  have hfirst : s.firstRefused? [key] = some key := by
    simpa [firstRefused?, refuses] using h
  rw [erase, hfirst]

theorem erase_of_not_refuses (h : s.refuses key = false) :
    s.erase key = .ok { s with data := drop s.data key, erases := s.erases + 1 } := by
  have hfirst : s.firstRefused? [key] = none := by
    rw [firstRefused?_eq_none_iff]
    simpa using h
  rw [erase, hfirst]

theorem put_of_not_refuses (h : s.refuses key = false) (value : Bytes) :
    s.put key value = .ok { s with data := store s.data key value, puts := s.puts + 1 } := by
  have hfirst : s.firstRefused? [key] = none := by
    rw [firstRefused?_eq_none_iff]
    simpa using h
  rw [put, hfirst]

theorem write_of_refuses (h : s.refuses key = true) (value : Bytes) :
    write s key value = (.error (refused key), s) := by
  rw [write, erase_of_refuses h]

/-- What can be deleted can be stored again. -/
theorem write_of_not_refuses (h : s.refuses key = false) (value : Bytes) :
    write s key value = (.ok (), { s with
      data := store (drop s.data key) key value
      puts := s.puts + 1
      erases := s.erases + 1 }) := by
  have hput := put_of_not_refuses
    (s := { s with data := drop s.data key, erases := s.erases + 1 }) h value
  rw [write, erase_of_not_refuses h]
  simp only [hput]

theorem refuses_write (s : Sink) (key : String) (value : Bytes) :
    (write s key value).2.refuses = s.refuses := by
  cases h : s.refuses key with
  | true => rw [write_of_refuses h]
  | false =>
    rw [write_of_not_refuses h]
    rfl

theorem get?_write (s : Sink) (key : String) (value : Bytes) (key' : String) :
    (write s key value).2.get? key'
      = if key' = key ∧ s.refuses key = false then some value else s.get? key' := by
  cases h : s.refuses key with
  | true => simp [write_of_refuses h]
  | false =>
    rw [write_of_not_refuses h, get?, lookup_store, drop, Entries.lookup_filter_ne]
    by_cases hkey : key' = key
    · simp [hkey]
    · simp [hkey, get?]

/-! ## Values one by one -/

/-- Writes values one by one. -/
def writeAll (s : Sink) (batch : List (String × Bytes)) : Sink :=
  batch.foldl (fun s entry => (write s entry.1 entry.2).2) s

theorem writeAll_append (s : Sink) (batch more : List (String × Bytes)) :
    s.writeAll (batch ++ more) = (s.writeAll batch).writeAll more :=
  List.foldl_append

theorem refuses_writeAll (s : Sink) (batch : List (String × Bytes)) :
    (s.writeAll batch).refuses = s.refuses := by
  induction batch generalizing s with
  | nil => rfl
  | cons entry batch ih => exact (ih _).trans (refuses_write s entry.1 entry.2)

/-- A key that is refused keeps its value, whatever else is written. -/
theorem get?_writeAll (s : Sink) (batch : List (String × Bytes)) (key : String) :
    (s.writeAll batch).get? key
      = if s.refuses key then s.get? key else (batch.reverse.lookup key).or (s.get? key) := by
  induction batch generalizing s with
  | nil => simp [writeAll]
  | cons entry batch ih =>
    have hstep : s.writeAll (entry :: batch) = (write s entry.1 entry.2).2.writeAll batch := rfl
    rw [hstep, ih, refuses_write, get?_write]
    by_cases hrefuses : s.refuses key = true
    · have hne : ¬ (key = entry.1 ∧ s.refuses entry.1 = false) := by
        rintro ⟨rfl, hfalse⟩
        rw [hrefuses] at hfalse
        cases hfalse
      rw [if_pos hrefuses, if_pos hrefuses, if_neg hne]
    · rw [if_neg hrefuses, if_neg hrefuses, List.reverse_cons, List.lookup_append, Option.or_assoc,
        Entries.lookup_singleton]
      congr 1
      by_cases hkey : key = entry.1
      · simp [← hkey, hrefuses]
      · simp [hkey]

/-! ## Batches -/

theorem multiErase_of_not_refuses (h : s.refusesBatch batch = false) :
    s.multiErase (batch.map Prod.fst) = .ok { s with
      data := (batch.map Prod.fst).foldl drop s.data
      batches := s.batches + 1 } := by
  rw [multiErase, (firstRefused?_eq_none_iff _).mpr (refusesBatch_eq_false_iff.mp h)]

theorem multiPut_of_not_refuses (h : s.refusesBatch batch = false) :
    s.multiPut batch = .ok { s with
      data := batch.foldl (fun data (key, value) => store data key value) s.data
      batches := s.batches + 1 } := by
  rw [multiPut, (firstRefused?_eq_none_iff _).mpr (refusesBatch_eq_false_iff.mp h)]

/-- A batch is refused before anything is deleted. -/
theorem writeBatch_of_refuses (h : s.refusesBatch batch = true) :
    ∃ failure, writeBatch s batch = (.error failure, s) := by
  have hfirst : s.firstRefused? (batch.map Prod.fst) ≠ none := by
    intro hnone
    rw [firstRefused?_eq_none_iff, ← refusesBatch_eq_false_iff, h] at hnone
    cases hnone
  obtain ⟨key, hkey⟩ := Option.ne_none_iff_exists'.mp hfirst
  exact ⟨refused key, by rw [writeBatch, multiErase, hkey]⟩

/-- As with a single value, what can be deleted can be stored again. -/
theorem writeBatch_of_not_refuses (h : s.refusesBatch batch = false) :
    writeBatch s batch = (.ok batch.length, { s with
      data := batch.foldl (fun data (key, value) => store data key value)
        ((batch.map Prod.fst).foldl drop s.data)
      batches := s.batches + 1 + 1 }) := by
  have hput := multiPut_of_not_refuses
    (s := { s with data := (batch.map Prod.fst).foldl drop s.data, batches := s.batches + 1 }) h
  rw [writeBatch, multiErase_of_not_refuses h]
  simp only [hput]

/-- Every key that a batch deletes is among those that it stores. -/
theorem get?_writeBatch (h : s.refusesBatch batch = false) (key : String) :
    (writeBatch s batch).2.get? key = (batch.reverse.lookup key).or (s.get? key) := by
  rw [writeBatch_of_not_refuses h, get?, lookup_foldl_store, lookup_foldl_drop]
  split
  · rename_i hmem
    -- what was there is deleted, but the batch has a value to put in its place
    have hsome : batch.reverse.lookup key ≠ none := by
      rw [ne_eq, Entries.lookup_eq_none_iff_notMem, not_not, List.map_reverse, List.mem_reverse]
      exact hmem
    obtain ⟨value, hvalue⟩ := Option.ne_none_iff_exists'.mp hsome
    rw [hvalue, Option.some_or, Option.some_or]
  · rfl

/-- A batch that is not refused leaves what its values leave one by one. -/
theorem get?_writeBatch_eq_writeAll (h : s.refusesBatch batch = false) (key : String) :
    (writeBatch s batch).2.get? key = (s.writeAll batch).get? key := by
  rw [get?_writeBatch h, get?_writeAll]
  split
  · rename_i hrefuses
    have hnotMem : key ∉ batch.reverse.map Prod.fst := by
      intro hmem
      rw [List.map_reverse, List.mem_reverse] at hmem
      rw [refusesBatch_eq_false_iff.mp h key hmem] at hrefuses
      cases hrefuses
    rw [Entries.lookup_eq_none_iff_notMem.mpr hnotMem, Option.none_or]
  · rfl

end Telemetry.Sink
