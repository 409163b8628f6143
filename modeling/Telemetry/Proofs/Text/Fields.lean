import Telemetry.Text.Blank
import Mathlib

/-!
# Lines and fields

A text is the lines between its line feeds, and a line is its fields and the gaps around them. Both
are said here of the characters, without a word on how they are read, and each reading is the only
one.

## Main definitions

* `Text.TrimsTo`: a text is another one with blanks around it.
* `Text.HasLines`: these lines are in a text, blank ones left out.
* `Text.Spaced`: a line is these fields with gaps between them.

## Main statements

* `Text.lines_eq_iff`, `Text.fields_eq_iff`: that is what lines and fields are.
-/
namespace Telemetry.Text

variable {p : Char → Bool} {c : Char} {cs inner line word : List Char} {fs ls : List (List Char)}

/-- A text is cut where its characters are in the class. -/
theorem cutAt_eq_splitOnPPrepend (p : Char → Bool) (seen : List (List Char))
    (current cs : List Char) :
    cutAt p seen current cs = seen.reverse ++ cs.splitOnPPrepend p current := by
  induction cs generalizing seen current with
  | nil => simp [cutAt]
  | cons c cs ih =>
    rw [cutAt, List.splitOnPPrepend_cons_eq_if]
    split
    · simp [ih]
    · rw [ih]

/-! ## Ends -/

/-- A text is `inner` with blanks around it, and `inner` neither begins nor ends with one. -/
def TrimsTo (cs inner : List Char) : Prop :=
  ∃ front back, cs = front ++ inner ++ back ∧ (∀ c ∈ front, isBlank c = true) ∧
    (∀ c ∈ back, isBlank c = true) ∧ (∀ c ∈ inner.head?, isBlank c = false) ∧
    ∀ c ∈ inner.getLast?, isBlank c = false

/-- Nothing is dropped off a text that begins with another character. -/
theorem dropWhile_eq_self (h : ∀ c ∈ cs.head?, p c = false) : cs.dropWhile p = cs := by
  cases cs with
  | nil => rfl
  | cons c cs => rw [List.dropWhile_cons_of_neg (by simp [h c rfl])]

theorem head?_dropWhile (p : Char → Bool) (cs : List Char) :
    ∀ c ∈ (cs.dropWhile p).head?, p c = false := by
  intro c hc
  have hnot := List.head?_dropWhile_not p cs
  rw [Option.mem_def.mp hc] at hnot
  simpa using hnot

theorem trimsTo_trim (cs : List Char) : TrimsTo cs (trim cs) := by
  set kept := cs.dropWhile isBlank
  have hkept : kept = trim cs ++ (kept.reverse.takeWhile isBlank).reverse := by
    rw [trim, ← List.reverse_append, List.takeWhile_append_dropWhile, List.reverse_reverse]
  refine ⟨cs.takeWhile isBlank, (kept.reverse.takeWhile isBlank).reverse, ?_,
    fun _ => List.mem_takeWhile_imp, ?_, ?_, ?_⟩
  · rw [List.append_assoc, ← hkept, List.takeWhile_append_dropWhile]
  · intro c hc
    exact List.mem_takeWhile_imp (List.mem_reverse.mp hc)
  · intro c hc
    refine head?_dropWhile isBlank cs c ?_
    change c ∈ kept.head?
    rw [hkept, List.head?_append, Option.mem_def.mp hc]
    rfl
  · intro c hc
    rw [trim, List.getLast?_reverse] at hc
    exact head?_dropWhile _ _ c hc

theorem trim_eq_of_trimsTo (h : TrimsTo cs inner) : trim cs = inner := by
  obtain ⟨front, back, rfl, hfront, hback, hhead, hlast⟩ := h
  rw [trim, List.append_assoc, List.dropWhile_append_of_pos hfront]
  cases inner with
  | nil => simp [List.dropWhile_eq_nil_iff.mpr hback]
  | cons c cs =>
    have hbegins : (c :: cs ++ back).dropWhile isBlank = c :: cs ++ back := dropWhile_eq_self hhead
    have hends : (c :: cs).reverse.dropWhile isBlank = (c :: cs).reverse :=
      dropWhile_eq_self (by rwa [List.head?_reverse])
    rw [hbegins, List.reverse_append,
      List.dropWhile_append_of_pos fun d hd => hback d (List.mem_reverse.mp hd), hends,
      List.reverse_reverse]

theorem trim_eq_iff : trim cs = inner ↔ TrimsTo cs inner :=
  ⟨fun h => h ▸ trimsTo_trim cs, trim_eq_of_trimsTo⟩

/-- Nothing is left of a text if and only if it is blank. -/
theorem trim_eq_nil_iff : trim cs = [] ↔ ∀ c ∈ cs, isBlank c = true := by
  rw [trim_eq_iff]
  constructor
  · rintro ⟨front, back, rfl, hfront, hback, -, -⟩ c hc
    rw [List.append_nil, List.mem_append] at hc
    exact hc.elim (hfront c) (hback c)
  · intro h
    exact ⟨cs, [], by simp, h, by simp, by simp, by simp⟩

/-! ## Lines -/

/-- A text holds these lines: cut at its line feeds, it is them with blanks around each, and lines
of nothing but blanks between them. -/
def HasLines (text : String) (lines : List (List Char)) : Prop :=
  List.Forall₂ TrimsTo ((text.toList.splitOn '\n').filter fun line => !line.all isBlank) lines

/-- The lines of a text are the ones that it holds. -/
theorem lines_eq_iff {text : String} : lines text = ls ↔ HasLines text ls := by
  have hblank : ∀ line, (!(trim line).isEmpty) = !line.all isBlank := by
    intro line
    rw [Bool.eq_iff_iff]
    simp [trim_eq_nil_iff]
  have hlines : lines text
      = ((text.toList.splitOn '\n').filter fun line => !line.all isBlank).map trim := by
    rw [lines, cutAt_eq_splitOnPPrepend, List.filter_map]
    simp only [Function.comp_def, hblank]
    rfl
  rw [hlines, HasLines, ← List.forall₂_eq_eq_eq, List.forall₂_map_left_iff]
  simp only [trim_eq_iff]

/-! ## Fields -/

/-- A line is the given fields, with a gap of blanks before, between and behind them. -/
inductive Spaced : List (List Char) → List Char → Prop where
  | nil {gap : List Char} (hgap : ∀ c ∈ gap, isBlank c = true) : Spaced [] gap
  | cons {gap field rest : List Char} {fields : List (List Char)}
      (hgap : ∀ c ∈ gap, isBlank c = true) (hne : field ≠ [])
      (hfield : ∀ c ∈ field, isBlank c = false) (hend : ∀ c ∈ rest.head?, isBlank c = true)
      (hrest : Spaced fields rest) : Spaced (field :: fields) (gap ++ field ++ rest)

theorem fields_eq_filter (line : List Char) :
    fields line = (line.splitOnP isBlank).filter fun field => !field.isEmpty := by
  rw [fields, cutAt_eq_splitOnPPrepend]
  rfl

@[simp] theorem fields_nil : fields [] = [] := rfl

theorem fields_cons_blank (hc : isBlank c = true) (line : List Char) :
    fields (c :: line) = fields line := by
  rw [fields_eq_filter, fields_eq_filter, List.splitOnP_cons_eq_if_modifyHead, if_pos hc]
  rfl

theorem fields_gap_append (h : ∀ c ∈ cs, isBlank c = true) (line : List Char) :
    fields (cs ++ line) = fields line := by
  induction cs with
  | nil => rfl
  | cons c cs ih =>
    rw [List.cons_append, fields_cons_blank (h c (List.mem_cons_self ..))]
    exact ih fun d hd => h d (List.mem_cons_of_mem _ hd)

/-- A field ends at the end of the line or at a blank. -/
theorem fields_word_append (hne : word ≠ []) (hword : ∀ c ∈ word, isBlank c = false)
    (hend : ∀ c ∈ line.head?, isBlank c = true) :
    fields (word ++ line) = word :: fields line := by
  have hkeep (fields : List (List Char)) : (word :: fields).filter (fun field => !field.isEmpty)
      = word :: fields.filter fun field => !field.isEmpty :=
    List.filter_cons_of_pos (by simpa using hne)
  cases line with
  | nil =>
    rw [List.append_nil, fields_eq_filter, List.splitOnP_eq_singleton hword,
      hkeep]
    rfl
  | cons c line =>
    have hc : isBlank c = true := hend c rfl
    rw [fields_cons_blank hc, fields_eq_filter, fields_eq_filter,
      List.splitOnP_append_cons_of_forall_mem hword c hc, hkeep]

theorem Spaced.cons_blank (h : Spaced fs line) (hc : isBlank c = true) : Spaced fs (c :: line) := by
  cases h with
  | nil hgap => exact .nil (List.forall_mem_cons.mpr ⟨hc, hgap⟩)
  | @cons gap _ _ _ hgap hne hfield hend hrest =>
    exact @Spaced.cons (c :: gap) _ _ _ (List.forall_mem_cons.mpr ⟨hc, hgap⟩) hne hfield hend hrest

/-- A line is its fields with gaps between them. The induction is on its length, for a field is
taken off as a whole. -/
theorem spaced_fields (line : List Char) : Spaced (fields line) line := by
  induction hn : line.length using Nat.strong_induction_on generalizing line with
  | _ n ih =>
    cases line with
    | nil => exact .nil (by simp)
    | cons c line =>
      by_cases hc : isBlank c = true
      · rw [fields_cons_blank hc]
        exact (ih _ (by simp [← hn]) line rfl).cons_blank hc
      · set word := (c :: line).takeWhile fun c => !isBlank c
        set rest := (c :: line).dropWhile fun c => !isBlank c
        have hcut : c :: line = word ++ rest := List.takeWhile_append_dropWhile.symm
        have hne : word ≠ [] := by simp [word, hc]
        have hword : ∀ d ∈ word, isBlank d = false := fun d hd => by
          simpa using List.mem_takeWhile_imp hd
        have hend : ∀ d ∈ rest.head?, isBlank d = true := fun d hd => by
          simpa using head?_dropWhile _ _ d hd
        have hshort : rest.length < n := by
          rw [← hn, hcut, List.length_append]
          exact Nat.lt_add_of_pos_left (List.length_pos_iff.mpr hne)
        rw [hcut, fields_word_append hne hword hend]
        exact @Spaced.cons [] _ _ _ (by simp) hne hword hend (ih _ hshort rest rfl)

theorem Spaced.fields_eq (h : Spaced fs line) : fields line = fs := by
  induction h with
  | nil hgap => simpa using fields_gap_append hgap []
  | cons hgap hne hfield hend hrest ih =>
    rw [List.append_assoc, fields_gap_append hgap, fields_word_append hne hfield hend, ih]

/-- The fields of a line are the ones that it is made of. -/
theorem fields_eq_iff : fields line = fs ↔ Spaced fs line :=
  ⟨fun h => h ▸ spaced_fields line, Spaced.fields_eq⟩

end Telemetry.Text
