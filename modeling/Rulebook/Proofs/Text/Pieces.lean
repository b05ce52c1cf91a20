import Mathlib.Data.List.Infix
import Rulebook.Text.Lines

/-!
# Pieces of a text

A text is taken apart at separators and put together again. The pieces of two texts with a separator
between them are those of the one and then those of the other (`Blank.splitWhere_append`), and lines
that are joined by line feeds are read back as they were (`Lines.byLineFeed_intercalate`).
-/

namespace Rulebook

/-- What does not hold a character stands on one side of it. -/
theorem infix_append_cons {needle s t : Text} {c : Char} (hc : c ∉ needle)
    (h : needle <:+: s ++ c :: t) : needle <:+: s ∨ needle <:+: t := by
  rcases List.infix_append_iff_ne_nil.mp h with h | h | ⟨start, rest, -, hne, rfl, -, hrest⟩
  · exact .inl h
  · rcases List.infix_cons_iff.mp h with h | h
    · cases needle with
      | nil => exact .inl List.nil_infix
      | cons d needle =>
        exact absurd (List.mem_cons.mpr (.inl (List.cons_prefix_cons.mp h).1.symm)) hc
    · exact .inr h
  · cases rest with
    | nil => exact absurd rfl hne
    | cons d rest =>
      refine absurd (List.mem_append_right start ?_) hc
      exact List.mem_cons.mpr (.inl (List.cons_prefix_cons.mp hrest).1.symm)

namespace Blank

variable {p : Char → Bool} {c : Char} {s t piece : Text}

theorem splitWhere_append (hc : p c = true) (s t : Text) :
    splitWhere p (s ++ c :: t) = splitWhere p s ++ splitWhere p t := by
  induction s with
  | nil => simp [splitWhere, hc]
  | cons d s ih =>
    rw [List.cons_append, splitWhere, splitWhere, ih]
    split
    · rfl
    · cases h : splitWhere p s with
      | nil => exact absurd h (splitWhere_ne_nil p s)
      | cons piece pieces => rfl

theorem mem_of_mem_splitWhere (h : piece ∈ splitWhere p s) (hc : c ∈ piece) : c ∈ s := by
  induction s generalizing piece with
  | nil =>
    rw [List.mem_singleton.mp h] at hc
    cases hc
  | cons d s ih =>
    unfold splitWhere at h
    split at h
    · rcases List.mem_cons.mp h with rfl | h
      · cases hc
      · exact List.mem_cons_of_mem d (ih h hc)
    · split at h
      next hs => exact absurd hs (splitWhere_ne_nil p s)
      next first more hs =>
        rcases List.mem_cons.mp h with rfl | h
        · rcases List.mem_cons.mp hc with rfl | hc
          · exact List.mem_cons_self
          · exact List.mem_cons_of_mem d (ih (hs ▸ List.mem_cons_self) hc)
        · exact List.mem_cons_of_mem d (ih (hs ▸ List.mem_cons_of_mem _ h) hc)

theorem splitWhere_of_not (h : ∀ c ∈ s, p c = false) : splitWhere p s = [s] := by
  induction s with
  | nil => rfl
  | cons c s ih =>
    obtain ⟨hc, hs⟩ := List.forall_mem_cons.mp h
    simp [splitWhere, hc, ih hs]

/-- What is put after a text comes to its last piece. -/
theorem splitWhere_append_of_not (ht : ∀ c ∈ t, p c = false) (s : Text) :
    ∃ pieces last, splitWhere p s = pieces ++ [last] ∧
      splitWhere p (s ++ t) = pieces ++ [last ++ t] := by
  induction s with
  | nil => exact ⟨[], [], rfl, splitWhere_of_not ht⟩
  | cons c s ih =>
    obtain ⟨pieces, last, hs, hst⟩ := ih
    rw [List.cons_append, splitWhere, splitWhere, hs, hst]
    split
    · exact ⟨[] :: pieces, last, rfl, rfl⟩
    · cases pieces with
      | nil => exact ⟨[], c :: last, rfl, rfl⟩
      | cons piece pieces => exact ⟨(c :: piece) :: pieces, last, rfl, rfl⟩

theorem words_append_cons (hc : isBlank c = true) (s t : Text) :
    words (s ++ c :: t) = words s ++ words t := by
  unfold words
  rw [splitWhere_append hc, List.filter_append]

theorem words_of_not_isBlank (hne : s ≠ []) (h : ∀ c ∈ s, isBlank c = false) : words s = [s] := by
  unfold words
  rw [splitWhere_of_not h]
  exact List.filter_cons_of_pos (by simpa using hne)

theorem words_append_of_isAllBlank (hs : isAllBlank s = true) (t : Text) :
    words (s ++ t) = words t := by
  induction s with
  | nil => rfl
  | cons c s ih =>
    obtain ⟨hc, hs⟩ := List.forall_mem_cons.mp (List.all_eq_true.mp hs)
    exact (words_append_cons hc [] (s ++ t)).trans (ih (List.all_eq_true.mpr hs))

end Blank

namespace Lines

variable {line s t : Text} {lines : List Text}

theorem intercalate_cons (line : Text) (lines : List Text) :
    ['\n'].intercalate (line :: lines) = line ++ lines.flatMap ('\n' :: ·) := by
  induction lines generalizing line with
  | nil => simp [List.intercalate]
  | cons next lines ih =>
    have h := ih next
    simp only [List.intercalate, List.intersperse_cons_cons, List.flatten_cons] at h ⊢
    rw [h]
    simp

theorem byLineFeed_append (s t : Text) :
    byLineFeed (s ++ '\n' :: t) = byLineFeed s ++ byLineFeed t :=
  Blank.splitWhere_append rfl s t

theorem byLineFeed_of_not_mem (h : '\n' ∉ line) : byLineFeed line = [line] :=
  Blank.splitWhere_of_not fun _ hc => beq_false_of_ne fun he => h (he ▸ hc)

/-- Lines that are joined are read back. -/
theorem byLineFeed_intercalate (hne : lines ≠ []) (h : ∀ line ∈ lines, '\n' ∉ line) :
    byLineFeed (['\n'].intercalate lines) = lines := by
  cases lines with
  | nil => exact absurd rfl hne
  | cons line lines =>
    obtain ⟨hline, hlines⟩ := List.forall_mem_cons.mp h
    rw [intercalate_cons]
    clear h hne
    induction lines generalizing line with
    | nil => simpa using byLineFeed_of_not_mem hline
    | cons next lines ih =>
      obtain ⟨hnext, hlines⟩ := List.forall_mem_cons.mp hlines
      rw [List.flatMap_cons, List.cons_append, byLineFeed_append, byLineFeed_of_not_mem hline,
        ih next hnext hlines]
      rfl

end Lines

end Rulebook
