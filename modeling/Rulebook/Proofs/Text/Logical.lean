import Mathlib.Logic.Basic
import Rulebook.Text.Lines

/-!
# Logical lines

The lines of a text, said without a reader: they follow each other, each unbroken and with an end
after it, and the last may do without. A text consists of lines in this way just if it is read as
these lines (`Lines.logical_eq_iff`), so its lines are determined.
-/

namespace Rulebook.Lines

/-- What ends a line: a boundary, or a carriage return and a line feed together. -/
def IsEnd (ending : Text) : Prop :=
  ending = ['\r', '\n'] ∨ ∃ c, isBoundary c = true ∧ ending = [c]

def IsUnbroken (line : Text) : Prop := ∀ c ∈ line, isBoundary c = false

inductive ConsistsOf : Text → List Text → Prop where
  | nil : ConsistsOf [] []
  | last {line : Text} (hline : IsUnbroken line) (hne : line ≠ []) : ConsistsOf line [line]
  /-- A carriage return is an end of its own unless a line feed follows. -/
  | cons {line ending s : Text} {lines : List Text} (hline : IsUnbroken line)
      (hend : IsEnd ending) (hpair : ending = ['\r'] → s.head? ≠ some '\n')
      (h : ConsistsOf s lines) : ConsistsOf (line ++ ending ++ s) (line :: lines)

variable {line ending s : Text} {lines : List Text} {c : Char}

theorem logicalFrom_cons (hc : isBoundary c = false) (line s : Text) :
    logicalFrom line (c :: s) = logicalFrom (c :: line) s := by
  have hreturn : c ≠ '\r' := fun heq => by
    rw [heq] at hc
    cases hc
  rw [logicalFrom, if_neg (by simp [hc])]
  exact fun _ heq _ => hreturn heq

theorem logicalFrom_append (h : IsUnbroken line) (start s : Text) :
    logicalFrom start (line ++ s) = logicalFrom (line.reverse ++ start) s := by
  induction line generalizing start with
  | nil => rfl
  | cons c line ih =>
    obtain ⟨hc, hline⟩ := List.forall_mem_cons.mp h
    rw [List.cons_append, logicalFrom_cons hc, ih hline, List.reverse_cons, List.append_assoc]
    rfl

theorem logicalFrom_ending (hend : IsEnd ending) (hpair : ending = ['\r'] → s.head? ≠ some '\n')
    (line : Text) : logicalFrom line (ending ++ s) = line.reverse :: logical s := by
  rcases hend with rfl | ⟨c, hc, rfl⟩
  · rfl
  · show logicalFrom line (c :: s) = _
    rw [logicalFrom, if_pos hc]
    · rfl
    · rintro t rfl rfl
      exact hpair rfl rfl

theorem ConsistsOf.logical_eq (h : ConsistsOf s lines) : logical s = lines := by
  induction h with
  | nil => rfl
  | last hline hne =>
    rename_i line
    have happend := logicalFrom_append hline [] []
    rw [List.append_nil, List.append_nil] at happend
    rw [logical, happend, logicalFrom, List.reverse_reverse,
      if_neg (by simpa using hne)]
  | cons hline hend hpair h ih =>
    rw [logical, List.append_assoc, logicalFrom_append hline, logicalFrom_ending hend hpair, ih,
      List.append_nil, List.reverse_reverse]

/-- Nothing is left out: a text consists of the lines that it is read as. -/
theorem consistsOf_logicalFrom (hline : IsUnbroken line) :
    ConsistsOf (line.reverse ++ s) (logicalFrom line s) := by
  fun_induction logicalFrom line s with
  | case1 line hempty =>
    rw [List.isEmpty_iff.mp hempty]
    exact .nil
  | case2 line hempty =>
    rw [List.append_nil]
    exact .last (fun c hc => hline c (List.mem_reverse.mp hc)) (by simpa using hempty)
  | case3 line s ih =>
    have hcons : ConsistsOf (line.reverse ++ ['\r', '\n'] ++ s) _ := .cons
      (fun c hc => hline c (List.mem_reverse.mp hc)) (.inl rfl) (by simp)
      (ih (by simp [IsUnbroken]))
    rwa [List.append_assoc] at hcons
  | case4 line c s hpair hc ih =>
    have hcons : ConsistsOf (line.reverse ++ [c] ++ s) _ := .cons
      (fun c hc => hline c (List.mem_reverse.mp hc)) (.inr ⟨c, hc, rfl⟩) ?_
      (ih (by simp [IsUnbroken]))
    · rwa [List.append_assoc] at hcons
    · intro heq hhead
      obtain ⟨t, rfl⟩ := List.head?_eq_some_iff.mp hhead
      exact hpair t (List.singleton_inj.mp heq) rfl
  | case5 line c s _ hc ih =>
    have hnext := ih (List.forall_mem_cons.mpr ⟨by simpa using hc, hline⟩)
    rwa [List.reverse_cons, List.append_assoc] at hnext

theorem logical_eq_iff : logical s = lines ↔ ConsistsOf s lines := by
  constructor
  · rintro rfl
    show ConsistsOf ([].reverse ++ s) (logicalFrom [] s)
    exact consistsOf_logicalFrom fun _ h => nomatch h
  · exact ConsistsOf.logical_eq

end Rulebook.Lines
