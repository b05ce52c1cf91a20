import Rulebook.Manifest.Dependencies
import Rulebook.Proofs.Text.Lowered
import Rulebook.Proofs.Text.Trim

/-!
# Normal names

The normal form of a name has no blanks at its ends, no run of separators but single hyphens, and no
capitals, as far as its ecosystem asks for it. Each step keeps what the steps before it reached, so
a normal form is its own normal form (`Naming.normal_normal`).
-/

namespace Rulebook

/-! ## Texts without blanks at the ends -/

structure Blank.IsTrimmed (s : Text) : Prop where
  head : ∀ c ∈ s.head?, Blank.isBlank c = false
  last : ∀ c ∈ s.getLast?, Blank.isBlank c = false

namespace Blank

variable {s t : Text}

theorem isTrimmed_trim (s : Text) : IsTrimmed (trim s) :=
  ⟨fun _ => head?_trim, fun _ => getLast?_trim⟩

theorem IsTrimmed.trim (h : IsTrimmed s) : trim s = s := trim_eq_self h.head h.last

theorem isTrimmed_of_not_isBlank (h : ∀ c ∈ s, isBlank c = false) : IsTrimmed s :=
  ⟨fun c hc => h c (List.mem_of_head? hc), fun c hc => h c (List.mem_of_getLast? hc)⟩

/-- Only what stands outside of two texts is at an end of what they enclose. -/
theorem IsTrimmed.enclose (hs : IsTrimmed s) (ht : IsTrimmed t) (hsne : s ≠ []) (htne : t ≠ [])
    (middle : Text) : IsTrimmed (s ++ middle ++ t) := by
  constructor
  · intro c hc
    rw [List.append_assoc, List.head?_append_of_ne_nil _ hsne] at hc
    exact hs.head c hc
  · intro c hc
    rw [List.getLast?_append_of_ne_nil _ htne] at hc
    exact ht.last c hc

theorem IsTrimmed.lower (h : IsTrimmed s) : IsTrimmed (LowerCase.text s) := by
  constructor
  · intro x hx
    obtain ⟨c, hc, hx⟩ := LowerCase.head?_after hx
    exact LowerCase.not_isBlank_form (h.head c hc) hx
  · intro x hx
    obtain ⟨c, hc, hx⟩ := LowerCase.getLast?_after hx
    exact LowerCase.not_isBlank_form (h.last c hc) hx

end Blank

/-! ## Separators -/

namespace Naming

variable {c x : Char} {s t piece before : Text} {inRun : Bool}

theorem isSeparator_form (hc : isSeparator c = false) (hx : x ∈ LowerCase.forms c) :
    isSeparator x = false := by
  have hranges (c : Char) (h : isSeparator c = true) :
      Ranges.contains [(0x2D, 0x2E), (0x5F, 0x5F)] c = true := by
    simp only [isSeparator, Bool.or_eq_true, beq_iff_eq] at h
    rcases h with (rfl | rfl) | rfl <;> rfl
  exact LowerCase.form_eq_false hranges (by decide +kernel) (by decide) hc hx

theorem isBlank_of_isSeparator (h : isSeparator c = true) : Blank.isBlank c = false := by
  simp only [isSeparator, Bool.or_eq_true, beq_iff_eq] at h
  rcases h with (rfl | rfl) | rfl <;> rfl

theorem foldSeparators_separator (hc : isSeparator c = true) (inRun : Bool) (s : Text) :
    foldSeparators inRun (c :: s) = (if inRun then [] else ['-']) ++ foldSeparators true s := by
  rw [foldSeparators, hc]
  cases inRun <;> rfl

theorem foldSeparators_cons (hc : isSeparator c = false) (inRun : Bool) (s : Text) :
    foldSeparators inRun (c :: s) = c :: foldSeparators false s := by
  rw [foldSeparators, hc]
  rfl

/-- A text without separators stays, and ends a run. -/
theorem foldSeparators_append (hne : piece ≠ []) (h : ∀ x ∈ piece, isSeparator x = false)
    (inRun : Bool) (t : Text) :
    foldSeparators inRun (piece ++ t) = piece ++ foldSeparators false t := by
  induction piece generalizing inRun with
  | nil => exact absurd rfl hne
  | cons x piece ih =>
    obtain ⟨hx, hpiece⟩ := List.forall_mem_cons.mp h
    rw [List.cons_append, foldSeparators_cons hx]
    cases piece with
    | nil => rfl
    | cons y piece => exact congrArg (x :: ·) (ih (List.cons_ne_nil y piece) hpiece false)

theorem foldSeparators_foldSeparators (inRun : Bool) (s : Text) :
    foldSeparators inRun (foldSeparators inRun s) = foldSeparators inRun s := by
  induction s generalizing inRun with
  | nil => rfl
  | cons c s ih =>
    cases hc : isSeparator c with
    | true =>
      rw [foldSeparators_separator hc]
      cases inRun with
      | true => exact ih true
      | false => exact congrArg ('-' :: ·) (ih true)
    | false => rw [foldSeparators_cons hc, foldSeparators_cons hc, ih]

theorem length_foldSeparators_le (inRun : Bool) (s : Text) :
    (foldSeparators inRun s).length ≤ s.length := by
  induction s generalizing inRun with
  | nil => exact Nat.le_refl 0
  | cons c s ih =>
    have htrue := ih true
    have hfalse := ih false
    cases hc : isSeparator c <;> cases inRun <;> simp [foldSeparators, hc] <;> omega

/-- Lowering keeps the separators, and makes no new ones. -/
theorem foldSeparators_after (h : foldSeparators inRun s = s) :
    foldSeparators inRun (LowerCase.after before s) = LowerCase.after before s := by
  induction s generalizing inRun before with
  | nil => rfl
  | cons c s ih =>
    cases hc : isSeparator c with
    | true =>
      rw [foldSeparators_separator hc] at h
      cases inRun with
      | true =>
        -- a separator within a run would be left out
        have hlen := length_foldSeparators_le true s
        have hlen' := congrArg List.length h
        simp only [↓reduceIte, List.nil_append, List.length_cons] at hlen'
        omega
      | false =>
        obtain ⟨rfl, hs⟩ := List.cons.inj h
        exact congrArg ('-' :: ·) (ih hs)
    | false =>
      rw [foldSeparators_cons hc] at h
      obtain ⟨-, hs⟩ := List.cons.inj h
      obtain ⟨piece, hne, hforms, heq⟩ := LowerCase.after_cons before c s
      rw [heq, foldSeparators_append hne fun x hx => isSeparator_form hc (hforms x hx), ih hs]

theorem head?_foldSeparators (hx : x ∈ (foldSeparators false s).head?) :
    isSeparator x = true ∨ x ∈ s.head? := by
  cases s with
  | nil => cases hx
  | cons c s =>
    cases hc : isSeparator c with
    | true =>
      rw [foldSeparators_separator hc] at hx
      cases hx
      exact .inl rfl
    | false =>
      rw [foldSeparators_cons hc] at hx
      exact .inr hx

theorem getLast?_foldSeparators (hx : x ∈ (foldSeparators inRun s).getLast?) :
    isSeparator x = true ∨ x ∈ s.getLast? := by
  induction s generalizing inRun with
  | nil => cases hx
  | cons c s ih =>
    have hrest {inRun : Bool} (hx : x ∈ (foldSeparators inRun s).getLast?) :
        isSeparator x = true ∨ x ∈ (c :: s).getLast? := by
      cases s with
      | nil => cases hx
      | cons d s => exact ih hx
    cases hc : isSeparator c with
    | true =>
      rw [foldSeparators_separator hc, List.getLast?_append, Option.mem_def,
        Option.or_eq_some_iff] at hx
      rcases hx with hx | ⟨-, hx⟩
      · exact hrest hx
      · cases inRun <;> cases hx
        exact .inl rfl
    | false =>
      rw [foldSeparators_cons hc] at hx
      cases s with
      | nil => exact .inr hx
      | cons d s =>
        have hne : foldSeparators false (d :: s) ≠ [] := by
          cases hd : isSeparator d <;> simp [foldSeparators, hd]
        rw [List.getLast?_cons_of_ne_nil hne] at hx
        exact hrest hx

theorem isTrimmed_foldSeparators (h : Blank.IsTrimmed s) :
    Blank.IsTrimmed (foldSeparators false s) :=
  ⟨fun x hx => (head?_foldSeparators hx).elim isBlank_of_isSeparator (h.head x),
    fun x hx => (getLast?_foldSeparators hx).elim isBlank_of_isSeparator (h.last x)⟩

/-- In `t` each run of separators of `s` is a single hyphen, and all else as it is. -/
inductive Folds : Text → Text → Prop where
  | nil : Folds [] []
  | keep {c : Char} {s t : Text} (hc : isSeparator c = false) (h : Folds s t) :
    Folds (c :: s) (c :: t)
  | run {run s t : Text} (hne : run ≠ []) (hrun : ∀ c ∈ run, isSeparator c = true)
    (hend : ∀ c ∈ s.head?, isSeparator c = false) (h : Folds s t) : Folds (run ++ s) ('-' :: t)

theorem foldSeparators_run {run : Text} (hrun : ∀ c ∈ run, isSeparator c = true) (s : Text) :
    foldSeparators true (run ++ s) = foldSeparators true s := by
  induction run with
  | nil => rfl
  | cons c run ih =>
    obtain ⟨hc, hrun⟩ := List.forall_mem_cons.mp hrun
    rw [List.cons_append, foldSeparators_separator hc]
    exact ih hrun

theorem Folds.foldSeparators_eq (h : Folds s t) : foldSeparators false s = t := by
  induction h with
  | nil => rfl
  | keep hc h ih => rw [foldSeparators_cons hc, ih]
  | @run run s t hne hrun hend h ih =>
    obtain ⟨c, rest, rfl⟩ := List.exists_cons_of_ne_nil hne
    obtain ⟨hc, hrest⟩ := List.forall_mem_cons.mp hrun
    have hafter : foldSeparators true s = foldSeparators false s := by
      cases s with
      | nil => rfl
      | cons d s => rw [foldSeparators_cons (hend d rfl), foldSeparators_cons (hend d rfl)]
    rw [List.cons_append, foldSeparators_separator hc, foldSeparators_run hrest, hafter, ih]
    rfl

/-- The second part is for a text of which a run in front is read already. -/
theorem folds_foldSeparators (s : Text) : Folds s (foldSeparators false s) ∧
    ∀ run, run ≠ [] → (∀ c ∈ run, isSeparator c = true) →
      Folds (run ++ s) ('-' :: foldSeparators true s) := by
  induction s with
  | nil => exact ⟨.nil, fun run hne hrun => .run hne hrun (fun _ h => nomatch h) .nil⟩
  | cons c s ih =>
    cases hc : isSeparator c with
    | true =>
      have hlonger (run : Text) (hrun : ∀ c ∈ run, isSeparator c = true) :
          Folds (run ++ c :: s) ('-' :: foldSeparators true s) := by
        have hfolds := ih.2 (run ++ [c]) (by simp)
          (List.forall_mem_append.mpr ⟨hrun, List.forall_mem_singleton.mpr hc⟩)
        rwa [List.append_assoc] at hfolds
      rw [foldSeparators_separator hc, foldSeparators_separator hc]
      exact ⟨hlonger [] (fun _ h => nomatch h), fun run _ hrun => hlonger run hrun⟩
    | false =>
      rw [foldSeparators_cons hc, foldSeparators_cons hc]
      have hkeep : Folds (c :: s) (c :: foldSeparators false s) := .keep hc ih.1
      refine ⟨hkeep, fun run hne hrun => .run hne hrun (fun d hd => ?_) hkeep⟩
      obtain rfl := Option.some.inj hd
      exact hc

theorem folds_iff : Folds s t ↔ foldSeparators false s = t :=
  ⟨Folds.foldSeparators_eq, fun h => h ▸ (folds_foldSeparators s).1⟩

/-! ## Normal forms -/

theorem isTrimmed_normal (n : Naming) (name : Text) : Blank.IsTrimmed (n.normal name) := by
  have htrim := Blank.isTrimmed_trim name
  cases n with
  | exact => exact htrim
  | caseless => exact htrim.lower
  | folded => exact (isTrimmed_foldSeparators htrim).lower

theorem normal_normal (n : Naming) (name : Text) : n.normal (n.normal name) = n.normal name := by
  have htrim := (isTrimmed_normal n name).trim
  cases n with
  | exact => exact htrim
  | caseless =>
    show LowerCase.text (Blank.trim _) = _
    rw [htrim]
    exact LowerCase.text_text _
  | folded =>
    show LowerCase.text (foldSeparators false (Blank.trim _)) = _
    rw [htrim]
    have hfold : foldSeparators false (LowerCase.after [] _) = _ :=
      foldSeparators_after (foldSeparators_foldSeparators false (Blank.trim name))
    exact (congrArg LowerCase.text hfold).trans (LowerCase.text_text _)

/-- `form` is `name` without the blanks at its ends, with each run of separators as a single hyphen,
in lower case. -/
def IsFolded (name form : Text) : Prop :=
  ∃ folded, Folds (Blank.trim name) folded ∧ LowerCase.text folded = form

theorem isFolded_iff : IsFolded s t ↔ Naming.folded.normal s = t := by
  unfold IsFolded
  simp only [folds_iff, exists_eq_left']
  rfl

end Naming

namespace Ecosystem

theorem normalName_normalName (e : Ecosystem) (name : String) :
    e.normalName (e.normalName name) = e.normalName name := by
  unfold normalName
  rw [String.toList_ofList, Naming.normal_normal]

/-- Where names are compared as they are, only blanks at the ends are taken off. -/
theorem normalName_of_isTrimmed {e : Ecosystem} {s : Text} (he : e.naming = .exact)
    (h : Blank.IsTrimmed s) : e.normalName (String.ofList s) = String.ofList s := by
  unfold normalName
  rw [he, String.toList_ofList]
  exact congrArg String.ofList h.trim

end Ecosystem

end Rulebook
