import Mathlib.Data.List.TakeWhile
import Rulebook.Config.Environment
import Rulebook.Proofs.Value.Descent

/-!
# Texts that stand for no value

Every text of the environment stands for some value, if need be for itself, except where it is or
holds an integer with too many digits (`Config.coerce_eq_error_iff`).
-/

namespace Rulebook

namespace Literal

variable {s whole fraction : Text} {c : Char} {p : Char → Bool}

theorem splitSign_cases (s : Text) :
    (∃ c, (c = '-' ∨ c = '+') ∧ s = c :: (splitSign s).2) ∨ splitSign s = (false, s) := by
  unfold splitSign
  split
  · exact .inl ⟨'-', .inl rfl, rfl⟩
  · exact .inl ⟨'+', .inr rfl, rfl⟩
  · exact .inr rfl

theorem trim_of_splitSign (h : ∀ c ∈ (splitSign s).2, Blank.isBlank c = false) :
    Blank.trim s = s := by
  refine trim_of_not_blank ?_
  rcases splitSign_cases s with ⟨sign, hsign, hs⟩ | hs
  · rw [hs]
    refine List.forall_mem_cons.mpr ⟨?_, h⟩
    rcases hsign with rfl | rfl <;> decide
  · rwa [hs] at h

theorem cut_of_not (h : ∀ c ∈ s, p c = false) : cut p s = (s, none) := by
  have hdrop : s.dropWhile (!p ·) = [] :=
    List.dropWhile_eq_nil_iff.mpr fun c hc => by rw [h c hc]; rfl
  rw [cut, hdrop]

theorem eq_of_cut (h : cut p s = (whole, some fraction)) : ∃ c, p c = true ∧
    s = whole ++ c :: fraction := by
  unfold cut at h
  split at h
  · cases h
  next c rest hdrop =>
    cases h
    refine ⟨c, ?_, ?_⟩
    · have hc := List.head?_dropWhile_not (fun c => !p c) s
      rw [hdrop] at hc
      simpa using hc
    · rw [← hdrop, List.takeWhile_append_dropWhile]

end Literal

namespace Config

open Literal (digitLimit splitSign cut)

variable {s whole fraction : Text} {c : Char}

/-! ## Numbers -/

theorem not_mem_of_isDigits (h : isDigits s = true) (hc : Digit.decimal? c = none) : c ∉ s := by
  intro hmem
  have hdigit := List.all_eq_true.mp h c hmem
  rw [hc] at hdigit
  cases hdigit

theorem digits?_of_isDigits (hs : s ≠ []) (h : isDigits s = true) :
    ∃ ds, Literal.digits? Digit.decimal? s = some ds ∧ ds.length = s.length := by
  rcases Literal.digits?_cases Digit.decimal? hs (not_mem_of_isDigits h (by decide)) with
    ⟨⟨c, hc, hnone⟩, -⟩ | ⟨-, hds⟩
  · exact absurd hc (not_mem_of_isDigits h hnone)
  · exact hds

theorem optionalDigits?_of_isDigits (h : isDigits s = true) :
    ∃ ds, Literal.optionalDigits? s = some ds ∧ ds.length = s.length := by
  unfold Literal.optionalDigits?
  cases s with
  | nil => exact ⟨[], rfl, rfl⟩
  | cons c s => exact digits?_of_isDigits (List.cons_ne_nil c s) h

theorem not_isBlank_of_decimal (h : (Digit.decimal? c).isSome = true) :
    Blank.isBlank c = false := by
  rw [Bool.eq_false_iff]
  intro hblank
  have hc := Digit.isDecimal_of_contains_blanks (Digit.contains_blanks hblank)
  rw [Digit.isDecimal, h] at hc
  cases hc

/-- An integer is read unless it has too many digits. -/
theorem integer_of_isIntegerText (h : isIntegerText s = true) :
    (∃ e, Literal.integer 10 s = .error e) ↔ digitLimit < (splitSign s).2.length := by
  unfold isIntegerText at h
  obtain ⟨hne, hdigits⟩ := Bool.and_eq_true_iff.mp h
  have hne : (splitSign s).2 ≠ [] := by simpa using hne
  have htrim : Blank.trim s = s := Literal.trim_of_splitSign fun c hc =>
    not_isBlank_of_decimal (List.all_eq_true.mp hdigits c hc)
  have hmark : Literal.withoutMark 10 (splitSign s).2 = (splitSign s).2 := by
    unfold Literal.withoutMark
    split <;> rfl
  have hdigitOf : Literal.digitOf 10 = Digit.decimal? := funext Literal.digitOf_ten
  obtain ⟨ds, hds, hlength⟩ := digits?_of_isDigits hne hdigits
  unfold Literal.integer
  rw [htrim]
  dsimp only
  rw [hmark, hdigitOf, hds, ← hlength]
  by_cases hlimit : digitLimit < ds.length
  · simp [hlimit]
  · simp [hlimit]

theorem digit_or_point (hcut : cut (· == '.') s = (whole, some fraction))
    (hwhole : isDigits whole = true) (hfraction : isDigits fraction = true) (hc : c ∈ s) :
    (Digit.decimal? c).isSome = true ∨ c = '.' := by
  obtain ⟨point, hpoint, hs⟩ := Literal.eq_of_cut hcut
  rw [hs, List.mem_append, List.mem_cons] at hc
  rcases hc with hc | rfl | hc
  · exact .inl (List.all_eq_true.mp hwhole c hc)
  · exact .inr (eq_of_beq hpoint)
  · exact .inl (List.all_eq_true.mp hfraction c hc)

/-- Digits with a point among them hold no exponent, and write a number. -/
theorem decimal?_of_cut (hcut : cut (· == '.') s = (whole, some fraction))
    (hwhole : isDigits whole = true) (hfraction : isDigits fraction = true)
    (hsome : (whole.isEmpty && fraction.isEmpty) = false) (negative : Bool) :
    ∃ x, Literal.decimal? negative s = some x := by
  have hexponent : cut (fun c => c == 'e' || c == 'E') s = (s, none) :=
    Literal.cut_of_not fun c hc => by
      rw [Bool.eq_false_iff]
      intro he
      rcases digit_or_point hcut hwhole hfraction hc with hdigit | rfl
      · rcases Bool.or_eq_true_iff.mp he with he | he
        all_goals
          obtain rfl := eq_of_beq he
          exact absurd hdigit (by decide)
      · exact absurd he (by decide)
  obtain ⟨ds, hds, hdslength⟩ := optionalDigits?_of_isDigits hwhole
  obtain ⟨fs, hfs, hfslength⟩ := optionalDigits?_of_isDigits hfraction
  have hempty {l : List Nat} {t : Text} (h : l.length = t.length) : l.isEmpty = t.isEmpty := by
    cases l <;> cases t <;> simp_all
  rw [← hempty hdslength, ← hempty hfslength] at hsome
  unfold Literal.decimal?
  rw [hexponent]
  dsimp only
  rw [hcut]
  simp only [hds, hfs, Option.getD_some, hsome, Option.bind_eq_bind, Option.bind_some]
  exact ⟨_, rfl⟩

/-- A decimal number is always read. -/
theorem number_of_isDecimalText (h : isDecimalText s = true) :
    ∃ x, Literal.number s = .ok x := by
  unfold isDecimalText at h
  split at h
  next whole fraction hcut =>
    simp only [Bool.and_eq_true, Bool.not_eq_true'] at h
    obtain ⟨⟨hwhole, hfraction⟩, hsome⟩ := h
    have htrim : Blank.trim s = s := Literal.trim_of_splitSign fun c hc => by
      rcases digit_or_point hcut hwhole hfraction hc with hdigit | rfl
      · exact not_isBlank_of_decimal hdigit
      · decide
    obtain ⟨x, hx⟩ := decimal?_of_cut hcut hwhole hfraction hsome (splitSign s).1
    unfold Literal.number
    rw [htrim]
    dsimp only
    split
    · exact ⟨_, rfl⟩
    · split
      · exact ⟨_, rfl⟩
      · exact ⟨x, by rw [hx]⟩
  · cases h

/-! ## Texts that stand for no value -/

/-- A numeral with too many digits for an integer, or JSON that holds one. -/
def IsOversized (value : Text) : Prop :=
  let s := Blank.trim value
  (isIntegerText s = true ∧ digitLimit < (splitSign s).2.length) ∨
    isBracketed s = true ∧ ∃ e, Json.read s = .error (.numeral e)

theorem length_le_lowerCase (before s : Text) : s.length ≤ (LowerCase.after before s).length := by
  induction s generalizing before with
  | nil => exact Nat.le_refl 0
  | cons c s ih =>
    have htail := ih (c :: before)
    unfold LowerCase.after
    split
    · simpa using htail
    · split
      · simp only [List.length_cons]
        omega
      · simpa using htail

/-- The words for truth values are short and begin with a letter. -/
theorem not_truth_of_length (h : 5 < s.length) :
    String.ofList (LowerCase.text s) ≠ "true" ∧ String.ofList (LowerCase.text s) ≠ "false" := by
  have hlength := length_le_lowerCase [] s
  constructor
  all_goals
    intro heq
    have hchars := congrArg (fun w : String => w.toList.length) heq
    simp only [String.toList_ofList] at hchars
    have hshort : (LowerCase.after [] s).length ≤ 5 := hchars.trans_le (by decide)
    omega

theorem isBracketed_cases (h : isBracketed s = true) :
    ∃ c rest, (c = '\x7b' ∨ c = '[') ∧ s = c :: rest := by
  simp only [isBracketed, Bool.or_eq_true, Bool.and_eq_true, beq_iff_eq] at h
  rcases h with ⟨h, -⟩ | ⟨h, -⟩
  · obtain ⟨rest, rfl⟩ := List.head?_eq_some_iff.mp h
    exact ⟨_, rest, .inl rfl, rfl⟩
  · obtain ⟨rest, rfl⟩ := List.head?_eq_some_iff.mp h
    exact ⟨_, rest, .inr rfl, rfl⟩

theorem not_truth_of_isBracketed (h : isBracketed s = true) :
    String.ofList (LowerCase.text s) ≠ "true" ∧ String.ofList (LowerCase.text s) ≠ "false" := by
  obtain ⟨c, rest, hc, rfl⟩ := isBracketed_cases h
  have hhead : (LowerCase.text (c :: rest)).head? = some c := by
    rcases hc with rfl | rfl <;> rfl
  constructor
  all_goals
    intro heq
    have hchars := congrArg (fun w : String => w.toList.head?) heq
    simp only [String.toList_ofList, hhead] at hchars
    rcases hc with rfl | rfl <;> exact absurd hchars (by decide)

theorem not_number_of_isBracketed (h : isBracketed s = true) :
    isIntegerText s = false ∧ isDecimalText s = false := by
  obtain ⟨c, rest, hc, rfl⟩ := isBracketed_cases h
  have hsign : splitSign (c :: rest) = (false, c :: rest) := by
    rcases hc with rfl | rfl <;> rfl
  have hdigit : Digit.decimal? c = none := by
    rcases hc with rfl | rfl <;> decide
  have hdigits (t : Text) : isDigits (c :: t) = false := by
    rw [Bool.eq_false_iff]
    exact fun hall => not_mem_of_isDigits hall hdigit List.mem_cons_self
  constructor
  · rw [isIntegerText, hsign]
    simp [hdigits]
  · unfold isDecimalText
    rw [hsign]
    dsimp only
    split
    next whole fraction hcut =>
      obtain ⟨point, hpoint, hbody⟩ := Literal.eq_of_cut hcut
      obtain rfl : point = '.' := by simpa using hpoint
      cases whole with
      | nil =>
        obtain rfl := (List.cons.inj hbody).1
        exact absurd hc (by decide)
      | cons d whole =>
        obtain rfl := (List.cons.inj hbody).1
        rw [hdigits]
        rfl
    · rfl

/-- A text fails to stand for a value just if it writes or holds an integer with too many digits. -/
theorem coerce_eq_error_iff (value : Text) :
    (∃ f, coerce value = .error f) ↔ IsOversized value := by
  have herror {ε ε' α β : Type} (g : ε → ε') (k : α → β) (x : Except ε α) :
      (∃ f, (k <$> x.mapError g) = .error f) ↔ ∃ e, x = .error e := by
    cases x with
    | error e => exact iff_of_true ⟨_, rfl⟩ ⟨e, rfl⟩
    | ok a => exact iff_of_false nofun nofun
  unfold coerce IsOversized
  generalize Blank.trim value = s
  dsimp only
  have hlong (h : digitLimit < (splitSign s).2.length) : 5 < s.length := by
    have hle : (splitSign s).2.length ≤ s.length := by
      rcases Literal.splitSign_cases s with ⟨c, -, hs⟩ | hs
      · have hlength := congrArg List.length hs
        rw [List.length_cons] at hlength
        omega
      · rw [hs]
    have hlimit : digitLimit = 4300 := rfl
    omega
  have hnot (h : (isIntegerText s = true ∧ digitLimit < (splitSign s).2.length) ∨
      isBracketed s = true ∧ ∃ e, Json.read s = .error (.numeral e)) :
      String.ofList (LowerCase.text s) ≠ "true" ∧ String.ofList (LowerCase.text s) ≠ "false" := by
    rcases h with ⟨-, hlimit⟩ | ⟨hbracketed, -⟩
    · exact not_truth_of_length (hlong hlimit)
    · exact not_truth_of_isBracketed hbracketed
  by_cases htrue : String.ofList (LowerCase.text s) = "true"
  · rw [if_pos htrue]
    exact iff_of_false nofun fun h => (hnot h).1 htrue
  by_cases hfalse : String.ofList (LowerCase.text s) = "false"
  · rw [if_neg htrue, if_pos hfalse]
    exact iff_of_false nofun fun h => (hnot h).2 hfalse
  rw [if_neg htrue, if_neg hfalse]
  cases hbracketed : isBracketed s with
  | true =>
    obtain ⟨hinteger, hdecimal⟩ := not_number_of_isBracketed hbracketed
    rw [hinteger, hdecimal]
    cases Json.read s with
    | ok v => simp
    | error e => cases e <;> simp [Except.mapError]
  | false =>
    cases hinteger : isIntegerText s with
    | true =>
      rw [if_pos rfl, herror, integer_of_isIntegerText hinteger]
      simp
    | false =>
      cases hdecimal : isDecimalText s with
      | true =>
        obtain ⟨x, hx⟩ := number_of_isDecimalText hdecimal
        simp [hx, Except.mapError]
      | false => simp

end Config

end Rulebook
