import Mathlib.Data.List.DropRight
import Mathlib.Data.List.TakeWhile
import Rulebook.Text.Blank

/-!
# Trimming

What trimming takes from the ends of a text and what it leaves. A text is its trimmed part with
blanks around it (`Blank.exists_trim`), and more blanks around it make no difference
(`Blank.trim_append`).
-/

namespace Rulebook

open Blank (isBlank isAllBlank dropEndWhile trim trimStart trimEnd)

/-! ## Runs at the ends -/

namespace Blank

section Runs

variable {p : Char → Bool} {c : Char} {s tail : Text}

theorem takeWhile_append_cons (hc : p c = false) (s t : Text) :
    (s ++ c :: t).takeWhile p = s.takeWhile p := by
  induction s with
  | nil => simp [hc]
  | cons d s ih => simp [List.takeWhile_cons, ih]

theorem dropWhile_append_cons (hc : p c = false) (s t : Text) :
    (s ++ c :: t).dropWhile p = s.dropWhile p ++ c :: t := by
  induction s with
  | nil => simp [hc]
  | cons d s ih =>
    rw [List.cons_append, List.dropWhile_cons, List.dropWhile_cons, ih]
    split <;> rfl

theorem takeWhile_of_head (h : ∀ c ∈ s.head?, p c = false) : s.takeWhile p = [] := by
  cases s with
  | nil => rfl
  | cons c s => exact List.takeWhile_cons_of_neg (by simp [h c rfl])

theorem head?_of_prefix {t : Text} (h : t <+: s) (hc : c ∈ t.head?) : c ∈ s.head? := by
  obtain ⟨rest, rfl⟩ := h
  cases t with
  | nil => cases hc
  | cons d t => exact hc

theorem prefix_dropEndWhile (p : Char → Bool) (s : Text) : dropEndWhile p s <+: s :=
  List.rdropWhile_prefix p s

theorem of_getLast?_dropEndWhile (p : Char → Bool) (s : Text) :
    ∀ c ∈ (dropEndWhile p s).getLast?, p c = false := by
  intro c hc
  have hne : s.rdropWhile p ≠ [] := fun hnil => by
    unfold dropEndWhile at hc
    rw [← List.rdropWhile, hnil] at hc
    cases hc
  have hlast := List.rdropWhile_last_not p s hne
  obtain rfl : (s.rdropWhile p).getLast hne = c :=
    Option.some.inj ((List.getLast?_eq_some_getLast hne).symm.trans hc)
  simpa using hlast

theorem dropEndWhile_eq_self (h : ∀ c ∈ s.getLast?, p c = false) : dropEndWhile p s = s :=
  List.rdropWhile_eq_self_iff.mpr fun hne =>
    Bool.not_eq_true _ ▸ h _ (List.getLast?_eq_some_getLast hne)

/-- What stands before a text that does not end in what is dropped stays. -/
theorem dropEndWhile_append_of_last (h : ∀ c ∈ s.getLast?, p c = false) (t : Text) :
    dropEndWhile p (s ++ t) = s ++ dropEndWhile p t := by
  have hs : s.reverse.dropWhile p = s.reverse := by
    have hself := dropEndWhile_eq_self h
    unfold dropEndWhile at hself
    rw [← List.reverse_inj, List.reverse_reverse]
    exact hself
  unfold dropEndWhile
  rw [List.reverse_append, List.dropWhile_append]
  split
  next hempty => rw [List.isEmpty_iff.mp hempty, hs]; simp
  next => rw [List.reverse_append, List.reverse_reverse]

theorem dropEndWhile_append (ht : tail.all p = true) (s : Text) :
    dropEndWhile p (s ++ tail) = dropEndWhile p s := by
  have hrev : ∀ c ∈ tail.reverse, p c = true := by simpa using ht
  rw [dropEndWhile, List.reverse_append, List.dropWhile_append_of_pos hrev]
  rfl

theorem exists_dropEndWhile (p : Char → Bool) (s : Text) :
    ∃ tail, s = dropEndWhile p s ++ tail ∧ tail.all p = true :=
  ⟨s.rtakeWhile p, List.rdropWhile_append_rtakeWhile.symm,
    List.all_eq_true.mpr fun _ hc => List.mem_rtakeWhile_imp hc⟩

end Runs

end Blank

/-! ## Blanks at the ends -/

section Trim

variable {s a b rest : Text} {c d : Char}

theorem trimStart_append (ha : isAllBlank a = true) (s : Text) :
    trimStart (a ++ s) = trimStart s :=
  List.dropWhile_append_of_pos (List.all_eq_true.mp ha)

theorem trimStart_cons (hc : isBlank c = false) (s : Text) : trimStart (c :: s) = c :: s :=
  List.dropWhile_cons_of_neg (by simp [hc])

theorem not_isBlank_of_trimStart (h : trimStart s = c :: rest) : isBlank c = false := by
  have hhead := List.head?_dropWhile_not isBlank s
  unfold trimStart at h
  rwa [h] at hhead

theorem trimEnd_append (hd : isBlank d = false) (hb : isAllBlank b = true) :
    trimEnd (s ++ [d] ++ b) = s ++ [d] := by
  have hend : trimEnd (s ++ [d] ++ b) = trimEnd (s ++ [d]) := Blank.dropEndWhile_append hb _
  rw [hend]
  refine Blank.dropEndWhile_eq_self fun c hc => ?_
  obtain rfl : d = c := by simpa using hc
  exact hd

namespace Blank

theorem isAllBlank_reverse : isAllBlank s.reverse = isAllBlank s := by
  unfold isAllBlank
  rw [List.all_reverse]

theorem trimStart_suffix (s : Text) : trimStart s <:+ s := List.dropWhile_suffix _

theorem trim_of_isAllBlank (h : isAllBlank s = true) : trim s = [] := by
  rw [trim, trimStart, List.dropWhile_eq_nil_iff.mpr (List.all_eq_true.mp h)]
  rfl

theorem trim_cons (hc : isBlank c = false) (s : Text) : trim (c :: s) = c :: trimEnd s := by
  rw [trim, trimStart_cons hc]
  unfold trimEnd dropEndWhile
  rw [List.reverse_cons, List.dropWhile_append]
  split
  next h => simp [List.isEmpty_iff.mp h, hc]
  next => simp

theorem getLast?_trim (h : (trim s).getLast? = some c) : isBlank c = false :=
  of_getLast?_dropEndWhile isBlank (trimStart s) c h

theorem head?_trim (h : (trim s).head? = some c) : isBlank c = false := by
  obtain ⟨rest, hrest⟩ := List.head?_eq_some_iff.mp h
  obtain ⟨tail, htail⟩ := prefix_dropEndWhile isBlank (trimStart s)
  exact not_isBlank_of_trimStart (htail.symm.trans (congrArg (· ++ tail) hrest))

/-- A text stays as it is if no blank stands at its ends. -/
theorem trim_eq_self (hhead : ∀ c ∈ s.head?, isBlank c = false)
    (hlast : ∀ c ∈ s.getLast?, isBlank c = false) : trim s = s := by
  have hstart : trimStart s = s := by
    cases s with
    | nil => rfl
    | cons c s => exact trimStart_cons (hhead c rfl) s
  rw [trim, hstart]
  exact dropEndWhile_eq_self hlast

theorem trim_append (ha : isAllBlank a = true) (hb : isAllBlank b = true) :
    trim (a ++ s ++ b) = trim s := by
  have hstart :
      trimStart (s ++ b) = [] ∧ trimStart s = [] ∨ trimStart (s ++ b) = trimStart s ++ b := by
    have happend : trimStart (s ++ b) = _ := List.dropWhile_append
    rw [happend]
    split
    next h =>
      exact .inl ⟨List.dropWhile_eq_nil_iff.mpr (List.all_eq_true.mp hb), List.isEmpty_iff.mp h⟩
    next => exact .inr rfl
  rw [trim, trim, List.append_assoc, trimStart_append ha]
  rcases hstart with ⟨hsb, hs⟩ | hsb
  · rw [hsb, hs]
  · rw [hsb]
    exact dropEndWhile_append hb _

theorem trim_append_cons {lead : Text} {c : Char} (hlead : isAllBlank lead = true)
    (hc : isBlank c = false) (s : Text) : trim (lead ++ c :: s) = c :: trimEnd s := by
  have htrim := trim_append (s := c :: s) (b := []) hlead rfl
  rw [List.append_nil] at htrim
  rw [htrim, trim_cons hc]

theorem trim_trimEnd (s : Text) : trim (trimEnd s) = trim s := by
  obtain ⟨tail, hs, htail⟩ := exists_dropEndWhile isBlank s
  have happend : trim (trimEnd s ++ tail) = trim (trimEnd s) := trim_append (a := []) rfl htail
  rw [← happend]
  exact congrArg trim hs.symm

/-- `line` is `content` with blanks around it. -/
def Surrounds (content line : Text) : Prop :=
  ∃ lead trail, isAllBlank lead = true ∧ isAllBlank trail = true ∧ line = lead ++ content ++ trail

theorem Surrounds.trim_eq {content line : Text} (h : Surrounds content line) :
    trim line = trim content := by
  obtain ⟨lead, trail, hlead, htrail, rfl⟩ := h
  exact trim_append hlead htrail

theorem exists_gap (s : Text) : ∃ gap, isAllBlank gap = true ∧ s = gap ++ trimStart s :=
  ⟨s.takeWhile isBlank, List.all_takeWhile, List.takeWhile_append_dropWhile.symm⟩

theorem exists_trim (s : Text) : ∃ lead trail, s = lead ++ trim s ++ trail ∧
    isAllBlank lead = true ∧ isAllBlank trail = true := by
  obtain ⟨lead, hlead, hs⟩ := exists_gap s
  obtain ⟨trail, htrail, hblank⟩ := exists_dropEndWhile isBlank (trimStart s)
  refine ⟨lead, trail, ?_, hlead, hblank⟩
  rw [List.append_assoc]
  exact hs.trans (congrArg (lead ++ ·) htrail)

end Blank

end Trim

end Rulebook
