import Mathlib.Data.List.Basic
import Rulebook.Proofs.Value.Descent
import Rulebook.Text.LowerCase

/-!
# Small letters

A capital is a character that lower case changes. The lower case of a text is put together from the
forms of its characters (`LowerCase.after_cons`), and none of them is a capital, so a second
lowering changes nothing (`LowerCase.text_text`). Nor does lowering lead into a class of characters
that is clear of all small forms, such as the blanks (`LowerCase.not_isBlank_form`).
-/

namespace Rulebook.LowerCase

/-! ## Capitals -/

/-- `n` is one of the capitals of the run. -/
def Run.holds (r : Run) (n : Nat) : Bool :=
  r.first ≤ n && n ≤ r.last && (n - r.first) % r.step == 0

/-- The runs beyond ASCII, with the one of ASCII and the capital that becomes two characters. -/
def capitals : List Run := ⟨0x41, 0x5A, 1, 0x61⟩ :: ⟨0x130, 0x130, 1, 0x69⟩ :: runs

def IsCapital (c : Char) : Prop := ∃ r ∈ capitals, r.holds c.toNat = true

instance (c : Char) : Decidable (IsCapital c) := inferInstanceAs (Decidable (∃ r ∈ capitals, _))

/-- No small letter of `r` is a capital of `q`: they lie apart, or take turns. -/
def Run.IsApart (r q : Run) : Prop :=
  r.image + (r.last - r.first) < q.first ∨ q.last < r.image ∨
    (r.step = 2 ∨ r.first = r.last) ∧ q.step = 2 ∧ r.image % 2 ≠ q.first % 2

instance (r q : Run) : Decidable (r.IsApart q) := inferInstanceAs (Decidable (_ ∨ _ ∨ _))

/-- The check goes through all pairs of runs, so it is put as a computation. -/
theorem isApart_of_mem : ∀ r ∈ capitals, ∀ q ∈ capitals, r.IsApart q := by
  have hall : (capitals.all fun r => capitals.all fun q => decide (r.IsApart q)) = true := by
    decide +kernel
  intro r hr q hq
  exact of_decide_eq_true (List.all_eq_true.mp (List.all_eq_true.mp hall r hr) q hq)

/-- The small letters of `r` lie outside of the ranges. -/
def Run.IsClearOf (r : Run) (ranges : Ranges) : Prop :=
  ∀ b ∈ ranges, r.image + (r.last - r.first) < b.1 ∨ b.2 < r.image

instance (r : Run) (ranges : Ranges) : Decidable (r.IsClearOf ranges) :=
  inferInstanceAs (Decidable (∀ b ∈ ranges, _))

theorem isClearOf_surrogates : ∀ r ∈ capitals, r.IsClearOf [(0xD800, 0xDFFF)] := by decide +kernel

variable {c x : Char} {r : Run} {ranges : Ranges} {s before : Text}

theorem image_lt (hr : r ∈ capitals) : r.image + (r.last - r.first) < 0x110000 := by
  have h : ∀ r ∈ capitals, r.image + (r.last - r.first) < 0x110000 := by decide +kernel
  exact h r hr

theorem Run.holds_iff {n : Nat} :
    r.holds n = true ↔ r.first ≤ n ∧ n ≤ r.last ∧ (n - r.first) % r.step = 0 := by
  simp [holds, and_assoc]

/-- The small letter of a capital is the character at its code point. -/
theorem toNat_image (hr : r ∈ capitals) (hc : r.holds c.toNat = true) :
    (Char.ofNat (c.toNat - r.first + r.image)).toNat = c.toNat - r.first + r.image := by
  obtain ⟨hfirst, hlast, -⟩ := Run.holds_iff.mp hc
  have hclear := isClearOf_surrogates r hr _ List.mem_cons_self
  have hlt := image_lt hr
  have hvalid : (c.toNat - r.first + r.image).isValidChar := by
    unfold Nat.isValidChar
    omega
  rw [Char.ofNat, dif_pos hvalid]
  rfl

/-- A character is changed just if it is the capital of some run. -/
theorem char_cases (c : Char) :
    (char c = c ∧ (IsCapital c → c = 'İ')) ∨
      ∃ r ∈ capitals, r.holds c.toNat = true ∧
        char c = Char.ofNat (c.toNat - r.first + r.image) := by
  have hbeyond : ∀ r ∈ runs, 0x80 ≤ r.first := by decide +kernel
  have hletter : ('A' ≤ c ∧ c ≤ 'Z') ↔ 0x41 ≤ c.toNat ∧ c.toNat ≤ 0x5A := Iff.rfl
  have hdot : c.toNat = 0x130 → c = 'İ' := fun h => Char.toNat_inj.mp h
  have hcapital (h : ∀ r ∈ runs, r.holds c.toNat = false) (hc : ¬('A' ≤ c ∧ c ≤ 'Z')) :
      IsCapital c → c = 'İ' := by
    rintro ⟨r, hr, hholds⟩
    rcases List.mem_cons.mp hr with rfl | hr
    · obtain ⟨hfirst, hlast, -⟩ := Run.holds_iff.mp hholds
      exact absurd (hletter.mpr ⟨hfirst, hlast⟩) hc
    · rcases List.mem_cons.mp hr with rfl | hr
      · obtain ⟨hfirst, hlast, -⟩ := Run.holds_iff.mp hholds
        exact hdot (Nat.le_antisymm hlast hfirst)
      · rw [h r hr] at hholds
        cases hholds
  unfold char
  split
  next hascii =>
    by_cases hc : 'A' ≤ c ∧ c ≤ 'Z'
    · refine .inr ⟨_, List.mem_cons_self, ?_, ?_⟩
      · obtain ⟨hfirst, hlast⟩ := hletter.mp hc
        exact Run.holds_iff.mpr ⟨hfirst, hlast, Nat.mod_one _⟩
      · have hsum : c.toNat + 32 = c.toNat - 0x41 + 0x61 := by
          obtain ⟨hfirst, -⟩ := hletter.mp hc
          omega
        simp only [asciiChar, Bool.and_eq_true, decide_eq_true_eq, if_pos hc, hsum]
    · refine .inl ⟨by simp [asciiChar, hc], hcapital (fun r hr => ?_) hc⟩
      have hr := hbeyond r hr
      rw [Bool.eq_false_iff, Ne, Run.holds_iff]
      omega
  next hascii =>
    have hc : ¬('A' ≤ c ∧ c ≤ 'Z') := by
      rw [hletter]
      omega
    split
    next r hr =>
      have hholds := List.find?_some hr
      refine .inr ⟨r, ?_, hholds, rfl⟩
      exact List.mem_cons_of_mem _ (List.mem_cons_of_mem _ (List.mem_of_find?_eq_some hr))
    next hnone =>
      refine .inl ⟨rfl, hcapital (fun r hr => ?_) hc⟩
      exact Bool.eq_false_iff.mpr (List.find?_eq_none.mp hnone r hr)

theorem char_eq_self (hc : ¬IsCapital c) : char c = c := by
  rcases char_cases c with ⟨h, -⟩ | ⟨r, hr, hholds, -⟩
  · exact h
  · exact absurd ⟨r, hr, hholds⟩ hc

theorem not_isCapital_image (hr : r ∈ capitals) (hc : r.holds c.toNat = true) :
    ¬IsCapital (Char.ofNat (c.toNat - r.first + r.image)) := by
  rintro ⟨q, hq, hholds⟩
  rw [toNat_image hr hc] at hholds
  obtain ⟨hfirst, hlast, hstep⟩ := Run.holds_iff.mp hc
  obtain ⟨hqfirst, hqlast, hqstep⟩ := Run.holds_iff.mp hholds
  rcases isApart_of_mem r hr q hq with h | h | ⟨h, hq2, hturn⟩
  · omega
  · omega
  · rw [hq2] at hqstep
    rcases h with h | h
    · rw [h] at hstep
      omega
    · omega

theorem not_contains_image (h : r.IsClearOf ranges) (hr : r ∈ capitals)
    (hc : r.holds c.toNat = true) :
    ranges.contains (Char.ofNat (c.toNat - r.first + r.image)) = false := by
  rw [Bool.eq_false_iff, Ne, Ranges.contains_iff, toNat_image hr hc]
  rintro ⟨b, hb, hle, hge⟩
  obtain ⟨hfirst, hlast, -⟩ := Run.holds_iff.mp hc
  have hclear := h b hb
  omega

/-! ## Forms -/

/-- The forms that are not those of a run. -/
def irregular : Text := ['ς', 'σ', 'i', '\u0307']

/-- What a character can become in a text. -/
def forms (c : Char) : Text :=
  if c = 'Σ' then ['ς', 'σ'] else if c = 'İ' then ['i', '\u0307'] else [char c]

/-- The lower case of a text begins with forms of its first character. -/
theorem after_cons (before : Text) (c : Char) (s : Text) : ∃ piece, piece ≠ [] ∧
    (∀ x ∈ piece, x ∈ forms c) ∧ after before (c :: s) = piece ++ after (c :: before) s := by
  rw [after, forms]
  by_cases hsigma : c = 'Σ'
  · rw [if_pos hsigma, if_pos hsigma]
    refine ⟨[_], List.cons_ne_nil _ _, fun x hx => ?_, rfl⟩
    rw [List.mem_singleton.mp hx]
    split <;> simp
  · rw [if_neg hsigma, if_neg hsigma]
    by_cases hdot : c = 'İ'
    · rw [if_pos hdot, if_pos hdot]
      exact ⟨['i', '\u0307'], List.cons_ne_nil _ _, fun _ h => h, rfl⟩
    · rw [if_neg hdot, if_neg hdot]
      exact ⟨[char c], List.cons_ne_nil _ _, fun _ h => h, rfl⟩

theorem form_cases (hx : x ∈ forms c) : x ∈ irregular ∨ c ≠ 'İ' ∧ x = char c := by
  unfold forms at hx
  split at hx
  next =>
    have hsigma : ['ς', 'σ'] ⊆ irregular := (List.prefix_append _ ['i', '\u0307']).subset
    exact .inl (hsigma hx)
  next =>
    split at hx
    next =>
      have hdot : ['i', '\u0307'] ⊆ irregular := (List.suffix_append ['ς', 'σ'] _).subset
      exact .inl (hdot hx)
    next hdot => exact .inr ⟨hdot, List.mem_singleton.mp hx⟩

theorem not_isCapital_form (hx : x ∈ forms c) : ¬IsCapital x := by
  have hirregular : irregular.all (fun x => decide ¬IsCapital x) = true := by decide +kernel
  rcases form_cases hx with hx | ⟨hdot, rfl⟩
  · exact of_decide_eq_true (List.all_eq_true.mp hirregular x hx)
  · rcases char_cases c with ⟨heq, hcapital⟩ | ⟨r, hr, hholds, heq⟩
    · rw [heq]
      exact fun hc => hdot (hcapital hc)
    · rw [heq]
      exact not_isCapital_image hr hholds

/-- Lowering does not lead into a class whose ranges are clear of small letters. -/
theorem form_eq_false {p : Char → Bool} (hp : ∀ c, p c = true → ranges.contains c = true)
    (h : ∀ r ∈ capitals, r.IsClearOf ranges) (hirregular : irregular.all (!p ·) = true)
    (hc : p c = false) (hx : x ∈ forms c) : p x = false := by
  rcases form_cases hx with hx | ⟨-, rfl⟩
  · simpa using List.all_eq_true.mp hirregular x hx
  · rcases char_cases c with ⟨heq, -⟩ | ⟨r, hr, hholds, heq⟩
    · rwa [heq]
    · rw [Bool.eq_false_iff, heq]
      exact fun hx => Bool.eq_false_iff.mp (not_contains_image (h r hr) hr hholds) (hp _ hx)

theorem not_isBlank_form (hc : Blank.isBlank c = false) (hx : x ∈ forms c) :
    Blank.isBlank x = false :=
  form_eq_false (fun _ => Digit.contains_blanks) (by decide +kernel) (by decide) hc hx

/-! ## Texts -/

theorem after_of_not_isCapital (h : ∀ c ∈ s, ¬IsCapital c) : after before s = s := by
  have hsigma : IsCapital 'Σ' := by decide +kernel
  have hdot : IsCapital 'İ' := by decide +kernel
  induction s generalizing before with
  | nil => rfl
  | cons c s ih =>
    obtain ⟨hc, hs⟩ := List.forall_mem_cons.mp h
    rw [after, if_neg fun heq : c = 'Σ' => hc (heq ▸ hsigma),
      if_neg fun heq : c = 'İ' => hc (heq ▸ hdot), char_eq_self hc, ih hs]

theorem mem_after (hx : x ∈ after before s) : ∃ c ∈ s, x ∈ forms c := by
  induction s generalizing before with
  | nil => cases hx
  | cons c s ih =>
    obtain ⟨piece, -, hforms, heq⟩ := after_cons before c s
    rw [heq] at hx
    rcases List.mem_append.mp hx with hx | hx
    · exact ⟨c, List.mem_cons_self, hforms x hx⟩
    · obtain ⟨d, hd, hx⟩ := ih hx
      exact ⟨d, List.mem_cons_of_mem c hd, hx⟩

theorem text_text (s : Text) : text (text s) = text s :=
  after_of_not_isCapital fun _ hx =>
    have ⟨_, _, hform⟩ := mem_after hx
    not_isCapital_form hform

theorem head?_after (hx : x ∈ (after before s).head?) : ∃ c ∈ s.head?, x ∈ forms c := by
  cases s with
  | nil => cases hx
  | cons c s =>
    obtain ⟨piece, hne, hforms, heq⟩ := after_cons before c s
    rw [heq, List.head?_append_of_ne_nil _ hne] at hx
    exact ⟨c, rfl, hforms x (List.mem_of_head? hx)⟩

theorem getLast?_after (hx : x ∈ (after before s).getLast?) : ∃ c ∈ s.getLast?, x ∈ forms c := by
  induction s generalizing before with
  | nil => cases hx
  | cons c s ih =>
    obtain ⟨piece, -, hforms, heq⟩ := after_cons before c s
    rw [heq] at hx
    cases s with
    | nil =>
      rw [after, List.append_nil] at hx
      exact ⟨c, rfl, hforms x (List.mem_of_getLast? hx)⟩
    | cons d s =>
      obtain ⟨first, hne, -, hcons⟩ := after_cons (c :: before) d s
      rw [List.getLast?_append_of_ne_nil _ (by simp [hcons, hne])] at hx
      rw [List.getLast?_cons_cons]
      exact ih hx

end Rulebook.LowerCase
