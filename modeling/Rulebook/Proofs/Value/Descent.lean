import Rulebook.Value.Lookup

/-!
# Descents that fail

A dotted path leads into a list by a part that is made of digits. Not all digits write numbers: a
superscript does not, and a numeral can be too long to be read. Such a part in front of a list is
the one thing that makes a lookup in a mapping fail (`Value.resolve_map_cases`).
-/

namespace Rulebook

/-! ## Digits that write no number -/

namespace Digit

/-- The blanks as ranges, which no range of digits meets. -/
def blanks : Ranges := [
  (0x09, 0x0D), (0x1C, 0x20), (0x85, 0x85), (0xA0, 0xA0), (0x1680, 0x1680), (0x2000, 0x200A),
  (0x2028, 0x2029), (0x202F, 0x202F), (0x205F, 0x205F), (0x3000, 0x3000)]

variable {c : Char}

theorem contains_blanks (h : Blank.isBlank c = true) : blanks.contains c = true := by
  simp only [Blank.isBlank, Bool.or_eq_true, Bool.and_eq_true, decide_eq_true_eq, beq_iff_eq] at h
  simp only [blanks, Ranges.contains, List.any_cons, List.any_nil, Bool.or_eq_true,
    Bool.and_eq_true, decide_eq_true_eq, Bool.or_false]
  omega

theorem isDecimal_of_contains_blanks (h : blanks.contains c = true) : isDecimal c = false := by
  obtain ⟨r, hr, hfirst, hlast⟩ := Ranges.contains_iff.mp h
  have hascii : ∀ r ∈ blanks, r.2 < '0'.toNat ∨ '9'.toNat < r.1 := by decide
  have hzeros : ∀ r ∈ blanks, ∀ z ∈ zeros, r.2 < z ∨ z + 10 ≤ r.1 := by decide
  have hc : isAscii c = false := by
    have h09 : isAscii c = true ↔ '0'.toNat ≤ c.toNat ∧ c.toNat ≤ '9'.toNat := by
      rw [isAscii, Bool.and_eq_true, decide_eq_true_eq, decide_eq_true_eq]
      rfl
    rw [Bool.eq_false_iff, Ne, h09]
    have hr := hascii r hr
    omega
  have hnone : (zeros.find? fun first => first ≤ c.toNat && c.toNat < first + 10) = none := by
    rw [List.find?_eq_none]
    intro z hz
    have hr := hzeros r hr z hz
    simp only [Bool.and_eq_true, decide_eq_true_eq]
    omega
  rw [isDecimal, decimal?, hc, hnone]
  rfl

theorem isDigitLike_of_isBlank (h : Blank.isBlank c = true) : isDigitLike c = false := by
  have hc := contains_blanks h
  obtain ⟨r, hr, hfirst, hlast⟩ := Ranges.contains_iff.mp hc
  have happart : ∀ r ∈ blanks, ∀ s ∈ enclosed, r.2 < s.1 ∨ s.2 < r.1 := by decide
  have henclosed : enclosed.contains c = false := by
    rw [Bool.eq_false_iff, Ne, Ranges.contains_iff]
    rintro ⟨s, hs, hle, hge⟩
    have hr := happart r hr s hs
    omega
  rw [isDigitLike, isDecimal_of_contains_blanks hc, henclosed]
  rfl

end Digit

namespace Literal

variable {s : Text} {c : Char}

theorem digitOf_ten (c : Char) : digitOf 10 c = Digit.decimal? c := by
  unfold digitOf
  cases h : Digit.decimal? c with
  | some n => simp [Option.filter, Digit.decimal?_lt h]
  | none =>
    -- what is left to count as a digit is a letter, which counts from ten on
    have hascii : ('0' ≤ c && c ≤ '9') = false := by
      rw [Bool.eq_false_iff]
      intro hc
      rw [Digit.decimal?, Digit.isAscii, if_pos hc] at h
      cases h
    have hletter (n : Nat) : (some (n + 10)).filter (fun m => decide (m < 10)) = none := by
      simp [Option.filter]
    rw [Digit.hex?, hascii]
    show (if ('a' ≤ c && c ≤ 'f') = true then some (c.toNat - 'a'.toNat + 10)
      else if ('A' ≤ c && c ≤ 'F') = true then some (c.toNat - 'A'.toNat + 10)
      else none).filter (fun m => decide (m < 10)) = none
    split
    · exact hletter _
    · split
      · exact hletter _
      · rfl

theorem digits?_cons (value? : Char → Option Nat) (c : Char) (hs : s ≠ []) (h : '_' ∉ s) :
    digits? value? (c :: s) = value? c >>= fun d => (d :: ·) <$> digits? value? s := by
  cases s with
  | nil => exact absurd rfl hs
  | cons d s =>
    have hd : d ≠ '_' := fun hd => h (hd ▸ List.mem_cons_self)
    conv => lhs; unfold digits?
    congr 1
    funext n
    split
    next => contradiction
    next heq => exact absurd (List.cons.inj heq).1 hd
    next heq => rw [heq]

/-- Without underscores, a numeral is made of digits alone. -/
theorem digits?_cases (value? : Char → Option Nat) (hs : s ≠ []) (h : '_' ∉ s) :
    ((∃ c ∈ s, value? c = none) ∧ digits? value? s = none) ∨
    ((∀ c ∈ s, value? c ≠ none) ∧ ∃ ds, digits? value? s = some ds ∧ ds.length = s.length) := by
  induction s with
  | nil => exact absurd rfl hs
  | cons c s ih =>
    obtain ⟨-, h⟩ := not_or.mp (h ∘ List.mem_cons.mpr)
    cases hc : value? c with
    | none =>
      refine .inl ⟨⟨c, List.mem_cons_self, hc⟩, ?_⟩
      unfold digits?
      rw [hc]
      rfl
    | some n =>
      cases s with
      | nil =>
        refine .inr ⟨by simp [hc], [n], ?_, rfl⟩
        unfold digits?
        rw [hc]
        rfl
      | cons d s =>
        rw [digits?_cons value? c (List.cons_ne_nil d s) h, hc]
        rcases ih (List.cons_ne_nil d s) h with ⟨⟨x, hx, hnone⟩, hds⟩ | ⟨hall, ds, hds, hlen⟩
        · exact .inl ⟨⟨x, List.mem_cons_of_mem c hx, hnone⟩, by rw [hds]; rfl⟩
        · refine .inr ⟨List.forall_mem_cons.mpr ⟨by simp [hc], hall⟩, n :: ds, by rw [hds]; rfl, ?_⟩
          rw [List.length_cons, hlen]
          rfl

theorem trim_of_not_blank (h : ∀ c ∈ s, Blank.isBlank c = false) : Blank.trim s = s := by
  have hdrop : ∀ t : Text, (∀ c ∈ t, Blank.isBlank c = false) → t.dropWhile Blank.isBlank = t := by
    intro t ht
    cases t with
    | nil => rfl
    | cons c t => rw [List.dropWhile_cons, ht c List.mem_cons_self]; rfl
  rw [Blank.trim, Blank.trimStart, hdrop s h, Blank.trimEnd, Blank.dropEndWhile,
    hdrop s.reverse fun c hc => h c (List.mem_reverse.mp hc), List.reverse_reverse]

theorem digits?_eq_mapM (value? : Char → Option Nat) (hs : s ≠ []) (h : '_' ∉ s) :
    digits? value? s = s.mapM value? := by
  induction s with
  | nil => exact absurd rfl hs
  | cons c s ih =>
    obtain ⟨-, h⟩ := not_or.mp (h ∘ List.mem_cons.mpr)
    cases s with
    | nil =>
      unfold digits?
      simp
    | cons d s =>
      rw [digits?_cons value? c (List.cons_ne_nil d s) h, ih (List.cons_ne_nil d s) h]
      conv => rhs; rw [List.mapM_cons]
      cases value? c with
      | none => rfl
      | some n => cases (d :: s).mapM value? <;> rfl

/-- Digits of any kind are read as they stand: without blanks, a sign or a mark for the base. -/
theorem integer_of_digits (hs : s ≠ []) (h : ∀ c ∈ s, Digit.isDigitLike c = true) :
    integer 10 s = match s.mapM Digit.decimal? with
      | none => .error (.integer 10 (String.ofList s))
      | some ds => if digitLimit < ds.length then .error (.tooManyDigits ds.length)
        else .ok (ofDigits 10 ds) := by
  have hnot (c : Char) (hc : Digit.isDigitLike c = false) : c ∉ s := fun hmem => by
    rw [h c hmem] at hc
    cases hc
  have htrim : Blank.trim s = s := trim_of_not_blank fun c hc => by
    rw [Bool.eq_false_iff]
    exact fun hb => hnot c (Digit.isDigitLike_of_isBlank hb) hc
  have hsign : splitSign s = (false, s) := by
    unfold splitSign
    split
    · exact absurd List.mem_cons_self (hnot '-' (by decide))
    · exact absurd List.mem_cons_self (hnot '+' (by decide))
    · rfl
  have hmark : withoutMark 10 s = s := by
    unfold withoutMark
    split
    · rfl
    · rfl
  unfold integer
  rw [htrim, hsign]
  dsimp only
  rw [hmark, digits?_eq_mapM (digitOf 10) hs (hnot '_' (by decide)), funext digitOf_ten]
  simp only [decide_true, Bool.true_and, decide_eq_true_eq]
  rfl

/-- Digits of any kind fail to write a number just if one of them has no value, or there are too
many. -/
theorem integer_eq_error_iff (hs : s ≠ []) (h : ∀ c ∈ s, Digit.isDigitLike c = true) :
    (∃ e, integer 10 s = .error e) ↔
      (∃ c ∈ s, Digit.isDecimal c = false) ∨ digitLimit < s.length := by
  have hunderscore : '_' ∉ s := fun hmem => absurd (h '_' hmem) (by decide)
  have hdecimal (c : Char) : Digit.decimal? c = none ↔ Digit.isDecimal c = false := by
    rw [Digit.isDecimal]
    cases Digit.decimal? c <;> simp
  rw [integer_of_digits hs h, ← digits?_eq_mapM Digit.decimal? hs hunderscore]
  rcases digits?_cases Digit.decimal? hs hunderscore with
    ⟨⟨c, hc, hnone⟩, hds⟩ | ⟨hall, ds, hds, hlen⟩
  · rw [hds]
    exact ⟨fun _ => .inl ⟨c, hc, (hdecimal c).mp hnone⟩, fun _ => ⟨_, rfl⟩⟩
  · rw [hds, ← hlen]
    have hno : ¬∃ c ∈ s, Digit.isDecimal c = false := by
      rintro ⟨c, hc, hd⟩
      exact hall c hc ((hdecimal c).mpr hd)
    by_cases hlimit : digitLimit < ds.length
    · simp [hlimit]
    · simp [hlimit, hno]

end Literal

/-! ## Where a descent fails -/

/-- A part that looks like a position but writes no number. -/
structure IsNoPosition (part : String) : Prop where
  ne_empty : part ≠ ""
  digits : ∀ c ∈ part.toList, Digit.isDigitLike c = true
  fails : (∃ c ∈ part.toList, Digit.isDecimal c = false) ∨ Literal.digitLimit < part.length

theorem listIndex?_cases (part : String) :
    (∃ n, listIndex? part = .ok n) ∧ ¬IsNoPosition part ∨
    (∃ e, listIndex? part = .error (.badValue (.literal e))) ∧ IsNoPosition part := by
  unfold listIndex?
  split
  next h =>
    simp only [ne_eq, Bool.and_eq_true, decide_eq_true_eq, List.all_eq_true] at h
    have hne : part.toList ≠ [] := by simpa using h.1
    have hiff := Literal.integer_eq_error_iff hne h.2
    rw [String.length_toList] at hiff
    split
    next n hn =>
      refine .inl ⟨⟨_, rfl⟩, fun hp => ?_⟩
      obtain ⟨e, he⟩ := hiff.mpr hp.fails
      cases hn.symm.trans he
    next e he => exact .inr ⟨⟨e, rfl⟩, h.1, h.2, hiff.mp ⟨e, he⟩⟩
  next h =>
    refine .inl ⟨⟨_, rfl⟩, fun hp => h ?_⟩
    simpa using And.intro hp.ne_empty hp.digits

namespace Value

/-- On the way from a value, a part that is no position stands in front of a list. -/
inductive Stumbles : Value → List String → Prop
  | here {items : List Value} {part : String} {parts : List String} :
    IsNoPosition part → Stumbles (.list items) (part :: parts)
  | later {v w : Value} {part : String} {parts : List String} :
    v.part? part = .ok (some w) → Stumbles w parts → Stumbles v (part :: parts)

theorem part?_cases (v : Value) (part : String) :
    (∃ w, v.part? part = .ok w) ∧ ¬((∃ items, v = .list items) ∧ IsNoPosition part) ∨
    (∃ e, v.part? part = .error (.badValue (.literal e))) ∧
      (∃ items, v = .list items) ∧ IsNoPosition part := by
  cases v with
  | list items =>
    unfold part?
    rcases listIndex?_cases part with ⟨⟨n, hn⟩, hp⟩ | ⟨⟨e, he⟩, hp⟩
    · rw [hn]
      refine .inl ⟨?_, fun h => hp h.2⟩
      cases n <;> exact ⟨_, rfl⟩
    · rw [he]
      exact .inr ⟨⟨e, rfl⟩, ⟨items, rfl⟩, hp⟩
  | _ => exact .inl ⟨⟨_, rfl⟩, fun h => nomatch h.1⟩

/-- A descent fails just if it stumbles. -/
theorem descend_cases (v : Value) (parts : List String) :
    (∃ w, v.descend parts = .ok w) ∧ ¬v.Stumbles parts ∨
    (∃ e, v.descend parts = .error (.badValue (.literal e))) ∧ v.Stumbles parts := by
  induction parts generalizing v with
  | nil => exact .inl ⟨⟨some v, rfl⟩, fun h => nomatch h⟩
  | cons part parts ih =>
    unfold descend
    rcases v.part?_cases part with ⟨⟨w, hw⟩, hp⟩ | ⟨⟨e, he⟩, ⟨items, rfl⟩, hp⟩
    · rw [hw]
      cases w with
      | none =>
        refine .inl ⟨⟨none, rfl⟩, fun h => ?_⟩
        cases h with
        | here hno => exact hp ⟨⟨_, rfl⟩, hno⟩
        | later hsome => cases hw.symm.trans hsome
      | some w =>
        rcases ih w with ⟨hok, hno⟩ | ⟨herror, hstumbles⟩
        · refine .inl ⟨hok, fun h => ?_⟩
          cases h with
          | here hno => exact hp ⟨⟨_, rfl⟩, hno⟩
          | later hsome h =>
            cases hw.symm.trans hsome
            exact hno h
        · exact .inr ⟨herror, .later hw hstumbles⟩
    · rw [he]
      exact .inr ⟨⟨e, rfl⟩, .here hp⟩

/-- A lookup in a mapping fails just if the path is no key and the descent along it stumbles. -/
theorem resolve_map_cases (es : Entries) (path : String) :
    (∃ w, (map es).resolve path = .ok w) ∧
      ¬(es.field? path = none ∧ (map es).Stumbles (dottedParts path)) ∨
    (∃ e, (map es).resolve path = .error (.badValue (.literal e))) ∧
      es.field? path = none ∧ (map es).Stumbles (dottedParts path) := by
  unfold resolve
  dsimp only
  cases hkey : Entries.field? es path with
  | some w => exact .inl ⟨⟨_, rfl⟩, fun h => nomatch h.1⟩
  | none =>
    rcases (map es).descend_cases (dottedParts path) with ⟨hok, hno⟩ | ⟨herror, hstumbles⟩
    · exact .inl ⟨hok, fun h => hno h.2⟩
    · exact .inr ⟨herror, rfl, hstumbles⟩

end Value

end Rulebook
