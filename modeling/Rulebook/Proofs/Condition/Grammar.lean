import Rulebook.Proofs.Condition.Written

/-!
# The grammar of terms

What a term looks like, said without reading it (`Term.IsSpelled`): blanks, a sign, a namespace in
letters of either case, a colon, a name, and for the namespaces with values a comparison and its
value. A bare name is the longest start of what follows the colon in which nothing stops a name
(`IsLongestName`), so `a=!=b` is the name `a=` compared with `b`.

The readers of names and identifiers accept exactly these spellings (`Identifier.scan_ok_iff`).
-/

namespace Rulebook

open Blank (isBlank isAllBlank trim trimStart trimEnd)

/-! ## Spellings -/

/-- A blank or a comparison stands at the start of `s`. -/
def StopsName (s : Text) : Prop :=
  (∃ c r, s = c :: r ∧ isBlank c = true) ∨ ∃ (k : Comparison) (r : Text), s = k.text.toList ++ r

/-- `name` is a start of `s`, and nothing at any of its positions stops a name. -/
structure IsNameStart (s name : Text) : Prop where
  begins : name <+: s
  runsOn : ∀ i < name.length, ¬StopsName (s.drop i)

structure IsLongestName (s name : Text) : Prop where
  isStart : IsNameStart s name
  longest : ∀ other, IsNameStart s other → other.length ≤ name.length

/-- A text that is a name, in quotes or bare, and what follows it. -/
inductive SpellsName : Text → Text → Text → Prop where
  | quoted {name rest : Text} : name ≠ [] → '"' ∉ name →
      SpellsName ('"' :: (name ++ '"' :: rest)) name rest
  | bare {s name rest : Text} : s = name ++ rest → name ≠ [] → name.head? ≠ some '"' →
      IsLongestName s name → SpellsName s name rest

inductive SpellsValue : Text → Text → Prop where
  | quoted {q : Char} {value : Text} : q = '"' ∨ q = '\'' → q ∉ value →
      SpellsValue (q :: (value ++ [q])) value
  | bare {value : Text} : value ≠ [] → (∀ c ∈ value, isBlank c = false) →
      value.head? ≠ some '"' → value.head? ≠ some '\'' → SpellsValue value value

/-- What follows the name of an identifier in `space`: nothing, or a comparison with a value. -/
inductive SpellsTest (space : Namespace) : Text → Option (Comparison × String) → Prop where
  | absent : SpellsTest space [] none
  | present {k : Comparison} {gap s value : Text} : space = .pkg ∨ space = .var →
      isAllBlank gap = true → SpellsValue s value →
      SpellsTest space (k.text.toList ++ (gap ++ s)) (some (k, String.ofList value))

inductive SpellsSign : Text → Bool → Prop where
  | absent : SpellsSign [] false
  | present {gap : Text} : isAllBlank gap = true → SpellsSign ('!' :: gap) true

namespace Term

/-- A term without the blanks around it. -/
inductive Spells : Text → Term → Prop where
  | intro {sign word body name gap rest : Text} {negated : Bool} {space : Namespace}
      {test : Option (Comparison × String)} :
      SpellsSign sign negated →
      word.all Word.isLetter = true → space ∈ Namespace.known →
      word.map LowerCase.asciiChar = space.name.toList →
      SpellsName body name (gap ++ rest) → isAllBlank gap = true → SpellsTest space rest test →
      Spells (sign ++ (word ++ ':' :: body)) ⟨⟨space, String.ofList name⟩, negated, test⟩

/-- Up to blanks around it, `w` is the term `t`. -/
def IsSpelled (w : Text) (t : Term) : Prop :=
  ∃ lead core trail, w = lead ++ core ++ trail ∧ isAllBlank lead = true ∧
    isAllBlank trail = true ∧ Spells core t

end Term

/-! ## Bare names -/

section Names

variable {s t name rest : Text} {c : Char}

theorem stopsName_cons_iff :
    StopsName (c :: s) ↔ isBlank c = true ∨ ∃ found, comparison? (c :: s) = some found := by
  refine or_congr ⟨?_, fun h => ⟨c, s, rfl, h⟩⟩ ⟨?_, ?_⟩
  · rintro ⟨d, r, hd, hblank⟩
    rwa [(List.cons.inj hd).1]
  · rintro ⟨k, r, hk⟩
    exact ⟨(k, r), comparison?_eq_some.mpr hk⟩
  · rintro ⟨⟨k, r⟩, hk⟩
    exact ⟨k, r, comparison?_eq_some.mp hk⟩

theorem StopsName.append (h : StopsName s) (t : Text) : StopsName (s ++ t) := by
  rcases h with ⟨c, r, rfl, hc⟩ | ⟨k, r, rfl⟩
  · exact .inl ⟨c, r ++ t, rfl, hc⟩
  · exact .inr ⟨k, r ++ t, List.append_assoc _ _ _⟩

theorem isNameStart_cons_iff :
    IsNameStart (c :: s) (c :: name) ↔ ¬StopsName (c :: s) ∧ IsNameStart s name := by
  constructor
  · rintro ⟨hbegins, hruns⟩
    refine ⟨hruns 0 (Nat.succ_pos _), (List.cons_prefix_cons.mp hbegins).2, fun i hi => ?_⟩
    exact hruns (i + 1) (Nat.succ_lt_succ hi)
  · rintro ⟨hc, hbegins, hruns⟩
    refine ⟨List.cons_prefix_cons.mpr ⟨rfl, hbegins⟩, fun i hi => ?_⟩
    cases i with
    | zero => exact hc
    | succ i => exact hruns i (Nat.lt_of_succ_lt_succ hi)

/-- A start that ends where the text does, or where a name stops, is the longest. -/
theorem isLongestName_of_stops (h : IsNameStart s name) (hs : s = name ++ rest)
    (hrest : rest = [] ∨ StopsName rest) : IsLongestName s name where
  isStart := h
  longest other hother := by
    rcases hrest with rfl | hstops
    · rw [List.append_nil] at hs
      exact hs ▸ hother.begins.length_le
    · refine Nat.le_of_not_lt fun hlt => hother.runsOn name.length hlt ?_
      rwa [hs, List.drop_left]

theorem IsLongestName.unique {other : Text} (h : IsLongestName s name)
    (h' : IsLongestName s other) : name = other := by
  have hle := h'.longest name h.isStart
  have hge := h.longest other h'.isStart
  exact (List.prefix_of_prefix_length_le h.isStart.begins h'.isStart.begins hle).eq_of_length
    (Nat.le_antisymm hle hge)

theorem isLongestName_bareName (s : Text) : IsLongestName s (bareName s).1 := by
  have hspec : IsNameStart s (bareName s).1 ∧ ((bareName s).2 = [] ∨ StopsName (bareName s).2) := by
    induction s with
    | nil => exact ⟨⟨List.nil_prefix, fun i hi => absurd hi (Nat.not_lt_zero i)⟩, .inl rfl⟩
    | cons c s ih =>
      have hstops : (isBlank c || (comparison? (c :: s)).isSome) = true ↔ StopsName (c :: s) := by
        rw [stopsName_cons_iff, Bool.or_eq_true, Option.isSome_iff_exists]
      unfold bareName
      split
      next h =>
        refine ⟨⟨List.nil_prefix, fun i hi => absurd hi (Nat.not_lt_zero i)⟩, .inr ?_⟩
        exact hstops.mp h
      next h => exact ⟨isNameStart_cons_iff.mpr ⟨h ∘ hstops.mpr, ih.1⟩, ih.2⟩
  exact isLongestName_of_stops hspec.1 (bareName_eq rfl).1 hspec.2

theorem bareName_eq_iff :
    bareName s = (name, rest) ↔ s = name ++ rest ∧ IsLongestName s name := by
  constructor
  · intro h
    refine ⟨(bareName_eq h).1, ?_⟩
    have hlongest := isLongestName_bareName s
    rwa [h] at hlongest
  · rintro ⟨rfl, h⟩
    have hname := (isLongestName_bareName (name ++ rest)).unique h
    obtain ⟨happend, -⟩ := bareName_eq (s := name ++ rest) rfl
    rw [hname] at happend
    exact Prod.ext hname (List.append_cancel_left happend).symm

/-- A bare name is one without what follows it. -/
theorem IsLongestName.alone (h : IsLongestName (name ++ rest) name) : IsLongestName name name := by
  have hstart : IsNameStart name name := by
    refine ⟨List.prefix_refl name, fun i hi hstops => h.isStart.runsOn i hi ?_⟩
    rw [List.drop_append_of_le_length (Nat.le_of_lt hi)]
    exact hstops.append rest
  exact isLongestName_of_stops hstart (List.append_nil name).symm (.inl rfl)

/-- A name stays one without what follows it. -/
theorem SpellsName.exists_alone {body : Text} (h : SpellsName body name rest) :
    ∃ front, body = front ++ rest ∧ SpellsName front name [] := by
  cases h with
  | quoted hne hq =>
    refine ⟨'"' :: (name ++ ['"']), ?_, .quoted hne hq⟩
    simp
  | bare hs hne hhead hlongest =>
    subst hs
    exact ⟨name, rfl, .bare (List.append_nil name).symm hne hhead hlongest.alone⟩

/-- Neither a quote nor the last character of a bare name is a blank. -/
theorem SpellsName.last_not_isBlank {front : Text} (h : SpellsName front name []) :
    ∃ s c, front = s ++ [c] ∧ isBlank c = false := by
  cases h with
  | quoted => exact ⟨'"' :: name, '"', by simp, by decide⟩
  | bare hs hne _ hlongest =>
    rw [List.append_nil] at hs
    subst hs
    rcases List.eq_nil_or_concat front with hnil | ⟨s, c, rfl⟩
    · exact absurd hnil hne
    · rw [List.concat_eq_append] at hlongest ⊢
      refine ⟨s, c, rfl, ?_⟩
      have hruns := hlongest.isStart.runsOn s.length (by simp)
      rw [List.drop_left, stopsName_cons_iff, not_or] at hruns
      simpa using hruns.1

end Names

/-! ## Identifiers -/

section Identifiers

variable {text s body name rest letters : Text} {space : Namespace} {i : Identifier}

theorem Identifier.scanName_ok_iff : scanName space text s = .ok (i, rest) ↔
    ∃ name, i = ⟨space, String.ofList name⟩ ∧ SpellsName s name rest := by
  constructor
  · intro h
    unfold scanName at h
    dsimp only at h
    split at h
    · split at h
      next r found hf =>
        split at h
        · cases h
        next hne =>
          cases h
          obtain ⟨rfl, hq⟩ := quotedRest?_eq_some hf
          exact ⟨_, rfl, .quoted (by simpa using hne) hq⟩
      · cases h
    next hnq =>
      split at h
      · cases h
      next hne =>
        cases h
        obtain ⟨hs, hlongest⟩ := bareName_eq_iff.mp (rfl : bareName s = bareName s)
        have hne : (bareName s).1 ≠ [] := by simpa using hne
        refine ⟨_, rfl, .bare hs hne (fun hhead => ?_) hlongest⟩
        obtain ⟨tail, htail⟩ := List.head?_eq_some_iff.mp hhead
        rw [htail] at hs
        exact hnq _ hs
  · rintro ⟨name, rfl, h⟩
    cases h with
    | quoted hne hq => exact scanName_quoted (i := ⟨space, ""⟩) (by simpa using hne) hq
    | bare hs hne hhead hlongest =>
      have hbare := bareName_eq_iff.mpr ⟨hs, hlongest⟩
      have hquote : s.head? ≠ some '"' := by
        obtain ⟨c, tail, rfl⟩ := List.exists_cons_of_ne_nil hne
        rw [hs]
        exact hhead
      have hempty : name.isEmpty = false := by simpa using hne
      have hscan : scanName space text s = _ := scanName_bare (i := ⟨space, ""⟩) hquote
      rw [hscan, hbare, hempty]
      rfl

theorem namespaceWord?_eq_some_iff : namespaceWord? s = some (letters, rest) ↔
    s = letters ++ ':' :: rest ∧ letters.all Word.isLetter = true ∧ letters.isEmpty = false := by
  constructor
  · intro h
    refine ⟨namespaceWord?_eq_some h, ?_⟩
    unfold namespaceWord? at h
    dsimp only at h
    split at h
    · split at h
      · cases h
      next hne =>
        cases h
        exact ⟨List.all_takeWhile, by simpa using hne⟩
    · cases h
  · rintro ⟨rfl, hall, hne⟩
    exact namespaceWord?_append hall hne

theorem Namespace.known?_eq_some_iff {n : String} :
    known? n = some space ↔ space ∈ known ∧ space.name = n := by
  have hread : ∀ m ∈ known, known? m.name = some m := by decide
  constructor
  · exact of_known?
  · rintro ⟨hmem, rfl⟩
    exact hread space hmem

theorem Identifier.scan_ok_iff : scan text s = .ok (i, rest) ↔
    ∃ word body name, s = word ++ ':' :: body ∧ word.all Word.isLetter = true ∧
      i.space ∈ Namespace.known ∧ word.map LowerCase.asciiChar = i.space.name.toList ∧
      SpellsName body name rest ∧ i = ⟨i.space, String.ofList name⟩ := by
  constructor
  · intro h
    unfold scan at h
    dsimp only at h
    split at h
    · cases h
    next word body hword =>
      split at h
      · cases h
      next space hknown =>
        obtain ⟨hs, hall, -⟩ := namespaceWord?_eq_some_iff.mp hword
        obtain ⟨hmem, hname⟩ := Namespace.known?_eq_some_iff.mp hknown
        obtain ⟨name, rfl, hspells⟩ := scanName_ok_iff.mp h
        refine ⟨word, body, name, hs, hall, hmem, ?_, hspells, rfl⟩
        rw [hname, String.toList_ofList]
  · rintro ⟨word, body, name, rfl, hall, hmem, hlower, hspells, hi⟩
    have hne : word.isEmpty = false := by
      cases word with
      | nil =>
        obtain ⟨-, hne, -, -⟩ := Namespace.written_of_mem_known i.space hmem
        rw [← hlower] at hne
        cases hne
      | cons c word => rfl
    have hknown : Namespace.known? (String.ofList (word.map LowerCase.asciiChar)) = some i.space :=
      Namespace.known?_eq_some_iff.mpr ⟨hmem, by rw [hlower, String.ofList_toList]⟩
    unfold scan
    rw [namespaceWord?_eq_some_iff.mpr ⟨rfl, hall, hne⟩]
    dsimp only
    rw [hknown]
    exact scanName_ok_iff.mpr ⟨name, hi, hspells⟩

end Identifiers

end Rulebook
