import Rulebook.Proofs.Condition.Grammar

/-!
# Reading spelled terms

Reading a term accepts exactly the texts of the grammar, each as the one term that it spells, and
refuses every other text with an error about how it is written (`Term.parse_ok_iff_isSpelled`).
Both directions go from the value outwards: what a reader of a part returns is a spelling of that
part (`Term.spells_of_parse`), and every spelling is read (`Term.parse_of_isSpelled`).
-/

namespace Rulebook

open Blank (isBlank isAllBlank trim trimStart trimEnd)

/-! ## Tests -/

section Tests

variable {text s v value gap rest : Text} {space : Namespace} {i : Identifier}
  {test : Option (Comparison × String)}

theorem SpellsValue.head_not_isBlank (h : SpellsValue v value) :
    ∃ c r, v = c :: r ∧ isBlank c = false := by
  cases h with
  | quoted hq =>
    refine ⟨_, _, rfl, ?_⟩
    rcases hq with rfl | rfl <;> decide
  | bare hne hblank =>
    cases v with
    | nil => exact absurd rfl hne
    | cons c r => exact ⟨c, r, rfl, hblank c List.mem_cons_self⟩

theorem SpellsValue.last_not_isBlank (h : SpellsValue v value) :
    ∃ front c, v = front ++ [c] ∧ isBlank c = false := by
  cases h with
  | @quoted q _ hq =>
    refine ⟨q :: value, q, rfl, ?_⟩
    rcases hq with rfl | rfl <;> decide
  | bare hne hblank =>
    refine ⟨v.dropLast, v.getLast hne, (List.dropLast_concat_getLast hne).symm, ?_⟩
    exact hblank _ (List.getLast_mem hne)

/-- The value that follows the blanks after a comparison. -/
theorem Term.spellsValue_of_scanValue (h : scanValue text (trimStart s) = .ok (value, rest)) :
    ∃ v, trimStart s = v ++ rest ∧ SpellsValue v value := by
  unfold scanValue at h
  split at h
  · cases h
  next c r hc =>
    have hblank := not_isBlank_of_trimStart hc
    split at h
    next hq =>
      split at h
      next found hf =>
        cases h
        obtain ⟨rfl, hmem⟩ := quotedRest?_eq_some hf
        refine ⟨c :: (value ++ [c]), by simp [hc], .quoted (by simpa using hq) hmem⟩
      · cases h
    next hq =>
      cases h
      have hhead : ((trimStart s).takeWhile (!isBlank ·)).head? = some c := by
        rw [hc, List.takeWhile_cons_of_pos (by simp [hblank])]
        rfl
      simp only [Bool.or_eq_true, decide_eq_true_eq, not_or] at hq
      refine ⟨_, List.takeWhile_append_dropWhile.symm, .bare ?_ ?_ ?_ ?_⟩
      · intro hnil
        rw [hnil] at hhead
        cases hhead
      · intro d hd
        simpa using List.mem_takeWhile_imp hd
      · rw [hhead]
        exact fun h => hq.1 (Option.some.inj h)
      · rw [hhead]
        exact fun h => hq.2 (Option.some.inj h)

theorem Term.scanValue_of_spells (h : SpellsValue v value) :
    scanValue text v = .ok (value, []) := by
  cases h with
  | quoted hq hmem =>
    unfold scanValue
    dsimp only
    rw [if_pos (by simpa using hq), quotedRest?_append hmem]
  | bare hne hblank hdouble hsingle =>
    obtain ⟨c, r, rfl⟩ := List.exists_cons_of_ne_nil hne
    have hsolid : ∀ d ∈ c :: r, (!isBlank d) = true := fun d hd => by simp [hblank d hd]
    have hq : ¬(c = '"' || c = '\'') = true := by
      simpa using ⟨fun h => hdouble (h ▸ rfl), fun h => hsingle (h ▸ rfl)⟩
    unfold scanValue
    dsimp only
    rw [if_neg hq, List.takeWhile_eq_self_iff.mpr hsolid, List.dropWhile_eq_nil_iff.mpr hsolid]

theorem Namespace.hasValues_iff : space.hasValues = true ↔ space = .pkg ∨ space = .var := by
  cases space <;> simp [hasValues]

theorem Term.spellsTest_of_scanTest (h : scanTest text i s = .ok test) :
    ∃ core trail, s = core ++ trail ∧ isAllBlank trail = true ∧ SpellsTest i.space core test := by
  unfold scanTest at h
  split at h
  · cases h
    exact ⟨[], [], rfl, rfl, .absent⟩
  split at h
  · cases h
  next k r hk =>
    split at h
    · cases h
    next hv =>
      obtain ⟨⟨value, rest⟩, hvalue, h⟩ := bind_eq_ok_iff.mp h
      dsimp only at h
      split at h
      next hblank =>
        cases h
        obtain ⟨v, hv', hspells⟩ := spellsValue_of_scanValue hvalue
        obtain ⟨gap, hgap, hr⟩ := Blank.exists_gap r
        rw [hv'] at hr
        refine ⟨k.text.toList ++ (gap ++ v), rest, ?_, hblank,
          .present (Namespace.hasValues_iff.mp (by simpa using hv)) hgap hspells⟩
        rw [comparison?_eq_some.mp hk, hr, List.append_assoc, List.append_assoc]
      · cases h

theorem Term.scanTest_of_spells (h : SpellsTest i.space s test) : scanTest text i s = .ok test := by
  cases h with
  | absent => rfl
  | @present k gap v value hspace hgap hspells =>
    obtain ⟨c, r, rfl, hc⟩ := hspells.head_not_isBlank
    rw [scanTest_of_comparison (comparison?_eq_some.mpr rfl) (Namespace.hasValues_iff.mpr hspace),
      trimStart_append hgap, trimStart_cons hc, scanValue_of_spells hspells]
    rfl

/-- A test follows the blanks after a name at once. -/
theorem SpellsTest.trimStart_append (h : SpellsTest space s test) (hgap : isAllBlank gap = true) :
    trimStart (gap ++ s) = s := by
  rw [Rulebook.trimStart_append hgap]
  cases h with
  | absent => rfl
  | @present k _ _ _ =>
    cases k with
    | equal => exact trimStart_cons (by decide) _
    | different => exact trimStart_cons (by decide) _

end Tests

/-! ## Terms -/

namespace Term

section Terms

variable {text s w core : Text} {negated : Bool} {t : Term}

/-- The term without its sign, if no blank ends the text. -/
theorem spells_of_scanUnsigned {sign : Text} (hsign : SpellsSign sign negated)
    (hlast : ∀ c, s.getLast? = some c → isBlank c = false)
    (h : scanUnsigned text negated s = .ok t) : Spells (sign ++ s) t := by
  obtain ⟨⟨i, r⟩, hscan, h⟩ := bind_eq_ok_iff.mp h
  obtain ⟨test, htest, h⟩ := bind_eq_ok_iff.mp h
  cases h
  obtain ⟨word, body, name, rfl, hall, hmem, hlower, hname, hi⟩ := Identifier.scan_ok_iff.mp hscan
  obtain ⟨core, trail, hcore, hblank, hspells⟩ := spellsTest_of_scanTest htest
  obtain ⟨gap, hgap, hr⟩ := Blank.exists_gap r
  rw [hcore] at hr
  obtain rfl : trail = [] := by
    obtain ⟨front, rfl, -⟩ := hname.exists_alone
    rcases List.eq_nil_or_concat trail with hnil | ⟨more, c, rfl⟩
    · exact hnil
    · have hend : isBlank c = false := by
        refine hlast c (List.getLast?_eq_some_iff.mpr ?_)
        exact ⟨word ++ ':' :: (front ++ (gap ++ (core ++ more))), by simp [hr]⟩
      rw [List.all_eq_true.mp hblank c (by simp)] at hend
      cases hend
  rw [List.append_nil] at hr
  rw [hr] at hname
  rw [hi]
  exact .intro hsign hall hmem hlower hname hgap hspells

theorem spells_of_parse (h : parse w = .ok t) : Spells (trim w) t := by
  rw [parse_eq] at h
  split at h
  · cases h
  next r hr =>
    split at h
    · cases h
    obtain ⟨gap, hgap, hgapr⟩ := Blank.exists_gap r
    have hsplit : trim w = '!' :: gap ++ trimStart r := by
      rw [hr]
      exact congrArg ('!' :: ·) hgapr
    rw [hsplit]
    refine spells_of_scanUnsigned (.present hgap) (fun c hc => ?_) h
    refine Blank.getLast?_trim (s := w) ?_
    rw [hsplit, List.getLast?_append, hc]
    rfl
  · exact spells_of_scanUnsigned .absent (fun c hc => Blank.getLast?_trim hc) h

theorem isSpelled_of_parse (h : parse w = .ok t) : IsSpelled w t := by
  obtain ⟨lead, trail, hw, hlead, htrail⟩ := Blank.exists_trim w
  exact ⟨lead, trim w, trail, hw, hlead, htrail, spells_of_parse h⟩

theorem not_isBlank_of_isLetter {c : Char} (h : Word.isLetter c = true) :
    isBlank c = false ∧ c ≠ '!' := by
  simp only [Word.isLetter, Bool.or_eq_true, Bool.and_eq_true, decide_eq_true_eq, Char.le_def] at h
  have hrange : 65 ≤ c.toNat ∧ c.toNat ≤ 122 := by
    rcases h with ⟨hlow, hhigh⟩ | ⟨hlow, hhigh⟩
    · have hlow : 97 ≤ c.toNat := hlow
      have hhigh : c.toNat ≤ 122 := hhigh
      omega
    · have hlow : 65 ≤ c.toNat := hlow
      have hhigh : c.toNat ≤ 90 := hhigh
      omega
  refine ⟨?_, fun hbang => ?_⟩
  · simp only [isBlank, Bool.or_eq_false_iff, Bool.and_eq_false_iff, decide_eq_false_iff_not,
      beq_eq_false_iff_ne]
    omega
  · rw [hbang] at hrange
    exact absurd hrange.1 (by decide)

/-- The letters of a namespace: none of them is a blank or a sign. -/
theorem exists_letter {word : Text} {space : Namespace} (hall : word.all Word.isLetter = true)
    (hmem : space ∈ Namespace.known) (hlower : word.map LowerCase.asciiChar = space.name.toList) :
    ∃ c r, word = c :: r ∧ isBlank c = false ∧ c ≠ '!' := by
  cases word with
  | nil =>
    obtain ⟨-, hne, -, -⟩ := Namespace.written_of_mem_known space hmem
    rw [← hlower] at hne
    cases hne
  | cons c r =>
    exact ⟨c, r, rfl, not_isBlank_of_isLetter (List.all_eq_true.mp hall c List.mem_cons_self)⟩

theorem Spells.head_not_isBlank (h : Spells core t) : ∃ c r, core = c :: r ∧ isBlank c = false := by
  cases h with
  | intro hsign hall hmem hlower =>
    cases hsign with
    | absent =>
      obtain ⟨c, r, rfl, hc, -⟩ := exists_letter hall hmem hlower
      exact ⟨c, _, rfl, hc⟩
    | present => exact ⟨'!', _, rfl, by decide⟩

/-- Without the blanks at its end a term is still the same one. -/
theorem Spells.exists_trimmed (h : Spells core t) : ∃ front gap, core = front ++ gap ∧
    isAllBlank gap = true ∧ Spells front t ∧ ∃ s c, front = s ++ [c] ∧ isBlank c = false := by
  cases h with
  | @intro sign word _ _ gap _ _ _ _ hsign hall hmem hlower hname hgap htest =>
    obtain ⟨front, rfl, hfront⟩ := hname.exists_alone
    cases htest with
    | absent =>
      obtain ⟨s, c, hs, hc⟩ := hfront.last_not_isBlank
      have hspells :=
        Spells.intro hsign hall hmem hlower hfront (rfl : isAllBlank [] = true) .absent
      refine ⟨sign ++ (word ++ ':' :: front), gap, ?_, hgap, hspells,
        sign ++ (word ++ ':' :: s), c, ?_, hc⟩
      · simp
      · simp [hs]
    | @present k gap' _ _ hspace hgap' hvalue =>
      obtain ⟨s, c, hs, hc⟩ := hvalue.last_not_isBlank
      have hspells := Spells.intro hsign hall hmem hlower hname hgap (.present hspace hgap' hvalue)
      refine ⟨_, [], (List.append_nil _).symm, rfl, hspells,
        sign ++ (word ++ ':' :: (front ++ (gap ++ (k.text.toList ++ (gap' ++ s))))), c, ?_, hc⟩
      simp [hs]

theorem scanUnsigned_of_spells {word body name gap rest : Text} {space : Namespace}
    {test : Option (Comparison × String)} (hall : word.all Word.isLetter = true)
    (hmem : space ∈ Namespace.known) (hlower : word.map LowerCase.asciiChar = space.name.toList)
    (hname : SpellsName body name (gap ++ rest)) (hgap : isAllBlank gap = true)
    (htest : SpellsTest space rest test) :
    scanUnsigned text negated (word ++ ':' :: body) =
      .ok ⟨⟨space, String.ofList name⟩, negated, test⟩ := by
  have hscan : Identifier.scan text (word ++ ':' :: body) =
      .ok (⟨space, String.ofList name⟩, gap ++ rest) :=
    Identifier.scan_ok_iff.mpr ⟨word, body, name, rfl, hall, hmem, hlower, hname, rfl⟩
  refine bind_eq_ok_iff.mpr ⟨_, hscan, bind_eq_ok_iff.mpr ⟨test, ?_, rfl⟩⟩
  rw [htest.trimStart_append hgap]
  exact scanTest_of_spells htest

/-- Blanks may follow the sign. -/
theorem parse_of_sign {c : Char} {r rest : Text} (h : trim w = '!' :: r)
    (hr : trimStart r = c :: rest) : parse w = scanUnsigned (trim w) true (c :: rest) := by
  rw [parse_eq]
  split
  next hw => simp [hw] at h
  next r' hw =>
    rw [hw] at h
    cases h
    rw [hr]
    rfl
  next hw => exact absurd h (hw _)

theorem parse_of_trim (hcore : Spells (trim w) t) : parse w = .ok t := by
  generalize hw : trim w = core at hcore
  cases hcore with
  | intro hsign hall hmem hlower hname hgap htest =>
    obtain ⟨c, r, rfl, hc, hbang⟩ := exists_letter hall hmem hlower
    cases hsign with
    | absent =>
      rw [parse_of_not_negated hw hbang]
      exact scanUnsigned_of_spells hall hmem hlower hname hgap htest
    | present hsign =>
      rw [parse_of_sign hw ((trimStart_append hsign _).trans (trimStart_cons hc _))]
      exact scanUnsigned_of_spells hall hmem hlower hname hgap htest

theorem parse_of_isSpelled (h : IsSpelled w t) : parse w = .ok t := by
  obtain ⟨lead, core, trail, rfl, hlead, htrail, hcore⟩ := h
  obtain ⟨front, gap, rfl, hgap, hfront, s, c, hs, hc⟩ := hcore.exists_trimmed
  obtain ⟨d, r, hdr, hd⟩ := hfront.head_not_isBlank
  have hblank : isAllBlank (gap ++ trail) = true := by
    unfold isAllBlank at hgap htrail ⊢
    rw [List.all_append, hgap, htrail]
    rfl
  have htrim : trim (lead ++ (front ++ gap) ++ trail) = front := by
    rw [trim, List.append_assoc, trimStart_append hlead, List.append_assoc, hdr, List.cons_append,
      trimStart_cons hd, ← List.cons_append, ← hdr, hs, trimEnd_append hc hblank]
  exact parse_of_trim (htrim.symm ▸ hfront)

end Terms

end Term

/-! ## Refusals -/

/-- An error about how a condition is written. -/
def Condition.Error.IsOfReading (e : Condition.Error) : Prop :=
  e.className = "ConditionParseError" ∨ e.className = "UnknownNamespaceError"

/-- Whatever error comes out is about how a condition is written. -/
def FailsInReading {α : Type} (x : Except Condition.Error α) : Prop :=
  ∀ e, x = .error e → e.IsOfReading

section Refusals

variable {α β : Type} {x : Except Condition.Error α} {k : α → Except Condition.Error β}

theorem failsInReading_ok (a : α) : FailsInReading (.ok a) := fun _ h => nomatch h

theorem failsInReading_error {e : Condition.Error} (h : e.IsOfReading) :
    FailsInReading (α := α) (.error e) := fun _ he => Except.error.inj he ▸ h

theorem FailsInReading.bind (hx : FailsInReading x) (hk : ∀ a, FailsInReading (k a)) :
    FailsInReading (x >>= k) := by
  cases x with
  | error e => exact failsInReading_error (hx e rfl)
  | ok a => exact hk a

variable {text s : Text} {space : Namespace} {i : Identifier}

theorem Identifier.failsInReading_scanName : FailsInReading (scanName space text s) := by
  unfold scanName
  dsimp only
  split
  · split
    · split
      · exact failsInReading_error (.inl rfl)
      · exact failsInReading_ok _
    · exact failsInReading_error (.inl rfl)
  · split
    · exact failsInReading_error (.inl rfl)
    · exact failsInReading_ok _

theorem Identifier.failsInReading_scan : FailsInReading (scan text s) := by
  unfold scan
  dsimp only
  split
  · exact failsInReading_error (.inr rfl)
  · split
    · exact failsInReading_error (.inr rfl)
    · exact failsInReading_scanName

theorem Term.failsInReading_scanValue : FailsInReading (scanValue text s) := by
  unfold scanValue
  split
  · exact failsInReading_error (.inl rfl)
  · split
    · split
      · exact failsInReading_ok _
      · exact failsInReading_error (.inl rfl)
    · exact failsInReading_ok _

theorem Term.failsInReading_scanTest : FailsInReading (scanTest text i s) := by
  unfold scanTest
  split
  · exact failsInReading_ok _
  split
  · exact failsInReading_error (.inl rfl)
  split
  · exact failsInReading_error (.inl rfl)
  refine failsInReading_scanValue.bind fun ⟨value, rest⟩ => ?_
  dsimp only
  split
  · exact failsInReading_ok _
  · exact failsInReading_error (.inl rfl)

theorem Term.failsInReading_parse (w : Text) : FailsInReading (parse w) := by
  have hunsigned (negated : Bool) (s : Text) : FailsInReading (scanUnsigned (trim w) negated s) :=
    Identifier.failsInReading_scan.bind fun _ =>
      failsInReading_scanTest.bind fun _ => failsInReading_ok _
  rw [parse_eq]
  split
  · exact failsInReading_error (.inl rfl)
  · split
    · exact failsInReading_error (.inl rfl)
    · exact hunsigned true _
  · exact hunsigned false _

end Refusals

/-- Reading gives a term just for the texts that spell it. Every other text is refused, with an
error about how it is written. -/
theorem Term.parse_ok_iff_isSpelled (w : Text) :
    (∀ t, parse w = .ok t ↔ IsSpelled w t) ∧
      ((¬∃ t, IsSpelled w t) ↔ ∃ e, parse w = .error e ∧
        (e.className = "ConditionParseError" ∨ e.className = "UnknownNamespaceError")) := by
  have hread (t : Term) : parse w = .ok t ↔ IsSpelled w t :=
    ⟨isSpelled_of_parse, parse_of_isSpelled⟩
  refine ⟨hread, ?_⟩
  cases h : parse w with
  | ok t => exact iff_of_false (fun hnot => hnot ⟨t, (hread t).mp h⟩) fun ⟨e, he, _⟩ => nomatch he
  | error e =>
    refine iff_of_true (fun ⟨t, ht⟩ => ?_) ⟨e, rfl, failsInReading_parse w e h⟩
    exact nomatch h.symm.trans ((hread t).mpr ht)

/-- A bare name takes in equals signs up to the first comparison. -/
example : Term.parse " ! VAR:a=!=b ".toList =
    .ok ⟨⟨.var, "a="⟩, true, some (.different, "b")⟩ := by cbv

end Rulebook
