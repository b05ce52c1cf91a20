import Rulebook.Proofs.Condition.Weight
import Rulebook.Proofs.Text.Trim
import Rulebook.Text.Search

/-!
# Reading written terms

A term that was read and is written again reads back as the same term just if its name can stand as
it is written and its value has no double quote inside (`Term.parse_padded_iff`): names are put in
quotes only for their blanks, and values are always put in double quotes.
-/

namespace Rulebook

open Blank (isBlank trim trimStart trimEnd)

/-! ## Names -/

/-- No comparison stands in `s`. -/
def IsComparisonFree (s : Text) : Prop :=
  ∀ c : Comparison, Search.contains c.text.toList s = false

section Names

variable {s name rest : Text} {c : Char}

theorem Search.contains_cons (needle s : Text) (c : Char) :
    contains needle (c :: s) = ((dropStart? needle (c :: s)).isSome || contains needle s) := by
  unfold contains
  rw [split?]
  cases dropStart? needle (c :: s) with
  | some r => rfl
  | none => simp

theorem isComparisonFree_nil : IsComparisonFree [] := by
  intro c
  cases c <;> decide

theorem isComparisonFree_cons :
    IsComparisonFree (c :: s) ↔ comparison? (c :: s) = none ∧ IsComparisonFree s := by
  have hnone : comparison? (c :: s) = none ↔
      ∀ k : Comparison, (Search.dropStart? k.text.toList (c :: s)).isSome = false := by
    constructor
    · intro h k
      cases hd : Search.dropStart? k.text.toList (c :: s) with
      | none => rfl
      | some r =>
        rw [Search.dropStart?_eq_some, ← comparison?_eq_some, h] at hd
        cases hd
    · intro h
      cases hk : comparison? (c :: s) with
      | none => rfl
      | some found =>
        obtain ⟨k, r⟩ := found
        rw [comparison?_eq_some, ← Search.dropStart?_eq_some] at hk
        have hsome := h k
        rw [hk] at hsome
        cases hsome
  unfold IsComparisonFree
  simp only [Search.contains_cons, Bool.or_eq_false_iff, hnone, forall_and]

/-- What may follow a written name. -/
def EndsName (rest : Text) : Prop := rest = [] ∨ ∃ r, rest = ' ' :: r

theorem comparison?_append (hrest : EndsName rest) :
    (comparison? (c :: (s ++ rest))).isSome = (comparison? (c :: s)).isSome := by
  rcases hrest with rfl | ⟨r, rfl⟩
  · rw [List.append_nil]
  · cases s with
    | nil =>
      have hspace (d : Char) (t : Text) : comparison? (d :: ' ' :: t) = none := by
        unfold comparison?
        split
        next h => simp at h
        next h => simp at h
        next => rfl
      have hone (d : Char) : comparison? [d] = none := by
        unfold comparison?
        split
        next h => simp at h
        next h => simp at h
        next => rfl
      rw [List.nil_append, hspace, hone]
    | cons d s =>
      unfold comparison?
      split <;> simp_all

/-- A name stands as it is just if no comparison ends it before its end. -/
theorem bareName_append_iff (hb : ∀ c ∈ name, isBlank c = false) (hrest : EndsName rest) :
    bareName (name ++ rest) = (name, rest) ↔ IsComparisonFree name := by
  induction name with
  | nil =>
    refine iff_of_true ?_ isComparisonFree_nil
    rcases hrest with rfl | ⟨r, rfl⟩ <;> rfl
  | cons c s ih =>
    have ih := ih fun d hd => hb d (List.mem_cons_of_mem c hd)
    rw [isComparisonFree_cons, ← ih, List.cons_append, bareName, hb c List.mem_cons_self,
      comparison?_append hrest]
    cases comparison? (c :: s) with
    | some k => simp
    | none =>
      rcases bareName (s ++ rest) with ⟨n, r⟩
      simp

end Names

/-! ## Identifiers -/

section Identifiers

variable {text s rest inner : Text} {i : Identifier} {q : Char}

theorem quotedRest?_append (hq : q ∉ inner) :
    quotedRest? q (inner ++ q :: rest) = some (inner, rest) := by
  have hne : ∀ c ∈ inner, decide (c ≠ q) = true := fun c hc => by
    simpa using fun h : c = q => hq (h ▸ hc)
  unfold quotedRest?
  rw [List.dropWhile_append_of_pos hne, List.takeWhile_append_of_pos hne]
  simp

/-- Known namespaces are read as they are written. -/
theorem Namespace.written_of_mem_known : ∀ n ∈ known,
    n.name.toList.all Word.isLetter = true ∧ n.name.toList.isEmpty = false ∧
      n.name.toList.head?.all (fun c => !isBlank c && c ≠ '!') = true ∧
      known? (String.ofList (n.name.toList.map LowerCase.asciiChar)) = some n := by
  decide

theorem namespaceWord?_append (hs : s.all Word.isLetter = true) (hne : s.isEmpty = false) :
    namespaceWord? (s ++ ':' :: rest) = some (s, rest) := by
  have hletters := List.all_eq_true.mp hs
  have hcolon : Word.isLetter ':' = false := by decide
  unfold namespaceWord?
  rw [List.dropWhile_append_of_pos hletters, List.takeWhile_append_of_pos hletters,
    List.dropWhile_cons_of_neg (by simp [hcolon]), List.takeWhile_cons_of_neg (by simp [hcolon]),
    List.append_nil]
  simp [hne]

theorem Identifier.scan_append (hi : i.space ∈ Namespace.known) :
    scan text (i.space.name.toList ++ ':' :: s) = scanName i.space text s := by
  obtain ⟨hletters, hne, -, hknown⟩ := Namespace.written_of_mem_known i.space hi
  unfold scan
  rw [namespaceWord?_append hletters hne]
  dsimp only
  rw [hknown]

/-- The name can stand as it is written. -/
def Identifier.IsPlain (i : Identifier) : Prop :=
  i.name.toList.any isBlank = true ∨ IsComparisonFree i.name.toList

theorem Identifier.scanName_quoted (hs : s.isEmpty = false) (hq : '"' ∉ s) :
    scanName i.space text ('"' :: (s ++ '"' :: rest)) = .ok (⟨i.space, String.ofList s⟩, rest) := by
  unfold scanName
  dsimp only
  split
  next r h =>
    cases h
    rw [quotedRest?_append hq]
    dsimp only
    rw [hs]
    rfl
  next h => exact absurd rfl (h _)

theorem Identifier.scanName_bare (hq : s.head? ≠ some '"') :
    scanName i.space text s =
      if (bareName s).1.isEmpty then .error (faultAt (.missingName i.space) text (bareName s).2)
      else .ok (⟨i.space, String.ofList (bareName s).1⟩, (bareName s).2) := by
  unfold scanName
  dsimp only
  split
  next r => exact absurd rfl hq
  next => rfl

theorem Identifier.Readable.head?_name_append (hi : i.Readable) :
    (i.name.toList ++ rest).head? ≠ some '"' := by
  have hne := hi.named
  have hunquoted := hi.unquoted
  cases h : i.name.toList with
  | nil => exact absurd h hne
  | cons c s =>
    rw [h] at hunquoted
    exact hunquoted

theorem Identifier.scan_text (hi : i.Readable) (hp : i.IsPlain) (hrest : EndsName rest) :
    scan text (i.text.toList ++ rest) = .ok (i, rest) := by
  have hnamed : i.name.toList.isEmpty = false := by simpa using hi.named
  rw [toList_text, List.append_assoc, List.cons_append, scan_append hi.known, writtenName]
  by_cases hb : i.name.toList.any isBlank = true
  · rw [if_pos hb, List.cons_append, List.append_assoc, List.singleton_append,
      scanName_quoted hnamed (hi.closed hb), String.ofList_toList]
  · have hblank : ∀ c ∈ i.name.toList, isBlank c = false := by simpa using hb
    have hbare := (bareName_append_iff hblank hrest).mpr (hp.resolve_left hb)
    rw [if_neg hb, scanName_bare hi.head?_name_append, hbare, hnamed, String.ofList_toList]
    rfl

theorem Identifier.isPlain_of_scan {r : Text} (hi : i.Readable) (hrest : EndsName rest)
    (h : scan text (i.text.toList ++ rest) = .ok (i, r)) : i.IsPlain := by
  by_cases hb : i.name.toList.any isBlank = true
  · exact .inl hb
  · have hblank : ∀ c ∈ i.name.toList, isBlank c = false := by simpa using hb
    rw [toList_text, List.append_assoc, List.cons_append, scan_append hi.known, writtenName,
      if_neg hb, scanName_bare hi.head?_name_append] at h
    split at h
    · cases h
    rw [Except.ok.injEq, Prod.mk.injEq] at h
    have hname : (bareName (i.name.toList ++ rest)).1 = i.name.toList := by
      have hi' := congrArg (fun j : Identifier => j.name.toList) h.1
      simpa using hi'
    obtain ⟨happend, -⟩ := bareName_eq (s := i.name.toList ++ rest) rfl
    rw [hname, List.append_cancel_left_eq] at happend
    exact .inr ((bareName_append_iff hblank hrest).mp (Prod.ext hname happend.symm))

end Identifiers

/-! ## Tests -/

section Tests

variable {text : Text} {i : Identifier} {test : Option (Comparison × String)}

/-- The value has no double quote inside. -/
def HasPlainValue (test : Option (Comparison × String)) : Prop :=
  ∀ x ∈ test, '"' ∉ x.2.toList

theorem endsName_writtenTest : EndsName (Term.writtenTest test) := by
  unfold Term.writtenTest
  split
  · exact .inl rfl
  · exact .inr ⟨_, rfl⟩

theorem Term.scanTest_of_comparison {s rest : Text} {comparison : Comparison}
    (h : comparison? s = some (comparison, rest)) (hv : i.space.hasValues = true) :
    scanTest text i s = scanValue text (trimStart rest) >>= fun found =>
      if Blank.isAllBlank found.2 then .ok (some (comparison, String.ofList found.1))
      else .error (faultAt (.afterValue (String.ofList (trim found.2))) text found.2) := by
  unfold scanTest
  split
  · cases h
  · rw [h, hv]
    rfl

theorem Term.scanValue_quoted_iff {s : Text} {found : Text × Text} :
    scanValue text ('"' :: s) = .ok found ↔ quotedRest? '"' s = some found := by
  rw [scanValue, if_pos (by decide)]
  split
  next hf => rw [hf, Except.ok.injEq, Option.some.injEq]
  next hf => simp [hf]

/-- Values are read up to the first double quote, and nothing may follow. -/
theorem Term.scanTest_writtenTest_iff (hv : test.isSome = true → i.space.hasValues = true) :
    scanTest text i (trimStart (writtenTest test)) = .ok test ↔ HasPlainValue test := by
  rcases test with _ | ⟨comparison, value⟩
  · exact iff_of_true rfl fun x hx => nomatch hx
  have htrim : trimStart (writtenTest (some (comparison, value))) =
      comparison.text.toList ++ ' ' :: '"' :: (value.toList ++ ['"']) := by
    cases comparison <;> rfl
  have hplain : HasPlainValue (some (comparison, value)) ↔ '"' ∉ value.toList := by
    simp [HasPlainValue]
  rw [htrim, scanTest_of_comparison (comparison?_eq_some.mpr rfl) (hv rfl), hplain]
  constructor
  · intro h
    obtain ⟨⟨inner, r⟩, hread, h⟩ := bind_eq_ok_iff.mp h
    split at h
    · have hvalue : String.ofList inner = value := by simpa using h
      rw [← hvalue, String.toList_ofList]
      exact (quotedRest?_eq_some (scanValue_quoted_iff.mp hread)).2
    · cases h
  · intro hq
    refine bind_eq_ok_iff.mpr ⟨_, scanValue_quoted_iff.mpr (quotedRest?_append hq), ?_⟩
    rw [String.ofList_toList]
    rfl

end Tests

/-! ## Terms -/

/-- The name can stand as it is written, and the value has no double quote inside. -/
def Term.IsPlain (t : Term) : Prop := t.identifier.IsPlain ∧ HasPlainValue t.test

namespace Term

section Terms

variable {a b s r : Text} {c : Char} {t : Term}

theorem scanUnsigned_text_iff (text : Text) (ht : t.Readable) :
    scanUnsigned text t.negated (t.identifier.text.toList ++ writtenTest t.test) = .ok t ↔
      t.IsPlain := by
  constructor
  · intro h
    obtain ⟨⟨i, r⟩, hscan, h⟩ := bind_eq_ok_iff.mp h
    obtain ⟨test, htest, h⟩ := bind_eq_ok_iff.mp h
    have hi : i = t.identifier := congrArg Term.identifier (Except.ok.inj h)
    have htest' : test = t.test := congrArg Term.test (Except.ok.inj h)
    subst hi
    have hp := Identifier.isPlain_of_scan ht.identifier endsName_writtenTest hscan
    rw [Identifier.scan_text ht.identifier hp endsName_writtenTest] at hscan
    cases hscan
    rw [htest'] at htest
    exact ⟨hp, (scanTest_writtenTest_iff ht.test).mp htest⟩
  · rintro ⟨hp, hv⟩
    refine bind_eq_ok_iff.mpr ⟨_, Identifier.scan_text ht.identifier hp endsName_writtenTest, ?_⟩
    exact bind_eq_ok_iff.mpr ⟨_, (scanTest_writtenTest_iff ht.test).mpr hv, rfl⟩

theorem exists_head_of_readable (hi : t.identifier.Readable) (s : Text) :
    ∃ c r, t.identifier.text.toList ++ s = c :: r ∧ isBlank c = false ∧ c ≠ '!' := by
  obtain ⟨-, hne, hhead, -⟩ := Namespace.written_of_mem_known _ hi.known
  rw [Identifier.toList_text]
  cases hname : t.identifier.space.name.toList with
  | nil =>
    rw [hname] at hne
    cases hne
  | cons c r =>
    rw [hname] at hhead
    have hc : isBlank c = false ∧ c ≠ '!' := by simpa using hhead
    exact ⟨c, _, rfl, hc⟩

theorem exists_last_of_readable (ht : t.Readable) :
    ∃ s d, t.text.toList = s ++ [d] ∧ isBlank d = false := by
  have hquote : isBlank '"' = false := by decide
  have hname : ∃ s d, t.identifier.writtenName = s ++ [d] ∧ isBlank d = false := by
    unfold Identifier.writtenName
    split
    · exact ⟨'"' :: t.identifier.name.toList, '"', rfl, hquote⟩
    next hb =>
      rcases List.eq_nil_or_concat t.identifier.name.toList with h | ⟨s, d, h⟩
      · exact absurd h ht.identifier.named
      · refine ⟨s, d, by simpa using h, ?_⟩
        have hb : ∀ c ∈ t.identifier.name.toList, isBlank c = false := by simpa using hb
        exact hb d (by simp [h])
  rw [toList_text, Identifier.toList_text]
  rcases t.test with _ | ⟨comparison, value⟩
  · obtain ⟨s, d, hs, hd⟩ := hname
    refine ⟨t.writtenSign ++ (t.identifier.space.name.toList ++ ':' :: s), d, ?_, hd⟩
    simp [writtenTest, hs]
  · refine ⟨t.writtenSign ++ (t.identifier.space.name.toList ++ ':' ::
      (t.identifier.writtenName ++ ' ' :: (comparison.text.toList ++ ' ' :: '"' :: value.toList))),
      '"', ?_, hquote⟩
    simp [writtenTest]

theorem exists_head_text (ht : t.Readable) :
    ∃ c r, t.text.toList = c :: r ∧ isBlank c = false := by
  have hbang : isBlank '!' = false := by decide
  rw [toList_text, writtenSign]
  split
  · exact ⟨'!', _, rfl, hbang⟩
  · obtain ⟨c, r, hcr, hc, -⟩ := exists_head_of_readable ht.identifier (writtenTest t.test)
    exact ⟨c, r, hcr, hc⟩

/-- Blanks around a written term do not matter. -/
theorem trim_padded (ht : t.Readable) (ha : Blank.isAllBlank a = true)
    (hb : Blank.isAllBlank b = true) : trim (a ++ t.text.toList ++ b) = t.text.toList := by
  obtain ⟨c, r, hcr, hc⟩ := exists_head_text ht
  obtain ⟨s, d, hsd, hd⟩ := exists_last_of_readable ht
  rw [trim, List.append_assoc, trimStart_append ha, hcr, List.cons_append, trimStart_cons hc,
    ← List.cons_append, ← hcr, hsd, trimEnd_append hd hb]

theorem parse_of_negated (h : trim s = '!' :: c :: r) (hc : isBlank c = false) :
    parse s = scanUnsigned (trim s) true (c :: r) := by
  rw [parse_eq]
  split
  next hs => simp [hs] at h
  next r' hs =>
    rw [hs] at h
    cases h
    rw [trimStart_cons hc]
    rfl
  next hs => exact absurd h (hs _)

theorem parse_of_not_negated (h : trim s = c :: r) (hc : c ≠ '!') :
    parse s = scanUnsigned (trim s) false (c :: r) := by
  rw [parse_eq]
  split
  next hs => simp [hs] at h
  next r' hs =>
    rw [hs] at h
    cases h
    exact absurd rfl hc
  next => rw [h]

/-- A term reads back just if it is plain, whatever blanks are put around it. -/
theorem parse_padded_iff (ht : t.Readable) (ha : Blank.isAllBlank a = true)
    (hb : Blank.isAllBlank b = true) : parse (a ++ t.text.toList ++ b) = .ok t ↔ t.IsPlain := by
  obtain ⟨c, r, hcr, hc, hbang⟩ := exists_head_of_readable ht.identifier (writtenTest t.test)
  have htrim := trim_padded ht ha hb
  have htext := t.toList_text
  rw [hcr, writtenSign] at htext
  rw [← scanUnsigned_text_iff (trim (a ++ t.text.toList ++ b)) ht, hcr]
  cases hn : t.negated with
  | true =>
    rw [hn] at htext
    rw [parse_of_negated (htrim.trans htext) hc]
  | false =>
    rw [hn] at htext
    rw [parse_of_not_negated (htrim.trans htext) hbang]

end Terms

end Term

end Rulebook
