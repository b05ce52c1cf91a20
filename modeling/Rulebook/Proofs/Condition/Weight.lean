import Mathlib.Data.List.TakeWhile
import Rulebook.Condition.Parser

/-!
# What reading a term keeps

The weight of a text is the number of its characters that are neither blanks nor quotes. Reading a
term and writing it again moves blanks, changes quotes and writes the namespace in small letters,
so the weight stays (`Term.weight_of_parse`). Two starts of one text that have equal weights and end
before solid characters are the same (`eq_of_weight_eq`); so weights tell where a written term ends.

What was read has a known namespace and a name, and values only where the namespace has them
(`Term.readable_of_parse`).
-/

namespace Rulebook

open Blank (isBlank trim trimStart trimEnd)

/-! ## Weights -/

/-- Neither a blank nor a quote. -/
def isSolid (c : Char) : Bool := !isBlank c && c ≠ '"' && c ≠ '\''

def weight (s : Text) : Nat := s.countP isSolid

section Weight

variable {c d : Char} {s t a b : Text}

@[simp] theorem weight_nil : weight [] = 0 := rfl

theorem weight_cons (c : Char) (s : Text) :
    weight (c :: s) = weight s + if isSolid c then 1 else 0 := List.countP_cons

@[simp] theorem weight_append (s t : Text) : weight (s ++ t) = weight s + weight t :=
  List.countP_append

theorem weight_cons_of_solid (h : isSolid c = true) : weight (c :: s) = weight s + 1 := by
  rw [weight_cons, if_pos h]

theorem weight_cons_of_not_solid (h : isSolid c = false) : weight (c :: s) = weight s := by
  rw [weight_cons, h]
  simp

@[simp] theorem weight_space (s : Text) : weight (' ' :: s) = weight s :=
  weight_cons_of_not_solid (by decide)

@[simp] theorem weight_quote (s : Text) : weight ('"' :: s) = weight s :=
  weight_cons_of_not_solid (by decide)

theorem isSolid_of_isBlank (h : isBlank c = true) : isSolid c = false := by
  simp [isSolid, h]

theorem weight_of_isAllBlank (h : Blank.isAllBlank s = true) : weight s = 0 := by
  refine List.countP_eq_zero.mpr fun c hc => ?_
  rw [isSolid_of_isBlank (List.all_eq_true.mp h c hc)]
  decide

theorem weight_reverse (s : Text) : weight s.reverse = weight s := List.countP_reverse

@[simp] theorem weight_trimStart (s : Text) : weight (trimStart s) = weight s := by
  induction s with
  | nil => rfl
  | cons c s ih =>
    unfold trimStart at ih ⊢
    rw [List.dropWhile_cons]
    split
    next hc => rw [ih, weight_cons_of_not_solid (isSolid_of_isBlank hc)]
    next => rfl

@[simp] theorem weight_trim (s : Text) : weight (trim s) = weight s := by
  have hend (t : Text) : weight (trimEnd t) = weight t := by
    show weight (trimStart t.reverse).reverse = _
    rw [weight_reverse, weight_trimStart, weight_reverse]
  rw [trim, hend, weight_trimStart]

/-- Equal weights before solid characters of one text are the same place. -/
theorem eq_of_weight_eq (h : s ++ c :: a = t ++ d :: b) (hw : weight s = weight t)
    (hc : isSolid c = true) (hd : isSolid d = true) : s = t := by
  induction s generalizing t with
  | nil =>
    cases t with
    | nil => rfl
    | cons x t =>
      cases h
      rw [weight_cons_of_solid hc, weight_nil] at hw
      omega
  | cons x s ih =>
    cases t with
    | nil =>
      cases h
      rw [weight_cons_of_solid hd, weight_nil] at hw
      omega
    | cons y t =>
      obtain ⟨rfl, hrest⟩ := List.cons.inj h
      rw [weight_cons, weight_cons] at hw
      rw [ih hrest (by omega)]

end Weight

/-! ## What the readers take apart -/

section Readers

variable {s name rest inner letters : Text} {q : Char}

theorem quotedRest?_eq_some (h : quotedRest? q s = some (inner, rest)) :
    s = inner ++ q :: rest ∧ q ∉ inner := by
  unfold quotedRest? at h
  split at h
  · cases h
  next d r hd =>
    cases h
    have hq : d = q := by
      have hhead := List.head?_dropWhile_not (· ≠ q) s
      rw [hd] at hhead
      simpa using hhead
    subst hq
    refine ⟨?_, fun hmem => ?_⟩
    · rw [← hd]
      exact List.takeWhile_append_dropWhile.symm
    · simpa using List.mem_takeWhile_imp hmem

theorem comparison?_eq_some {c : Comparison} :
    comparison? s = some (c, rest) ↔ s = c.text.toList ++ rest := by
  constructor
  · intro h
    unfold comparison? at h
    split at h
    · cases h
      rfl
    · cases h
      rfl
    · cases h
  · rintro rfl
    cases c <;> rfl

theorem bareName_eq (h : bareName s = (name, rest)) :
    s = name ++ rest ∧ ∀ c ∈ name, isBlank c = false := by
  induction s generalizing name with
  | nil =>
    cases h
    exact ⟨rfl, fun c hc => nomatch hc⟩
  | cons c s ih =>
    unfold bareName at h
    split at h
    · cases h
      exact ⟨rfl, fun c hc => nomatch hc⟩
    next hc =>
      cases h
      obtain ⟨hs, hn⟩ := ih rfl
      refine ⟨congrArg (c :: ·) hs, fun d hd => ?_⟩
      rcases List.mem_cons.mp hd with rfl | hd
      · simp only [Bool.or_eq_true, not_or] at hc
        simpa using hc.1
      · exact hn d hd

theorem namespaceWord?_eq_some (h : namespaceWord? s = some (letters, rest)) :
    s = letters ++ ':' :: rest := by
  unfold namespaceWord? at h
  dsimp only at h
  split at h
  next r hr =>
    split at h
    · cases h
    · cases h
      rw [← hr]
      exact List.takeWhile_append_dropWhile.symm
  · cases h

end Readers

/-! ## Written forms -/

/-- The name as it is written after the colon. -/
def Identifier.writtenName (i : Identifier) : Text :=
  if i.name.toList.any isBlank then '"' :: (i.name.toList ++ ['"']) else i.name.toList

theorem Identifier.toList_text (i : Identifier) :
    i.text.toList = i.space.name.toList ++ ':' :: i.writtenName := by
  unfold text writtenName
  split <;> simp

def Term.writtenSign (t : Term) : Text := if t.negated then ['!'] else []

def Term.writtenTest : Option (Comparison × String) → Text
  | none => []
  | some (comparison, value) =>
    ' ' :: (comparison.text.toList ++ ' ' :: '"' :: (value.toList ++ ['"']))

theorem Term.toList_text (t : Term) :
    t.text.toList = t.writtenSign ++ (t.identifier.text.toList ++ writtenTest t.test) := by
  unfold text sign writtenSign writtenTest
  rcases t.test with _ | ⟨comparison, value⟩
  · split <;> simp
  · split <;> simp

theorem Identifier.weight_text (i : Identifier) :
    weight i.text.toList = weight i.space.name.toList + 1 + weight i.name.toList := by
  have hcolon : isSolid ':' = true := by decide
  rw [toList_text, weight_append, weight_cons_of_solid hcolon]
  have hname : weight i.writtenName = weight i.name.toList := by
    unfold writtenName
    split <;> simp
  omega

/-! ## What was read -/

/-- An identifier as reading gives it. -/
structure Identifier.Readable (i : Identifier) : Prop where
  known : i.space ∈ Namespace.known
  named : i.name.toList ≠ []
  unquoted : i.name.toList.head? ≠ some '"'
  closed : i.name.toList.any isBlank = true → '"' ∉ i.name.toList

/-- A term as reading gives it. -/
structure Term.Readable (t : Term) : Prop where
  identifier : t.identifier.Readable
  test : t.test.isSome = true → t.identifier.space.hasValues = true

theorem isSolid_asciiChar (c : Char) : isSolid (LowerCase.asciiChar c) = isSolid c := by
  unfold LowerCase.asciiChar
  split
  next hc =>
    have hletters :
        ∀ n < 26, isSolid (Char.ofNat (65 + n + 32)) = isSolid (Char.ofNat (65 + n)) := by
      decide
    simp only [Bool.and_eq_true, decide_eq_true_eq, Char.le_def] at hc
    have hlow : 65 ≤ c.toNat := hc.1
    have hhigh : c.toNat ≤ 90 := hc.2
    have hsub := hletters (c.toNat - 65) (by omega)
    rwa [Nat.add_sub_cancel' hlow, Char.ofNat_toNat] at hsub
  next => rfl

theorem weight_map_asciiChar (s : Text) : weight (s.map LowerCase.asciiChar) = weight s := by
  unfold weight
  rw [List.countP_map]
  exact List.countP_congr fun c _ => by simp [isSolid_asciiChar]

section Read

variable {text s rest : Text} {space : Namespace} {i : Identifier}

theorem Namespace.of_known? {name : String} (h : known? name = some space) :
    space ∈ known ∧ space.name = name :=
  ⟨List.mem_of_find?_eq_some h, by simpa using List.find?_some h⟩

theorem Identifier.of_scanName (hspace : space ∈ Namespace.known)
    (h : scanName space text s = .ok (i, rest)) :
    i.Readable ∧ i.space = space ∧ weight s = weight i.name.toList + weight rest := by
  unfold scanName at h
  dsimp only at h
  split at h
  · split at h
    next r found hf =>
      split at h
      · cases h
      next hne =>
        obtain ⟨inner, rest'⟩ := found
        cases h
        obtain ⟨hr, hq⟩ := quotedRest?_eq_some hf
        refine ⟨⟨hspace, ?_, ?_, ?_⟩, rfl, ?_⟩
        · simpa using hne
        · rw [String.toList_ofList]
          exact fun hhead => hq (List.mem_of_head? hhead)
        · rw [String.toList_ofList]
          exact fun _ => hq
        · rw [hr, String.toList_ofList, weight_quote, weight_append, weight_quote]
    · cases h
  next hnq =>
    split at h
    · cases h
    next hne =>
      cases h
      obtain ⟨hs, hb⟩ := bareName_eq (s := s) rfl
      refine ⟨⟨hspace, ?_, ?_, ?_⟩, rfl, ?_⟩
      · simpa using hne
      · rw [String.toList_ofList]
        intro hhead
        obtain ⟨tail, htail⟩ := List.head?_eq_some_iff.mp hhead
        rw [htail] at hs
        exact hnq _ hs
      · rw [String.toList_ofList]
        intro hany
        obtain ⟨c, hc, hblank⟩ := List.any_eq_true.mp hany
        rw [hb c hc] at hblank
        cases hblank
      · rw [String.toList_ofList, ← weight_append, ← hs]

theorem Identifier.of_scan (h : scan text s = .ok (i, rest)) :
    i.Readable ∧ weight s = weight i.text.toList + weight rest := by
  unfold scan at h
  dsimp only at h
  split at h
  · cases h
  next letters r hword =>
    split at h
    · cases h
    next space hknown =>
      obtain ⟨hmem, hname⟩ := Namespace.of_known? hknown
      obtain ⟨hi, rfl, hw⟩ := of_scanName hmem h
      have hcolon : isSolid ':' = true := by decide
      have hletters : weight i.space.name.toList = weight letters := by
        rw [hname, String.toList_ofList, weight_map_asciiChar]
      refine ⟨hi, ?_⟩
      rw [namespaceWord?_eq_some hword, weight_append, weight_cons_of_solid hcolon, i.weight_text]
      omega

theorem Term.of_scanValue {value : Text} (h : scanValue text s = .ok (value, rest)) :
    weight s = weight value + weight rest := by
  unfold scanValue at h
  split at h
  · cases h
  next c r =>
    split at h
    next hq =>
      have hsolid : isSolid c = false := by
        simp only [Bool.or_eq_true, decide_eq_true_eq] at hq
        rcases hq with rfl | rfl <;> decide
      split at h
      next found hf =>
        cases h
        rw [(quotedRest?_eq_some hf).1, weight_cons_of_not_solid hsolid, weight_append,
          weight_cons_of_not_solid hsolid]
      · cases h
    · cases h
      rw [← weight_append, List.takeWhile_append_dropWhile]

theorem Term.of_scanTest {test : Option (Comparison × String)} (h : scanTest text i s = .ok test) :
    (test.isSome = true → i.space.hasValues = true) ∧ weight s = weight (writtenTest test) := by
  unfold scanTest at h
  split at h
  · cases h
    exact ⟨fun h => (nomatch h), rfl⟩
  split at h
  · cases h
  next comparison r hc =>
    split at h
    · cases h
    next hv =>
      obtain ⟨⟨value, r'⟩, hvalue, h⟩ := bind_eq_ok_iff.mp h
      dsimp only at h
      split at h
      next hblank =>
        cases h
        have hw := of_scanValue hvalue
        rw [weight_trimStart, weight_of_isAllBlank hblank] at hw
        refine ⟨fun _ => by simpa using hv, ?_⟩
        rw [comparison?_eq_some.mp hc]
        simp [writtenTest, hw]
      · cases h

/-- Reads what follows the sign of the term `text`. -/
def Term.scanUnsigned (text : Text) (negated : Bool) (s : Text) : Except Condition.Error Term := do
  let (identifier, rest) ← Identifier.scan text s
  let test ← scanTest text identifier (trimStart rest)
  .ok ⟨identifier, negated, test⟩

theorem Term.parse_eq (s : Text) : parse s = match trim s with
    | [] => .error ⟨.emptyTerm, String.ofList s, none⟩
    | '!' :: r =>
      if (trimStart r).isEmpty then .error (faultAt .missingIdentifier (trim s) (trimStart r))
      else scanUnsigned (trim s) true (trimStart r)
    | r => scanUnsigned (trim s) false r := rfl

theorem Term.of_scanUnsigned {negated : Bool} {t : Term} (h : scanUnsigned text negated s = .ok t) :
    t.Readable ∧ t.negated = negated ∧
      weight s = weight t.identifier.text.toList + weight (writtenTest t.test) := by
  obtain ⟨⟨i, r⟩, hscan, h⟩ := bind_eq_ok_iff.mp h
  obtain ⟨test, htest, h⟩ := bind_eq_ok_iff.mp h
  cases h
  obtain ⟨hi, hw⟩ := Identifier.of_scan hscan
  obtain ⟨hv, hw'⟩ := of_scanTest htest
  rw [weight_trimStart] at hw'
  exact ⟨⟨hi, hv⟩, rfl, by rw [hw, hw']⟩

theorem Term.of_parse {t : Term} (h : parse s = .ok t) :
    t.Readable ∧ weight s = weight t.text.toList := by
  have hbang : isSolid '!' = true := by decide
  rw [parse_eq] at h
  rw [← weight_trim, toList_text, writtenSign, weight_append, weight_append]
  split at h
  · cases h
  next r hr =>
    split at h
    · cases h
    obtain ⟨ht, hn, hw⟩ := of_scanUnsigned h
    rw [weight_trimStart] at hw
    refine ⟨ht, ?_⟩
    rw [hr, hn, weight_cons_of_solid hbang, hw, if_pos rfl, weight_cons_of_solid hbang, weight_nil]
    omega
  · obtain ⟨ht, hn, hw⟩ := of_scanUnsigned h
    refine ⟨ht, ?_⟩
    rw [hn, hw]
    simp

end Read

end Rulebook
