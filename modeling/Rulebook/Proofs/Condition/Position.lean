import Rulebook.Proofs.Condition.Segments
import Rulebook.Proofs.Condition.Spelled

/-!
# Positions of faults

A fault in a condition is reported with a fragment and an offset. Every reader gets the part of the
text that is left and reports the text it was cut from, so what it has read is a start of that text
and its length an offset in it (`FailsIn`). There is one exception: a word that names no namespace
is reported as the fragment, but with its offset in the whole term. Only a sign with blanks after it
can stand before such a word, so the offset is beyond the fragment just if the word is no longer
than these blanks (`Term.Overshoots`, `Condition.Error.pointsInside_iff_not_overshoots`).
-/

namespace Rulebook

open Blank (isBlank isAllBlank trim trimStart firstWord)

/-! ## Offsets in a text -/

namespace Condition.Error

/-- The position of the error, where it has one, is an offset in the fragment that it reports. -/
def PointsInside (e : Condition.Error) : Prop := ∀ p ∈ e.position, p ≤ e.expression.length

instance (e : Condition.Error) : Decidable e.PointsInside :=
  inferInstanceAs (Decidable (∀ p ∈ e.position, p ≤ e.expression.length))

/-- The error reports `text`, at the end of what has been read of it. -/
def LiesIn (text : Text) (e : Condition.Error) : Prop :=
  ∃ cause read rest, text = read ++ rest ∧ e = ⟨cause, String.ofList text, some read.length⟩

end Condition.Error

/-- Whatever error comes out lies in `text`. -/
def FailsIn {α : Type} (text : Text) (x : Except Condition.Error α) : Prop :=
  ∀ e, x = .error e → e.LiesIn text

section Offsets

variable {α β : Type} {text s rest : Text} {e : Condition.Error}
  {x : Except Condition.Error α} {k : α → Except Condition.Error β}

theorem Condition.Error.LiesIn.pointsInside (h : e.LiesIn text) : e.PointsInside := by
  obtain ⟨cause, read, rest, rfl, rfl⟩ := h
  intro p hp
  obtain rfl : read.length = p := Option.some.inj hp
  simp

theorem length_sub_of_append {read : Text} (h : text = read ++ rest) :
    text.length - rest.length = read.length := by
  rw [h, List.length_append, Nat.add_sub_cancel]

theorem liesIn_faultAt (cause : Condition.Cause) (h : rest <:+ text) :
    (faultAt cause text rest).LiesIn text := by
  obtain ⟨read, hread⟩ := h
  refine ⟨cause, read, rest, hread.symm, ?_⟩
  rw [faultAt, length_sub_of_append hread.symm]

theorem failsIn_ok (a : α) : FailsIn text (.ok a) := fun _ h => nomatch h

theorem failsIn_faultAt (cause : Condition.Cause) (h : rest <:+ text) :
    FailsIn (α := α) text (.error (faultAt cause text rest)) :=
  fun _ he => Except.error.inj he ▸ liesIn_faultAt cause h

theorem FailsIn.bind (hx : FailsIn text x) (hk : ∀ a, x = .ok a → FailsIn text (k a)) :
    FailsIn text (x >>= k) := by
  intro e he
  rcases bind_eq_error_iff.mp he with herror | ⟨a, ha, herror⟩
  · exact hx e herror
  · exact hk a ha e herror

end Offsets

/-! ## What the readers leave -/

section Left

variable {text s body name value rest inner : Text} {q : Char} {i : Identifier} {k : Comparison}
  {space : Namespace} {test : Option (Comparison × String)}

theorem quotedRest?_suffix (h : quotedRest? q s = some (inner, rest)) : rest <:+ s := by
  obtain ⟨rfl, -⟩ := quotedRest?_eq_some h
  exact (List.suffix_cons q rest).trans (List.suffix_append inner _)

theorem SpellsName.suffix (h : SpellsName body name rest) : rest <:+ body := by
  obtain ⟨front, rfl, -⟩ := h.exists_alone
  exact List.suffix_append front rest

theorem Identifier.suffix_of_scan (h : scan text s = .ok (i, rest)) : rest <:+ s := by
  obtain ⟨word, body, name, rfl, -, -, -, hname, -⟩ := scan_ok_iff.mp h
  exact hname.suffix.trans ((List.suffix_cons ':' body).trans (List.suffix_append word _))

theorem Identifier.failsIn_scanName (hs : s <:+ text) : FailsIn text (scanName space text s) := by
  unfold scanName
  dsimp only
  split
  next r =>
    split
    next found hfound =>
      have hrest : found.2 <:+ text :=
        (quotedRest?_suffix hfound).trans ((List.suffix_cons '"' r).trans hs)
      split
      · exact failsIn_faultAt _ hrest
      · exact failsIn_ok _
    · exact failsIn_faultAt _ hs
  next =>
    split
    · have hrest : (bareName s).2 <:+ s := ⟨(bareName s).1, (bareName_eq rfl).1.symm⟩
      exact failsIn_faultAt _ (hrest.trans hs)
    · exact failsIn_ok _

theorem Term.failsIn_scanValue (hs : s <:+ text) : FailsIn text (scanValue text s) := by
  unfold scanValue
  split
  · exact failsIn_faultAt _ hs
  · split
    · split
      · exact failsIn_ok _
      · exact failsIn_faultAt _ hs
    · exact failsIn_ok _

theorem Term.failsIn_scanTest (hs : s <:+ text) : FailsIn text (scanTest text i s) := by
  unfold scanTest
  split
  · exact failsIn_ok _
  split
  · exact failsIn_faultAt _ hs
  next k r hk =>
    split
    · exact failsIn_faultAt _ hs
    have hr : r <:+ s := by
      rw [comparison?_eq_some.mp hk]
      exact List.suffix_append _ r
    have hvalue : trimStart r <:+ text := (Blank.trimStart_suffix r).trans (hr.trans hs)
    refine (failsIn_scanValue hvalue).bind fun ⟨value, rest⟩ hread => ?_
    dsimp only
    split
    · exact failsIn_ok _
    · obtain ⟨v, hv, -⟩ := spellsValue_of_scanValue hread
      exact failsIn_faultAt _ (.trans ⟨v, hv.symm⟩ hvalue)

end Left

/-! ## Words that name no namespace -/

/-- A known namespace in letters of either case, and a colon, stand at the start of `s`. -/
def BeginsWithNamespace (s : Text) : Prop :=
  ∃ word body, ∃ space ∈ Namespace.known, s = word ++ ':' :: body ∧
    word.all Word.isLetter = true ∧ word.map LowerCase.asciiChar = space.name.toList

/-- `word` is the start of `s` up to its first blank, or all of `s`, and is not empty. -/
structure IsFirstWord (s word : Text) : Prop where
  begins : ∃ rest, s = word ++ rest ∧ ∀ c, rest.head? = some c → isBlank c = true
  nonempty : word ≠ []
  solid : ∀ c ∈ word, isBlank c = false

section Words

variable {text s word : Text} {e : Condition.Error} {c : Char}

theorem IsFirstWord.head (h : IsFirstWord s word) : ∃ c r, s = c :: r ∧ isBlank c = false := by
  obtain ⟨⟨rest, rfl, -⟩, hne, hsolid⟩ := h
  obtain ⟨c, r, rfl⟩ := List.exists_cons_of_ne_nil hne
  exact ⟨c, r ++ rest, rfl, hsolid c List.mem_cons_self⟩

theorem firstWord_cons (hc : isBlank c = false) (r : Text) :
    firstWord (c :: r) = (c :: r).takeWhile (!isBlank ·) := by
  have hblank : isAllBlank (c :: r) = false := by simp [isAllBlank, hc]
  rw [firstWord, if_neg (by simp [hblank]), trimStart_cons hc]

theorem IsFirstWord.firstWord_eq (h : IsFirstWord s word) : firstWord s = word := by
  obtain ⟨c, r, hs, hc⟩ := h.head
  rw [hs, firstWord_cons hc, ← hs]
  obtain ⟨⟨rest, rfl, hrest⟩, -, hsolid⟩ := h
  rw [List.takeWhile_append_of_pos fun d hd => by simp [hsolid d hd]]
  cases rest with
  | nil => simp
  | cons d rest => simp [hrest d rfl]

theorem isFirstWord_firstWord (hc : isBlank c = false) (r : Text) :
    IsFirstWord (c :: r) (firstWord (c :: r)) := by
  rw [firstWord_cons hc]
  refine ⟨⟨_, List.takeWhile_append_dropWhile.symm, fun d hd => ?_⟩, ?_, fun d hd => ?_⟩
  · have hhead := List.head?_dropWhile_not (!isBlank ·) (c :: r)
    rw [hd] at hhead
    simpa using hhead
  · simp [hc]
  · simpa using List.mem_takeWhile_imp hd

theorem beginsWithNamespace_of_known? {letters body : Text} {space : Namespace}
    (hword : namespaceWord? s = some (letters, body))
    (hknown : Namespace.known? (String.ofList (letters.map LowerCase.asciiChar)) = some space) :
    BeginsWithNamespace s := by
  obtain ⟨hs, hall, -⟩ := namespaceWord?_eq_some_iff.mp hword
  obtain ⟨hmem, hname⟩ := Namespace.known?_eq_some_iff.mp hknown
  exact ⟨letters, body, space, hmem, hs, hall, by rw [hname, String.toList_ofList]⟩

theorem BeginsWithNamespace.exists_known? (h : BeginsWithNamespace s) :
    ∃ letters body space, namespaceWord? s = some (letters, body) ∧
      Namespace.known? (String.ofList (letters.map LowerCase.asciiChar)) = some space := by
  obtain ⟨word, body, space, hmem, hs, hall, hlower⟩ := h
  have hne : word.isEmpty = false := by
    obtain ⟨c, r, rfl, -⟩ := Term.exists_letter hall hmem hlower
    rfl
  refine ⟨word, body, space, namespaceWord?_eq_some_iff.mpr ⟨hs, hall, hne⟩, ?_⟩
  exact Namespace.known?_eq_some_iff.mpr ⟨hmem, by rw [hlower, String.ofList_toList]⟩

/-- After a namespace the text is reported, and before one the word that should have been one. -/
theorem Identifier.error_of_scan (hs : s <:+ text) (h : scan text s = .error e) :
    BeginsWithNamespace s ∧ e.LiesIn text ∨ ¬BeginsWithNamespace s ∧ ∃ cause,
      e = ⟨cause, String.ofList (firstWord s), some (text.length - s.length)⟩ := by
  unfold scan at h
  dsimp only at h
  split at h
  next hword =>
    refine .inr ⟨fun hbegins => ?_, _, (Except.error.inj h).symm⟩
    obtain ⟨letters, body, space, hfound, -⟩ := hbegins.exists_known?
    exact nomatch hword.symm.trans hfound
  next letters body hword =>
    split at h
    next hknown =>
      refine .inr ⟨fun hbegins => ?_, _, (Except.error.inj h).symm⟩
      obtain ⟨letters', body', space, hfound, hspace⟩ := hbegins.exists_known?
      cases hword.symm.trans hfound
      exact nomatch hknown.symm.trans hspace
    next space hknown =>
      refine .inl ⟨beginsWithNamespace_of_known? hword hknown, ?_⟩
      refine failsIn_scanName (.trans ?_ hs) e h
      rw [(namespaceWord?_eq_some_iff.mp hword).1]
      exact (List.suffix_cons ':' body).trans (List.suffix_append letters _)

end Words

/-! ## Terms and expressions -/

/-- Blanks after the sign of `w` are followed by a word that names no namespace and is no longer
than they are. -/
def Term.Overshoots (w : Text) : Prop :=
  ∃ gap s word, trim w = '!' :: (gap ++ s) ∧ isAllBlank gap = true ∧ IsFirstWord s word ∧
    ¬BeginsWithNamespace s ∧ word.length ≤ gap.length

section Terms

variable {text read s w gap : Text} {e : Condition.Error} {negated : Bool} {c : Char} {r : Text}

theorem Term.not_overshoots_of_isAllBlank (h : isAllBlank w = true) : ¬Overshoots w := by
  rintro ⟨gap, s, word, htrim, -⟩
  rw [Blank.trim_of_isAllBlank h] at htrim
  cases htrim

/-- There is one way to tell the blanks after a sign from the word that follows them. -/
theorem Term.overshoots_iff (hw : trim w = '!' :: (gap ++ c :: r)) (hgap : isAllBlank gap = true)
    (hc : isBlank c = false) : Overshoots w ↔
      ¬BeginsWithNamespace (c :: r) ∧ (firstWord (c :: r)).length ≤ gap.length := by
  constructor
  · rintro ⟨gap', s, word, htrim, hgap', hword, hbegins, hle⟩
    obtain ⟨d, r', rfl, hd⟩ := hword.head
    have heq : gap' ++ d :: r' = gap ++ c :: r := List.tail_eq_of_cons_eq (htrim.symm.trans hw)
    have htrimmed := congrArg trimStart heq
    rw [trimStart_append hgap', trimStart_append hgap, trimStart_cons hd, trimStart_cons hc]
      at htrimmed
    rw [htrimmed] at heq hword hbegins
    rw [hword.firstWord_eq, ← List.append_cancel_right heq]
    exact ⟨hbegins, hle⟩
  · rintro ⟨hbegins, hle⟩
    exact ⟨gap, c :: r, _, hw, hgap, isFirstWord_firstWord hc r, hbegins, hle⟩

/-- Reading an identifier with its test fails as reading the identifier does. -/
theorem Term.error_of_scanUnsigned (hs : s <:+ text) (h : scanUnsigned text negated s = .error e) :
    BeginsWithNamespace s ∧ e.LiesIn text ∨ ¬BeginsWithNamespace s ∧ ∃ cause,
      e = ⟨cause, String.ofList (firstWord s), some (text.length - s.length)⟩ := by
  rcases bind_eq_error_iff.mp h with herror | ⟨⟨i, rest⟩, hscan, htest⟩
  · exact Identifier.error_of_scan hs herror
  · obtain ⟨word, body, name, hword, hall, hmem, hlower, -⟩ := Identifier.scan_ok_iff.mp hscan
    refine .inl ⟨⟨word, body, i.space, hmem, hword, hall, hlower⟩, ?_⟩
    have hrest : trimStart rest <:+ text :=
      (Blank.trimStart_suffix rest).trans ((Identifier.suffix_of_scan hscan).trans hs)
    exact (failsIn_scanTest hrest).bind (fun _ _ => failsIn_ok _) e htest

theorem Term.pointsInside_of_scanUnsigned (htext : text = read ++ s)
    (h : scanUnsigned text negated s = .error e) : e.PointsInside ↔
      ¬(¬BeginsWithNamespace s ∧ (firstWord s).length < read.length) := by
  rcases error_of_scanUnsigned ⟨read, htext.symm⟩ h with ⟨hbegins, he⟩ | ⟨hbegins, cause, rfl⟩
  · exact iff_of_true he.pointsInside fun hnot => hnot.1 hbegins
  · simp [Condition.Error.PointsInside, hbegins, length_sub_of_append htext]

/-- Only the word after a sign and blanks is reported with an offset beyond its end. -/
theorem Term.pointsInside_iff (h : parse w = .error e) : e.PointsInside ↔ ¬Overshoots w := by
  rw [parse_eq] at h
  split at h
  next hw =>
    obtain rfl := Except.error.inj h
    refine iff_of_true (fun p hp => nomatch hp) ?_
    rintro ⟨gap, s, word, htrim, -⟩
    exact nomatch hw.symm.trans htrim
  next r hw =>
    obtain ⟨gap, hgap, hr⟩ := Blank.exists_gap r
    split at h
    next hempty =>
      have hnil : trimStart r = [] := List.isEmpty_iff.mp hempty
      obtain rfl := Except.error.inj h
      refine iff_of_true (liesIn_faultAt _ (hnil ▸ List.nil_suffix)).pointsInside ?_
      rintro ⟨gap', s, word, htrim, hgap', hword, -⟩
      obtain ⟨d, r', rfl, hd⟩ := hword.head
      obtain rfl : gap' ++ d :: r' = r := List.tail_eq_of_cons_eq (htrim.symm.trans hw)
      rw [trimStart_append hgap', trimStart_cons hd] at hnil
      cases hnil
    next hne =>
      obtain ⟨c, rest, hs⟩ := List.exists_cons_of_ne_nil (mt List.isEmpty_iff.mpr hne)
      rw [hs] at h hr
      have hread : trim w = ('!' :: gap) ++ c :: rest := by rw [hw, hr, List.cons_append]
      rw [pointsInside_of_scanUnsigned hread h, List.length_cons, Nat.lt_succ_iff,
        overshoots_iff hread hgap (not_isBlank_of_trimStart hs)]
  next hsign =>
    rw [pointsInside_of_scanUnsigned (List.nil_append _).symm h]
    refine iff_of_true (fun hlt => absurd hlt.2 (Nat.not_lt_zero _)) ?_
    rintro ⟨gap, s, word, htrim, -⟩
    exact hsign _ htrim

theorem Identifier.pointsInside_of_parse (h : parse w = .error e) : e.PointsInside := by
  rcases bind_eq_error_iff.mp h with hscan | ⟨⟨i, rest⟩, hscan, hrest⟩
  · rcases error_of_scan (List.suffix_refl _) hscan with ⟨-, he⟩ | ⟨-, cause, rfl⟩
    · exact he.pointsInside
    · simp [Condition.Error.PointsInside]
  · refine (?_ : e.LiesIn (trim w)).pointsInside
    dsimp only at hrest
    split at hrest
    · cases hrest
    · exact failsIn_faultAt _ (suffix_of_scan hscan) e hrest

open Expression in
theorem Expression.pointsInside_report_iff {i : Nat} {segment : Text}
    (h : IsFirstRefused (split s) i segment e) :
    (report s (split s) i segment e).PointsInside ↔ ¬Term.Overshoots segment := by
  rw [report]
  split
  next hblank =>
    refine iff_of_true ?_ (Term.not_overshoots_of_isAllBlank hblank)
    obtain ⟨rest, hwhole, -⟩ := Pieces.joined_eq_front h.stands
    rw [split, joined_splitFrom] at hwhole
    exact Condition.Error.LiesIn.pointsInside ⟨_, _, _, hwhole, rfl⟩
  next => exact Term.pointsInside_iff h.refused

open Expression in
/-- The first segment that is no term decides. -/
theorem Expression.pointsInside_iff (h : parse s = .error e) : e.PointsInside ↔
    ¬∃ i segment e', IsFirstRefused (split s) i segment e' ∧ Term.Overshoots segment := by
  cases hs : isAllBlank s with
  | true =>
    obtain rfl := Except.error.inj ((if_pos hs).symm.trans h)
    refine iff_of_true (fun p hp => nomatch hp) ?_
    rintro ⟨i, segment, e', hrefused, hover⟩
    refine Term.not_overshoots_of_isAllBlank ?_ hover
    obtain ⟨rest, hwhole, -⟩ := Pieces.joined_eq_front hrefused.stands
    rw [split, joined_splitFrom] at hwhole
    rw [hwhole, isAllBlank, List.all_append, List.all_append] at hs
    simp only [Bool.and_eq_true] at hs
    exact hs.2.1
  | false =>
    have hpoints {i segment e'} (hrefused : IsFirstRefused (split s) i segment e') :
        e.PointsInside ↔ ¬Term.Overshoots segment := by
      rw [parse_of_isFirstRefused hs hrefused] at h
      obtain rfl := Except.error.inj h
      exact pointsInside_report_iff hrefused
    obtain ⟨i, segment, e', hrefused, -⟩ := (parse_error_iff hs).mp h
    rw [hpoints hrefused]
    refine not_congr ⟨fun hover => ⟨i, segment, e', hrefused, hover⟩, ?_⟩
    rintro ⟨i', segment', e'', hrefused', hover⟩
    by_contra hnot
    exact (hpoints hrefused').mp ((hpoints hrefused).mpr hnot) hover

end Terms

namespace Condition.Error

open Expression

/-- Every position that reading reports is an offset in the fragment that it reports, apart from
those of words that overshoot: in a term, and in the first segment of an expression that is no
term. -/
theorem pointsInside_iff_not_overshoots (s : Text) (e : Condition.Error) :
    (Identifier.parse s = .error e → e.PointsInside) ∧
    (Term.parse s = .error e → (e.PointsInside ↔ ¬Term.Overshoots s)) ∧
    (Expression.parse s = .error e → (e.PointsInside ↔
      ¬∃ i segment e', IsFirstRefused (split s) i segment e' ∧ Term.Overshoots segment)) :=
  ⟨Identifier.pointsInside_of_parse, Term.pointsInside_iff, Expression.pointsInside_iff⟩

theorem pointsInside_iff_not_overshoots_sign :
    (⟨.malformedIdentifier, "x", some 0⟩ : Condition.Error).PointsInside ∧
    Term.Overshoots "! x".toList ∧ ¬Term.Overshoots "! npm".toList ∧
    ∃ i segment e, IsFirstRefused (split "npm:a && !  ab || !".toList) i segment e ∧
      Term.Overshoots segment := by
  have hx : Term.parse "! x".toList = .error ⟨.malformedIdentifier, "x", some 2⟩ := by decide
  have hnpm : Term.parse "! npm".toList = .error ⟨.malformedIdentifier, "npm", some 2⟩ := by decide
  have hab : Expression.parse "npm:a && !  ab || !".toList =
      .error ⟨.malformedIdentifier, "ab", some 3⟩ := by decide
  refine ⟨(pointsInside_iff_not_overshoots "x".toList _).1 (by decide), ?_, ?_, ?_⟩
  · exact not_not.mp (mt ((pointsInside_iff_not_overshoots _ _).2.1 hx).mpr (by decide))
  · exact ((pointsInside_iff_not_overshoots _ _).2.1 hnpm).mp (by decide)
  · exact not_not.mp (mt ((pointsInside_iff_not_overshoots _ _).2.2 hab).mpr (by decide))

/-- After a sign and a blank, the position of the missing namespace is beyond the word to blame. -/
theorem not_forall_pointsInside :
    ¬∀ s e, (Identifier.parse s = .error e ∨ Term.parse s = .error e ∨
      Expression.parse s = .error e) → e.PointsInside := by
  intro h
  have hread : Term.parse "! x".toList = .error ⟨.malformedIdentifier, "x", some 2⟩ := by decide
  exact absurd (h _ _ (.inr (.inl hread))) (by decide)

end Condition.Error

end Rulebook
