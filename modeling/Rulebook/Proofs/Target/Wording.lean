import Mathlib.Data.Set.Insert
import Mathlib.Logic.Relation
import Rulebook.Target.Basic
import Rulebook.Proofs.Text.Pieces
import Rulebook.Proofs.Text.Trim

/-!
# Wordings of a condition

A condition is written as pieces with separators between them. What it decides is a matter of two
sets, the targets that its pieces name and those that they bar, and of the kinds of separators in
it (`Audience.admits_wording`). Which piece comes first, how often it comes, what blanks are around
it and what unknown names stand beside it makes no difference.
-/

namespace Rulebook

namespace Audience

open Blank (isAllBlank trim splitWhere)

variable {t : Target} {p a b : Text} {ps qs : List Text}

/-! ## What a piece says -/

/-- The piece is the name of the target, with blanks around it. -/
def Names (t : Target) (p : Text) : Prop :=
  ∃ a b, isAllBlank a = true ∧ isAllBlank b = true ∧ p = a ++ t.name.toList ++ b

/-- The piece is an exclamation mark and the name of the target, with blanks around both. -/
def Bars (t : Target) (p : Text) : Prop :=
  ∃ a q, isAllBlank a = true ∧ p = a ++ '!' :: q ∧ Names t q

theorem trim_name (t : Target) : trim t.name.toList = t.name.toList := by
  cases t <;> decide

theorem names_iff : Names t p ↔ trim p = t.name.toList := by
  constructor
  · rintro ⟨a, b, ha, hb, rfl⟩
    rw [Blank.trim_append ha hb, trim_name]
  · intro h
    obtain ⟨lead, trail, hp, hlead, htrail⟩ := Blank.exists_trim p
    exact ⟨lead, trail, hlead, htrail, h ▸ hp⟩

theorem bars_iff : Bars t p ↔ ∃ q, trim p = '!' :: q ∧ Names t q := by
  constructor
  · rintro ⟨a, q, ha, rfl, hq⟩
    refine ⟨Blank.trimEnd q, ?_, names_iff.mpr (by rw [Blank.trim_trimEnd, names_iff.mp hq])⟩
    have htrim : trim (a ++ '!' :: q ++ []) = trim ('!' :: q) := Blank.trim_append ha rfl
    rw [List.append_nil] at htrim
    rw [htrim, Blank.trim_cons (by decide)]
  · rintro ⟨q, hp, lead, trail, hlead, htrail, rfl⟩
    obtain ⟨before, after, hform, hbefore, hafter⟩ := Blank.exists_trim p
    refine ⟨before, lead ++ t.name.toList ++ trail ++ after, hbefore, by rw [hform, hp]; simp,
      lead, trail ++ after, hlead, ?_, by simp⟩
    rw [isAllBlank, List.all_append, Bool.and_eq_true]
    exact ⟨htrail, hafter⟩

theorem names_padded (ha : isAllBlank a = true) (hb : isAllBlank b = true) :
    Names t (a ++ p ++ b) ↔ Names t p := by
  rw [names_iff, names_iff, Blank.trim_append ha hb]

theorem bars_padded (ha : isAllBlank a = true) (hb : isAllBlank b = true) :
    Bars t (a ++ p ++ b) ↔ Bars t p := by
  rw [bars_iff, bars_iff, Blank.trim_append ha hb]

/-! ## How a piece is read -/

theorem ofName?_eq_some_iff {w : Text} :
    Target.ofName? (String.ofList w) = some t ↔ w = t.name.toList := by
  constructor
  · intro h
    rw [Target.name_of_ofName? h, String.toList_ofList]
  · rintro rfl
    rw [String.ofList_toList, Target.ofName?_name]

theorem named?_trim_iff : named? (trim p) = some t ↔ Names t p := by
  have hname : '!' ∉ t.name.toList := by cases t <;> decide
  rw [names_iff]
  unfold named?
  split
  next q heq =>
    rw [heq]
    exact iff_of_false (fun h => nomatch h) fun h => hname (h ▸ List.mem_cons_self)
  next => exact ofName?_eq_some_iff

theorem barred?_trim_iff : barred? (trim p) = some t ↔ Bars t p := by
  rw [bars_iff]
  unfold barred?
  split
  next q heq =>
    rw [heq, ofName?_eq_some_iff, ← names_iff]
    exact ⟨fun h => ⟨q, rfl, h⟩, fun ⟨_, heq, h⟩ => (List.cons.inj heq).2 ▸ h⟩
  next hne => exact iff_of_false (fun h => nomatch h) fun ⟨q, heq, _⟩ => hne q heq

/-- The pieces that are left out as empty say nothing. -/
theorem mem_filterMap_tokens {s : Text} {read? : Text → Option Target} (hnil : read? [] = none) :
    t ∈ (tokens s).filterMap read? ↔ ∃ p ∈ splitWhere isSeparator s, read? (trim p) = some t := by
  simp only [tokens, List.mem_filterMap, List.mem_filter, List.mem_map]
  constructor
  · rintro ⟨_, ⟨⟨p, hp, rfl⟩, -⟩, h⟩
    exact ⟨p, hp, h⟩
  · rintro ⟨p, hp, h⟩
    refine ⟨trim p, ⟨⟨p, hp, rfl⟩, ?_⟩, h⟩
    cases htrim : trim p with
    | nil =>
      rw [htrim, hnil] at h
      cases h
    | cons c w => rfl

/-! ## Wordings -/

/-- Pieces, with a separator in front of each but the first. -/
structure Wording where
  first : Text
  more : List (Char × Text)

namespace Wording

variable {w v : Wording}

def text (w : Wording) : Text := w.first ++ w.more.flatMap fun x => x.1 :: x.2

def pieces (w : Wording) : List Text := w.first :: w.more.map (·.2)

structure IsSeparated (w : Wording) : Prop where
  pieces : ∀ p ∈ w.pieces, ∀ c ∈ p, isSeparator c = false
  separators : ∀ x ∈ w.more, isSeparator x.1 = true

instance (w : Wording) : Decidable w.IsSeparated :=
  decidable_of_iff ((w.pieces.all fun p => p.all fun c => !isSeparator c) = true ∧
      (w.more.all fun x => isSeparator x.1) = true)
    ⟨fun ⟨hpieces, hmore⟩ => ⟨by simpa using hpieces, by simpa using hmore⟩,
      fun ⟨hpieces, hmore⟩ => ⟨by simpa using hpieces, by simpa using hmore⟩⟩

/-- The targets that the pieces name. -/
def named (w : Wording) : Set Target := {t | ∃ p ∈ w.pieces, Names t p}

/-- The targets that the pieces bar. -/
def barred (w : Wording) : Set Target := {t | ∃ p ∈ w.pieces, Bars t p}

theorem exists_text_eq (s : Text) : ∃ w : Wording, w.IsSeparated ∧ w.text = s := by
  induction s with
  | nil => exact ⟨⟨[], []⟩, ⟨by simp [Wording.pieces], by simp⟩, rfl⟩
  | cons c s ih =>
    obtain ⟨⟨first, more⟩, ⟨hpieces, hmore⟩, rfl⟩ := ih
    obtain ⟨hfirst, hrest⟩ := List.forall_mem_cons.mp hpieces
    cases hc : isSeparator c with
    | true =>
      exact ⟨⟨[], (c, first) :: more⟩, ⟨List.forall_mem_cons.mpr ⟨by simp, hpieces⟩,
        List.forall_mem_cons.mpr ⟨hc, hmore⟩⟩, rfl⟩
    | false =>
      exact ⟨⟨c :: first, more⟩, ⟨List.forall_mem_cons.mpr
        ⟨List.forall_mem_cons.mpr ⟨hc, hfirst⟩, hrest⟩, hmore⟩, rfl⟩

theorem IsSeparated.splitWhere_text (h : w.IsSeparated) :
    splitWhere isSeparator w.text = w.pieces := by
  obtain ⟨first, more⟩ := w
  induction more generalizing first with
  | nil =>
    show splitWhere isSeparator (first ++ []) = [first]
    rw [List.append_nil]
    exact Blank.splitWhere_of_not (h.pieces first List.mem_cons_self)
  | cons x more ih =>
    obtain ⟨hfirst, hrest⟩ := List.forall_mem_cons.mp h.pieces
    obtain ⟨hx, hmore⟩ := List.forall_mem_cons.mp h.separators
    have htail := ih x.2 ⟨hrest, hmore⟩
    show splitWhere isSeparator (first ++ x.1 :: text ⟨x.2, more⟩) =
      first :: Wording.pieces ⟨x.2, more⟩
    rw [Blank.splitWhere_append hx, Blank.splitWhere_of_not hfirst, htail]
    rfl

theorem IsSeparated.mem_named_parse (h : w.IsSeparated) :
    t ∈ (parse w.text).named ↔ t ∈ w.named := by
  rw [parse, mem_filterMap_tokens rfl, h.splitWhere_text]
  simp only [named?_trim_iff]
  rfl

theorem IsSeparated.mem_barred_parse (h : w.IsSeparated) :
    t ∈ (parse w.text).barred ↔ t ∈ w.barred := by
  rw [parse, mem_filterMap_tokens rfl, h.splitWhere_text]
  simp only [barred?_trim_iff]
  rfl

theorem IsSeparated.named_parse_eq_nil_iff (h : w.IsSeparated) :
    (parse w.text).named = [] ↔ w.named = ∅ := by
  rw [List.eq_nil_iff_forall_not_mem, Set.eq_empty_iff_forall_notMem]
  simp only [h.mem_named_parse]

theorem IsSeparated.barred_parse_eq_nil_iff (h : w.IsSeparated) :
    (parse w.text).barred = [] ↔ w.barred = ∅ := by
  rw [List.eq_nil_iff_forall_not_mem, Set.eq_empty_iff_forall_notMem]
  simp only [h.mem_barred_parse]

end Wording

/-! ## The decision -/

theorem alternatives_parse_iff {s : Text} : (parse s).alternatives = true ↔ '|' ∈ s ∧ '&' ∉ s := by
  simp [parse]

theorem admits_iff (x : Audience) : x.admits t = true ↔
    (x.named ≠ [] ∨ x.barred ≠ []) ∧ t ∉ x.barred ∧
      (x.named = [] ∨ (x.alternatives = true ∧ t ∈ x.named) ∨
        (¬x.alternatives = true ∧ ∀ u ∈ x.named, u = t)) := by
  unfold admits isEmpty
  by_cases hn : x.named = []
  · by_cases hb : x.barred = [] <;> by_cases ht : t ∈ x.barred <;> simp_all
  · by_cases ht : t ∈ x.barred <;> by_cases ha : x.alternatives = true <;> simp [hn, ht, ha]

/-- A condition decides by the sets of targets that it names and bars. -/
theorem Wording.IsSeparated.admits_iff {w : Wording} (h : w.IsSeparated) (t : Target) :
    (parse w.text).admits t = true ↔ (w.named.Nonempty ∨ w.barred.Nonempty) ∧ t ∉ w.barred ∧
      (w.named = ∅ ∨ (('|' ∈ w.text ∧ '&' ∉ w.text) ∧ t ∈ w.named) ∨
        (¬('|' ∈ w.text ∧ '&' ∉ w.text) ∧ w.named = {t})) := by
  have hall : (∀ u ∈ (parse w.text).named, u = t) ↔ w.named ⊆ {t} := by
    simp only [h.mem_named_parse]
    rfl
  rw [Audience.admits_iff, Ne, Ne, h.named_parse_eq_nil_iff, h.barred_parse_eq_nil_iff,
    h.mem_barred_parse, h.mem_named_parse, hall, alternatives_parse_iff,
    Set.nonempty_iff_ne_empty, Set.nonempty_iff_ne_empty, Set.subset_singleton_iff_eq]
  tauto

/-! ## Other words for the same -/

/-- One change to the pieces of a condition that leaves open where its separators are. -/
inductive Reworded : List Text → List Text → Prop
  | reordered {ps qs : List Text} (perm : ps.Perm qs) : Reworded ps qs
  | repeated {p : Text} {ps : List Text} (mem : p ∈ ps) : Reworded ps (p :: ps)
  | padded {a b p : Text} {ps : List Text} (before : isAllBlank a = true)
    (after : isAllBlank b = true) : Reworded (p :: ps) ((a ++ p ++ b) :: ps)
  | unknown {p : Text} {ps : List Text} (none : ∀ t, ¬Names t p ∧ ¬Bars t p) : Reworded ps (p :: ps)

theorem Reworded.names_iff (h : Reworded ps qs) (t : Target) :
    (∃ p ∈ ps, Names t p) ↔ ∃ p ∈ qs, Names t p := by
  cases h with
  | reordered perm => simp only [perm.mem_iff]
  | repeated mem => grind
  | padded before after => simp only [List.exists_mem_cons_iff, names_padded before after]
  | unknown none => simp only [List.exists_mem_cons_iff, (none t).1, false_or]

theorem Reworded.bars_iff (h : Reworded ps qs) (t : Target) :
    (∃ p ∈ ps, Bars t p) ↔ ∃ p ∈ qs, Bars t p := by
  cases h with
  | reordered perm => simp only [perm.mem_iff]
  | repeated mem => grind
  | padded before after => simp only [List.exists_mem_cons_iff, bars_padded before after]
  | unknown none => simp only [List.exists_mem_cons_iff, (none t).2, false_or]

/-- After any number of changes, made or taken back, the pieces speak of the same targets. -/
theorem speak_iff_of_eqvGen (h : Relation.EqvGen Reworded ps qs) (t : Target) :
    ((∃ p ∈ ps, Names t p) ↔ ∃ p ∈ qs, Names t p) ∧
      ((∃ p ∈ ps, Bars t p) ↔ ∃ p ∈ qs, Bars t p) := by
  induction h with
  | rel ps qs hstep => exact ⟨hstep.names_iff t, hstep.bars_iff t⟩
  | refl ps => exact ⟨.rfl, .rfl⟩
  | symm ps qs _ ih => exact ⟨ih.1.symm, ih.2.symm⟩
  | trans ps qs rs _ _ ih ih' => exact ⟨ih.1.trans ih'.1, ih.2.trans ih'.2⟩

/-- Every condition is a wording, and it admits a target just if it says something at all, does not
bar the target, and names no target, or has alternatives and the target is one of them, or names
this target alone. So a rewording with separators of the same kinds decides the same, and two
targets named without alternatives admit none. -/
theorem admits_wording : (∀ s, ∃ w : Wording, w.IsSeparated ∧ w.text = s) ∧
    ∀ w : Wording, w.IsSeparated →
      (∀ t, (parse w.text).admits t = true ↔
        (w.named.Nonempty ∨ w.barred.Nonempty) ∧ t ∉ w.barred ∧
          (w.named = ∅ ∨ (('|' ∈ w.text ∧ '&' ∉ w.text) ∧ t ∈ w.named) ∨
            (¬('|' ∈ w.text ∧ '&' ∉ w.text) ∧ w.named = {t}))) ∧
      (∀ v : Wording, v.IsSeparated → (∀ c, isSeparator c = true → (c ∈ w.text ↔ c ∈ v.text)) →
        Relation.EqvGen Reworded w.pieces v.pieces →
        ∀ t, (parse v.text).admits t = (parse w.text).admits t) ∧
      (¬('|' ∈ w.text ∧ '&' ∉ w.text) → ∀ t ∈ w.named, ∀ u ∈ w.named, t ≠ u →
        ∀ x, (parse w.text).admits x = false) := by
  refine ⟨Wording.exists_text_eq, fun w hw => ⟨hw.admits_iff, fun v hv hkinds hreworded t => ?_,
    fun hone t ht u hu hne x => ?_⟩⟩
  · have hnamed : w.named = v.named := Set.ext fun t => (speak_iff_of_eqvGen hreworded t).1
    have hbarred : w.barred = v.barred := Set.ext fun t => (speak_iff_of_eqvGen hreworded t).2
    rw [Bool.eq_iff_iff, hv.admits_iff, hw.admits_iff, hnamed, hbarred, hkinds '|' rfl,
      hkinds '&' rfl]
  · rw [Bool.eq_false_iff, Ne, hw.admits_iff]
    rintro ⟨-, -, hnone | ⟨hor, -⟩ | ⟨-, hall⟩⟩
    · rw [hnone] at ht
      exact ht
    · exact hone hor
    · rw [hall] at ht hu
      exact hne (ht.trans hu.symm)

/-- An unknown name in between, blanks, and the other order; and the same two targets in a condition
that has both separators. -/
theorem admits_wording_two_targets :
    let w : Wording := ⟨"claude".toList, [('|', "factory".toList)]⟩
    let v : Wording := ⟨"windsurf".toList, [('|', " factory\n".toList), ('|', "claude".toList)]⟩
    let both : Wording := ⟨"claude".toList, [('|', "factory".toList), ('&', "! cursor".toList)]⟩
    (w.IsSeparated ∧ v.IsSeparated ∧ (∀ c, isSeparator c = true → (c ∈ w.text ↔ c ∈ v.text)) ∧
      Relation.EqvGen Reworded w.pieces v.pieces ∧
      ∀ t, (parse v.text).admits t = (parse w.text).admits t) ∧
    (both.IsSeparated ∧ ¬('|' ∈ both.text ∧ '&' ∉ both.text) ∧ .claude ∈ both.named ∧
      .factory ∈ both.named ∧ ∀ x, (parse both.text).admits x = false) := by
  intro w v both
  have hw : w.IsSeparated := by decide
  have hv : v.IsSeparated := by decide
  have hboth : both.IsSeparated := by decide
  have hkinds (c : Char) (hc : isSeparator c = true) : c ∈ w.text ↔ c ∈ v.text := by
    simp only [isSeparator, Bool.or_eq_true, beq_iff_eq] at hc
    rcases hc with rfl | rfl <;> decide
  have hunknown (t : Target) : ¬Names t "windsurf".toList ∧ ¬Bars t "windsurf".toList := by
    rw [names_iff, bars_iff]
    have hhead : (trim "windsurf".toList).head? ≠ some '!' := by decide
    exact ⟨by cases t <;> decide, fun ⟨q, hq, _⟩ => hhead (congrArg List.head? hq)⟩
  have hreworded : Relation.EqvGen Reworded w.pieces v.pieces := by
    have hswapped : Reworded w.pieces ["factory".toList, "claude".toList] :=
      .reordered (.swap "factory".toList "claude".toList [])
    have hpadded : Reworded ["factory".toList, "claude".toList]
        [" factory\n".toList, "claude".toList] :=
      .padded (a := [' ']) (b := ['\n']) (by decide) (by decide)
    exact ((Relation.EqvGen.rel _ _ hswapped).trans _ _ _ (.rel _ _ hpadded)).trans _ _ _
      (.rel _ _ (.unknown hunknown))
  have hclaude : .claude ∈ both.named := ⟨"claude".toList, by decide, names_iff.mpr (by decide)⟩
  have hfactory : .factory ∈ both.named := ⟨"factory".toList, by decide, names_iff.mpr (by decide)⟩
  have hone : ¬('|' ∈ both.text ∧ '&' ∉ both.text) := by decide
  exact ⟨⟨hw, hv, hkinds, hreworded, (admits_wording.2 w hw).2.1 v hv hkinds hreworded⟩,
    hboth, hone, hclaude, hfactory,
    (admits_wording.2 both hboth).2.2 hone _ hclaude _ hfactory (by decide)⟩

end Audience

end Rulebook
