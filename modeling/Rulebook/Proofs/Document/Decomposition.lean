import Rulebook.Document.Template
import Rulebook.Proofs.Document.Tags

/-!
# Decomposition into blocks

Where blocks start and end in a text does not depend on the target. A cut of a text is a template of
it in which every block is well formed and no block starts inside a literal text, whatever follows
that text. Reading from left to right finds a cut (`Template.isCut_parse`) and there is no other
(`Template.parse_text_of_isCut`). Rendering then only chooses which bodies stay
(`Template.decomposition`).
-/

namespace Rulebook.Template

open Block

variable {p s rest : Text} {b : Block} {t : Template}

/-! ## Reading step by step -/

theorem parse_of_read? (h : read? s = some (b, rest)) :
    parse s = ⟨[], (b, (parse rest).head) :: (parse rest).blocks⟩ := by
  cases s with
  | nil => exact absurd (length_of_read? h) (Nat.not_lt_zero _)
  | cons c s =>
    rw [parse]
    split
    next hr =>
      cases h.symm.trans hr
      rfl
    next hr => cases h.symm.trans hr

theorem parse_cons_of_not (c : Char) (h : ¬StartsAt (c :: s)) :
    parse (c :: s) = ⟨c :: (parse s).head, (parse s).blocks⟩ := by
  have hn := read?_eq_none_iff.mpr h
  rw [parse]
  split
  next hr => cases hn.symm.trans hr
  next => rfl

theorem parse_block (hb : b.IsWellFormed) (rest : Text) :
    parse (b.text ++ rest) = ⟨[], (b, (parse rest).head) :: (parse rest).blocks⟩ :=
  parse_of_read? (read?_eq_some_iff.mpr ⟨rfl, hb⟩)

/-! ## Literal texts -/

/-- At no place of `p` does a complete block start when `rest` comes after it. -/
def StartsNone (p rest : Text) : Prop :=
  ∀ before after, p = before ++ after → after ≠ [] → ¬StartsAt (after ++ rest)

theorem startsNone_nil (rest : Text) : StartsNone [] rest := fun _ _ hp hne =>
  absurd (List.append_eq_nil_iff.mp hp.symm).2 hne

theorem startsNone_cons_iff {c : Char} :
    StartsNone (c :: p) rest ↔ ¬StartsAt (c :: (p ++ rest)) ∧ StartsNone p rest := by
  constructor
  · intro h
    refine ⟨h [] (c :: p) rfl (List.cons_ne_nil c p), fun before after hp => ?_⟩
    exact h (c :: before) after (congrArg (c :: ·) hp)
  · rintro ⟨hstart, h⟩ before after hp hne
    cases before with
    | nil =>
      obtain rfl : c :: p = after := hp
      exact hstart
    | cons d before => exact h before after (List.cons.inj hp).2 hne

theorem parse_append (h : StartsNone p rest) :
    parse (p ++ rest) = ⟨p ++ (parse rest).head, (parse rest).blocks⟩ := by
  induction p with
  | nil => rfl
  | cons c p ih =>
    obtain ⟨hstart, hp⟩ := startsNone_cons_iff.mp h
    rw [List.cons_append, parse_cons_of_not c hstart, ih hp]
    rfl

/-! ## Cuts -/

/-- Literal texts in which no block starts, with well-formed blocks in between. -/
inductive IsCut : Template → Prop where
  | literal {p : Text} (none : StartsNone p []) : IsCut ⟨p, []⟩
  | block {p : Text} {b : Block} {t : Template} (none : StartsNone p (b.text ++ t.text))
      (wellFormed : b.IsWellFormed) (more : IsCut t) : IsCut ⟨p, (b, t.head) :: t.blocks⟩

theorem text_cons (p : Text) (b : Block) (t : Template) :
    text ⟨p, (b, t.head) :: t.blocks⟩ = p ++ (b.text ++ t.text) := by
  simp [text]

/-- A literal text can begin one character earlier if no block starts there. -/
theorem IsCut.cons {c : Char} (h : t.IsCut) (hstart : ¬StartsAt (c :: t.text)) :
    IsCut ⟨c :: t.head, t.blocks⟩ := by
  cases h with
  | literal hnone =>
    refine .literal (startsNone_cons_iff.mpr ⟨?_, hnone⟩)
    simpa [text] using hstart
  | block hnone hb more =>
    rw [text_cons] at hstart
    exact .block (startsNone_cons_iff.mpr ⟨hstart, hnone⟩) hb more

theorem isCut_parse (s : Text) : (parse s).IsCut := by
  fun_induction parse s with
  | case1 => exact .literal (startsNone_nil [])
  | case2 c s b rest h t ih => exact .block (startsNone_nil _) (read?_eq_some_iff.mp h).2 ih
  | case3 c s h t ih =>
    refine ih.cons ?_
    rw [text_parse]
    exact read?_eq_none_iff.mp h

theorem parse_text_of_isCut (h : t.IsCut) : parse t.text = t := by
  induction h with
  | literal hnone =>
    have hparse := parse_append hnone
    simpa [text, parse] using hparse
  | block hnone hb _ ih =>
    rw [text_cons, parse_append hnone, parse_block hb, ih, List.append_nil]

theorem kept_add_dropped (t : Template) (target : Target) :
    t.kept target + t.dropped target = t.blocks.length := by
  rw [List.length_eq_countP_add_countP (fun x => x.1.isKept target), kept, dropped]
  simp

/-- Every text has one cut. For each target, rendering it with its white space puts the body of each
block whose condition admits the target in the place of the block, and nothing for the others; these
are the blocks that count as kept and dropped. Without the white space the result is tidied, if
there are blocks at all. -/
theorem decomposition (s : Text) : ∃ t : Template, (t.text = s ∧ t.IsCut) ∧
    (∀ u : Template, u.text = s → u.IsCut → u = t) ∧
    ∀ target : Target,
      let kept := t.head ++ t.blocks.flatMap fun x =>
        (if (Audience.parse x.1.condition).admits target then x.1.body else []) ++ x.2
      (parse s).render target true = kept ∧
      (parse s).kept target =
        (t.blocks.filter fun x => (Audience.parse x.1.condition).admits target).length ∧
      (parse s).kept target + (parse s).dropped target = t.blocks.length ∧
      (parse s).render target false = if 0 < t.blocks.length then Tidy.tidy kept else s := by
  refine ⟨parse s, ⟨text_parse s, isCut_parse s⟩, fun u hu hcut => ?_, fun target =>
    ⟨?_, List.countP_eq_length_filter, kept_add_dropped _ target, ?_⟩⟩
  · rw [← hu, parse_text_of_isCut hcut]
  · rw [render, Bool.or_true, if_pos rfl]
    rfl
  · rw [render, Bool.or_false]
    cases hblocks : (parse s).blocks with
    | nil =>
      have htext := text_parse s
      rw [text, hblocks] at htext
      simpa [keep, hblocks] using htext
    | cons x blocks =>
      rw [keep, hblocks]
      rfl

end Rulebook.Template
