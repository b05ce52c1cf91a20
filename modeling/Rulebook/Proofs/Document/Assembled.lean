import Rulebook.Proofs.Document.Decomposition

/-!
# Assembled templates

A text put together from literal texts and blocks reads back as just these parts
(`Template.parse_text`): no opening tag arises where a literal text and a block meet, and no closing
tag before the one that was written. So rendering it puts for each block what is kept of it
(`Template.render_text`).
-/

namespace Rulebook

namespace Block

variable {s rest : Text}

/-- Literal text that opens no block. -/
def IsLiteral (s : Text) : Prop := ¬opening <:+: s

theorem isLiteral_of_search (h : Search.split? opening s = none) : IsLiteral s :=
  Search.split?_eq_none.mp h

theorem isWellFormed_of_readers {b : Block} (hc : isCondition b.condition = true)
    (hb : Search.split? (closingTag b.condition) b.body = none) : b.IsWellFormed :=
  ⟨isCondition_iff.mp hc, Search.split?_eq_none.mp hb⟩

theorem IsLiteral.of_cons {c : Char} (h : IsLiteral (c :: s)) : IsLiteral s :=
  fun hs => h (List.infix_cons hs)

/-- Where a literal text meets what starts with an opening, nothing is opened before. -/
theorem IsLiteral.not_opens (hs : IsLiteral s) (hne : s ≠ [])
    (hrest : rest = [] ∨ opening <+: rest) : ¬opening <+: s ++ rest := by
  rcases hrest with rfl | ⟨rest, rfl⟩
  · rw [List.append_nil]
    exact fun h => hs h.isInfix
  · intro h
    match s, hne with
    | [c], _ => simp [opening] at h
    | [c, d], _ => simp [opening] at h
    | c :: d :: e :: s, _ =>
      refine hs (List.IsPrefix.isInfix (?_ : opening <+: c :: d :: e :: s))
      exact List.prefix_of_prefix_length_le h (List.prefix_append _ _) (by simp [opening])

theorem StartsAt.opens (h : StartsAt s) : opening <+: s := by
  obtain ⟨c, body, rest, -, rfl⟩ := h
  exact ⟨c ++ ending ++ body ++ closingTag c ++ rest, by simp [openingTag]⟩

theorem opening_prefix_text (b : Block) (s : Text) : opening <+: b.text ++ s :=
  ⟨b.condition ++ ending ++ b.body ++ closingTag b.condition ++ s, by simp [text_eq, openingTag]⟩

end Block

namespace Template

open Block

variable {s rest : Text} {b : Block} {t : Template}

theorem startsNone_of_isLiteral (hs : IsLiteral s) (hrest : rest = [] ∨ opening <+: rest) :
    StartsNone s rest := by
  induction s with
  | nil => exact startsNone_nil rest
  | cons c s ih =>
    exact startsNone_cons_iff.mpr
      ⟨fun h => hs.not_opens (List.cons_ne_nil c s) hrest h.opens, ih hs.of_cons⟩

/-- Literal texts that open no block, with well-formed blocks in between. -/
structure IsAssembled (t : Template) : Prop where
  head : IsLiteral t.head
  blocks : ∀ x ∈ t.blocks, x.1.IsWellFormed ∧ IsLiteral x.2

theorem IsAssembled.isCut (h : t.IsAssembled) : t.IsCut := by
  obtain ⟨head, blocks⟩ := t
  induction blocks generalizing head with
  | nil => exact .literal (startsNone_of_isLiteral h.head (.inl rfl))
  | cons x blocks ih =>
    obtain ⟨b, after⟩ := x
    obtain ⟨⟨hb, hafter⟩, hblocks⟩ := List.forall_mem_cons.mp h.blocks
    exact .block (t := ⟨after, blocks⟩)
      (startsNone_of_isLiteral h.head (.inr (opening_prefix_text b _))) hb
      (ih after ⟨hafter, hblocks⟩)

/-- An assembled text reads back as the parts it is made of. -/
theorem parse_text (h : t.IsAssembled) : parse t.text = t := parse_text_of_isCut h.isCut

/-- Of an assembled text, rendering leaves the literal texts as they are and of each block the body,
if the condition admits the target; and it counts as many blocks kept and dropped as there are. -/
theorem render_text (h : t.IsAssembled) (target : Target) :
    (parse t.text).render target true = t.head ++ t.blocks.flatMap (fun x =>
        (if (Audience.parse x.1.condition).admits target then x.1.body else []) ++ x.2) ∧
      (parse t.text).kept target =
        (t.blocks.filter fun x => (Audience.parse x.1.condition).admits target).length ∧
      (parse t.text).dropped target =
        (t.blocks.filter fun x => !(Audience.parse x.1.condition).admits target).length := by
  rw [parse_text h]
  refine ⟨?_, List.countP_eq_length_filter, List.countP_eq_length_filter⟩
  unfold render
  rw [Bool.or_true, if_pos rfl]
  rfl

/-- Braces before and after the tags, and another tag inside the body. -/
theorem render_text_braces :
    let kept : Block :=
      ⟨"claude|factory".toList, "\x7b\x7b#cursor\x7d\x7d\x7b\x7b/claude\x7d\x7d".toList⟩
    let dropped : Block := ⟨"!claude".toList, "\x7b".toList⟩
    let t : Template := ⟨"\x7b\x7b".toList, [(kept, "#\x7d\x7b".toList), (dropped, [])]⟩
    t.IsAssembled ∧
      (parse t.text).render .claude true =
        "\x7b\x7b\x7b\x7b#cursor\x7d\x7d\x7b\x7b/claude\x7d\x7d#\x7d\x7b".toList ∧
      (parse t.text).kept .claude = 1 ∧ (parse t.text).dropped .claude = 1 := by
  intro kept dropped t
  have hkept : kept.IsWellFormed := isWellFormed_of_readers (by decide) (by decide)
  have hdropped : dropped.IsWellFormed := isWellFormed_of_readers (by decide) (by decide)
  have h : t.IsAssembled := by
    refine ⟨isLiteral_of_search (by decide), ?_⟩
    simp only [t, List.forall_mem_cons]
    exact ⟨⟨hkept, isLiteral_of_search (by decide)⟩, ⟨hdropped, isLiteral_of_search (by decide)⟩,
      fun _ hx => nomatch hx⟩
  obtain ⟨hrender, hcounts⟩ := render_text h .claude
  exact ⟨h, hrender.trans (by decide), hcounts.1.trans (by decide), hcounts.2.trans (by decide)⟩

end Template

end Rulebook
