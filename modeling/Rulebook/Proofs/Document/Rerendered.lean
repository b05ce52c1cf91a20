import Mathlib.Logic.Function.Iterate
import Rulebook.Proofs.Document.Assembled
import Rulebook.Proofs.Document.Tidied

/-!
# Rendering again

What is kept of a block can hold another one, and so can the text around blocks that are gone. A
rendered text stays as it is when it is rendered again just if it holds no block; else it gets
shorter (`Template.render_again`). Tidying brings no characters together but blanks and line ends
(`Tidy.infix_of_infix_tidy`), so where no opening tag is left before it there is none after it.
-/

namespace Rulebook

/-! ## What tidying leaves -/

namespace Tidy

variable {needle s t : Text} {lines : List Text} {f : Text → Text}

theorem squeeze_sublist (seen : Nat) (s : Text) : List.Sublist (squeeze seen s) s := by
  induction s generalizing seen with
  | nil => exact List.Sublist.refl []
  | cons c s ih =>
    unfold squeeze
    split
    · split
      · exact (ih _).cons_cons c
      · exact (ih _).cons c
    · exact (ih _).cons_cons c

theorem intercalate_map_sublist (hf : ∀ line, List.Sublist (f line) line) (lines : List Text) :
    List.Sublist (['\n'].intercalate (lines.map f)) (['\n'].intercalate lines) := by
  cases lines with
  | nil => exact List.Sublist.refl _
  | cons line lines =>
    rw [List.map_cons, Lines.intercalate_cons, Lines.intercalate_cons]
    refine (hf line).append ?_
    induction lines with
    | nil => exact List.Sublist.refl _
    | cons next lines ih => exact ((hf next).cons_cons '\n').append ih

/-- Tidying only takes characters away. -/
theorem tidy_sublist (s : Text) : List.Sublist (tidy s) s := by
  have hlines : List.Sublist (trimLines s) s := by
    conv_rhs => rw [← Lines.intercalate_byLineFeed s]
    exact intercalate_map_sublist (fun line => (Blank.prefix_dropEndWhile _ line).sublist) _
  exact (prefix_endLine _).sublist.trans ((squeeze_sublist 0 _).trans
    ((List.dropWhile_sublist _).trans hlines))

theorem infix_of_infix_intercalate (hn : '\n' ∉ needle) (hne : needle ≠ [])
    (h : needle <:+: ['\n'].intercalate lines) : ∃ line ∈ lines, needle <:+: line := by
  cases lines with
  | nil => exact absurd (List.infix_nil.mp h) hne
  | cons line lines =>
    rw [Lines.intercalate_cons] at h
    induction lines generalizing line with
    | nil => exact ⟨line, List.mem_cons_self, by simpa using h⟩
    | cons next lines ih =>
      rcases infix_append_cons hn h with h | h
      · exact ⟨line, List.mem_cons_self, h⟩
      · obtain ⟨found, hmem, hfound⟩ := ih next h
        exact ⟨found, List.mem_cons_of_mem _ hmem, hfound⟩

theorem infix_of_mem_byLineFeed {line : Text} (h : line ∈ Lines.byLineFeed s) : line <:+: s := by
  rw [← Lines.intercalate_byLineFeed s]
  cases hlines : Lines.byLineFeed s with
  | nil => exact absurd (hlines ▸ h) List.not_mem_nil
  | cons first lines =>
    rw [Lines.intercalate_cons]
    rw [hlines] at h
    rcases List.mem_cons.mp h with rfl | h
    · exact List.infix_append_left
    · have hline : '\n' :: line <:+: lines.flatMap ('\n' :: ·) :=
        List.infix_of_mem_flatten (List.mem_map_of_mem h)
      exact (List.infix_cons List.infix_rfl).trans (hline.trans List.infix_append_right)

theorem infix_of_infix_trimLines (hn : '\n' ∉ needle) (hne : needle ≠ [])
    (h : needle <:+: trimLines s) : needle <:+: s := by
  obtain ⟨line, hline, hneedle⟩ := infix_of_infix_intercalate hn hne h
  obtain ⟨line, hmem, rfl⟩ := List.mem_map.mp hline
  have hline := hneedle.trans (Blank.prefix_dropEndWhile _ line).isInfix
  exact hline.trans (infix_of_mem_byLineFeed hmem)

/-- The first line is kept as it is. -/
theorem prefix_of_prefix_squeeze (hn : '\n' ∉ needle) (h : needle <+: squeeze 0 s) :
    needle <+: s := by
  induction s generalizing needle with
  | nil => exact h
  | cons c s ih =>
    cases needle with
    | nil => exact List.nil_prefix
    | cons d needle =>
      obtain ⟨hd, hn⟩ := not_or.mp (hn ∘ List.mem_cons.mpr)
      unfold squeeze at h
      split at h
      next hc =>
        rw [if_pos Nat.zero_lt_two] at h
        exact absurd ((List.cons_prefix_cons.mp h).1.trans hc).symm hd
      next =>
        obtain ⟨hc, h⟩ := List.cons_prefix_cons.mp h
        exact List.cons_prefix_cons.mpr ⟨hc, ih hn h⟩

theorem infix_of_infix_squeeze {seen : Nat} (hn : '\n' ∉ needle)
    (h : needle <:+: squeeze seen s) : needle <:+: s := by
  induction s generalizing seen with
  | nil => exact h
  | cons c s ih =>
    unfold squeeze at h
    split at h
    next hc =>
      subst hc
      split at h
      · rcases infix_append_cons (s := []) hn h with h | h
        · exact (List.infix_nil.mp h) ▸ List.nil_infix
        · exact List.infix_cons (ih h)
      · exact List.infix_cons (ih h)
    next hc =>
      rcases List.infix_cons_iff.mp h with h | h
      · cases needle with
        | nil => exact List.nil_infix
        | cons d needle =>
          obtain ⟨hd, h⟩ := List.cons_prefix_cons.mp h
          have hn : '\n' ∉ needle := fun hm => hn (List.mem_cons_of_mem d hm)
          exact (List.cons_prefix_cons.mpr ⟨hd, prefix_of_prefix_squeeze hn h⟩).isInfix
      · exact List.infix_cons (ih h)

/-- What stands on one line of a tidy text stood there before. -/
theorem infix_of_infix_tidy (hn : '\n' ∉ needle) (hne : needle ≠ []) (h : needle <:+: tidy s) :
    needle <:+: s := by
  have hsqueezed := infix_of_infix_squeeze hn (h.trans (prefix_endLine _).isInfix)
  exact infix_of_infix_trimLines hn hne (hsqueezed.trans (List.dropWhile_suffix _).isInfix)

end Tidy

namespace Template

open Block

variable {s : Text} {t : Template} {target : Target} {keepSpace : Bool}

/-! ## Blocks in a text -/

/-- A complete block stands somewhere in the text. -/
def HoldsBlock (s : Text) : Prop := ∃ before after, s = before ++ after ∧ StartsAt after

theorem holdsBlock_cons_iff (c : Char) (s : Text) :
    HoldsBlock (c :: s) ↔ StartsAt (c :: s) ∨ HoldsBlock s := by
  constructor
  · rintro ⟨before, after, hs, h⟩
    cases before with
    | nil => exact .inl (hs ▸ h)
    | cons d before => exact .inr ⟨before, after, (List.cons.inj hs).2, h⟩
  · rintro (h | ⟨before, after, rfl, h⟩)
    · exact ⟨[], c :: s, rfl, h⟩
    · exact ⟨c :: before, after, rfl, h⟩

theorem not_holdsBlock_nil : ¬HoldsBlock [] := by
  rintro ⟨before, after, hs, c, body, rest, -, rfl⟩
  simp [openingTag, opening] at hs

theorem blocks_parse_eq_nil_iff : (parse s).blocks = [] ↔ ¬HoldsBlock s := by
  fun_induction parse s with
  | case1 => simp [not_holdsBlock_nil]
  | case2 c s b rest h t ih =>
    have hstart : StartsAt (c :: s) := by
      by_contra hn
      cases h.symm.trans (read?_eq_none_iff.mpr hn)
    simp [holdsBlock_cons_iff, hstart]
  | case3 c s h t ih =>
    rw [holdsBlock_cons_iff, or_iff_right (read?_eq_none_iff.mp h)]
    exact ih

theorem infix_of_holdsBlock (h : HoldsBlock s) : opening <:+: s := by
  obtain ⟨before, after, rfl, h⟩ := h
  obtain ⟨c, body, rest, -, rfl⟩ := h
  exact ⟨before, c ++ ending ++ body ++ closingTag c ++ rest, by simp [openingTag]⟩

/-! ## One pass after another -/

/-- One pass of rendering. -/
def pass (target : Target) (keepSpace : Bool) (s : Text) : Text :=
  (parse s).render target keepSpace

theorem pass_of_not_holdsBlock (h : ¬HoldsBlock s) : pass target keepSpace s = s := by
  have hblocks := blocks_parse_eq_nil_iff.mpr h
  have hhead := text_parse s
  unfold pass render keep
  rw [hblocks]
  rw [text, hblocks] at hhead
  simpa using hhead

theorem length_body_lt (b : Block) : b.body.length < b.text.length := by
  simp only [Block.text, opening, List.length_append, List.length_cons, List.length_nil]
  omega

/-- With each block its tags go at least. -/
theorem length_keep_le (t : Template) (target : Target) :
    (t.keep target).length + t.blocks.length ≤ t.text.length := by
  obtain ⟨head, blocks⟩ := t
  induction blocks with
  | nil => simp [keep, text]
  | cons x blocks ih =>
    have hkept : (if x.1.isKept target then x.1.body else []).length < x.1.text.length := by
      split
      · exact length_body_lt x.1
      · exact Nat.zero_lt_of_lt (length_body_lt x.1)
    simp only [keep, text, List.flatMap_cons, List.length_append, List.length_cons] at ih ⊢
    omega

theorem length_pass_lt (h : HoldsBlock s) : (pass target keepSpace s).length < s.length := by
  have hblocks : (parse s).blocks ≠ [] := fun hn => blocks_parse_eq_nil_iff.mp hn h
  have hkeep : ((parse s).keep target).length < s.length := by
    have hle := length_keep_le (parse s) target
    have hpos := List.length_pos_iff.mpr hblocks
    rw [text_parse] at hle
    omega
  unfold pass render
  split
  · exact hkeep
  · exact (Tidy.tidy_sublist _).length_le.trans_lt hkeep

theorem not_holdsBlock_pass (h : ¬opening <:+: (parse s).keep target) :
    ¬HoldsBlock (pass target keepSpace s) := by
  intro hblock
  have hopening := infix_of_holdsBlock hblock
  unfold pass render at hopening
  split at hopening
  · exact h hopening
  · exact h (Tidy.infix_of_infix_tidy (by decide) (by decide) hopening)

/-- After as many passes as there are characters nothing is left to render. -/
theorem pass_iterate (s : Text) {n : Nat} (hn : s.length ≤ n) :
    pass target keepSpace ((pass target keepSpace)^[n] s) = (pass target keepSpace)^[n] s := by
  induction n generalizing s with
  | zero =>
    obtain rfl := List.length_eq_zero_iff.mp (Nat.le_zero.mp hn)
    exact pass_of_not_holdsBlock not_holdsBlock_nil
  | succ n ih =>
    rw [Function.iterate_succ_apply]
    by_cases h : HoldsBlock s
    · exact ih _ (Nat.le_of_lt_succ ((length_pass_lt h).trans_le hn))
    · have hs : pass target keepSpace s = s := pass_of_not_holdsBlock h
      rw [hs, Function.iterate_fixed hs, hs]

/-- Rendering a rendered text again leaves it as it is just if it holds no block, as when no opening
tag is left before it is tidied; else the text gets shorter. So in the end it stays as it is. -/
theorem render_again (s : Text) (target : Target) (keepSpace : Bool) :
    let once := pass target keepSpace s
    (pass target keepSpace once = once ↔ ¬HoldsBlock once) ∧
      (HoldsBlock once → (pass target keepSpace once).length < once.length) ∧
      (¬opening <:+: (parse s).keep target → pass target keepSpace once = once) ∧
      ∀ n, s.length ≤ n →
        pass target keepSpace ((pass target keepSpace)^[n] s) = (pass target keepSpace)^[n] s := by
  intro once
  refine ⟨⟨fun h hb => ?_, pass_of_not_holdsBlock⟩, length_pass_lt,
    fun h => pass_of_not_holdsBlock (not_holdsBlock_pass h), fun n => pass_iterate s⟩
  exact absurd (congrArg List.length h) (length_pass_lt hb).ne

theorem holdsBlock_text (h : t.IsAssembled) (hne : t.blocks ≠ []) : HoldsBlock t.text := by
  by_contra hn
  exact hne (parse_text h ▸ blocks_parse_eq_nil_iff.mpr hn)

theorem isAssembled_singleton {b : Block} {before after : Text} (hbefore : IsLiteral before)
    (hb : b.IsWellFormed) (hafter : IsLiteral after) : IsAssembled ⟨before, [(b, after)]⟩ :=
  ⟨hbefore, List.forall_mem_singleton.mpr ⟨hb, hafter⟩⟩

/-- Of a block alone that is kept, one pass leaves the body, whatever it holds. -/
theorem keep_parse_text_of_isKept {b : Block} (hb : b.IsWellFormed) (h : b.isKept target = true) :
    (parse b.text).keep target = b.body := by
  have hnil : IsLiteral [] := isLiteral_of_search (by decide)
  have hparse : parse b.text = ⟨[], [(b, [])]⟩ := by
    have hparts := parse_text (isAssembled_singleton hnil hb hnil)
    simpa [text] using hparts
  simp [hparse, keep, h]

/-- A text with one block for another target is rendered once; inside a block for this target, it
gets shorter by the second pass. -/
theorem render_again_one_block :
    let t : Template := ⟨"a".toList, [(⟨"cursor".toList, "b".toList⟩, "c".toList)]⟩
    let outer : Template := ⟨[], [(⟨"claude".toList, t.text⟩, [])]⟩
    (¬opening <:+: (parse t.text).keep .claude ∧
      pass .claude false (pass .claude false t.text) = pass .claude false t.text) ∧
    HoldsBlock (pass .claude false outer.text) ∧
      (pass .claude false (pass .claude false outer.text)).length <
        (pass .claude false outer.text).length := by
  intro t outer
  have ht : t.IsAssembled := isAssembled_singleton (isLiteral_of_search (by decide))
    (isWellFormed_of_readers (by decide) (by decide)) (isLiteral_of_search (by decide))
  have h : ¬opening <:+: (parse t.text).keep .claude := by
    rw [parse_text ht]
    exact isLiteral_of_search (by decide)
  have hblock : HoldsBlock (pass .claude false outer.text) := by
    have houter : outer.IsAssembled := isAssembled_singleton (isLiteral_of_search (by decide))
      (isWellFormed_of_readers (by decide) (by decide)) (isLiteral_of_search (by decide))
    have honce : pass .claude false outer.text = t.text := by
      rw [pass, parse_text houter]
      decide
    exact honce ▸ holdsBlock_text ht (List.cons_ne_nil _ _)
  exact ⟨⟨h, (render_again t.text .claude false).2.2.1 h⟩, hblock,
    (render_again outer.text .claude false).2.1 hblock⟩

/-- A block inside a block that is kept is left by the first pass and rendered by the second. -/
theorem not_forall_render_again : ¬∀ (s : Text) (target : Target) (keepSpace : Bool),
    pass target keepSpace (pass target keepSpace s) = pass target keepSpace s := by
  intro h
  let inner : Template := ⟨"a".toList, [(⟨"cursor".toList, "b".toList⟩, "c".toList)]⟩
  let outer : Block := ⟨"claude".toList, inner.text⟩
  have hinner : inner.IsAssembled := isAssembled_singleton (isLiteral_of_search (by decide))
    (isWellFormed_of_readers (by decide) (by decide)) (isLiteral_of_search (by decide))
  have honce : pass .claude true outer.text = inner.text := by
    have hwell : outer.IsWellFormed := isWellFormed_of_readers (by decide) (by decide)
    unfold pass render
    rw [Bool.or_true, if_pos rfl, keep_parse_text_of_isKept hwell (by decide)]
  have hagain := h outer.text .claude true
  rw [honce] at hagain
  have hshorter : (pass .claude true inner.text).length < inner.text.length :=
    length_pass_lt (holdsBlock_text hinner (List.cons_ne_nil _ _))
  exact hshorter.ne (congrArg List.length hagain)

end Template

end Rulebook
