import Rulebook.Proofs.Document.Rules
import Rulebook.Proofs.Text.Trim

/-!
# What a block depends on

A line of dashes is read up to its line feed and no further (`ReadsUpTo`), and the block of a
document ends at the first such line that leaves something inside. So a block that ends with a line
stays the block of the document whatever comes after it; only one with nothing inside can give way
to a longer one (`prologue_append_or`).
-/

namespace Rulebook

namespace Frontmatter

/-- What a reader makes of a text that starts with `p` and a line feed does not depend on what
follows the line feed. -/
def ReadsUpTo (p : Text) (read? : Text → Option (Text × Text)) : Prop :=
  (∀ t, read? (p ++ '\n' :: t) = none) ∨
    ∃ line after, ∀ t, read? (p ++ '\n' :: t) = some (line, after ++ t)

variable {p s t d e line close raw rest : Text} {read? : Text → Option (Text × Text)}

theorem ReadsUpTo.eq_none (h : ReadsUpTo p read?) (hs : read? (p ++ '\n' :: s) = none) (t : Text) :
    read? (p ++ '\n' :: t) = none := by
  rcases h with h | ⟨line, after, h⟩
  · exact h t
  · rw [h s] at hs
    cases hs

theorem ReadsUpTo.eq_some (h : ReadsUpTo p read?) (hs : read? (p ++ '\n' :: s) = some (line, s))
    (t : Text) : read? (p ++ '\n' :: t) = some (line, t) := by
  rcases h with h | ⟨line', after, h⟩
  · rw [h s] at hs
    cases hs
  · rw [h s, Option.some.injEq, Prod.mk.injEq] at hs
    obtain ⟨rfl, hafter⟩ := hs
    rw [h t, List.append_left_eq_self.mp hafter, List.nil_append]

/-! ## Up to the line feed -/

theorem readsUpTo_lineEnd? (p : Text) : ReadsUpTo p lineEnd? := by
  rcases p with _ | ⟨a, p⟩
  · exact .inr ⟨['\n'], [], fun _ => rfl⟩
  by_cases ha : a = '\n'
  · subst ha
    exact .inr ⟨['\n'], p ++ ['\n'], fun _ => by simp [lineEnd?]⟩
  by_cases hr : a = '\r'
  · subst hr
    rcases p with _ | ⟨b, p⟩
    · exact .inr ⟨['\r', '\n'], [], fun _ => rfl⟩
    by_cases hb : b = '\n'
    · subst hb
      exact .inr ⟨['\r', '\n'], p ++ ['\n'], fun _ => by simp [lineEnd?]⟩
    · exact .inl fun _ => by simp [lineEnd?, hb]
  · exact .inl fun _ => by simp [lineEnd?, ha, hr]

/-- Dashes are read on their line, so the line feed comes after them. -/
theorem dashes?_cases (p : Text) :
    (∀ t, dashes? (p ++ '\n' :: t) = none) ∨
      ∃ dashes after, ∀ t, dashes? (p ++ '\n' :: t) = some (dashes, after ++ '\n' :: t) := by
  rcases p with _ | ⟨a, _ | ⟨b, _ | ⟨c, p⟩⟩⟩
  · exact .inl fun _ => rfl
  · exact .inl fun _ => by simp [dashes?]
  · exact .inl fun _ => by simp [dashes?]
  by_cases h : a = '-' ∧ b = '-' ∧ c = '-'
  · obtain ⟨rfl, rfl, rfl⟩ := h
    have hblank : Blank.isSpaceOrTab '\n' = false := by decide
    refine .inr ⟨'-' :: '-' :: '-' :: p.takeWhile Blank.isSpaceOrTab,
      p.dropWhile Blank.isSpaceOrTab, fun t => ?_⟩
    rw [← Blank.takeWhile_append_cons hblank p t, ← Blank.dropWhile_append_cons hblank p t]
    rfl
  · refine .inl fun t => ?_
    unfold dashes?
    split
    next heq =>
      cases heq
      exact absurd ⟨rfl, rfl, rfl⟩ h
    next => rfl

theorem readsUpTo_closingLine? (p : Text) : ReadsUpTo p closingLine? := by
  rcases dashes?_cases p with hd | ⟨dashes, after, hd⟩
  · exact .inl fun t => by rw [closingLine?, hd t]
  have hline (t : Text) : closingLine? (p ++ '\n' :: t) =
      (lineEnd? (after ++ '\n' :: t)).map fun found => (dashes ++ found.1, found.2) := by
    rw [closingLine?, hd t]
    split
    next heq => cases heq
    next heq => simp at heq
    next heq =>
      cases heq
      rfl
  rcases readsUpTo_lineEnd? after with he | ⟨e, rest, he⟩
  · exact .inl fun t => by rw [hline t, he t]; rfl
  · exact .inr ⟨dashes ++ e, rest, fun t => by rw [hline t, he t]; rfl⟩

/-- A close starts with a line end, so it is only read up to a later line feed. -/
theorem readsUpTo_close? (hempty : p ≠ []) (hreturn : p ≠ ['\r']) : ReadsUpTo p close? := by
  have hline {e q : Text} (he : ∀ t, lineEnd? (e ++ t) = some (e, t)) :
      ReadsUpTo (e ++ q) close? := by
    have hclose (t : Text) : close? (e ++ q ++ '\n' :: t) =
        (closingLine? (q ++ '\n' :: t)).map fun found => (e ++ found.1, found.2) := by
      rw [close?, List.append_assoc, he]
    rcases readsUpTo_closingLine? q with hq | ⟨line, after, hq⟩
    · exact .inl fun t => by rw [hclose t, hq t]; rfl
    · exact .inr ⟨e ++ line, after, fun t => by rw [hclose t, hq t]; rfl⟩
  have hnone {q : Text} (hq : ∀ t, lineEnd? (q ++ '\n' :: t) = none) : ReadsUpTo q close? :=
    .inl fun t => by rw [close?, hq t]
  rcases p with _ | ⟨a, p⟩
  · exact absurd rfl hempty
  by_cases ha : a = '\n'
  · subst ha
    exact hline (e := ['\n']) fun _ => rfl
  by_cases hr : a = '\r'
  · subst hr
    rcases p with _ | ⟨b, p⟩
    · exact absurd rfl hreturn
    by_cases hb : b = '\n'
    · subst hb
      exact hline (e := ['\r', '\n']) fun _ => rfl
    · exact hnone fun _ => by simp [lineEnd?, hb]
  · exact hnone fun _ => by simp [lineEnd?, ha, hr]

/-! ## Where a block ends -/

/-- A close is a line end, a dash, and what the dash begins. -/
theorem close?_form (h : close? s = some (close, rest)) :
    ∃ e line, (e = [] ∨ e = ['\r']) ∧ close = e ++ '\n' :: '-' :: line ∧
      closingLine? ('-' :: line ++ rest) = some ('-' :: line, rest) := by
  obtain ⟨e, line, he, hline, rfl, -⟩ := close?_eq_some_iff.mp h
  obtain ⟨r, hr, rfl⟩ := he.exists_return
  obtain ⟨more, rfl⟩ := hline.exists_dash
  exact ⟨r, more, hr, by simp, closingLine?_eq_some_iff.mpr ⟨hline, rfl⟩⟩

theorem close?_last (h : close? s = some (close, rest)) : rest = [] ∨ ∃ r, close = r ++ ['\n'] := by
  obtain ⟨e, line, -, hline, rfl, -⟩ := close?_eq_some_iff.mp h
  rcases hline.exists_lineFeed with hrest | ⟨r, rfl⟩
  · exact .inl hrest
  · exact .inr ⟨e ++ r, (List.append_assoc e r _).symm⟩

/-- The block of a document is empty, or all of it, or ends with a line. -/
theorem prologue_cases (s : Text) :
    prologue s = [] ∨ body s = [] ∨ ∃ r, prologue s = r ++ ['\n'] := by
  unfold prologue body
  cases h : block? s with
  | none => exact .inl rfl
  | some b =>
    refine .inr ?_
    unfold block? at h
    split at h
    · cases h
    split at h
    next raw close after hu =>
      cases h
      rcases close?_last (close?_of_untilClose? hu) with rfl | ⟨r, rfl⟩
      · exact .inl rfl
      · exact .inr ⟨_, (List.append_assoc _ r ['\n']).symm⟩
    next =>
      simp only [Option.map_eq_some_iff] at h
      obtain ⟨⟨close, after⟩, hc, rfl⟩ := h
      rcases (closingLine?_eq_some_iff.mp hc).1.exists_lineFeed with rfl | ⟨r, rfl⟩
      · exact .inl rfl
      · exact .inr ⟨_, (List.append_assoc _ r ['\n']).symm⟩

/-! ## What stays -/

/-- A close that ends with a line is a close whatever follows. -/
theorem close?_append (h : close? s = some (close, rest)) (hlast : ∃ r, close = r ++ ['\n'])
    (t : Text) : close? (close ++ t) = some (close, t) := by
  obtain ⟨e, line, -, hform, -⟩ := close?_form h
  obtain ⟨r, rfl⟩ := hlast
  have hr : 2 ≤ r.length := by
    rcases List.eq_nil_or_concat line with rfl | ⟨line, c, rfl⟩
    · have hend := congrArg List.getLast? hform
      simp at hend
    · have hlength := congrArg List.length hform
      simp only [List.concat_eq_append, List.length_append, List.length_cons, List.length_nil]
        at hlength
      omega
  have hs := close?_eq_some h
  rw [List.append_assoc, List.singleton_append] at hs ⊢
  refine (readsUpTo_close? ?_ ?_).eq_some (hs ▸ h) t
  · rintro rfl
    exact absurd hr (by decide)
  · rintro rfl
    exact absurd hr (by decide)

/-- Where no close begins before the one that is found, none does when the text after that one
changes. -/
theorem close?_eq_none_append {c : Char} (hc : close? (c :: (raw ++ close ++ rest)) = none)
    (h : close? (close ++ rest) = some (close, rest)) (t : Text) :
    close? (c :: (raw ++ close ++ t)) = none := by
  obtain ⟨e, line, -, rfl, hline⟩ := close?_form h
  have hsplit (t : Text) : c :: (raw ++ (e ++ '\n' :: '-' :: line) ++ t) =
      c :: (raw ++ e) ++ '\n' :: ('-' :: line ++ t) := by
    simp
  rw [hsplit] at hc ⊢
  refine (readsUpTo_close? (List.cons_ne_nil c _) fun hr => ?_).eq_none hc _
  -- a lone carriage return would belong to the line end of the close
  rw [hr, List.singleton_append, close?] at hc
  simp only [lineEnd?, hline, Option.map_some] at hc
  cases hc

/-- The text before a close stays the shortest one when the text after the close changes. -/
theorem untilClose?_append (h : untilClose? s = some (raw, close, rest))
    (hlast : ∃ r, close = r ++ ['\n']) (t : Text) :
    untilClose? (raw ++ close ++ t) = some (raw, close, t) := by
  induction s generalizing raw with
  | nil => cases h
  | cons c s ih =>
    have hclose := close?_of_untilClose? h
    unfold untilClose? at h
    split at h
    next hc =>
      cases h
      exact untilClose?_of_close? (close?_append hc hlast t)
    next hc =>
      simp only [Option.map_eq_some_iff, Prod.mk.injEq] at h
      obtain ⟨⟨raw, k, r⟩, ht, rfl, rfl, rfl⟩ := h
      rw [untilClose?_eq_some ht] at hc
      rw [List.cons_append, List.cons_append, untilClose?, close?_eq_none_append hc hclose t, ih ht]
      rfl

theorem openingLine?_append (h : openingLine? s = some (line, rest)) (t : Text) :
    openingLine? (line ++ t) = some (line, t) := by
  obtain ⟨d, e, hd, he, rfl, -⟩ := openingLine?_eq_some_iff.mp h
  exact openingLine?_eq_some_iff.mpr ⟨d, e, hd, he, rfl, rfl⟩

/-! ## Blocks with nothing inside -/

/-- A character of a line of dashes. -/
def IsPlain (c : Char) : Prop := c = '-' ∨ Blank.isBlank c = true

theorem IsLineEnd.isPlain (h : IsLineEnd e) : ∀ c ∈ e, IsPlain c := by
  have hn : IsPlain '\n' := .inr (by decide)
  have hr : IsPlain '\r' := .inr (by decide)
  rcases h with rfl | rfl
  · simpa using hn
  · simpa using ⟨hr, hn⟩

theorem IsRule.isPlain (h : IsRule d) : ∀ c ∈ d, IsPlain c := by
  obtain ⟨blanks, hall, rfl⟩ := h
  simp only [List.mem_cons, forall_eq_or_imp]
  refine ⟨.inl rfl, .inl rfl, .inl rfl, fun c hc => ?_⟩
  exact .inr (Blank.isBlank_of_isSpaceOrTab (List.all_eq_true.mp hall c hc))

theorem Closes.isPlain (h : Closes line rest) : ∀ c ∈ line, IsPlain c := by
  obtain ⟨d, hd, ⟨rfl, -⟩ | ⟨e, he, rfl⟩⟩ := h
  · exact hd.isPlain
  · exact List.forall_mem_append.mpr ⟨hd.isPlain, he.isPlain⟩

/-- A prologue that does not take up the whole document is kept whatever comes after it, or it has
nothing inside. -/
theorem prologue_append_or (hbody : body s ≠ []) :
    (∀ t, prologue (prologue s ++ t) = prologue s) ∨ ∀ c ∈ prologue s, IsPlain c := by
  unfold body at hbody
  unfold prologue
  cases h : block? s with
  | none => exact .inr fun _ hc => nomatch hc
  | some b =>
    rw [h] at hbody
    simp only [Option.map_some, Option.getD_some] at hbody ⊢
    unfold block? at h
    split at h
    · cases h
    next line rest hl =>
      split at h
      next raw close after hu =>
        cases h
        have hlast : ∃ r, close = r ++ ['\n'] :=
          (close?_last (close?_of_untilClose? hu)).resolve_left hbody
        refine .inl fun t => ?_
        have hopening := openingLine?_append hl (raw ++ (close ++ t))
        have hclose := untilClose?_append hu hlast t
        rw [List.append_assoc] at hclose
        simp only [block?, List.append_assoc, hopening, hclose, Option.map_some, Option.getD_some]
      next =>
        simp only [Option.map_eq_some_iff] at h
        obtain ⟨⟨close, after⟩, hc, rfl⟩ := h
        obtain ⟨d, e, hd, he, rfl, -⟩ := openingLine?_eq_some_iff.mp hl
        refine .inr (List.forall_mem_append.mpr ⟨?_, (closingLine?_eq_some_iff.mp hc).1.isPlain⟩)
        exact List.forall_mem_append.mpr ⟨hd.isPlain, he.isPlain⟩

end Frontmatter

end Rulebook
