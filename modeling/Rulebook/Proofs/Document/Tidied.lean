import Rulebook.Document.Template
import Rulebook.Proofs.Text.Pieces
import Rulebook.Proofs.Text.Trim

/-!
# Tidy texts

Tidying goes over a text four times. After the first time it takes line feeds away and nothing else,
so the lines that are not empty stay as they are (`fullLines`) and none of them ends with a blank
again; and what a later time takes away makes neither a new start nor a new run of line feeds. So in
the end the text is tidy, and a text that is tidy already stays as it is (`tidy_normal_form`).
-/

namespace Rulebook

namespace Tidy

variable {s t feeds : Text} {seen : Nat}

/-! ## Lines that are not empty -/

def fullLines (s : Text) : List Text := (Lines.byLineFeed s).filter (!·.isEmpty)

/-- The lines that hold more than spaces and tabulators, without those at their ends. -/
def solidLines (s : Text) : List Text :=
  ((Lines.byLineFeed s).map (Blank.dropEndWhile Blank.isSpaceOrTab)).filter (!·.isEmpty)

theorem fullLines_append (s t : Text) :
    fullLines (s ++ '\n' :: t) = fullLines s ++ fullLines t := by
  unfold fullLines
  rw [Lines.byLineFeed_append, List.filter_append]

theorem fullLines_cons (s : Text) : fullLines ('\n' :: s) = fullLines s := fullLines_append [] s

theorem fullLines_append_feeds (hfeeds : ∀ c ∈ feeds, c = '\n') (s : Text) :
    fullLines (s ++ feeds) = fullLines s := by
  induction feeds generalizing s with
  | nil => rw [List.append_nil]
  | cons c feeds ih =>
    obtain ⟨rfl, hrest⟩ := List.forall_mem_cons.mp hfeeds
    have hnone : fullLines feeds = [] := ih hrest []
    rw [fullLines_append, hnone, List.append_nil]

/-! ## Line by line -/

theorem byLineFeed_trimLines (s : Text) : Lines.byLineFeed (trimLines s) =
    (Lines.byLineFeed s).map (Blank.dropEndWhile Blank.isSpaceOrTab) := by
  refine Lines.byLineFeed_intercalate (mt List.map_eq_nil_iff.mp (Blank.splitWhere_ne_nil _ s))
    fun line hline => ?_
  obtain ⟨whole, hwhole, rfl⟩ := List.mem_map.mp hline
  exact fun hn => Lines.not_mem_of_mem_byLineFeed hwhole
    ((Blank.prefix_dropEndWhile _ whole).subset hn)

theorem fullLines_trimLines (s : Text) : fullLines (trimLines s) = solidLines s := by
  unfold fullLines
  rw [byLineFeed_trimLines]
  rfl

theorem trimLines_eq_self
    (h : ∀ line ∈ Lines.byLineFeed s, ∀ c ∈ line.getLast?, Blank.isSpaceOrTab c = false) :
    trimLines s = s := by
  have hlines : (Lines.byLineFeed s).map (Blank.dropEndWhile Blank.isSpaceOrTab) =
      Lines.byLineFeed s :=
    (List.map_congr_left fun line hline => Blank.dropEndWhile_eq_self (h line hline)).trans
      (List.map_id' _)
  rw [trimLines, hlines, Lines.intercalate_byLineFeed]

/-! ## Line feeds at the start -/

theorem fullLines_dropWhile (s : Text) : fullLines (s.dropWhile (· == '\n')) = fullLines s := by
  induction s with
  | nil => rfl
  | cons c s ih =>
    rw [List.dropWhile_cons]
    split
    next hc =>
      obtain rfl := beq_iff_eq.mp hc
      rw [ih, fullLines_cons]
    next => rfl

theorem not_prefix_dropWhile (s : Text) : ¬['\n'] <+: s.dropWhile (· == '\n') := by
  induction s with
  | nil => simp
  | cons c s ih =>
    rw [List.dropWhile_cons]
    split
    next => exact ih
    next hc => exact fun h => hc (beq_iff_eq.mpr (List.cons_prefix_cons.mp h).1.symm)

theorem dropWhile_eq_self (h : ¬['\n'] <+: s) : s.dropWhile (· == '\n') = s := by
  cases s with
  | nil => rfl
  | cons c s =>
    refine List.dropWhile_cons_of_neg fun hc => h ?_
    rw [beq_iff_eq.mp hc]
    exact ⟨s, rfl⟩

/-! ## Runs of line feeds -/

/-- No line changes; one that is begun already goes on only where no line feed was seen. -/
theorem fullLines_append_squeeze (h : seen = 0 ∨ t = []) :
    fullLines (t ++ squeeze seen s) = fullLines (t ++ s) := by
  induction s generalizing seen t with
  | nil => rfl
  | cons c s ih =>
    rw [squeeze]
    split
    next hc =>
      subst hc
      have hrest (n : Nat) : fullLines (squeeze n s) = fullLines s := ih (t := []) (.inr rfl)
      split
      next => rw [fullLines_append, fullLines_append, hrest]
      next hseen =>
        obtain rfl : t = [] := h.resolve_left fun hzero => hseen (hzero ▸ Nat.zero_lt_two)
        rw [List.nil_append, List.nil_append, fullLines_cons, hrest]
    next =>
      have hgone : fullLines (t ++ [c] ++ squeeze 0 s) = fullLines (t ++ [c] ++ s) := ih (.inl rfl)
      simpa using hgone

theorem not_infix_squeeze (hseen : seen ≤ 2) (s : Text) :
    ¬['\n', '\n', '\n'] <:+: List.replicate seen '\n' ++ squeeze seen s := by
  have hshort (n : Nat) (hn : n ≤ 2) : ¬['\n', '\n', '\n'] <:+: List.replicate n '\n' := fun h => by
    have hlength := h.length_le
    simp only [List.length_cons, List.length_nil, List.length_replicate] at hlength
    omega
  induction s generalizing seen with
  | nil =>
    rw [squeeze, List.append_nil]
    exact hshort seen hseen
  | cons c s ih =>
    rw [squeeze]
    split
    next hc =>
      subst hc
      split
      next hlt =>
        have hmore := @ih (seen + 1) (by omega)
        rwa [List.replicate_succ', List.append_assoc, List.singleton_append] at hmore
      next => exact ih hseen
    next hc =>
      intro h
      rcases infix_append_cons (by simpa using hc) h with h | h
      · exact hshort seen hseen h
      · exact ih (Nat.zero_le 2) h

theorem squeeze_eq_self (hseen : seen ≤ 2)
    (h : ¬['\n', '\n', '\n'] <:+: List.replicate seen '\n' ++ s) : squeeze seen s = s := by
  induction s generalizing seen with
  | nil => rfl
  | cons c s ih =>
    rw [squeeze]
    split
    next hc =>
      subst hc
      split
      next hlt =>
        rw [ih (by omega)]
        rwa [List.replicate_succ', List.append_assoc, List.singleton_append]
      next hlt =>
        obtain rfl : seen = 2 := by omega
        exact absurd (List.IsPrefix.isInfix ⟨s, rfl⟩) h
    next =>
      rw [ih (Nat.zero_le 2)]
      exact fun hs => h (hs.trans ⟨List.replicate seen '\n' ++ [c], [], by simp⟩)

theorem not_prefix_squeeze (h : ¬['\n'] <+: s) : ¬['\n'] <+: squeeze 0 s := by
  cases s with
  | nil => exact h
  | cons c s =>
    have hc : c ≠ '\n' := fun hc => h (hc ▸ ⟨s, rfl⟩)
    rw [squeeze, if_neg hc]
    exact fun hstart => hc (List.cons_prefix_cons.mp hstart).1.symm

/-! ## Line feeds at the end -/

/-- Of the line feeds at the end one is kept. -/
theorem endLine_form (s : Text) : ∃ bare feeds, s = bare ++ feeds ∧ (∀ c ∈ feeds, c = '\n') ∧
    (∀ c ∈ bare.getLast?, c ≠ '\n') ∧ endLine s = bare ++ feeds.take 1 := by
  have hcut : Blank.dropEndWhile (· == '\n') s ++ s.rtakeWhile (· == '\n') = s :=
    List.rdropWhile_append_rtakeWhile
  have hfeeds : ∀ c ∈ s.rtakeWhile (· == '\n'), c = '\n' := fun c hc => by
    simpa using List.mem_rtakeWhile_imp hc
  have hbare : ∀ c ∈ (Blank.dropEndWhile (· == '\n') s).getLast?, c ≠ '\n' := fun c hc =>
    beq_eq_false_iff_ne.mp (Blank.of_getLast?_dropEndWhile (· == '\n') s c hc)
  refine ⟨_, _, hcut.symm, hfeeds, hbare, ?_⟩
  unfold endLine
  dsimp only
  generalize Blank.dropEndWhile (· == '\n') s = bare at hcut ⊢
  generalize s.rtakeWhile (· == '\n') = feeds at hcut hfeeds ⊢
  subst hcut
  cases feeds with
  | nil => simp
  | cons c feeds =>
    obtain rfl : c = '\n' := hfeeds c List.mem_cons_self
    rw [if_pos (by simp)]
    rfl

theorem prefix_endLine (s : Text) : endLine s <+: s := by
  obtain ⟨bare, feeds, rfl, -, -, hend⟩ := endLine_form s
  rw [hend]
  exact (List.prefix_append_right_inj bare).mpr (List.take_prefix 1 feeds)

theorem fullLines_endLine (s : Text) : fullLines (endLine s) = fullLines s := by
  obtain ⟨bare, feeds, rfl, hfeeds, -, hend⟩ := endLine_form s
  rw [hend, fullLines_append_feeds hfeeds,
    fullLines_append_feeds fun c hc => hfeeds c (List.mem_of_mem_take hc)]

theorem not_suffix_endLine (s : Text) : ¬['\n', '\n'] <:+ endLine s := by
  obtain ⟨bare, feeds, rfl, hfeeds, hbare, hend⟩ := endLine_form s
  rw [hend]
  cases feeds with
  | nil =>
    rintro ⟨start, hstart⟩
    rw [List.take_nil, List.append_nil] at hstart
    exact hbare '\n' (by simp [← hstart]) rfl
  | cons c feeds =>
    obtain rfl : c = '\n' := hfeeds c List.mem_cons_self
    rintro ⟨start, hstart⟩
    have hstart : start ++ ['\n'] = bare :=
      List.append_cancel_right ((List.append_assoc start ['\n'] ['\n']).trans hstart)
    exact hbare '\n' (by simp [← hstart]) rfl

theorem endLine_eq_self (h : ¬['\n', '\n'] <:+ s) : endLine s = s := by
  obtain ⟨bare, feeds, rfl, hfeeds, -, hend⟩ := endLine_form s
  rw [hend]
  match feeds with
  | [] => rfl
  | [c] => rfl
  | c :: d :: feeds =>
    refine absurd ?_ h
    have hall : c :: d :: feeds = List.replicate feeds.length '\n' ++ List.replicate 2 '\n' := by
      rw [List.replicate_append_replicate]
      exact List.eq_replicate_of_mem hfeeds
    rw [hall, ← List.append_assoc]
    exact List.suffix_append _ _

/-! ## All four -/

/-- No space or tabulator at the end of a line, no line feed at the start, no three of them in a row
and no two at the end. -/
structure IsTidy (s : Text) : Prop where
  lines : ∀ line ∈ Lines.byLineFeed s, ∀ c ∈ line.getLast?, Blank.isSpaceOrTab c = false
  start : ¬['\n'] <+: s
  inside : ¬['\n', '\n', '\n'] <:+: s
  last : ¬['\n', '\n'] <:+ s

theorem fullLines_tidy (s : Text) : fullLines (tidy s) = solidLines s := by
  have hsqueezed (t : Text) : fullLines (squeeze 0 t) = fullLines t :=
    fullLines_append_squeeze (t := []) (.inl rfl)
  rw [tidy, fullLines_endLine, hsqueezed, fullLines_dropWhile, fullLines_trimLines]

theorem isTidy_tidy (s : Text) : IsTidy (tidy s) where
  lines line hline c hc := by
    -- a line with a last character is one of those that tidying keeps
    have hfull : line ∈ fullLines (tidy s) := by
      refine List.mem_filter.mpr ⟨hline, ?_⟩
      cases line with
      | nil => cases hc
      | cons d line => rfl
    rw [fullLines_tidy] at hfull
    obtain ⟨whole, -, rfl⟩ := List.mem_map.mp (List.mem_filter.mp hfull).1
    exact Blank.of_getLast?_dropEndWhile _ whole c hc
  start h := not_prefix_squeeze (not_prefix_dropWhile _) (h.trans (prefix_endLine _))
  inside h := not_infix_squeeze (Nat.zero_le 2) _ (h.trans (prefix_endLine _).isInfix)
  last := not_suffix_endLine _

theorem tidy_eq_self (h : IsTidy s) : tidy s = s := by
  rw [tidy, trimLines_eq_self h.lines, dropWhile_eq_self h.start,
    squeeze_eq_self (Nat.zero_le 2) h.inside, endLine_eq_self h.last]

/-- Tidying makes every text tidy, leaves just the tidy ones as they are, and keeps the lines that
are not blank, in their order. -/
theorem tidy_normal_form (s : Text) :
    IsTidy (tidy s) ∧ (tidy s = s ↔ IsTidy s) ∧ tidy (tidy s) = tidy s ∧
      solidLines (tidy s) = solidLines s := by
  have htidy := isTidy_tidy s
  refine ⟨htidy, ⟨fun h => h ▸ htidy, tidy_eq_self⟩, tidy_eq_self htidy, ?_⟩
  calc solidLines (tidy s)
      = fullLines (trimLines (tidy s)) := (fullLines_trimLines _).symm
    _ = fullLines (tidy s) := by rw [trimLines_eq_self htidy.lines]
    _ = solidLines s := fullLines_tidy s

example : tidy "\n \na \n\t\n\n\n b\n\n".toList = "a\n\n b\n".toList := by decide

end Tidy

end Rulebook
