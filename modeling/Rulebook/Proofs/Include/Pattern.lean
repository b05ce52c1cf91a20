import Rulebook.Proofs.Include.Settled
import Rulebook.Proofs.Text.Trim

/-!
# Directives as matches of a pattern

A directive can be looked for in the whole text at once, with a pattern: from the beginning of a
line, blanks, the keyword, blanks, a group that ends with the suffix and stays in the line, and
blanks, up to the end of the line or to one carriage return before it (`Directive.IsMatch`). Blanks
can go to the group or stay outside, so there are several ways to read a line; but in whichever way
a line is read, it is read to its end and the path is the same (`Directive.mem_find_iff`). So a
search from left to right that goes on after each match comes to exactly the directives of the lines
(`Directive.isScan_iff`).
-/

namespace Rulebook

open Blank (isAllBlank isSpaceOrTab dropEndWhile trim)

/-! ## Lines with their places -/

namespace Lines

/-- Lines with their offsets, the first of which starts at `offset`. -/
def placedFrom (offset : Nat) : List Text → List (Nat × Text)
  | [] => []
  | line :: lines => (offset, line) :: placedFrom (offset + line.length + 1) lines

/-- The lines of a text, which line feeds separate, with their offsets. -/
def placed (s : Text) : List (Nat × Text) := placedFrom 0 (byLineFeed s)

/-- A line begins after `before`. -/
def BeginsLine (before : Text) : Prop := before = [] ∨ ∃ t, before = t ++ ['\n']

/-- A line ends before `rest`. -/
def EndsLine (rest : Text) : Prop := rest = [] ∨ ∃ t, rest = '\n' :: t

/-- `line` is the line of `s` that starts at `offset`. -/
def IsLineAt (s : Text) (offset : Nat) (line : Text) : Prop :=
  ∃ before rest, s = before ++ (line ++ rest) ∧ offset = before.length ∧ BeginsLine before ∧
    EndsLine rest ∧ '\n' ∉ line

section Placed

variable {s line before rest : Text} {lines : List Text} {offset : Nat}

theorem placedFrom_cons_append (offset : Nat) (first : Text) (lines more : List Text) :
    placedFrom offset (first :: lines ++ more) = placedFrom offset (first :: lines) ++
      placedFrom (offset + (first ++ lines.flatMap ('\n' :: ·)).length + 1) more := by
  induction lines generalizing offset first with
  | nil => simp [placedFrom]
  | cons next lines ih =>
    have hlength : offset + first.length + 1 + (next ++ lines.flatMap ('\n' :: ·)).length + 1 =
        offset + (first ++ (next :: lines).flatMap ('\n' :: ·)).length + 1 := by
      rw [List.flatMap_cons]
      simp only [List.length_append, List.length_cons]
      omega
    rw [List.cons_append, placedFrom, ih, hlength]
    rfl

/-- The lines of two texts with a line feed between them. -/
theorem placed_append (s t : Text) :
    placed (s ++ '\n' :: t) = placed s ++ placedFrom (s.length + 1) (byLineFeed t) := by
  have hs := intercalate_byLineFeed s
  rw [placed, placed, byLineFeed_append]
  cases hl : byLineFeed s with
  | nil => exact absurd hl (Blank.splitWhere_ne_nil _ s)
  | cons first lines =>
    rw [hl, intercalate_cons] at hs
    rw [placedFrom_cons_append, hs, Nat.zero_add]

/-- The line that begins at the start of a text. -/
theorem exists_placedFrom_append (hline : '\n' ∉ line) (hrest : EndsLine rest) (offset : Nat) :
    ∃ more, placedFrom offset (byLineFeed (line ++ rest)) = (offset, line) :: more := by
  rcases hrest with rfl | ⟨t, rfl⟩
  · rw [List.append_nil, byLineFeed_of_not_mem hline]
    exact ⟨_, rfl⟩
  · rw [byLineFeed_append, byLineFeed_of_not_mem hline]
    exact ⟨_, rfl⟩

theorem isLineAt_of_mem_placedFrom {first : Text} {more : List Text} (hbefore : BeginsLine before)
    (hlines : ∀ l ∈ first :: more, '\n' ∉ l)
    (h : (offset, line) ∈ placedFrom before.length (first :: more)) :
    IsLineAt (before ++ (first ++ more.flatMap ('\n' :: ·))) offset line := by
  induction more generalizing before first with
  | nil =>
    obtain ⟨rfl, rfl⟩ := Prod.mk.inj (List.mem_singleton.mp h)
    exact ⟨before, [], rfl, rfl, hbefore, .inl rfl, hlines _ List.mem_cons_self⟩
  | cons next more ih =>
    obtain ⟨hfirst, hmore⟩ := List.forall_mem_cons.mp hlines
    rcases List.mem_cons.mp h with h | h
    · obtain ⟨rfl, rfl⟩ := Prod.mk.inj h
      exact ⟨before, _, rfl, rfl, hbefore, .inr ⟨_, rfl⟩, hfirst⟩
    · have hlength : (before ++ first ++ ['\n']).length = before.length + first.length + 1 := by
        rw [List.length_append, List.length_append, List.length_singleton]
      rw [← hlength] at h
      have hline := ih (.inr ⟨_, rfl⟩) hmore h
      rw [List.flatMap_cons]
      simpa using hline

theorem mem_placed_iff : (offset, line) ∈ placed s ↔ IsLineAt s offset line := by
  constructor
  · intro h
    have hs := intercalate_byLineFeed s
    have hlines (l : Text) (hl : l ∈ byLineFeed s) : '\n' ∉ l := not_mem_of_mem_byLineFeed hl
    unfold placed at h
    cases hl : byLineFeed s with
    | nil => exact absurd hl (Blank.splitWhere_ne_nil _ s)
    | cons first more =>
      rw [hl, intercalate_cons] at hs
      rw [hl] at h hlines
      have hbegins : BeginsLine [] := .inl rfl
      have hline := isLineAt_of_mem_placedFrom hbegins hlines h
      rwa [List.nil_append, hs] at hline
  · rintro ⟨before, rest, rfl, rfl, rfl | ⟨t, rfl⟩, hrest, hline⟩
    · obtain ⟨more, hmore⟩ := exists_placedFrom_append hline hrest 0
      rw [List.nil_append, placed, hmore]
      exact List.mem_cons_self
    · obtain ⟨more, hmore⟩ := exists_placedFrom_append hline hrest (t.length + 1)
      rw [List.append_assoc, List.singleton_append, placed_append, hmore, List.length_append,
        List.length_singleton]
      exact List.mem_append_right _ List.mem_cons_self

end Placed

end Lines

namespace Directive

/-! ## Lines that are directives -/

/-- A line is blanks, the keyword, a blank, a text that is not empty, the suffix, and blanks; its
path is that text with the suffix, without the blanks around it. -/
inductive Spells : Text → Text → Prop
  | intro {lead inner tail : Text} {blank : Char} :
      lead.all isSpaceOrTab = true → isSpaceOrTab blank = true → inner ≠ [] →
      tail.all isSpaceOrTab = true →
      Spells (lead ++ (keyword ++ blank :: (inner ++ (suffix ++ tail)))) (trim (inner ++ suffix))

/-- A line is a directive if it is spelled as one up to a carriage return. -/
def IsDirectiveLine (line : Text) : Prop := ∃ path, Spells (Lines.withoutReturn line) path

/-- `d` is the directive that fills the line at `offset`, up to a carriage return. -/
structure Fills (offset : Nat) (line : Text) (d : Directive) : Prop where
  start : d.start = offset
  line : d.line = Lines.withoutReturn line
  spells : Spells d.line d.path

section Lines

variable {line path s tail : Text} {offset : Nat} {d : Directive}

/-- The last character of the suffix is no blank. -/
theorem dropEndWhile_suffix (htail : tail.all isSpaceOrTab = true) (inner : Text) :
    dropEndWhile isSpaceOrTab (inner ++ (suffix ++ tail)) = inner ++ suffix := by
  rw [← List.append_assoc, Blank.dropEndWhile_append htail]
  refine Blank.dropEndWhile_eq_self fun c hc => ?_
  rw [List.getLast?_append] at hc
  obtain rfl : 'd' = c := Option.some.inj hc
  decide

theorem path?_eq_some_iff : path? line = some path ↔ Spells line path := by
  constructor
  · intro h
    unfold path? at h
    split at h
    next blank rest hrest =>
      dsimp only at h
      split at h
      next hpath =>
        simp only [Bool.and_eq_true, decide_eq_true_eq] at hpath
        obtain ⟨⟨hblank, hsuffix⟩, hlength⟩ := hpath
        obtain ⟨inner, hinner⟩ := List.isSuffixOf_iff_suffix.mp hsuffix
        obtain ⟨tail, htail, hall⟩ := Blank.exists_dropEndWhile isSpaceOrTab rest
        have hne : inner ≠ [] := by
          rintro rfl
          rw [← hinner] at hlength
          exact Nat.lt_irrefl _ hlength
        rw [← hinner] at htail h
        obtain rfl : trim (inner ++ suffix) = path := Option.some.inj h
        have hline : line = line.takeWhile isSpaceOrTab ++
            (keyword ++ blank :: (inner ++ (suffix ++ tail))) := by
          rw [← List.append_assoc inner, ← htail, ← Search.dropStart?_eq_some.mp hrest]
          exact List.takeWhile_append_dropWhile.symm
        rw [hline]
        exact .intro List.all_takeWhile hblank hne hall
      next => cases h
    next => cases h
  · rintro (@⟨lead, inner, tail, blank, hlead, hblank, hne, htail⟩)
    have hat (s : Text) : (keyword ++ s).dropWhile isSpaceOrTab = keyword ++ s := rfl
    have hdrop : Search.dropStart? keyword ((lead ++ (keyword ++
        blank :: (inner ++ (suffix ++ tail)))).dropWhile isSpaceOrTab) =
          some (blank :: (inner ++ (suffix ++ tail))) := by
      rw [List.dropWhile_append_of_pos (List.all_eq_true.mp hlead), hat]
      exact Search.dropStart?_eq_some.mpr rfl
    have hlength : suffix.length < (inner ++ suffix).length := by
      rw [List.length_append]
      exact Nat.lt_add_of_pos_left (List.length_pos_iff.mpr hne)
    have hsuffix : suffix.isSuffixOf (inner ++ suffix) = true :=
      List.isSuffixOf_iff_suffix.mpr (List.suffix_append inner suffix)
    unfold path?
    rw [hdrop]
    dsimp only
    rw [dropEndWhile_suffix htail, hblank, hsuffix, decide_eq_true hlength]
    rfl

instance (line : Text) : Decidable (IsDirectiveLine line) :=
  decidable_of_iff ((path? (Lines.withoutReturn line)).isSome = true)
    (Option.isSome_iff_exists.trans (exists_congr fun _ => path?_eq_some_iff))

theorem ofLine?_eq_some_iff : ofLine? offset line = some d ↔ Fills offset line d := by
  unfold ofLine?
  rw [Option.map_eq_some_iff]
  constructor
  · rintro ⟨path, hpath, rfl⟩
    exact ⟨rfl, rfl, path?_eq_some_iff.mp hpath⟩
  · rintro ⟨rfl, hline, hspells⟩
    exact ⟨d.path, path?_eq_some_iff.mpr (hline ▸ hspells), by rw [← hline]⟩

theorem isDirectiveLine_iff (offset : Nat) (line : Text) :
    IsDirectiveLine line ↔ ∃ d, Fills offset line d :=
  ⟨fun ⟨path, h⟩ => ⟨⟨path, Lines.withoutReturn line, offset⟩, rfl, rfl, h⟩,
    fun ⟨d, h⟩ => ⟨d.path, h.line ▸ h.spells⟩⟩

theorem ofLine?_eq_none_iff : ofLine? offset line = none ↔ ¬IsDirectiveLine line := by
  rw [isDirectiveLine_iff offset line, not_exists, Option.eq_none_iff_forall_ne_some]
  exact forall_congr' fun d => not_congr ofLine?_eq_some_iff

theorem find_eq_filterMap (s : Text) :
    find s = (Lines.placed s).filterMap fun x => ofLine? x.1 x.2 := by
  have hfrom (offset : Nat) (lines : List Text) : findFrom offset lines =
      (Lines.placedFrom offset lines).filterMap fun x => ofLine? x.1 x.2 := by
    induction lines generalizing offset with
    | nil => rfl
    | cons line lines ih =>
      rw [findFrom_cons, ih, Lines.placedFrom, List.filterMap_cons]
      cases ofLine? offset line <;> rfl
  exact hfrom 0 _

/-- Each line that is a directive gives one, and the directives come in the order of the lines. -/
theorem forall₂_fills (s : Text) :
    List.Forall₂ (fun x d => Fills x.1 x.2 d)
      ((Lines.placed s).filter fun x => IsDirectiveLine x.2) (find s) := by
  rw [find_eq_filterMap]
  induction Lines.placed s with
  | nil => exact .nil
  | cons x placed ih =>
    cases hd : ofLine? x.1 x.2 with
    | none =>
      have hline : ¬IsDirectiveLine x.2 := ofLine?_eq_none_iff.mp hd
      rw [List.filter_cons_of_neg (by simpa using hline),
        List.filterMap_cons_none (f := fun x : Nat × Text => ofLine? x.1 x.2) hd]
      exact ih
    | some d =>
      have hfills := ofLine?_eq_some_iff.mp hd
      have hline : IsDirectiveLine x.2 := (isDirectiveLine_iff x.1 x.2).mpr ⟨d, hfills⟩
      rw [List.filter_cons_of_pos (by simpa using hline),
        List.filterMap_cons_some (f := fun x : Nat × Text => ofLine? x.1 x.2) hd]
      exact .cons hfills ih

end Lines

/-! ## Matches -/

/-- A way to read a line with the pattern, and the path of its group. -/
inductive Reads : Text → Text → Prop
  | intro {lead gap inner tail : Text} :
      lead.all isSpaceOrTab = true → gap ≠ [] → gap.all isSpaceOrTab = true →
      inner ≠ [] → '\n' ∉ inner → tail.all isSpaceOrTab = true →
      Reads (lead ++ (keyword ++ (gap ++ (inner ++ suffix ++ tail)))) (trim (inner ++ suffix))

/-- The pattern matches in `s` where `d` stands: from the beginning of a line up to the end of one,
or to one carriage return before it. -/
structure IsMatch (s : Text) (d : Directive) : Prop where
  stands : ∃ before mark rest, s = before ++ (d.line ++ (mark ++ rest)) ∧ d.start = before.length ∧
    Lines.BeginsLine before ∧ (mark = [] ∨ mark = ['\r']) ∧ Lines.EndsLine rest
  reads : Reads d.line d.path

/-- The matches in `s` from `cursor` on: each is the first after the one before. -/
inductive IsScan (s : Text) : Nat → List Directive → Prop
  | done {cursor : Nat} : (∀ d, IsMatch s d → d.start < cursor) → IsScan s cursor []
  | next {cursor : Nat} {d : Directive} {ds : List Directive} :
      IsMatch s d → cursor ≤ d.start →
      (∀ d', IsMatch s d' → cursor ≤ d'.start → d.start ≤ d'.start) →
      IsScan s d.stop ds → IsScan s cursor (d :: ds)

section Matches

variable {s line path : Text} {d : Directive} {ds found : List Directive} {cursor : Nat}

theorem Spells.reads (h : Spells line path) (hline : '\n' ∉ line) : Reads line path := by
  obtain @⟨lead, inner, tail, blank, hlead, hblank, hne, htail⟩ := h
  have hinner : '\n' ∉ inner := fun hmem => hline (by simp [hmem])
  have hgap : [blank].all isSpaceOrTab = true := by simpa using hblank
  have hreads := Reads.intro hlead (List.cons_ne_nil blank []) hgap hne hinner htail
  simpa using hreads

/-- However many blanks the group takes, it has the same path. -/
theorem Reads.spells (h : Reads line path) : Spells line path := by
  obtain @⟨lead, gap, inner, tail, hlead, hgapne, hgap, hne, -, htail⟩ := h
  obtain ⟨blank, gap, rfl⟩ := List.exists_cons_of_ne_nil hgapne
  simp only [List.all_cons, Bool.and_eq_true] at hgap
  have hspells := Spells.intro hlead hgap.1 (List.append_ne_nil_of_right_ne_nil gap hne) htail
  have hblank : isAllBlank gap = true := List.all_eq_true.mpr fun c hc =>
    Blank.isBlank_of_isSpaceOrTab (List.all_eq_true.mp hgap.2 c hc)
  have htrim : trim (gap ++ (inner ++ suffix)) = trim (inner ++ suffix) := by
    rw [trim, trimStart_append hblank]
    rfl
  rw [List.append_assoc gap inner suffix, htrim] at hspells
  simpa using hspells

theorem Reads.not_mem (h : Reads line path) : '\n' ∉ line := by
  have hnot {t : Text} (ht : t.all isSpaceOrTab = true) : '\n' ∉ t := fun hmem =>
    absurd (List.all_eq_true.mp ht _ hmem) (by decide)
  obtain ⟨hlead, -, hgap, -, hinner, htail⟩ := h
  simp only [List.mem_append, not_or]
  exact ⟨hnot hlead, by decide, hnot hgap, ⟨hinner, by decide⟩, hnot htail⟩

/-- A match leaves out the carriage return before the end of its line. -/
theorem Reads.withoutReturn_append {mark : Text} (h : Reads line path)
    (hmark : mark = [] ∨ mark = ['\r']) : Lines.withoutReturn (line ++ mark) = line := by
  rcases hmark with rfl | rfl
  · rw [List.append_nil, Lines.withoutReturn, if_neg]
    intro hlast
    obtain ⟨start, rfl⟩ := List.getLast?_eq_some_iff.mp hlast
    have hpath := path?_eq_some_iff.mpr h.spells
    rw [path?_return] at hpath
    cases hpath
  · rw [Lines.withoutReturn, if_pos (by simp), List.dropLast_concat]

theorem mem_find_iff_fills :
    d ∈ find s ↔ ∃ offset line, Lines.IsLineAt s offset line ∧ Fills offset line d := by
  rw [find_eq_filterMap, List.mem_filterMap]
  constructor
  · rintro ⟨⟨offset, line⟩, hmem, hd⟩
    exact ⟨offset, line, Lines.mem_placed_iff.mp hmem, ofLine?_eq_some_iff.mp hd⟩
  · rintro ⟨offset, line, hline, hfills⟩
    exact ⟨⟨offset, line⟩, Lines.mem_placed_iff.mpr hline, ofLine?_eq_some_iff.mpr hfills⟩

/-- In whichever way the pattern is read, it matches where a directive fills its line, and the path
is that of the directive. -/
theorem mem_find_iff : d ∈ find s ↔ IsMatch s d := by
  rw [mem_find_iff_fills]
  constructor
  · rintro ⟨_, line, ⟨before, rest, hs, rfl, hbegins, hends, hline⟩, hfills⟩
    obtain ⟨mark, hmark, hcases⟩ : ∃ mark, line = d.line ++ mark ∧ (mark = [] ∨ mark = ['\r']) := by
      rw [hfills.line]
      rcases Lines.withoutReturn_cases line with h | h
      · exact ⟨[], by rw [List.append_nil]; exact h.symm, .inl rfl⟩
      · exact ⟨['\r'], h, .inr rfl⟩
    refine ⟨⟨before, mark, rest, ?_, hfills.start, hbegins, hcases, hends⟩, hfills.spells.reads ?_⟩
    · rw [hs, hmark, List.append_assoc]
    · rw [hmark] at hline
      exact fun hmem => hline (List.mem_append_left mark hmem)
  · rintro ⟨⟨before, mark, rest, hs, hstart, hbegins, hmark, hends⟩, hreads⟩
    refine ⟨before.length, d.line ++ mark, ⟨before, rest, ?_, rfl, hbegins, hends, ?_⟩, hstart,
      (hreads.withoutReturn_append hmark).symm, hreads.spells⟩
    · rw [hs, List.append_assoc d.line]
    · rw [List.mem_append, not_or]
      refine ⟨hreads.not_mem, ?_⟩
      rcases hmark with rfl | rfl <;> decide

/-- A directive is the text between its offsets. -/
theorem slice_of_mem_find (h : d ∈ find s) : (s.take d.stop).drop d.start = d.line := by
  obtain ⟨⟨before, mark, rest, rfl, hstart, -⟩, -⟩ := mem_find_iff.mp h
  rw [stop, hstart]
  simp [List.take_append]

theorem start_le_of_mem_findFrom {offset : Nat} {lines : List Text}
    (h : d ∈ findFrom offset lines) : offset ≤ d.start := by
  induction lines generalizing offset with
  | nil => cases h
  | cons line lines ih =>
    rw [findFrom_cons] at h
    rcases List.mem_append.mp h with h | h
    · exact Nat.le_of_eq (of_ofLine? (Option.mem_toList.mp h)).1.symm
    · have hle := ih h
      omega

/-- Directives stand one after another, each on a line of its own. -/
theorem pairwise_find (s : Text) : (find s).Pairwise fun d d' => d.stop < d'.start := by
  have hfrom (offset : Nat) (lines : List Text) :
      (findFrom offset lines).Pairwise fun d d' => d.stop < d'.start := by
    induction lines generalizing offset with
    | nil => exact .nil
    | cons line lines ih =>
      rw [findFrom_cons]
      cases hd : ofLine? offset line with
      | none => exact ih _
      | some d =>
        refine List.pairwise_cons.mpr ⟨fun d' hd' => ?_, ih _⟩
        obtain ⟨hstart, tail, hline, -⟩ := of_ofLine? hd
        have hle := start_le_of_mem_findFrom hd'
        rw [hline, List.length_append] at hle
        rw [stop, hstart]
        omega
  exact hfrom 0 _

theorem IsMatch.start_lt_stop (h : IsMatch s d) : d.start < d.stop := by
  have hat : '@' ∈ d.line := mem_of_path? (path?_eq_some_iff.mpr h.reads.spells)
  exact Nat.lt_add_of_pos_right (List.length_pos_of_mem hat)

/-- What a search finds if the matches from `cursor` on are known, in order. -/
theorem isScan_iff_eq (hfound : found.Pairwise fun d d' => d.stop < d'.start)
    (hmem : ∀ d, d ∈ found ↔ IsMatch s d ∧ cursor ≤ d.start) :
    IsScan s cursor ds ↔ ds = found := by
  induction found generalizing cursor ds with
  | nil =>
    constructor
    · rintro (_ | ⟨hmatch, hcursor, -, -⟩)
      · rfl
      · exact nomatch (hmem _).mpr ⟨hmatch, hcursor⟩
    · rintro rfl
      exact .done fun d hmatch => Nat.lt_of_not_le fun hle => nomatch (hmem d).mpr ⟨hmatch, hle⟩
  | cons d found ih =>
    obtain ⟨hafter, hlater⟩ := List.pairwise_cons.mp hfound
    obtain ⟨hmatch, hcursor⟩ := (hmem d).mp List.mem_cons_self
    have hstop := hmatch.start_lt_stop
    have hfirst : ∀ d', IsMatch s d' → cursor ≤ d'.start → d' = d ∨ d.stop < d'.start := by
      intro d' hmatch' hle
      rcases List.mem_cons.mp ((hmem d').mpr ⟨hmatch', hle⟩) with h | h
      · exact .inl h
      · exact .inr (hafter d' h)
    have hrest : ∀ d', d' ∈ found ↔ IsMatch s d' ∧ d.stop ≤ d'.start := by
      intro d'
      constructor
      · intro h
        exact ⟨((hmem d').mp (List.mem_cons_of_mem d h)).1, Nat.le_of_lt (hafter d' h)⟩
      · rintro ⟨hmatch', hle⟩
        rcases List.mem_cons.mp ((hmem d').mpr ⟨hmatch', by omega⟩) with rfl | h
        · omega
        · exact h
    constructor
    · rintro (hdone | @⟨_, d', ds, hmatch', hcursor', hleast, hscan⟩)
      · exact absurd (hdone d hmatch) (by omega)
      · have hle := hleast d hmatch hcursor
        rcases hfirst d' hmatch' hcursor' with rfl | hlt
        · rw [(ih hlater hrest).mp hscan]
        · omega
    · rintro rfl
      refine .next hmatch hcursor (fun d' hmatch' hle => ?_) ((ih hlater hrest).mpr rfl)
      rcases hfirst d' hmatch' hle with rfl | hlt <;> omega

/-- A search from left to right finds the directives of the lines. -/
theorem isScan_iff : IsScan s 0 ds ↔ ds = find s :=
  isScan_iff_eq (pairwise_find s) fun d => by simp [mem_find_iff]

end Matches

end Directive

end Rulebook
