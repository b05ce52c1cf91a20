import Rulebook.Proofs.Condition.RoundTrip

/-!
# Segments of an expression

The splitter takes a text apart without losing anything (`Expression.IsSplit`): its segments with
the connectives between them are the text, every connective stands outside quotes, and no segment
has a connective outside quotes left inside. It goes on from any quote state, so each of these facts
is kept by the two steps it takes, over a character and over a connective.

Reading then goes over the segments in order. A text that is not blank is an expression just if
each of its segments is a term; otherwise the first segment that is none is to blame, and one with
nothing in it is reported where it stands in the text (`Expression.parse_by_segments`).
-/

namespace Rulebook

open Blank (isAllBlank)

namespace Expression

abbrev Pieces := Text × List (Connective × Text)

namespace Pieces

/-- The texts between the connectives. -/
def segments (pieces : Pieces) : List Text := pieces.1 :: pieces.2.map (·.2)

/-- The connectives between the segments. -/
def operators (pieces : Pieces) : List Connective := pieces.2.map (·.1)

/-- What stands before the segment at `i`: the earlier ones, each with the connective after it. -/
def front : Pieces → Nat → Text
  | _, 0 => []
  | (_, []), _ + 1 => []
  | (first, (k, next) :: more), i + 1 => first ++ (k.text.toList ++ front (next, more) i)

section Front

variable {pieces : Pieces} {segment : Text} {c : Char} {k : Connective} {i : Nat}

theorem length_segments (pieces : Pieces) :
    (segments pieces).length = (operators pieces).length + 1 := by
  simp [segments, operators]

/-- Every segment stands after its front, and before the connective that follows it. -/
theorem joined_eq_front (h : (segments pieces)[i]? = some segment) :
    ∃ rest, joined pieces = front pieces i ++ (segment ++ rest) ∧
      ∀ k, (operators pieces)[i]? = some k → k.text.toList <+: rest := by
  obtain ⟨first, more⟩ := pieces
  induction more generalizing first i with
  | nil =>
    cases i with
    | zero =>
      obtain rfl : first = segment := by simpa [segments] using h
      exact ⟨[], by simp [joined, front], fun k hk => nomatch hk⟩
    | succ i => cases h
  | cons x more ih =>
    obtain ⟨k, next⟩ := x
    have hjoined : joined (first, (k, next) :: more) =
        first ++ (k.text.toList ++ joined (next, more)) := by
      simp [joined]
    cases i with
    | zero =>
      obtain rfl : first = segment := by simpa [segments] using h
      refine ⟨_, hjoined, fun k' hk' => ?_⟩
      obtain rfl : k = k' := by simpa [operators] using hk'
      exact List.prefix_append _ _
    | succ i =>
      obtain ⟨rest, heq, hrest⟩ := ih next h
      refine ⟨rest, ?_, hrest⟩
      rw [hjoined, heq, front]
      simp

theorem front_addChar (c : Char) (h : (segments pieces)[i + 1]? = some segment) :
    front (addChar c pieces) (i + 1) = c :: front pieces (i + 1) := by
  obtain ⟨first, more⟩ := pieces
  cases more with
  | nil => cases h
  | cons x more => rfl

theorem length_front_succ (first next : Text) (k : Connective) (more : List (Connective × Text))
    (i : Nat) : (front (first, (k, next) :: more) (i + 1)).length =
      first.length + 2 + (front (next, more) i).length := by
  have htwo : k.text.toList.length = 2 := by cases k <;> rfl
  rw [front, List.length_append, List.length_append, htwo, Nat.add_assoc]

theorem front_addConnective (pieces : Pieces) (k : Connective) (i : Nat) :
    front (addConnective k pieces) (i + 1) = k.text.toList ++ front pieces i := rfl

end Front

end Pieces

open Pieces

/-! ## Nothing is lost -/

/-- `pieces` are the text `s`, cut at its connectives outside quotes, where `quote` is the quote
that is open before `s`. -/
structure IsSplit (quote : Option Char) (s : Text) (pieces : Pieces) : Prop where
  whole : joined pieces = s
  outside : ∀ i k segment, (operators pieces)[i]? = some k → (segments pieces)[i]? = some segment →
    quoteAfter quote (front pieces i ++ segment) = none
  intact : ∀ i segment, (segments pieces)[i]? = some segment →
    ∀ (before after : Text) (k : Connective), segment = before ++ (k.text.toList ++ after) →
      quoteAfter quote (front pieces i ++ before) ≠ none

section Split

variable {quote : Option Char} {s : Text} {pieces : Pieces} {c : Char} {k : Connective}

theorem isSplit_nil (quote : Option Char) : IsSplit quote [] ([], []) where
  whole := rfl
  outside _ _ _ hk := nomatch hk
  intact i segment h before after k hsegment := by
    cases i with
    | zero =>
      obtain rfl : [] = segment := by simpa [segments] using h
      cases k <;> simp [Connective.text] at hsegment
    | succ i => cases h

/-- A character that begins no connective goes to the first segment. -/
theorem IsSplit.addChar (h : IsSplit (nextQuote quote c) s pieces)
    (hc : quote = none → ∀ (k : Connective) (r : Text), c :: s ≠ k.text.toList ++ r) :
    IsSplit quote (c :: s) (addChar c pieces) where
  whole := congrArg (c :: ·) h.whole
  outside i k segment hk hsegment := by
    cases i with
    | zero =>
      obtain rfl : c :: pieces.1 = segment := by simpa [segments, Expression.addChar] using hsegment
      exact h.outside 0 k pieces.1 hk rfl
    | succ i =>
      have hstands : (segments pieces)[i + 1]? = some segment := hsegment
      rw [front_addChar c hstands]
      exact h.outside (i + 1) k segment hk hstands
  intact i segment hsegment before after k hinside := by
    cases i with
    | zero =>
      obtain rfl : c :: pieces.1 = segment := by simpa [segments, Expression.addChar] using hsegment
      cases before with
      | nil =>
        intro hquote
        refine hc hquote k (after ++ pieces.2.flatMap fun x => x.1.text.toList ++ x.2) ?_
        rw [← List.append_assoc, ← List.nil_append (k.text.toList ++ after), ← hinside, ← h.whole]
        rfl
      | cons d before =>
        obtain ⟨rfl, hfirst⟩ := List.cons.inj hinside
        exact h.intact 0 pieces.1 rfl before after k hfirst
    | succ i =>
      have hstands : (segments pieces)[i + 1]? = some segment := hsegment
      rw [front_addChar c hstands]
      exact h.intact (i + 1) segment hstands before after k hinside

theorem quoteAfter_connective (k : Connective) (s : Text) :
    quoteAfter none (k.text.toList ++ s) = quoteAfter none s := by
  cases k <;> rfl

/-- A connective outside quotes begins a new segment. -/
theorem IsSplit.addConnective (h : IsSplit none s pieces) (k : Connective) :
    IsSplit none (k.text.toList ++ s) (addConnective k pieces) where
  whole := by rw [joined_addConnective, h.whole]
  outside i k' segment hk hsegment := by
    cases i with
    | zero =>
      obtain rfl : [] = segment := by simpa [segments, Expression.addConnective] using hsegment
      rfl
    | succ i =>
      rw [front_addConnective, List.append_assoc, quoteAfter_connective]
      exact h.outside i k' segment hk hsegment
  intact i segment hsegment before after k' hinside := by
    cases i with
    | zero =>
      obtain rfl : [] = segment := by simpa [segments, Expression.addConnective] using hsegment
      cases k' <;> simp [Connective.text] at hinside
    | succ i =>
      rw [front_addConnective, List.append_assoc, quoteAfter_connective]
      exact h.intact i segment hsegment before after k' hinside

theorem isSplit_splitFrom (quote : Option Char) (s : Text) :
    IsSplit quote s (splitFrom quote s) := by
  fun_induction splitFrom quote s with
  | case1 quote => exact isSplit_nil quote
  | case2 q c s ih =>
    have hs : IsSplit (nextQuote (some q) c) s _ := ih
    exact hs.addChar fun h => absurd h (Option.some_ne_none q)
  | case3 s ih => exact ih.addConnective .and
  | case4 s ih => exact ih.addConnective .or
  | case5 c s hand hor ih =>
    have hs : IsSplit (nextQuote none c) s _ := ih
    refine hs.addChar fun _ k r hk => ?_
    cases k with
    | and => exact hand r (List.cons.inj hk).1 (List.cons.inj hk).2
    | or => exact hor r (List.cons.inj hk).1 (List.cons.inj hk).2

end Split

/-! ## The terms of the segments -/

/-- Each segment is read as the term at its place. -/
def AreRead (pieces : Pieces) (terms : List Term) : Prop :=
  List.Forall₂ (fun segment t => Term.parse segment = .ok t) (segments pieces) terms

/-- The segment at `i` is the first that is no term, and `e` is the error of reading it. -/
structure IsFirstRefused (pieces : Pieces) (i : Nat) (segment : Text) (e : Condition.Error) :
    Prop where
  stands : (segments pieces)[i]? = some segment
  earlier : ∀ other ∈ (segments pieces).take i, ∃ t, Term.parse other = .ok t
  refused : Term.parse segment = .error e

/-- Which operand is missing if the segment at `i` is blank. -/
def place (pieces : Pieces) (i : Nat) : Condition.Place :=
  match i, operators pieces with
  | 0, k :: _ => .before k
  | i, ks => if i = ks.length then .last else .between

/-- What is reported about the segment at `i` of `whole`, where `e` is the error of reading it. -/
def report (whole : Text) (pieces : Pieces) (i : Nat) (segment : Text) (e : Condition.Error) :
    Condition.Error :=
  if isAllBlank segment then missing (place pieces i) whole (front pieces i).length else e

section Refused

variable {pieces : Pieces} {more : List (Connective × Text)} {first next segment whole s : Text}
  {k : Connective} {i : Nat} {e : Condition.Error}

theorem isFirstRefused_succ_iff : IsFirstRefused (first, (k, next) :: more) (i + 1) segment e ↔
    (∃ t, Term.parse first = .ok t) ∧ IsFirstRefused (next, more) i segment e := by
  constructor
  · rintro ⟨hstands, hearlier, hrefused⟩
    obtain ⟨hfirst, hearlier⟩ := List.forall_mem_cons.mp hearlier
    exact ⟨hfirst, hstands, hearlier, hrefused⟩
  · rintro ⟨hfirst, hstands, hearlier, hrefused⟩
    exact ⟨hstands, List.forall_mem_cons.mpr ⟨hfirst, hearlier⟩, hrefused⟩

theorem place_succ (first next : Text) (k : Connective) (more : List (Connective × Text))
    (i : Nat) : place (first, (k, next) :: more) (i + 1) =
      if i = more.length then .last else .between := by
  simp [place, operators]

theorem IsFirstRefused.head (h : IsFirstRefused (first, more) 0 segment e) : segment = first :=
  (Option.some.inj h.stands).symm

/-- Either all segments are terms, or there is a first that is none. -/
theorem read_or_refused (pieces : Pieces) :
    (∀ segment ∈ segments pieces, ∃ t, Term.parse segment = .ok t) ∨
      ∃ i segment e, IsFirstRefused pieces i segment e := by
  obtain ⟨first, more⟩ := pieces
  induction more generalizing first with
  | nil =>
    cases h : Term.parse first with
    | ok t => exact .inl (List.forall_mem_singleton.mpr ⟨t, h⟩)
    | error e => exact .inr ⟨0, first, e, rfl, fun _ hmem => (nomatch hmem), h⟩
  | cons x more ih =>
    obtain ⟨k, next⟩ := x
    cases h : Term.parse first with
    | error e => exact .inr ⟨0, first, e, rfl, fun _ hmem => (nomatch hmem), h⟩
    | ok t =>
      rcases ih next with hread | ⟨i, segment, e, hrefused⟩
      · exact .inl (List.forall_mem_cons.mpr ⟨⟨t, h⟩, hread⟩)
      · exact .inr ⟨i + 1, segment, e, isFirstRefused_succ_iff.mpr ⟨⟨t, h⟩, hrefused⟩⟩

theorem parseRest_of_isFirstRefused (h : IsFirstRefused (next, more) i segment e) (whole : Text)
    (offset : Nat) (k : Connective) : parseRest whole offset ((k, next) :: more) =
      .error (if isAllBlank segment then
        missing (if i = more.length then .last else .between) whole
          (offset + (front (next, more) i).length)
      else e) := by
  induction more generalizing next i offset k with
  | nil =>
    cases i with
    | zero =>
      obtain rfl := h.head
      rw [parseRest, h.refused]
      split <;> rfl
    | succ i => cases h.stands
  | cons x more ih =>
    obtain ⟨k', next'⟩ := x
    cases i with
    | zero =>
      obtain rfl := h.head
      rw [parseRest, h.refused]
      split <;> rfl
    | succ i =>
      obtain ⟨⟨t, ht⟩, h⟩ := isFirstRefused_succ_iff.mp h
      rw [parseRest, if_neg (by simp [isAllBlank_of_parse ht]), ht, length_front_succ,
        List.length_cons, ← Nat.add_assoc, ← Nat.add_assoc]
      simp only [Nat.add_right_cancel_iff]
      show (parseRest whole (offset + next.length + 2) ((k', next') :: more) >>= _) = _
      rw [ih h]
      rfl

/-- The first segment that is no term is to blame. -/
theorem parse_of_isFirstRefused (hs : isAllBlank s = false)
    (h : IsFirstRefused (split s) i segment e) :
    parse s = .error (report s (split s) i segment e) := by
  have hwhole : joined (split s) = s := joined_splitFrom none s
  rw [parse, if_neg (by simp [hs])]
  generalize split s = pieces at h hwhole
  obtain ⟨first, more⟩ := pieces
  cases more with
  | nil =>
    cases i with
    | zero =>
      obtain rfl := h.head
      obtain rfl : segment = s := by simpa [joined] using hwhole
      dsimp only
      rw [h.refused, report, if_neg (by simp [hs])]
      rfl
    | succ i => cases h.stands
  | cons x more =>
    obtain ⟨k, next⟩ := x
    cases i with
    | zero =>
      obtain rfl := h.head
      dsimp only
      rw [h.refused, report]
      split <;> rfl
    | succ i =>
      obtain ⟨⟨t, ht⟩, h⟩ := isFirstRefused_succ_iff.mp h
      dsimp only
      rw [if_neg (by simp [isAllBlank_of_parse ht]), ht, parseRest_of_isFirstRefused h, report,
        place_succ, length_front_succ]
      rfl

theorem reads_iff {rest : List (Connective × Term)} {t : Term} : Reads pieces t rest ↔
    AreRead pieces (t :: rest.map (·.2)) ∧ rest.map (·.1) = operators pieces := by
  have hrest (xs : List (Connective × Text)) :
      List.Forall₂ (fun x y => x.1 = y.1 ∧ Term.parse x.2 = .ok y.2) xs rest ↔
        List.Forall₂ (fun segment t => Term.parse segment = .ok t) (xs.map (·.2)) (rest.map (·.2)) ∧
          rest.map (·.1) = xs.map (·.1) := by
    induction rest generalizing xs with
    | nil => cases xs <;> simp
    | cons y rest ih =>
      cases xs with
      | nil => simp
      | cons x xs =>
        rw [List.forall₂_cons, ih, List.map_cons, List.map_cons, List.forall₂_cons, List.map_cons,
          List.map_cons, List.cons.injEq]
        tauto
  unfold Reads AreRead
  rw [hrest, segments, List.forall₂_cons, and_assoc]
  rfl

theorem exists_reads (h : ∀ segment ∈ segments pieces, ∃ t, Term.parse segment = .ok t) :
    ∃ t rest, Reads pieces t rest := by
  obtain ⟨first, more⟩ := pieces
  obtain ⟨⟨t, ht⟩, hmore⟩ := List.forall_mem_cons.mp h
  suffices hrest : ∃ rest : List (Connective × Term),
      List.Forall₂ (fun x y => x.1 = y.1 ∧ Term.parse x.2 = .ok y.2) more rest by
    obtain ⟨rest, hrest⟩ := hrest
    exact ⟨t, rest, ht, hrest⟩
  clear h ht
  induction more with
  | nil => exact ⟨[], .nil⟩
  | cons x more ih =>
    obtain ⟨⟨t', ht'⟩, hmore⟩ := List.forall_mem_cons.mp hmore
    obtain ⟨rest, hrest⟩ := ih hmore
    exact ⟨(x.1, t') :: rest, .cons ⟨rfl, ht'⟩ hrest⟩

theorem parse_ok_iff_areRead {e : Expression} :
    parse s = .ok e ↔ AreRead (split s) e.terms ∧ e.connectives = operators (split s) :=
  parse_ok_iff.trans reads_iff

theorem exists_parse_ok_iff : (∃ e, parse s = .ok e) ↔
    ∀ segment ∈ segments (split s), ∃ t, Term.parse segment = .ok t := by
  constructor
  · rintro ⟨e, he⟩ segment hsegment
    obtain ⟨hread, -⟩ := parse_ok_iff_areRead.mp he
    obtain ⟨i, hi, rfl⟩ := List.getElem_of_mem hsegment
    obtain ⟨hlength, hget⟩ := List.forall₂_iff_get.mp hread
    exact ⟨_, hget i hi (hlength ▸ hi)⟩
  · intro h
    obtain ⟨t, rest, hreads⟩ := exists_reads h
    exact ⟨⟨t, rest⟩, parse_ok_iff.mpr hreads⟩

theorem parse_error_iff {error : Condition.Error} (hs : isAllBlank s = false) :
    parse s = .error error ↔ ∃ i segment e, IsFirstRefused (split s) i segment e ∧
      error = report s (split s) i segment e := by
  constructor
  · intro herror
    rcases read_or_refused (split s) with hread | ⟨i, segment, e, hrefused⟩
    · obtain ⟨e, he⟩ := exists_parse_ok_iff.mpr hread
      rw [he] at herror
      cases herror
    · rw [parse_of_isFirstRefused hs hrefused] at herror
      exact ⟨i, segment, e, hrefused, (Except.error.inj herror).symm⟩
  · rintro ⟨i, segment, e, hrefused, rfl⟩
    exact parse_of_isFirstRefused hs hrefused

/-- The splitter loses nothing and cuts at connectives outside quotes alone. A text is an expression
just if each of its segments is a term; otherwise the first that is none is to blame. -/
theorem parse_by_segments (s : Text) :
    IsSplit none s (split s) ∧
    (segments (split s)).length = (operators (split s)).length + 1 ∧
    (∀ i segment, (segments (split s))[i]? = some segment →
      ∃ rest, s = front (split s) i ++ (segment ++ rest) ∧
        ∀ k, (operators (split s))[i]? = some k → k.text.toList <+: rest) ∧
    (∀ e, parse s = .ok e ↔
      AreRead (split s) e.terms ∧ e.connectives = operators (split s)) ∧
    ((∃ e, parse s = .ok e) ↔
      ∀ segment ∈ segments (split s), ∃ t, Term.parse segment = .ok t) ∧
    ∀ error, parse s = .error error ↔
      isAllBlank s = true ∧ error = ⟨.emptyExpression, String.ofList s, none⟩ ∨
      isAllBlank s = false ∧ ∃ i segment e, IsFirstRefused (split s) i segment e ∧
        error = report s (split s) i segment e := by
  have hsplit : IsSplit none s (split s) := isSplit_splitFrom none s
  refine ⟨hsplit, length_segments _, fun i segment hsegment => ?_, fun e => parse_ok_iff_areRead,
    exists_parse_ok_iff, fun error => ?_⟩
  · have hfront := joined_eq_front hsegment
    rwa [hsplit.whole] at hfront
  · cases hs : isAllBlank s with
    | true =>
      have hparse : parse s = .error ⟨.emptyExpression, String.ofList s, none⟩ := if_pos hs
      rw [hparse]
      simp [eq_comm]
    | false => simpa using parse_error_iff hs

/-- The first of three ampersands begins the connective, and the third goes to the segment after. -/
example : parse "npm:a&&&npm:b".toList =
    .error ⟨.malformedIdentifier, "&npm:b", some 0⟩ := by cbv

end Refused

end Expression

end Rulebook
