import Mathlib.Control.Monad.Basic
import Mathlib.Data.List.Forall2
import Rulebook.Proofs.Condition.Written

/-!
# Reading written expressions

An expression that was read and is written again reads back as the same expression just if it is
legible (`Expression.parse_text_iff`): its terms are plain, none of them shows a connective outside
quotes, and none but the last leaves a quote open. Not all are: a name that was quoted for its `==`
is written without quotes.
-/

namespace Rulebook

open Blank (isBlank trim trimStart)

namespace Expression

/-! ## Splitting -/

def nextQuote : Option Char → Char → Option Char
  | some quote, c => if c = quote then none else some quote
  | none, c => if c = '"' || c = '\'' then some c else none

/-- The quote that is open after `s` where `quote` is open before it. -/
def quoteAfter (quote : Option Char) (s : Text) : Option Char := s.foldl nextQuote quote

section Split

variable {quote : Option Char} {s t u : Text} {c : Char}

theorem splitFrom_connective (c : Connective) (s : Text) :
    splitFrom none (c.text.toList ++ s) = addConnective c (splitFrom none s) := by
  cases c <;> rfl

theorem splitFrom_eq_of_snd_eq_nil (h : (splitFrom quote s).2 = []) :
    splitFrom quote s = (s, []) := by
  fun_induction splitFrom quote s with
  | case1 => rfl
  | case2 quote c s ih => rw [ih h, addChar]
  | case3 => cases h
  | case4 => cases h
  | case5 c s _ _ ih => rw [ih h, addChar]

/-- A character that begins no connective goes to the piece that is being read. -/
theorem splitFrom_cons (h : quote = none → ∀ k : Connective, ∀ r, c :: s ≠ k.text.toList ++ r) :
    splitFrom quote (c :: s) = addChar c (splitFrom (nextQuote quote c) s) := by
  cases quote with
  | some q => rfl
  | none =>
    rw [splitFrom]
    · rfl
    · rintro r rfl rfl
      exact h rfl .and r rfl
    · rintro r rfl rfl
      exact h rfl .or r rfl

theorem connective_or_char (quote : Option Char) (c : Char) (s : Text) :
    (quote = none ∧ ∃ (k : Connective) (r : Text), c :: s = k.text.toList ++ r) ∨
      (quote = none → ∀ k : Connective, ∀ r, c :: s ≠ k.text.toList ++ r) := by
  by_cases h : quote = none ∧ ∃ (k : Connective) (r : Text), c :: s = k.text.toList ++ r
  · exact .inl h
  · exact .inr fun hq k r hk => h ⟨hq, k, r, hk⟩

/-- A connective after a space begins after the space. -/
theorem ne_connective_append (h : ∀ k : Connective, ∀ r, c :: s ≠ k.text.toList ++ r)
    (k : Connective) (r : Text) : c :: (s ++ ' ' :: t) ≠ k.text.toList ++ r := by
  intro hk
  cases s with
  | nil => cases k <;> cases hk
  | cons d s =>
    refine h k s ?_
    cases k <;> (cases hk; rfl)

/-- A piece without connectives goes on after a space. -/
theorem splitFrom_append_space (h : (splitFrom quote s).2 = []) (t : Text) :
    splitFrom quote (s ++ ' ' :: t) =
      (s ++ ' ' :: (splitFrom (quoteAfter quote (s ++ [' '])) t).1,
        (splitFrom (quoteAfter quote (s ++ [' '])) t).2) := by
  induction s generalizing quote with
  | nil =>
    rw [List.nil_append, splitFrom_cons]
    · rfl
    · intro _ k r hk
      cases k <;> cases hk
  | cons c s ih =>
    rcases connective_or_char quote c s with ⟨rfl, k, r, hk⟩ | hk
    · rw [hk, splitFrom_connective] at h
      cases h
    · rw [splitFrom_cons hk] at h
      rw [List.cons_append, splitFrom_cons fun hq => ne_connective_append (hk hq), ih h]
      rfl

/-- A first piece that goes on after `s` shows no connective in `s`. -/
theorem snd_splitFrom_eq_nil (h : (splitFrom quote (s ++ ' ' :: t)).1 = s ++ u) :
    (splitFrom quote s).2 = [] := by
  induction s generalizing quote with
  | nil => rfl
  | cons c s ih =>
    rcases connective_or_char quote c s with ⟨rfl, k, r, hk⟩ | hk
    · rw [hk, List.append_assoc, splitFrom_connective] at h
      cases k <;> cases h
    · rw [List.cons_append, splitFrom_cons fun hq => ne_connective_append (hk hq)] at h
      rw [splitFrom_cons hk]
      exact ih (List.cons.inj h).2

theorem nextQuote_ne_space (h : quote ≠ some ' ') (c : Char) : nextQuote quote c ≠ some ' ' := by
  cases quote with
  | some q =>
    rw [nextQuote]
    split
    · simp
    · exact h
  | none =>
    rw [nextQuote]
    split
    next hc =>
      intro hspace
      cases hspace
      simp at hc
    next => simp

theorem quoteAfter_ne_space (h : quote ≠ some ' ') (s : Text) : quoteAfter quote s ≠ some ' ' := by
  induction s generalizing quote with
  | nil => exact h
  | cons c s ih => exact ih (nextQuote_ne_space h c)

theorem quoteAfter_append_space (s : Text) : quoteAfter none (s ++ [' ']) = quoteAfter none s := by
  have hne : quoteAfter none s ≠ some ' ' := quoteAfter_ne_space (by simp) s
  have happend : quoteAfter none (s ++ [' ']) = nextQuote (quoteAfter none s) ' ' := by
    unfold quoteAfter
    rw [List.foldl_append]
    rfl
  rw [happend]
  cases hq : quoteAfter none s with
  | none => rfl
  | some q =>
    have hspace : ' ' ≠ q := fun h => hne (by rw [hq, h])
    rw [nextQuote, if_neg hspace]

/-- The pieces with the connectives between them. -/
def joined (pieces : Text × List (Connective × Text)) : Text :=
  pieces.1 ++ pieces.2.flatMap fun x => x.1.text.toList ++ x.2

theorem joined_addConnective (c : Connective) (pieces : Text × List (Connective × Text)) :
    joined (addConnective c pieces) = c.text.toList ++ joined pieces := by
  simp [joined, addConnective]

theorem joined_splitFrom (quote : Option Char) (s : Text) : joined (splitFrom quote s) = s := by
  fun_induction splitFrom quote s with
  | case1 => rfl
  | case2 quote c s ih => exact congrArg (c :: ·) ih
  | case3 s ih =>
    rw [joined_addConnective, ih]
    rfl
  | case4 s ih =>
    rw [joined_addConnective, ih]
    rfl
  | case5 c s _ _ ih => exact congrArg (c :: ·) ih

end Split

/-! ## Reading the pieces -/

/-- The pieces are read as the terms, with the same connectives between them. -/
def Reads (pieces : Text × List (Connective × Text)) (first : Term)
    (rest : List (Connective × Term)) : Prop :=
  Term.parse pieces.1 = .ok first ∧
    List.Forall₂ (fun x y => x.1 = y.1 ∧ Term.parse x.2 = .ok y.2) pieces.2 rest

section Read

variable {s : Text} {e : Expression}

theorem isAllBlank_of_parse {t : Term} (h : Term.parse s = .ok t) :
    Blank.isAllBlank s = false := by
  cases hs : Blank.isAllBlank s with
  | false => rfl
  | true =>
    rw [Term.parse_eq, Blank.trim_of_isAllBlank hs] at h
    cases h

theorem parseRest_ok_iff (whole : Text) (offset : Nat) (pieces : List (Connective × Text))
    (terms : List (Connective × Term)) : parseRest whole offset pieces = .ok terms ↔
      List.Forall₂ (fun x y => x.1 = y.1 ∧ Term.parse x.2 = .ok y.2) pieces terms := by
  induction pieces generalizing offset terms with
  | nil =>
    rw [parseRest, List.forall₂_nil_left_iff]
    exact ⟨fun h => by cases h; rfl, fun h => by rw [h]⟩
  | cons x pieces ih =>
    obtain ⟨c, piece⟩ := x
    rw [parseRest, List.forall₂_cons_left_iff]
    constructor
    · intro h
      split at h
      · cases h
      obtain ⟨t, ht, h⟩ := bind_eq_ok_iff.mp h
      obtain ⟨ts, hts, h⟩ := bind_eq_ok_iff.mp h
      cases h
      exact ⟨(c, t), ts, ⟨rfl, ht⟩, (ih _ _).mp hts, rfl⟩
    · rintro ⟨⟨c', t⟩, ts, ⟨rfl, ht⟩, hts, rfl⟩
      rw [if_neg (by simp [isAllBlank_of_parse ht]), ht, (ih _ _).mpr hts]
      rfl

/-- An expression is read if its pieces are. -/
theorem parse_ok_iff : parse s = .ok e ↔ Reads (split s) e.first e.rest := by
  obtain ⟨first, rest⟩ := e
  have hblank (h : Term.parse (split s).1 = .ok first) : Blank.isAllBlank s = false := by
    have hpiece := isAllBlank_of_parse h
    rw [← joined_splitFrom none s, joined, Blank.isAllBlank, List.all_append]
    unfold Blank.isAllBlank at hpiece
    rw [split] at hpiece
    rw [hpiece, Bool.false_and]
  unfold parse Reads
  constructor
  · intro h
    split at h
    · cases h
    split at h
    next piece hpiece =>
      rw [hpiece]
      obtain ⟨t, ht, h⟩ := bind_eq_ok_iff.mp h
      cases h
      exact ⟨ht, .nil⟩
    next piece c piece' more hpieces =>
      split at h
      · cases h
      rw [hpieces]
      obtain ⟨t, ht, h⟩ := bind_eq_ok_iff.mp h
      obtain ⟨ts, hts, h⟩ := bind_eq_ok_iff.mp h
      cases h
      exact ⟨ht, (parseRest_ok_iff _ _ _ _).mp hts⟩
  · rintro ⟨hfirst, hrest⟩
    rw [if_neg (by simp [hblank hfirst])]
    split
    next piece hpiece =>
      rw [hpiece] at hfirst hrest
      rw [hfirst]
      cases hrest
      rfl
    next piece c piece' more hpieces =>
      rw [hpieces] at hfirst hrest
      rw [if_neg (by simp [isAllBlank_of_parse hfirst]), hfirst,
        (parseRest_ok_iff _ _ _ _).mpr hrest]
      rfl

end Read

/-! ## Written expressions -/

def writtenRest : List (Connective × Term) → Text
  | [] => []
  | (c, t) :: rest => ' ' :: (c.text.toList ++ ' ' :: (t.text.toList ++ writtenRest rest))

theorem toList_text (e : Expression) :
    e.text.toList = e.first.text.toList ++ writtenRest e.rest := by
  have hfold (rest : List (Connective × Term)) (s : String) :
      (rest.foldl (fun s x => s ++ " " ++ x.1.text ++ " " ++ x.2.text) s).toList =
        s.toList ++ writtenRest rest := by
    induction rest generalizing s with
    | nil => simp [writtenRest]
    | cons x rest ih => simp [ih, writtenRest]
  exact hfold e.rest e.first.text

/-- Its terms are plain, none of them shows a connective outside quotes, and none but the last
leaves a quote open. -/
structure IsLegible (e : Expression) : Prop where
  plain : ∀ t ∈ e.terms, t.IsPlain
  whole : ∀ t ∈ e.terms, (split t.text.toList).2 = []
  closed : ∀ t ∈ e.terms.dropLast, quoteAfter none t.text.toList = none

section Written

variable {first t : Term} {c : Connective} {rest : List (Connective × Term)}

theorem isLegible_single : IsLegible ⟨first, []⟩ ↔
    first.IsPlain ∧ (split first.text.toList).2 = [] := by
  constructor
  · intro h
    exact ⟨h.plain first List.mem_cons_self, h.whole first List.mem_cons_self⟩
  · rintro ⟨hp, hw⟩
    refine ⟨fun t ht => ?_, fun t ht => ?_, fun t ht => nomatch ht⟩
    · cases List.mem_singleton.mp ht
      exact hp
    · cases List.mem_singleton.mp ht
      exact hw

theorem isLegible_cons : IsLegible ⟨first, (c, t) :: rest⟩ ↔
    first.IsPlain ∧ (split first.text.toList).2 = [] ∧ quoteAfter none first.text.toList = none ∧
      IsLegible ⟨t, rest⟩ := by
  have hterms : (⟨first, (c, t) :: rest⟩ : Expression).terms =
      first :: (⟨t, rest⟩ : Expression).terms := rfl
  have hlast : (⟨first, (c, t) :: rest⟩ : Expression).terms.dropLast =
      first :: (⟨t, rest⟩ : Expression).terms.dropLast := rfl
  constructor
  · rintro ⟨hp, hw, hc⟩
    rw [hterms] at hp hw
    rw [hlast] at hc
    rw [List.forall_mem_cons] at hp hw hc
    exact ⟨hp.1, hw.1, hc.1, hp.2, hw.2, hc.2⟩
  · rintro ⟨hp, hw, hc, hps, hws, hcs⟩
    refine ⟨?_, ?_, ?_⟩
    · rw [hterms, List.forall_mem_cons]
      exact ⟨hp, hps⟩
    · rw [hterms, List.forall_mem_cons]
      exact ⟨hw, hws⟩
    · rw [hlast, List.forall_mem_cons]
      exact ⟨hc, hcs⟩

/-- What stands before a written term: nothing, or the space after a connective. -/
def IsLead (a : Text) : Prop := a = [] ∨ a = [' ']

variable {a r : Text}

theorem IsLead.isAllBlank (ha : IsLead a) : Blank.isAllBlank a = true := by
  rcases ha with rfl | rfl <;> rfl

theorem IsLead.snd_split (ha : IsLead a) (s : Text) : (split (a ++ s)).2 = (split s).2 := by
  rcases ha with rfl | rfl <;> rfl

theorem IsLead.quoteAfter (ha : IsLead a) (s : Text) :
    quoteAfter none (a ++ s) = Expression.quoteAfter none s := by
  rcases ha with rfl | rfl <;> rfl

theorem reads_single_iff (ha : IsLead a) (ht : first.Readable) :
    Reads (split (a ++ first.text.toList)) first [] ↔
      first.IsPlain ∧ (split first.text.toList).2 = [] := by
  have hparse := Term.parse_padded_iff (b := []) ht ha.isAllBlank rfl
  rw [List.append_nil] at hparse
  unfold Reads
  rw [List.forall₂_nil_right_iff, ← ha.snd_split first.text.toList, ← hparse]
  refine and_congr_left fun hw => ?_
  rw [split, splitFrom_eq_of_snd_eq_nil hw]

/-- A connective is one character twice. -/
theorem exists_doubled (c : Connective) : ∃ d, c.text.toList = [d, d] ∧ isSolid d = true := by
  cases c with
  | and => exact ⟨'&', rfl, by decide⟩
  | or => exact ⟨'|', rfl, by decide⟩

/-- The first piece that was read ends before the connective that was read, if a text of the same
weight does. -/
theorem fst_eq_of_reads {pieces : Text × List (Connective × Text)} {s : Text}
    (h : Reads pieces first ((c, t) :: rest)) (hjoined : joined pieces = s ++ (c.text.toList ++ r))
    (hw : weight s = weight first.text.toList) : pieces.1 = s := by
  obtain ⟨hfirst, hrest⟩ := h
  obtain ⟨⟨c', piece⟩, more, ⟨hc, -⟩, -, hmore⟩ := List.forall₂_cons_right_iff.mp hrest
  change c' = c at hc
  subst hc
  obtain ⟨d, hk, hd⟩ := exists_doubled c'
  have happend : pieces.1 ++ d :: (d :: piece ++ more.flatMap fun x => x.1.text.toList ++ x.2) =
      s ++ d :: (d :: r) := by
    rw [joined, hmore, List.flatMap_cons, hk] at hjoined
    simpa using hjoined
  exact eq_of_weight_eq happend ((Term.of_parse hfirst).2.trans hw.symm) hd hd

/-- The first piece of a written expression is its first term, if that is how it reads back. -/
theorem fst_split_of_reads (ha : IsLead a)
    (h : Reads (split (a ++ first.text.toList ++ ' ' :: (c.text.toList ++ r))) first
      ((c, t) :: rest)) :
    (split (a ++ first.text.toList ++ ' ' :: (c.text.toList ++ r))).1 =
      a ++ first.text.toList ++ [' '] := by
  refine fst_eq_of_reads (r := r) h ?_ ?_
  · rw [split, joined_splitFrom, List.append_assoc _ [' '], List.singleton_append]
  · rw [weight_append, weight_append, weight_of_isAllBlank ha.isAllBlank]
    simp

/-- One step of reading a written expression. -/
theorem reads_cons_iff (ha : IsLead a) (ht : first.Readable) :
    Reads (split (a ++ first.text.toList ++ ' ' :: (c.text.toList ++ r))) first ((c, t) :: rest) ↔
      first.IsPlain ∧ (split first.text.toList).2 = [] ∧ quoteAfter none first.text.toList = none ∧
        Reads (split r) t rest := by
  have hparse := Term.parse_padded_iff (b := [' ']) ht ha.isAllBlank (by decide)
  have hquote : quoteAfter none (a ++ first.text.toList ++ [' ']) =
      quoteAfter none first.text.toList := by
    rw [quoteAfter_append_space, ha.quoteAfter]
  constructor
  · intro h
    have hfst := fst_split_of_reads ha h
    have hwhole := snd_splitFrom_eq_nil hfst
    rw [split, splitFrom_append_space hwhole, hquote] at h hfst
    obtain ⟨d, hk, -⟩ := exists_doubled c
    cases hq : quoteAfter none first.text.toList with
    | some q =>
      -- the quote that is still open keeps the connective in the first piece
      rw [hq, hk] at hfst
      simp [splitFrom, addChar] at hfst
    | none =>
      rw [hq, splitFrom_connective] at h
      obtain ⟨hfirst, hrest⟩ := h
      obtain ⟨⟨-, hnext⟩, hmore⟩ := List.forall₂_cons.mp hrest
      rw [← ha.snd_split first.text.toList]
      exact ⟨hparse.mp hfirst, hwhole, rfl, hnext, hmore⟩
  · rintro ⟨hp, hwhole, hclosed, hnext, hmore⟩
    rw [← ha.snd_split first.text.toList] at hwhole
    rw [split, splitFrom_append_space hwhole, hquote, hclosed, splitFrom_connective]
    exact ⟨hparse.mpr hp, List.forall₂_cons.mpr ⟨⟨rfl, hnext⟩, hmore⟩⟩

/-- A written expression reads back just if it is legible. -/
theorem reads_written_iff (ha : IsLead a) (ht : first.Readable)
    (hrest : ∀ x ∈ rest, x.2.Readable) :
    Reads (split (a ++ first.text.toList ++ writtenRest rest)) first rest ↔
      IsLegible ⟨first, rest⟩ := by
  induction rest generalizing a first with
  | nil =>
    rw [writtenRest, List.append_nil, reads_single_iff ha ht, isLegible_single]
  | cons x rest ih =>
    obtain ⟨c, t⟩ := x
    rw [List.forall_mem_cons] at hrest
    rw [writtenRest, reads_cons_iff ha ht, isLegible_cons, ← ih (.inr rfl) hrest.1 hrest.2]
    rfl

theorem readable_of_forall₂ {pieces : List (Connective × Text)}
    (h : List.Forall₂ (fun x y => x.1 = y.1 ∧ Term.parse x.2 = .ok y.2) pieces rest) :
    ∀ x ∈ rest, x.2.Readable := by
  induction h with
  | nil => exact fun x hx => nomatch hx
  | cons hx _ ih => exact List.forall_mem_cons.mpr ⟨(Term.of_parse hx.2).1, ih⟩

end Written

/-- What was read and is written again reads back just if it is legible. -/
theorem parse_text_iff {s : Text} {e : Expression} (h : parse s = .ok e) :
    parse e.text.toList = .ok e ↔ e.IsLegible := by
  obtain ⟨hfirst, hrest⟩ := parse_ok_iff.mp h
  rw [parse_ok_iff, toList_text]
  exact reads_written_iff (a := []) (.inl rfl) (Term.of_parse hfirst).1 (readable_of_forall₂ hrest)

theorem parse_text_iff_quotes :
    let s := "!pkg:type == 'module' || var:\"a b\" != it's".toList
    let e : Expression := ⟨⟨⟨.pkg, "type"⟩, true, some (.equal, "module")⟩,
      [(.or, ⟨⟨.var, "a b"⟩, false, some (.different, "it's")⟩)]⟩
    parse s = .ok e ∧ (parse e.text.toList = .ok e ↔ e.IsLegible) :=
  have h : parse "!pkg:type == 'module' || var:\"a b\" != it's".toList =
      .ok ⟨⟨⟨.pkg, "type"⟩, true, some (.equal, "module")⟩,
        [(.or, ⟨⟨.var, "a b"⟩, false, some (.different, "it's")⟩)]⟩ := by decide +kernel
  ⟨h, parse_text_iff h⟩

/-- A quoted name with a comparison inside is written without its quotes. -/
theorem not_forall_parse_text :
    ¬∀ (s : Text) (e : Expression), parse s = .ok e → parse e.text.toList = .ok e := by
  intro h
  have hread : parse "file:\"a==b\"".toList = .ok ⟨⟨⟨.file, "a==b"⟩, false, none⟩, []⟩ := by
    decide +kernel
  have hagain := h _ _ hread
  have herror : parse (Expression.text ⟨⟨⟨.file, "a==b"⟩, false, none⟩, []⟩).toList =
      .error ⟨.noValues .file, "file:a==b", some 6⟩ := by decide +kernel
  rw [herror] at hagain
  cases hagain

end Expression

end Rulebook
