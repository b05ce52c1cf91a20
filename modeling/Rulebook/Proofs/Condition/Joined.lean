import Rulebook.Proofs.Condition.RoundTrip

/-!
# Joined terms

Texts that are terms by themselves, with connectives between them, are read as these terms just if
the text before each connective is separate from it (`Expression.parse_linked_iff`): it leaves no
quote open, and it does not end with the character the connective is made of. Splitting counts every
quote, but a bare name or value may have a single one inside; and it cuts where a connective can
begin first. Texts without quotes, with a blank before each connective, are always read
(`Expression.parse_linked_of_unquoted`).
-/

namespace Rulebook

open Blank (isBlank isAllBlank trim trimStart trimEnd)

/-! ## Blanks around terms -/

section Padded

variable {a b s : Text} {t : Term}

/-- Blanks around a term do not matter. -/
theorem Term.parse_append (ha : isAllBlank a = true) (hb : isAllBlank b = true)
    (h : parse s = .ok t) : parse (a ++ s ++ b) = .ok t := by
  have htrim := Blank.trim_append (s := s) ha hb
  rw [parse_eq, htrim]
  rw [parse_eq] at h
  split at h
  · cases h
  · exact h
  · exact h

end Padded

namespace Expression

/-! ## Cutting after a text -/

section Cut

variable {quote : Option Char} {s t u : Text} {k : Connective} {c d : Char}

theorem not_solid_of_nextQuote_eq_some (hquote : ∀ q, quote = some q → isSolid q = false)
    (h : nextQuote quote c = some d) : isSolid d = false := by
  cases quote with
  | some q =>
    rw [nextQuote] at h
    split at h
    · cases h
    · exact hquote d h
  | none =>
    rw [nextQuote] at h
    split at h
    next hc =>
      cases h
      simp only [Bool.or_eq_true, decide_eq_true_eq] at hc
      rcases hc with rfl | rfl <;> decide
    · cases h

/-- An open quote is a quote. -/
theorem not_solid_of_quoteAfter_eq_some (hquote : ∀ q, quote = some q → isSolid q = false)
    (h : quoteAfter quote s = some d) : isSolid d = false := by
  induction s generalizing quote with
  | nil => exact hquote d h
  | cons c s ih => exact ih (fun q => not_solid_of_nextQuote_eq_some hquote) h

/-- The first piece goes on after a text that it begins with. -/
theorem splitFrom_append_of_fst (h : (splitFrom quote (s ++ t)).1 = s ++ u) :
    splitFrom quote (s ++ t) = (s ++ (splitFrom (quoteAfter quote s) t).1,
      (splitFrom (quoteAfter quote s) t).2) := by
  induction s generalizing quote with
  | nil => rfl
  | cons c s ih =>
    rcases connective_or_char quote c (s ++ t) with ⟨rfl, k, r, hk⟩ | hk
    · rw [List.cons_append, hk, splitFrom_connective] at h
      cases h
    · rw [List.cons_append, splitFrom_cons hk] at h ⊢
      rw [ih (List.cons.inj h).2]
      rfl

/-- The first piece goes on after a text in which no connective begins. -/
theorem splitFrom_append (hfree : ∀ k : Connective, ¬k.text.toList <:+: s)
    (hlast : ∀ c, s.getLast? = some c →
      ∀ (k : Connective) (r : Text), c :: t ≠ k.text.toList ++ r) :
    splitFrom quote (s ++ t) = (s ++ (splitFrom (quoteAfter quote s) t).1,
      (splitFrom (quoteAfter quote s) t).2) := by
  induction s generalizing quote with
  | nil => rfl
  | cons c s ih =>
    have hc (k : Connective) (r : Text) : c :: (s ++ t) ≠ k.text.toList ++ r := by
      intro hk
      cases s with
      | nil => exact hlast c rfl k r hk
      | cons d s =>
        refine hfree k ⟨[], s, ?_⟩
        cases k <;> (cases hk; rfl)
    have hlast' : ∀ c, s.getLast? = some c →
        ∀ (k : Connective) (r : Text), c :: t ≠ k.text.toList ++ r := by
      intro d hd
      refine hlast d ?_
      rw [List.getLast?_cons, hd]
      rfl
    have hfree' (k : Connective) : ¬k.text.toList <:+: s :=
      fun hk => hfree k (hk.trans (List.suffix_cons c s).isInfix)
    rw [List.cons_append, splitFrom_cons fun _ => hc, ih hfree' hlast']
    rfl

/-- Blanks hold no part of a connective. -/
theorem not_infix_blank_append (hs : ¬k.text.toList <:+: s) (ht : isAllBlank t = true) :
    ¬k.text.toList <:+: t ++ s := by
  obtain ⟨d, hk, hd⟩ := exists_doubled k
  induction t with
  | nil => exact hs
  | cons c t ih =>
    obtain ⟨hc, ht⟩ := Bool.and_eq_true_iff.mp ht
    rw [List.cons_append, List.infix_cons_iff]
    rintro (hstart | hinner)
    · rw [hk, List.cons_prefix_cons] at hstart
      rw [hstart.1, isSolid_of_isBlank hc] at hd
      cases hd
    · exact ih ht hinner

theorem not_infix_append (hs : ¬k.text.toList <:+: s) (ht : isAllBlank t = true) :
    ¬k.text.toList <:+: s ++ t := by
  have hreverse : k.text.toList.reverse = k.text.toList := by
    obtain ⟨d, hk, -⟩ := exists_doubled k
    rw [hk]
    rfl
  rw [← List.reverse_infix, hreverse, List.reverse_append]
  refine not_infix_blank_append ?_ (Blank.isAllBlank_reverse.trans ht)
  rwa [← List.reverse_infix, List.reverse_reverse, hreverse]

end Cut

/-! ## Linked texts -/

/-- A text that is a term by itself and holds no connective. -/
def IsOperand (s : Text) (t : Term) : Prop :=
  Term.parse s = .ok t ∧ ∀ k : Connective, ¬k.text.toList <:+: s

/-- A connective with what stands before and after it, and the text that follows. -/
structure Link where
  before : Text
  connective : Connective
  after : Text
  operand : Text

namespace Link

def written (l : Link) : Text :=
  l.before ++ (l.connective.text.toList ++ (l.after ++ l.operand))

structure IsBlank (l : Link) : Prop where
  before : isAllBlank l.before = true
  after : isAllBlank l.after = true

end Link

/-- The first text with the others linked to it. -/
def linked (s : Text) (links : List Link) : Text := s ++ links.flatMap Link.written

/-- The text leaves no quote open before the connective and does not run into it. -/
def IsSeparate (s : Text) (k : Connective) : Prop :=
  quoteAfter none s = none ∧ s.getLast? ≠ k.text.toList.head?

/-- Every text is separate from the connective after it. -/
def AreSeparate : Text → List Link → Prop
  | _, [] => True
  | s, l :: links =>
    IsSeparate (s ++ l.before) l.connective ∧ AreSeparate (l.after ++ l.operand) links

section Linked

variable {b s r : Text} {first t : Term} {k : Connective} {rest : List (Connective × Term)}

theorem IsOperand.blank_append (h : IsOperand s t) (hb : isAllBlank b = true) :
    IsOperand (b ++ s) t := by
  refine ⟨?_, fun k => not_infix_blank_append (h.2 k) hb⟩
  have hparse := Term.parse_append (b := []) hb rfl h.1
  rwa [List.append_nil] at hparse

theorem IsOperand.append_blank (h : IsOperand s t) (hb : isAllBlank b = true) :
    IsOperand (s ++ b) t :=
  ⟨Term.parse_append (a := []) rfl hb h.1, fun k => not_infix_append (h.2 k) hb⟩

/-- The splitter cuts between a text and a connective that it is separate from. -/
theorem split_of_isSeparate (h : IsOperand s t) (hs : IsSeparate s k) :
    split (s ++ (k.text.toList ++ r)) = (s, (k, (split r).1) :: (split r).2) := by
  have hlast (c : Char) (hc : s.getLast? = some c) (k' : Connective) (r' : Text) :
      c :: (k.text.toList ++ r) ≠ k'.text.toList ++ r' := by
    intro hk
    obtain ⟨d, hd, -⟩ := exists_doubled k
    obtain ⟨e, he, -⟩ := exists_doubled k'
    rw [hd, he] at hk
    obtain ⟨rfl, hk⟩ := List.cons.inj hk
    obtain ⟨rfl, -⟩ := List.cons.inj hk
    exact hs.2 (by rw [hc, hd, List.head?_cons])
  rw [split, splitFrom_append h.2 hlast, hs.1, splitFrom_connective]
  simp [addConnective, split]

/-- It cuts there in no other case. -/
theorem isSeparate_of_fst_split (h : (split (s ++ (k.text.toList ++ r))).1 = s) :
    IsSeparate s k := by
  obtain ⟨d, hk, hd⟩ := exists_doubled k
  have hclosed : quoteAfter none s = none := by
    have hcut := splitFrom_append_of_fst (u := []) (h.trans (List.append_nil s).symm)
    rw [split, hcut, List.append_right_eq_self] at h
    cases hq : quoteAfter none s with
    | none => rfl
    | some q =>
      -- an open quote keeps the connective in the piece
      rw [hq, hk] at h
      cases h
  refine ⟨hclosed, fun hlast => ?_⟩
  -- with one more of its characters before it, the connective is found that much earlier
  rw [hk, List.head?_cons] at hlast
  obtain ⟨s', rfl⟩ := List.getLast?_eq_some_iff.mp hlast
  rw [split, hk, List.append_assoc] at h
  have hcut := splitFrom_append_of_fst h
  rw [hcut, List.append_cancel_left_eq] at h
  unfold quoteAfter at hclosed
  rw [List.foldl_append] at hclosed
  cases hq : quoteAfter none s' with
  | none =>
    have hpiece : (splitFrom none ([d] ++ ([d, d] ++ r))).1 = [] := by
      show (splitFrom none ([d, d] ++ d :: r)).1 = []
      rw [← hk, splitFrom_connective]
      rfl
    rw [hq, hpiece] at h
    cases h
  | some q =>
    have hne : d ≠ q := by
      rintro rfl
      rw [not_solid_of_quoteAfter_eq_some (by simp) hq] at hd
      cases hd
    unfold quoteAfter at hq
    rw [hq, List.foldl_cons, List.foldl_nil, nextQuote, if_neg hne] at hclosed
    cases hclosed

/-- One step of reading linked texts. -/
theorem reads_link_iff (h : IsOperand s first) :
    Reads (split (s ++ (k.text.toList ++ r))) first ((k, t) :: rest) ↔
      IsSeparate s k ∧ Reads (split r) t rest := by
  constructor
  · intro hreads
    have hcut : (split (s ++ (k.text.toList ++ r))).1 = s :=
      fst_eq_of_reads hreads (joined_splitFrom none _) (Term.of_parse h.1).2
    have hs := isSeparate_of_fst_split hcut
    rw [split_of_isSeparate h hs] at hreads
    obtain ⟨⟨-, hnext⟩, hmore⟩ := List.forall₂_cons.mp hreads.2
    exact ⟨hs, hnext, hmore⟩
  · rintro ⟨hs, hnext, hmore⟩
    rw [split_of_isSeparate h hs]
    exact ⟨h.1, List.forall₂_cons.mpr ⟨⟨rfl, hnext⟩, hmore⟩⟩

theorem reads_operand (h : IsOperand s t) : Reads (split s) t [] := by
  have hlast (c : Char) (_ : s.getLast? = some c) (k : Connective) (r : Text) :
      [c] ≠ k.text.toList ++ r := by
    obtain ⟨d, hd, -⟩ := exists_doubled k
    rw [hd]
    simp
  have hsplit : splitFrom none (s ++ []) = _ := splitFrom_append h.2 hlast
  rw [List.append_nil] at hsplit
  rw [split, hsplit]
  cases quoteAfter none s <;> simpa [Reads, splitFrom] using h.1

variable {links : List (Link × Term)}

theorem reads_linked_iff (hfirst : IsOperand s t)
    (hlinks : ∀ x ∈ links, x.1.IsBlank ∧ IsOperand x.1.operand x.2) :
    Reads (split (linked s (links.map Prod.fst))) t (links.map fun x => (x.1.connective, x.2)) ↔
      AreSeparate s (links.map Prod.fst) := by
  induction links generalizing s t with
  | nil =>
    rw [List.map_nil, linked, List.flatMap_nil, List.append_nil]
    exact iff_of_true (reads_operand hfirst) trivial
  | cons x links ih =>
    obtain ⟨l, t'⟩ := x
    obtain ⟨⟨hblank, hoperand⟩, hlinks⟩ := List.forall_mem_cons.mp hlinks
    have hnext : IsOperand (l.after ++ l.operand) t' := hoperand.blank_append hblank.after
    have hlinked : linked s (l :: links.map Prod.fst) =
        s ++ l.before ++ (l.connective.text.toList ++
          linked (l.after ++ l.operand) (links.map Prod.fst)) := by
      simp [linked, Link.written]
    rw [List.map_cons, List.map_cons, hlinked, reads_link_iff (hfirst.append_blank hblank.before),
      ih hnext hlinks]
    rfl

/-- Operands linked with blanks are read as their terms just if they are separate. -/
theorem parse_linked_iff (hfirst : IsOperand s t)
    (hlinks : ∀ x ∈ links, x.1.IsBlank ∧ IsOperand x.1.operand x.2) :
    parse (linked s (links.map Prod.fst)) =
        .ok ⟨t, links.map fun x => (x.1.connective, x.2)⟩ ↔
      AreSeparate s (links.map Prod.fst) :=
  parse_ok_iff.trans (reads_linked_iff hfirst hlinks)

end Linked

theorem parse_linked_iff_three :
    let s := "pkg:name == 'a & b'".toList
    let t : Term := ⟨⟨.pkg, "name"⟩, false, some (.equal, "a & b")⟩
    let links : List (Link × Term) :=
      [(⟨['\t'], .or, [], "! npm:react".toList⟩, ⟨⟨.package .npm, "react"⟩, true, none⟩),
        (⟨[], .and, [' ', ' '], "npm:it's".toList⟩, ⟨⟨.package .npm, "it's"⟩, false, none⟩)]
    IsOperand s t ∧ (∀ x ∈ links, x.1.IsBlank ∧ IsOperand x.1.operand x.2) ∧
      AreSeparate s (links.map Prod.fst) ∧
      parse (linked s (links.map Prod.fst)) =
        .ok ⟨t, links.map fun x => (x.1.connective, x.2)⟩ :=
  have hs : IsOperand "pkg:name == 'a & b'".toList
      ⟨⟨.pkg, "name"⟩, false, some (.equal, "a & b")⟩ :=
    ⟨by decide +kernel, by rintro (_ | _) <;> decide +kernel⟩
  have hreact : IsOperand "! npm:react".toList ⟨⟨.package .npm, "react"⟩, true, none⟩ :=
    ⟨by decide +kernel, by rintro (_ | _) <;> decide +kernel⟩
  have hits : IsOperand "npm:it's".toList ⟨⟨.package .npm, "it's"⟩, false, none⟩ :=
    ⟨by decide +kernel, by rintro (_ | _) <;> decide +kernel⟩
  have hlinks := List.forall_mem_cons.mpr ⟨⟨⟨by decide, by decide⟩, hreact⟩,
    List.forall_mem_singleton.mpr ⟨⟨by decide, by decide⟩, hits⟩⟩
  have hseparate := ⟨⟨by decide, by decide⟩, ⟨by decide, by decide⟩, trivial⟩
  ⟨hs, hlinks, hseparate, (parse_linked_iff hs hlinks).mpr hseparate⟩

/-- An apostrophe in a bare name opens a quote for the splitter, and the connective is skipped. -/
theorem not_forall_parse_linked :
    ¬∀ (s : Text) (t : Term) (links : List (Link × Term)), IsOperand s t →
      (∀ x ∈ links, x.1.IsBlank ∧ IsOperand x.1.operand x.2) →
      parse (linked s (links.map Prod.fst)) =
        .ok ⟨t, links.map fun x => (x.1.connective, x.2)⟩ := by
  intro h
  have hs : IsOperand "npm:it's".toList ⟨⟨.package .npm, "it's"⟩, false, none⟩ :=
    ⟨by decide +kernel, by rintro (_ | _) <;> decide +kernel⟩
  have hb : IsOperand "npm:b".toList ⟨⟨.package .npm, "b"⟩, false, none⟩ :=
    ⟨by decide +kernel, by rintro (_ | _) <;> decide +kernel⟩
  have hread := h _ _
    [(⟨[' '], .and, [' '], "npm:b".toList⟩, ⟨⟨.package .npm, "b"⟩, false, none⟩)] hs
    (List.forall_mem_singleton.mpr ⟨⟨by decide, by decide⟩, hb⟩)
  have herror : parse "npm:it's && npm:b".toList =
      .error ⟨.noComparison "&& npm:b", "npm:it's && npm:b", some 9⟩ := by decide +kernel
  rw [show linked _ _ = "npm:it's && npm:b".toList from rfl, herror] at hread
  cases hread

/-! ## Texts without quotes -/

def IsUnquoted (s : Text) : Prop := ∀ c ∈ s, c ≠ '"' ∧ c ≠ '\''

section Unquoted

variable {s t : Text} {k : Connective}

theorem IsUnquoted.append (hs : IsUnquoted s) (ht : IsUnquoted t) : IsUnquoted (s ++ t) :=
  fun c hc => (List.mem_append.mp hc).elim (hs c) (ht c)

theorem isUnquoted_of_isAllBlank (h : isAllBlank s = true) : IsUnquoted s := by
  intro c hc
  have hblank : isBlank c = true := List.all_eq_true.mp h c hc
  constructor
  · rintro rfl
    revert hblank
    decide
  · rintro rfl
    revert hblank
    decide

theorem IsUnquoted.quoteAfter (h : IsUnquoted s) : quoteAfter none s = none := by
  induction s with
  | nil => rfl
  | cons c s ih =>
    obtain ⟨⟨hdouble, hsingle⟩, hs⟩ := List.forall_mem_cons.mp h
    have hc : nextQuote none c = none := by
      rw [nextQuote, if_neg (by simp [hdouble, hsingle])]
    unfold Expression.quoteAfter at ih ⊢
    rw [List.foldl_cons, hc, ih hs]

theorem isSeparate_append_blank (hs : IsUnquoted s) (ht : isAllBlank t = true) (hne : t ≠ []) :
    IsSeparate (s ++ t) k := by
  refine ⟨(hs.append (isUnquoted_of_isAllBlank ht)).quoteAfter, ?_⟩
  obtain ⟨d, hk, hd⟩ := exists_doubled k
  obtain ⟨t, e, rfl⟩ := (List.eq_nil_or_concat t).resolve_left hne
  have hblank : isBlank e = true := List.all_eq_true.mp ht e (by simp)
  rw [hk, List.head?_cons, List.concat_eq_append, ← List.append_assoc, List.getLast?_concat]
  intro he
  rw [← Option.some.inj he, isSolid_of_isBlank hblank] at hd
  cases hd

theorem areSeparate_of_unquoted {links : List Link} (hs : IsUnquoted s)
    (hlinks : ∀ l ∈ links, l.IsBlank ∧ l.before ≠ [] ∧ IsUnquoted l.operand) :
    AreSeparate s links := by
  induction links generalizing s with
  | nil => trivial
  | cons l links ih =>
    obtain ⟨⟨hblank, hne, hoperand⟩, hlinks⟩ := List.forall_mem_cons.mp hlinks
    exact ⟨isSeparate_append_blank hs hblank.before hne,
      ih ((isUnquoted_of_isAllBlank hblank.after).append hoperand) hlinks⟩

end Unquoted

/-- Operands without quotes are read as their terms where a blank is before each connective. -/
theorem parse_linked_of_unquoted {s : Text} {t : Term} {links : List (Link × Term)}
    (hfirst : IsOperand s t) (hs : IsUnquoted s)
    (hlinks : ∀ x ∈ links, x.1.IsBlank ∧ IsOperand x.1.operand x.2)
    (hblanks : ∀ x ∈ links, x.1.before ≠ [] ∧ IsUnquoted x.1.operand) :
    parse (linked s (links.map Prod.fst)) =
      .ok ⟨t, links.map fun x => (x.1.connective, x.2)⟩ := by
  refine parse_ok_iff.mpr ((reads_linked_iff hfirst hlinks).mpr (areSeparate_of_unquoted hs ?_))
  intro l hl
  obtain ⟨x, hx, rfl⟩ := List.mem_map.mp hl
  exact ⟨(hlinks x hx).1, hblanks x hx⟩

end Expression

end Rulebook
