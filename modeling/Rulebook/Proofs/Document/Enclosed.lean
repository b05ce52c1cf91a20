import Rulebook.Document.Frontmatter
import Rulebook.Proofs.Document.Block
import Rulebook.Proofs.Text.Pieces

/-!
# Metadata between two rules

Where a text stands between two rules and no line of it is a rule itself, it is the metadata of the
document, whatever comes after the second rule (`Document.parse_enclosed`). Where nothing stands
between the two, the second is taken for metadata as soon as a later line of the document is a rule
as well, and all up to that line is lost for the body (`Document.parse_enclosing_nothing_iff`).
-/

namespace Rulebook

namespace Frontmatter

variable {s d e d₁ e₁ d₂ e₂ line close raw rest content a b : Text}

theorem prologue_of_block? {b : Block} (h : block? s = some b) : prologue s = b.text := by
  rw [prologue, h]
  rfl

theorem body_of_block? {b : Block} (h : block? s = some b) : body s = b.after := by
  rw [body, h]
  rfl

/-! ## Metadata without rules -/

theorem IsRule.withoutReturn (h : IsRule d) : Lines.withoutReturn d = d := by
  rw [Lines.withoutReturn, if_neg]
  exact fun hlast => h.return_not_mem (List.mem_of_getLast? hlast)

theorem withoutReturn_concat (line : Text) : Lines.withoutReturn (line ++ ['\r']) = line := by
  rw [Lines.withoutReturn, if_pos (by simp), List.dropLast_concat]

/-- No line is a rule, be it with a carriage return after it. -/
def HoldsNoRule (s : Text) : Prop :=
  ∀ line ∈ Lines.byLineFeed s, ¬IsRule (Lines.withoutReturn line)

theorem HoldsNoRule.append_return (h : HoldsNoRule s) : HoldsNoRule (s ++ ['\r']) := by
  obtain ⟨pieces, last, hs, hr⟩ :=
    Blank.splitWhere_append_of_not (p := (· == '\n')) (t := ['\r']) (by simp) s
  unfold HoldsNoRule Lines.byLineFeed at h ⊢
  rw [hs, List.forall_mem_append] at h
  rw [hr, List.forall_mem_append]
  refine ⟨h.1, fun line hline hrule => ?_⟩
  rw [List.mem_singleton.mp hline, withoutReturn_concat] at hrule
  exact h.2 last (List.mem_singleton_self last) (hrule.withoutReturn.symm ▸ hrule)

theorem HoldsNoRule.of_append (h : HoldsNoRule (a ++ '\n' :: b)) : HoldsNoRule b := by
  unfold HoldsNoRule at h
  rw [Lines.byLineFeed_append] at h
  exact (List.forall_mem_append.mp h).2

theorem HoldsNoRule.closingLine?_eq_none (h : HoldsNoRule s) (t : Text) :
    closingLine? (s ++ '\n' :: t) = none := by
  rw [Option.eq_none_iff_forall_not_mem]
  rintro ⟨line, rest⟩ hsome
  obtain ⟨⟨d, hd, ⟨rfl, rfl⟩ | ⟨e, he, rfl⟩⟩, hs⟩ := closingLine?_eq_some_iff.mp hsome
  · rw [List.append_nil] at hs
    exact hd.lineFeed_not_mem (hs ▸ List.mem_append_right s List.mem_cons_self)
  · obtain ⟨r, hr, rfl⟩ := he.exists_return
    -- the first line of the text is a line of `s`
    have hfirst : '\n' ∉ d ++ r := by
      rw [List.mem_append, not_or]
      exact ⟨hd.lineFeed_not_mem, by rcases hr with rfl | rfl <;> simp⟩
    have hlines := congrArg Lines.byLineFeed
      (hs.trans (by simp : d ++ (r ++ ['\n']) ++ rest = (d ++ r) ++ '\n' :: rest))
    rw [Lines.byLineFeed_append, Lines.byLineFeed_append, Lines.byLineFeed_of_not_mem hfirst]
      at hlines
    have hmem : d ++ r ∈ Lines.byLineFeed s := by
      cases hcut : Lines.byLineFeed s with
      | nil => exact absurd hcut (Blank.splitWhere_ne_nil _ s)
      | cons first more =>
        rw [hcut] at hlines
        rw [(List.cons.inj hlines).1]
        exact List.mem_cons_self
    refine h _ hmem ?_
    rcases hr with rfl | rfl
    · rwa [List.append_nil, hd.withoutReturn]
    · rwa [withoutReturn_concat]

/-- Inside of metadata no close begins, if no line of it is a rule and the line end after it is not
part of it. -/
theorem close?_eq_none_of_holdsNoRule (h : HoldsNoRule (a ++ b)) (hne : b ≠ [])
    (hreturn : b ≠ ['\r']) (he : IsLineEnd e) (t : Text) : close? (b ++ e ++ t) = none := by
  rw [Option.eq_none_iff_forall_not_mem]
  rintro ⟨close, rest⟩ hsome
  obtain ⟨e', line, he', hline, rfl, hs⟩ := close?_eq_some_iff.mp hsome
  obtain ⟨x, more, rfl, hmore⟩ :
      ∃ x more, b = x ++ '\n' :: more ∧ more ++ e ++ t = line ++ rest := by
    cases b with
    | nil => exact absurd rfl hne
    | cons c b =>
      rcases he' with rfl | rfl
      · obtain ⟨rfl, hb⟩ := List.cons.inj hs
        exact ⟨[], b, rfl, hb⟩
      · obtain ⟨rfl, hb⟩ := List.cons.inj hs
        cases b with
        | nil => exact absurd rfl hreturn
        | cons d b =>
          obtain ⟨rfl, hmore⟩ := List.cons.inj hb
          exact ⟨['\r'], b, rfl, hmore⟩
  have hno : HoldsNoRule more := by
    rw [← List.append_assoc] at h
    exact h.of_append
  have hnone : closingLine? (more ++ e ++ t) = none := by
    rcases he with rfl | rfl
    · simpa using hno.closingLine?_eq_none t
    · simpa using hno.append_return.closingLine?_eq_none t
  rw [hmore, closingLine?_eq_some_iff.mpr ⟨hline, rfl⟩] at hnone
  cases hnone

theorem block?_enclosed (hd₁ : IsRule d₁) (he₁ : IsLineEnd e₁) (hraw : HoldsNoRule raw)
    (hreturn : raw.getLast? ≠ some '\r') (he : IsLineEnd e) (hline : Closes line content) :
    block? (d₁ ++ e₁ ++ raw ++ e ++ line ++ content) =
      some ⟨d₁ ++ e₁ ++ raw ++ e ++ line, raw, content⟩ := by
  have hopening : openingLine? (d₁ ++ e₁ ++ (raw ++ (e ++ line) ++ content)) =
      some (d₁ ++ e₁, raw ++ (e ++ line) ++ content) :=
    openingLine?_eq_some_iff.mpr ⟨d₁, e₁, hd₁, he₁, rfl, rfl⟩
  have hclose : close? (e ++ line ++ content) = some (e ++ line, content) :=
    close?_eq_some_iff.mpr ⟨e, line, he, hline, rfl, rfl⟩
  have huntil : untilClose? (raw ++ (e ++ line) ++ content) = some (raw, e ++ line, content) := by
    refine untilClose?_of_first hclose fun a b hab hne => ?_
    have hb : b ≠ ['\r'] := fun hb => hreturn (by rw [hab, hb]; simp)
    have hnone := close?_eq_none_of_holdsNoRule (hab ▸ hraw) hne hb he (line ++ content)
    simpa using hnone
  have hassoc : d₁ ++ e₁ ++ raw ++ e ++ line ++ content =
      d₁ ++ e₁ ++ (raw ++ (e ++ line) ++ content) := by simp
  rw [hassoc, block?, hopening]
  dsimp only
  rw [huntil]
  simp

/-! ## Nothing between two rules -/

/-- A line of the text is a rule. -/
def HoldsRule (s : Text) : Prop :=
  ∃ before line after, s = before ++ line ++ after ∧
    (before = [] ∨ ∃ b, before = b ++ ['\n']) ∧ Closes line after

theorem not_holdsRule_nil : ¬HoldsRule [] := by
  rintro ⟨before, line, after, h, -, hline⟩
  obtain ⟨more, rfl⟩ := hline.exists_dash
  simp at h

/-- A close that begins in a text without line feeds or at the line end after it has its rule among
the lines that follow. -/
theorem exists_of_close? (hd : '\n' ∉ d) (he : IsLineEnd e) (hs : d ++ e ++ content = a ++ b)
    (hclose : close? b = some (close, rest)) : ∃ before line, content = before ++ line ++ rest ∧
      (before = [] ∨ ∃ b, before = b ++ ['\n']) ∧ Closes line rest := by
  obtain ⟨e', line, he', hline, rfl, rfl⟩ := close?_eq_some_iff.mp hclose
  obtain ⟨r, hr, rfl⟩ := he.exists_return
  obtain ⟨r', -, rfl⟩ := he'.exists_return
  have hfirst : '\n' ∉ d ++ r := by
    rw [List.mem_append, not_or]
    exact ⟨hd, by rcases hr with rfl | rfl <;> simp⟩
  have hfeeds : d ++ r ++ '\n' :: content = a ++ r' ++ '\n' :: (line ++ rest) := by
    simpa using hs
  rcases List.append_eq_append_iff.mp hfeeds with ⟨w, -, hw⟩ | ⟨w, hw, hcontent⟩
  · cases w with
    | nil => exact ⟨[], line, (List.cons.inj hw).2, .inl rfl, hline⟩
    | cons c w =>
      refine ⟨w ++ ['\n'], line, ?_, .inr ⟨w, rfl⟩, hline⟩
      simpa using (List.cons.inj hw).2
  · cases w with
    | nil => exact ⟨[], line, (List.cons.inj hcontent).2.symm, .inl rfl, hline⟩
    | cons c w =>
      obtain ⟨rfl, -⟩ := List.cons.inj hcontent
      exact absurd (hw ▸ List.mem_append_right (a ++ r') List.mem_cons_self) hfirst

theorem untilClose?_eq_none_iff_holdsRule (hd : IsRule d) (he : IsLineEnd e) (content : Text) :
    untilClose? (d ++ e ++ content) = none ↔ ¬HoldsRule content := by
  rw [untilClose?_eq_none_iff]
  constructor
  · rintro h ⟨before, line, after, rfl, hbefore, hline⟩
    obtain ⟨a, e', hs, he'⟩ : ∃ a e', d ++ e ++ before = a ++ e' ∧ IsLineEnd e' := by
      rcases hbefore with rfl | ⟨b, rfl⟩
      · exact ⟨d, e, List.append_nil _, he⟩
      · exact ⟨d ++ e ++ b, ['\n'], (List.append_assoc _ _ _).symm, .inl rfl⟩
    have hsome := close?_eq_some_iff.mpr ⟨e', line, he', hline, rfl, rfl⟩
    have hplace : d ++ e ++ (before ++ line ++ after) = a ++ (e' ++ line ++ after) := by
      simpa using congrArg (· ++ (line ++ after)) hs
    cases (h _ _ hplace).symm.trans hsome
  · intro h a b hab
    rw [Option.eq_none_iff_forall_not_mem]
    rintro ⟨close, rest⟩ hclose
    obtain ⟨before, line, hcontent, hbefore, hline⟩ :=
      exists_of_close? hd.lineFeed_not_mem he hab hclose
    exact h ⟨before, line, rest, hcontent, hbefore, hline⟩

/-- A block that is read by itself is the same block. -/
theorem block?_text {b : Block} (h : block? s = some b) :
    block? b.text = some ⟨b.text, b.raw, []⟩ := by
  unfold block? at h
  split at h
  · cases h
  next opening rest hopening =>
    split at h
    next raw close after huntil =>
      cases h
      have hagain : untilClose? (raw ++ close ++ []) = some (raw, close, []) := by
        rcases close?_last (close?_of_untilClose? huntil) with rfl | hlast
        · rwa [untilClose?_eq_some huntil] at huntil
        · exact untilClose?_append huntil hlast []
      rw [List.append_nil] at hagain
      rw [List.append_assoc, block?, openingLine?_append hopening]
      dsimp only
      rw [hagain]
      simp
    next huntil =>
      simp only [Option.map_eq_some_iff] at h
      obtain ⟨⟨close, after⟩, hclosing, rfl⟩ := h
      obtain ⟨⟨d, hd, hform⟩, hrest⟩ := closingLine?_eq_some_iff.mp hclosing
      have hagain : untilClose? close = none ∧ Closes close [] := by
        rcases hform with ⟨rfl, rfl⟩ | ⟨e, he, rfl⟩
        · rw [hrest, List.append_nil] at huntil
          exact ⟨huntil, close, hd, .inl ⟨rfl, rfl⟩⟩
        · have hnone := (untilClose?_eq_none_iff_holdsRule hd he []).mpr not_holdsRule_nil
          rw [List.append_nil] at hnone
          exact ⟨hnone, d, hd, .inr ⟨e, he, rfl⟩⟩
      rw [block?, openingLine?_append hopening]
      dsimp only
      rw [hagain.1, closingLine?_eq_some_iff.mpr ⟨hagain.2, (List.append_nil close).symm⟩]
      rfl

/-- A document that starts with two rules has just these for its block if no line after them is a
rule, and otherwise a longer one, which ends with such a line. -/
theorem block?_enclosing_nothing (hd₁ : IsRule d₁) (he₁ : IsLineEnd e₁) (hd₂ : IsRule d₂)
    (he₂ : IsLineEnd e₂) (content : Text) :
    ¬HoldsRule content ∧ block? (d₁ ++ e₁ ++ d₂ ++ e₂ ++ content) =
        some ⟨d₁ ++ e₁ ++ d₂ ++ e₂, [], content⟩ ∨
      HoldsRule content ∧ ∃ block before line,
        block? (d₁ ++ e₁ ++ d₂ ++ e₂ ++ content) = some block ∧
        content = before ++ line ++ block.after ∧ (before = [] ∨ ∃ b, before = b ++ ['\n']) ∧
        Closes line block.after := by
  have hassoc : d₁ ++ e₁ ++ d₂ ++ e₂ ++ content = d₁ ++ e₁ ++ (d₂ ++ e₂ ++ content) := by simp
  have hopening : openingLine? (d₁ ++ e₁ ++ (d₂ ++ e₂ ++ content)) =
      some (d₁ ++ e₁, d₂ ++ e₂ ++ content) :=
    openingLine?_eq_some_iff.mpr ⟨d₁, e₁, hd₁, he₁, rfl, rfl⟩
  have hnone := untilClose?_eq_none_iff_holdsRule hd₂ he₂ content
  rw [hassoc, block?, hopening]
  dsimp only
  cases huntil : untilClose? (d₂ ++ e₂ ++ content) with
  | none =>
    have hclosing : closingLine? (d₂ ++ e₂ ++ content) = some (d₂ ++ e₂, content) :=
      closingLine?_eq_some_iff.mpr ⟨⟨d₂, hd₂, .inr ⟨e₂, he₂, rfl⟩⟩, rfl⟩
    refine .inl ⟨hnone.mp huntil, ?_⟩
    dsimp only
    rw [hclosing]
    simp
  | some found =>
    obtain ⟨raw, close, after⟩ := found
    have hs := untilClose?_eq_some huntil
    rw [List.append_assoc raw] at hs
    obtain ⟨before, line, hcontent, hbefore, hline⟩ :=
      exists_of_close? hd₂.lineFeed_not_mem he₂ hs (close?_of_untilClose? huntil)
    refine .inr ⟨not_not.mp fun h => ?_, _, before, line, rfl, hcontent, hbefore, hline⟩
    cases (hnone.mpr h).symm.trans huntil

end Frontmatter

/-! ## Documents -/

namespace Document

open Frontmatter (IsRule IsLineEnd Closes HoldsNoRule HoldsRule)

variable {d₁ e₁ d₂ e₂ e line raw content : Text}

theorem parse_of_block? {s : Text} {b : Frontmatter.Block} (h : Frontmatter.block? s = some b) :
    parse s = (metadataOf b.raw).map fun metadata => ⟨metadata, b.raw, b.after⟩ := by
  rw [parse, h]

/-- Metadata that stands between two rules, with no rule among its lines, is cut from what follows
as it was put before it, also where the front is read by itself once more. It is what is read as
YAML, unless it is blank, and a mapping or nothing in it makes a document with this metadata. -/
theorem parse_enclosed (hd₁ : IsRule d₁) (he₁ : IsLineEnd e₁) (hraw : HoldsNoRule raw)
    (hreturn : raw.getLast? ≠ some '\r') (he : IsLineEnd e) (hline : Closes line content) :
    let front := d₁ ++ e₁ ++ raw ++ e ++ line
    Frontmatter.prologue (front ++ content) = front ∧
    Frontmatter.body (front ++ content) = content ∧
    Frontmatter.block? front = some ⟨front, raw, []⟩ ∧
    (Blank.isAllBlank raw = true → parse (front ++ content) = .ok ⟨[], raw, content⟩) ∧
    (Blank.isAllBlank raw = false →
      (Yaml.read raw = .ok .null → parse (front ++ content) = .ok ⟨[], raw, content⟩) ∧
      (∀ metadata, Yaml.read raw = .ok (.map metadata) →
        parse (front ++ content) = .ok ⟨metadata, raw, content⟩) ∧
      (∀ v, Yaml.read raw = .ok v → v ≠ .null → (∀ metadata, v ≠ .map metadata) →
        parse (front ++ content) = .error (.badValue (.frontmatterNotAMapping v.kindName))) ∧
      (∀ p, Yaml.read raw = .error (.malformed p) →
        parse (front ++ content) = .error (.badValue (.invalidFrontmatter p.message))) ∧
      ∀ f, Yaml.read raw = .error (.fault f) → parse (front ++ content) = .error f) := by
  intro front
  have hblock := Frontmatter.block?_enclosed hd₁ he₁ hraw hreturn he hline
  have hparse := parse_of_block? hblock
  refine ⟨Frontmatter.prologue_of_block? hblock, Frontmatter.body_of_block? hblock,
    Frontmatter.block?_text hblock, fun hblank => ?_, fun hblank =>
    ⟨fun hread => ?_, fun metadata hread => ?_, fun v hread hnull hmap => ?_, fun p hread => ?_,
      fun f hread => ?_⟩⟩
  · rw [hparse]
    simp only [metadataOf, hblank, ↓reduceIte]
    rfl
  all_goals
    rw [hparse]
    simp only [metadataOf, hblank, Bool.false_eq_true, ↓reduceIte, hread]
    rfl

/-- Different line ends and blanks, an indented rule inside, and more rules after the metadata. -/
theorem parse_enclosed_later_rules :
    let raw := "a: b\r\n ---".toList
    let line := "--- \t\r\n".toList
    let front := "--- ".toList ++ ['\n'] ++ raw ++ ['\r', '\n'] ++ line
    let content := "---\nx\n---".toList
    (IsRule "--- ".toList ∧ IsLineEnd ['\n'] ∧ HoldsNoRule raw ∧ raw.getLast? ≠ some '\r' ∧
      IsLineEnd ['\r', '\n'] ∧ Closes line content) ∧
    Frontmatter.prologue (front ++ content) = front ∧
    Frontmatter.body (front ++ content) = content ∧
    Frontmatter.block? front = some ⟨front, raw, []⟩ ∧
    parse (front ++ content) = .ok ⟨[(.str "a", .str "b ---")], raw, content⟩ := by
  intro raw line front content
  have hopening : IsRule "--- ".toList := ⟨[' '], rfl, rfl⟩
  have hraw : HoldsNoRule raw := by
    have hstart :
        ∀ line ∈ Lines.byLineFeed raw, (Lines.withoutReturn line).take 3 ≠ "---".toList := by
      decide
    exact fun line hline ⟨blanks, _, h⟩ => hstart line hline (by rw [h]; rfl)
  have hreturn : raw.getLast? ≠ some '\r' := by decide
  have hline : Closes line content :=
    ⟨"--- \t".toList, ⟨[' ', '\t'], rfl, rfl⟩, .inr ⟨['\r', '\n'], .inr rfl, rfl⟩⟩
  have hread : Yaml.read raw = .ok (.map [(.str "a", .str "b ---")]) := by
    have hsome : (Yaml.read raw).toOption = some (.map [(.str "a", .str "b ---")]) := by
      decide +kernel
    cases hy : Yaml.read raw with
    | error e =>
      rw [hy] at hsome
      cases hsome
    | ok v =>
      rw [hy] at hsome
      exact congrArg Except.ok (Option.some.inj hsome)
  obtain ⟨hprologue, hbody, halone, -, hparse⟩ :=
    parse_enclosed hopening (.inl rfl) hraw hreturn (.inr rfl) hline
  exact ⟨⟨hopening, .inl rfl, hraw, hreturn, .inr rfl, hline⟩, hprologue, hbody, halone,
    (hparse (by decide)).2.1 _ hread⟩

/-- After two rules with nothing in between, the rest of the document is its body just if no line
of the rest is a rule. Otherwise the body is only what follows such a line. -/
theorem parse_enclosing_nothing_iff (hd₁ : IsRule d₁) (he₁ : IsLineEnd e₁) (hd₂ : IsRule d₂)
    (he₂ : IsLineEnd e₂) (content : Text) :
    let front := d₁ ++ e₁ ++ d₂ ++ e₂
    (Frontmatter.prologue (front ++ content) = front ∧
      Frontmatter.body (front ++ content) = content ↔ ¬HoldsRule content) ∧
    (Frontmatter.body (front ++ content) = content ↔ ¬HoldsRule content) ∧
    ((∃ raw, parse (front ++ content) = .ok ⟨[], raw, content⟩) ↔ ¬HoldsRule content) ∧
    (HoldsRule content → ∃ before line,
      content = before ++ line ++ Frontmatter.body (front ++ content) ∧
      (before = [] ∨ ∃ b, before = b ++ ['\n']) ∧
      Closes line (Frontmatter.body (front ++ content))) := by
  intro front
  rcases Frontmatter.block?_enclosing_nothing hd₁ he₁ hd₂ he₂ content with
    ⟨hno, hblock⟩ | ⟨hrule, b, before, line, hblock, hcontent, hbefore, hline⟩
  · have hprologue : Frontmatter.prologue (front ++ content) = front :=
      Frontmatter.prologue_of_block? hblock
    have hbody : Frontmatter.body (front ++ content) = content :=
      Frontmatter.body_of_block? hblock
    have hparse : parse (front ++ content) = .ok ⟨[], [], content⟩ := parse_of_block? hblock
    exact ⟨iff_of_true ⟨hprologue, hbody⟩ hno, iff_of_true hbody hno, iff_of_true ⟨[], hparse⟩ hno,
      fun hrule => absurd hrule hno⟩
  · have hbody : Frontmatter.body (front ++ content) = b.after :=
      Frontmatter.body_of_block? hblock
    have hlost : b.after ≠ content := fun heq => by
      rw [heq] at hcontent
      have hnil := (List.append_eq_nil_iff.mp (List.append_left_eq_self.mp hcontent.symm)).2
      obtain ⟨more, rfl⟩ := hline.exists_dash
      cases hnil
    have hparse (raw : Text) : parse (front ++ content) ≠ .ok ⟨[], raw, content⟩ := by
      rw [parse_of_block? hblock]
      intro heq
      cases hm : metadataOf b.raw with
      | error f =>
        rw [hm] at heq
        cases heq
      | ok metadata =>
        rw [hm] at heq
        cases heq
        exact hlost rfl
    rw [hbody]
    have hrule := not_not.mpr hrule
    exact ⟨iff_of_false (fun h => hlost h.2) hrule, iff_of_false hlost hrule,
      iff_of_false (fun ⟨raw, h⟩ => hparse raw h) hrule,
      fun _ => ⟨before, line, hcontent, hbefore, hline⟩⟩

/-- A rule further down, in a line that ends with a carriage return and a line feed. -/
theorem parse_enclosing_nothing_iff_rule :
    let front := "---".toList ++ ['\n'] ++ "---\t".toList ++ ['\r', '\n']
    let content := "x\r\n--- \r\ny".toList
    (IsRule "---".toList ∧ IsLineEnd ['\n'] ∧ IsRule "---\t".toList ∧ IsLineEnd ['\r', '\n'] ∧
      HoldsRule content) ∧
    Frontmatter.body (front ++ content) ≠ content ∧
    (¬∃ raw, parse (front ++ content) = .ok ⟨[], raw, content⟩) ∧
    ∃ before line, content = before ++ line ++ Frontmatter.body (front ++ content) ∧
      (before = [] ∨ ∃ b, before = b ++ ['\n']) ∧
      Closes line (Frontmatter.body (front ++ content)) := by
  intro front content
  have hfirst : IsRule "---".toList := ⟨[], rfl, rfl⟩
  have hsecond : IsRule "---\t".toList := ⟨['\t'], rfl, rfl⟩
  have hrule : HoldsRule content :=
    ⟨"x\r\n".toList, "--- \r\n".toList, ['y'], rfl, .inr ⟨"x\r".toList, rfl⟩,
      "--- ".toList, ⟨[' '], rfl, rfl⟩, .inr ⟨['\r', '\n'], .inr rfl, rfl⟩⟩
  obtain ⟨-, hbody, hparse, hlost⟩ :=
    parse_enclosing_nothing_iff hfirst (.inl rfl) hsecond (.inr rfl) content
  exact ⟨⟨hfirst, .inl rfl, hsecond, .inr rfl, hrule⟩, fun h => hbody.mp h hrule,
    fun h => hparse.mp h hrule, hlost hrule⟩

/-- Two rules and then a rule at the end of the document leave nothing of the text in between. -/
theorem not_forall_parse_enclosing_nothing :
    ¬∀ (d₁ e₁ d₂ e₂ content : Text), IsRule d₁ → IsLineEnd e₁ → IsRule d₂ → IsLineEnd e₂ →
      let front := d₁ ++ e₁ ++ d₂ ++ e₂
      Frontmatter.prologue (front ++ content) = front ∧
      Frontmatter.body (front ++ content) = content ∧
      ∃ raw, parse (front ++ content) = .ok ⟨[], raw, content⟩ := by
  intro h
  have hrule : IsRule "---".toList := ⟨[], rfl, rfl⟩
  obtain ⟨-, hbody, -⟩ := h _ _ _ _ "x\n---\n".toList hrule (.inl rfl) hrule (.inl rfl)
  have hnone : Frontmatter.body ("---\n---\n".toList ++ "x\n---\n".toList) = [] := by decide
  cases hnone.symm.trans hbody

end Document

end Rulebook
