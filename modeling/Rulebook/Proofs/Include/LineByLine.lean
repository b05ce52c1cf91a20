import Mathlib.Data.List.Forall2
import Rulebook.Proofs.Include.Pattern

/-!
# Expansion line by line

An expansion goes over the matches of a text with a cursor and copies what stands between them. That
comes to the same as taking the text line by line: a line that is a directive gives way to the
expansion of its target and keeps its carriage return, every other line stays as it is, and the
lines are joined as they were (`Include.expand_ok_iff`).
-/

namespace Rulebook

open Directive (Fills IsDirectiveLine IsScan)

/-! ## Lines with their directives replaced -/

namespace Directive

/-- What may take the place of a line, where `Expands` tells what may take that of a directive. -/
inductive IsReplaced (Expands : Directive → Text → Prop) : Nat × Text → Text → Prop
  | kept {offset : Nat} {line : Text} :
      ¬IsDirectiveLine line → IsReplaced Expands (offset, line) line
  | replaced {offset : Nat} {line mark inner : Text} {d : Directive} :
      Fills offset line d → line = d.line ++ mark → Expands d inner →
      IsReplaced Expands (offset, line) (inner ++ mark)

section Replaced

variable {Expands : Directive → Text → Prop} {f : Directive → Text} {offset : Nat}
  {line piece : Text} {lines pieces : List Text}

theorem isReplaced_iff (hf : ∀ d inner, Expands d inner → f d = inner) :
    IsReplaced Expands (offset, line) piece ↔
      (∀ d ∈ ofLine? offset line, Expands d (f d)) ∧ piece = replaceLine f offset line := by
  unfold replaceLine
  cases hd : ofLine? offset line with
  | none =>
    have hline : ¬IsDirectiveLine line := ofLine?_eq_none_iff.mp hd
    constructor
    · rintro (_ | hfills)
      · exact ⟨fun _ hmem => (nomatch hmem), rfl⟩
      · exact absurd ((isDirectiveLine_iff offset line).mpr ⟨_, hfills⟩) hline
    · rintro ⟨-, rfl⟩
      exact .kept hline
  | some d =>
    have hfills := ofLine?_eq_some_iff.mp hd
    constructor
    · rintro (hline | @⟨_, _, mark, inner, d', hfills', hmark, hexpands⟩)
      · exact absurd ((isDirectiveLine_iff offset line).mpr ⟨d, hfills⟩) hline
      · obtain rfl := Option.some.inj (hd.symm.trans (ofLine?_eq_some_iff.mpr hfills'))
        obtain rfl := hf d inner hexpands
        refine ⟨fun d' hd' => Option.some.inj hd' ▸ hexpands, ?_⟩
        simp only [hmark, List.drop_left]
    · rintro ⟨hexpands, rfl⟩
      refine .replaced hfills ?_ (hexpands d rfl)
      obtain ⟨-, tail, hline, -⟩ := of_ofLine? hd
      rw [hline, List.drop_left]

/-- Where what takes the place of a directive is determined, so is what takes that of a text. -/
theorem forall₂_isReplaced_iff (hf : ∀ d inner, Expands d inner → f d = inner) :
    List.Forall₂ (IsReplaced Expands) (Lines.placedFrom offset lines) pieces ↔
      (∀ d ∈ findFrom offset lines, Expands d (f d)) ∧ pieces = replaceLines f offset lines := by
  induction lines generalizing offset pieces with
  | nil =>
    rw [Lines.placedFrom, List.forall₂_nil_left_iff]
    exact (and_iff_right fun _ hmem => absurd hmem List.not_mem_nil).symm
  | cons line lines ih =>
    rw [Lines.placedFrom, List.forall₂_cons_left_iff, findFrom_cons, replaceLines,
      List.forall_mem_append]
    constructor
    · rintro ⟨piece, more, hpiece, hmore, rfl⟩
      obtain ⟨hd, rfl⟩ := (isReplaced_iff hf).mp hpiece
      obtain ⟨hds, rfl⟩ := ih.mp hmore
      exact ⟨⟨fun d hmem => hd d (Option.mem_toList.mp hmem), hds⟩, rfl⟩
    · rintro ⟨⟨hd, hds⟩, rfl⟩
      exact ⟨_, _, (isReplaced_iff hf).mpr ⟨fun d hmem => hd d (Option.mem_toList.mpr hmem), rfl⟩,
        ih.mpr ⟨hds, rfl⟩, rfl⟩

end Replaced

end Directive

/-! ## Expansions -/

namespace Include

/-- `inner` comes out when the target of `d` is expanded: it is not being expanded already, does not
lie too deep, and can be read. -/
def TargetExpands (read : Path → Except File.ReadError Text) (limit depth : Nat) (n : Nesting)
    (d : Directive) (inner : Text) : Prop :=
  target n d ∉ n.files ∧ ∃ deeper text, depth = deeper + 1 ∧ read (target n d) = .ok text ∧
    (expand read limit deeper (n.enter (target n d)) (Frontmatter.body text)).result = .ok inner

section Expand

variable {read : Path → Except File.ReadError Text} {limit depth : Nat} {n : Nesting} {s out : Text}

theorem expand_ok_iff : (expand read limit depth n s).result = .ok out ↔
    ∃ pieces, List.Forall₂ (Directive.IsReplaced (TargetExpands read limit depth n))
      (Lines.placed s) pieces ∧ out = ['\n'].intercalate pieces := by
  have hvalue (d : Directive) (inner : Text) (h : TargetExpands read limit depth n d inner) :
      (opened read limit depth n d).value = inner := by
    rw [Traced.value, opened_eq_ok_iff.mpr h]
    rfl
  have hran (d : Directive) : (opened read limit depth n d).ran.result = .ok () ↔
      TargetExpands read limit depth n d (opened read limit depth n d).value :=
    ⟨fun h => opened_eq_ok_iff.mp (Traced.result_of_ran_ok h),
      fun h => Traced.ran_ok_iff.mpr ⟨_, opened_eq_ok_iff.mpr h⟩⟩
  rw [expand_eq, splice_find_ok_iff, Directive.replace_find]
  simp only [hran, Lines.placed, Directive.forall₂_isReplaced_iff hvalue, and_assoc,
    exists_and_left, exists_eq_left]
  rfl

end Expand

/-- The directives of a text are those of its lines, in order and one after another, and what a
search for the pattern finds, in whichever way the pattern is read; and an expansion that succeeds
replaces exactly the lines that are directives, up to their carriage returns. -/
theorem expand_line_by_line (read : Path → Except File.ReadError Text) (limit depth : Nat)
    (n : Nesting) (s : Text) :
    List.Forall₂ (fun x d => Fills x.1 x.2 d)
      ((Lines.placed s).filter fun x => IsDirectiveLine x.2) (Directive.find s) ∧
    (Directive.find s).Pairwise (fun d d' => d.stop < d'.start) ∧
    (∀ d ∈ Directive.find s, (s.take d.stop).drop d.start = d.line) ∧
    (∀ ds, IsScan s 0 ds ↔ ds = Directive.find s) ∧
    ∀ out, (expand read limit depth n s).result = .ok out ↔
      ∃ pieces, List.Forall₂ (Directive.IsReplaced (TargetExpands read limit depth n))
        (Lines.placed s) pieces ∧ out = ['\n'].intercalate pieces :=
  ⟨Directive.forall₂_fills s, Directive.pairwise_find s, fun _ hd => Directive.slice_of_mem_find hd,
    fun _ => Directive.isScan_iff, fun _ => expand_ok_iff⟩

theorem expand_line_by_line_mixed_ends :
    let v : View := ⟨⟨[(["b.md.md"], .file [88])]⟩, []⟩
    let document := v.absolute (Path.ofText "doc.md")
    let n : Nesting := ⟨document, [], document.parent⟩
    let s := "a\r\n\t@include  b.md.md \r\n@include c.md\r\r\n@include b.md.md".toList
    (Directive.find s).map (fun d => (String.ofList d.path, d.start, d.stop)) =
        [("b.md.md", 3, 22), ("b.md.md", 40, 56)] ∧
      (∀ d ∈ Directive.find s, (s.take d.stop).drop d.start = d.line) ∧
      ∃ pieces, List.Forall₂ (Directive.IsReplaced (TargetExpands v.readText 1 1 n))
        (Lines.placed s) pieces ∧
        "a\r\nX\r\n@include c.md\r\r\nX".toList = ['\n'].intercalate pieces := by
  intro v document n s
  obtain ⟨-, -, hslice, -, hexpand⟩ := expand_line_by_line v.readText 1 1 n s
  exact ⟨by decide +kernel, hslice, (hexpand _).mp (by decide +kernel)⟩

end Include

end Rulebook
