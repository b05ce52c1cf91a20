import Mathlib.Data.List.Induction
import Rulebook.Manifest.Reader
import Rulebook.Proofs.Document.Tags
import Rulebook.Proofs.Manifest.Collected
import Rulebook.Proofs.Manifest.Normal
import Rulebook.Proofs.Manifest.Parsed
import Rulebook.Proofs.Text.Logical
import Rulebook.Proofs.Text.Pieces

/-!
# Layout of modules

How the lines of `go.mod` are laid out, as a grammar: remarks, directives, requirements on lines of
their own, and blocks, those of requirements and others. The lines are those of `Lines.ConsistsOf`,
so every boundary ends a line, within a comment too. A file in this layout is read as exactly the
modules that it requires, each with the version that is written last for it
(`Ecosystem.dependencies_go_of_layout`).
-/

namespace Rulebook

/-! ## Last entries -/

/-- `e` is in `es`, and nothing after it has the same key. -/
def IsLast (es : List (α × β)) (e : α × β) : Prop :=
  ∃ before after, es = before ++ e :: after ∧ ∀ x ∈ after, x.1 ≠ e.1

theorem isLast_concat {es : List (α × β)} {e x : α × β} :
    IsLast (es ++ [x]) e ↔ e = x ∨ IsLast es e ∧ e.1 ≠ x.1 := by
  constructor
  · rintro ⟨before, after, heq, hafter⟩
    rcases List.eq_nil_or_concat after with rfl | ⟨after, y, rfl⟩
    · exact .inl (List.singleton_inj.mp (List.append_inj_right' heq rfl)).symm
    · rw [List.concat_eq_append, ← List.cons_append, ← List.append_assoc] at heq
      obtain ⟨rfl, hxy⟩ := List.append_inj' heq rfl
      obtain rfl := List.singleton_inj.mp hxy
      have hother := List.forall_mem_append.mp (List.concat_eq_append ▸ hafter)
      exact .inr ⟨⟨before, after, rfl, hother.1⟩, (hother.2 x List.mem_cons_self).symm⟩
  · rintro (rfl | ⟨⟨before, after, rfl, hafter⟩, hx⟩)
    · exact ⟨es, [], rfl, fun _ h => nomatch h⟩
    · refine ⟨before, after ++ [x], by simp, List.forall_mem_append.mpr ⟨hafter, ?_⟩⟩
      exact List.forall_mem_singleton.mpr hx.symm

namespace Manifest

/-! ## Lines -/

/-- A line before its comment, which starts at the first two slashes. -/
inductive Uncommented : Text → Text → Prop where
  | plain {text : Text} (h : ¬['/', '/'] <:+: text) : Uncommented text text
  | comment {text : Text} (h : ¬['/', '/'] <:+: text ++ ['/']) (s : Text) :
    Uncommented (text ++ ['/', '/'] ++ s) text

/-- The line is `content` up to the blanks around it and a comment. -/
def Holds (line content : Text) : Prop :=
  ∃ text, Uncommented line text ∧ Blank.Surrounds content text ∧ Blank.IsTrimmed content

variable {line content text s : Text}

theorem split?_slashes_iff {before after : Text} :
    Search.split? ['/', '/'] line = some (before, after) ↔
      line = before ++ ['/', '/'] ++ after ∧ ¬['/', '/'] <:+: before ++ ['/'] :=
  @Search.split?_eq_some_iff ['/'] line before after '/'

theorem Uncommented.bareLine_eq (h : Uncommented line text) : bareLine line = Blank.trim text := by
  unfold bareLine
  cases h with
  | plain h => rw [Search.split?_eq_none.mpr h]
  | comment h s => rw [split?_slashes_iff.mpr ⟨rfl, h⟩]

theorem exists_uncommented (line : Text) : ∃ text, Uncommented line text := by
  cases hsplit : Search.split? ['/', '/'] line with
  | none => exact ⟨line, .plain (Search.split?_eq_none.mp hsplit)⟩
  | some halves =>
    obtain ⟨rfl, hfirst⟩ := split?_slashes_iff.mp hsplit
    exact ⟨halves.1, .comment hfirst halves.2⟩

/-- Every line holds what it is read as, and nothing else. -/
theorem holds_iff : Holds line content ↔ bareLine line = content := by
  constructor
  · rintro ⟨text, htext, hcontent, htrim⟩
    rw [htext.bareLine_eq, hcontent.trim_eq, htrim.trim]
  · rintro rfl
    obtain ⟨text, htext⟩ := exists_uncommented line
    obtain ⟨lead, trail, hcontent, hlead, htrail⟩ := Blank.exists_trim text
    rw [htext.bareLine_eq]
    exact ⟨text, htext, ⟨lead, trail, hlead, htrail, hcontent⟩, Blank.isTrimmed_trim text⟩

instance (line content : Text) : Decidable (Holds line content) := decidable_of_iff' _ holds_iff

structure IsWord (word : Text) : Prop where
  ne_nil : word ≠ []
  blank : ∀ c ∈ word, Blank.isBlank c = false

structure IsModulePath (path : Text) : Prop extends IsWord path where
  opening : path.head? ≠ some '('
  closing : path.head? ≠ some ')'
  keyword : path ≠ "require".toList

theorem isWord_iff {word : Text} :
    IsWord word ↔ word ≠ [] ∧ word.all (!Blank.isBlank ·) = true := by
  simp only [List.all_eq_true, Bool.not_eq_true']
  exact ⟨fun ⟨hne, h⟩ => ⟨hne, h⟩, fun ⟨hne, h⟩ => ⟨hne, h⟩⟩

instance (word : Text) : Decidable (IsWord word) := decidable_of_iff' _ isWord_iff

instance (path : Text) : Decidable (IsModulePath path) :=
  decidable_of_iff (IsWord path ∧ path.head? ≠ some '(' ∧ path.head? ≠ some ')' ∧
      path ≠ "require".toList)
    ⟨fun ⟨hword, hopening, hclosing, hkeyword⟩ => ⟨hword, hopening, hclosing, hkeyword⟩,
      fun h => ⟨h.toIsWord, h.opening, h.closing, h.keyword⟩⟩

/-- A path and a version with blanks between them. -/
inductive ModuleRequirement : Text → Text × Text → Prop where
  | mk {path gap version : Text} (hpath : IsModulePath path) (hversion : IsWord version)
    (hne : gap ≠ []) (hgap : Blank.isAllBlank gap = true) :
    ModuleRequirement (path ++ gap ++ version) (path, version)

/-- What stands in directives of another keyword. -/
def IsOther (content : Text) : Prop := ¬"require ".toList <+: content

instance (content : Text) : Decidable (IsOther content) := inferInstanceAs (Decidable (¬_))

theorem IsOther.not_isPrefixOf {content : Text} (h : IsOther content) :
    ¬"require (".toList.isPrefixOf content = true := fun hopen =>
  h ((List.prefix_append "require ".toList ['(']).trans (List.isPrefixOf_iff_prefix.mp hopen))

/-- Lines inside a block of requirements, and what they require. -/
inductive ModuleEntries : List Text → List (Text × Text) → Prop where
  | nil : ModuleEntries [] []
  | remark {line : Text} {lines : List Text} {ms : List (Text × Text)} (hline : Holds line [])
    (h : ModuleEntries lines ms) : ModuleEntries (line :: lines) ms
  | entry {line content : Text} {m : Text × Text} {lines : List Text} {ms : List (Text × Text)}
    (hline : Holds line content) (hm : ModuleRequirement content m) (h : ModuleEntries lines ms) :
    ModuleEntries (line :: lines) (m :: ms)

/-- The lines of a file, and what they require. -/
inductive ModuleLayout : List Text → List (Text × Text) → Prop where
  | nil : ModuleLayout [] []
  /-- A blank line, or a comment. -/
  | remark {line : Text} {lines : List Text} {ms : List (Text × Text)} (hline : Holds line [])
    (h : ModuleLayout lines ms) : ModuleLayout (line :: lines) ms
  | directive {line content : Text} {lines : List Text} {ms : List (Text × Text)}
    (hline : Holds line content) (hother : IsOther content) (h : ModuleLayout lines ms) :
    ModuleLayout (line :: lines) ms
  | block {first keyword last : Text} {body lines : List Text} {ms : List (Text × Text)}
    (hfirst : Holds first (keyword ++ " (".toList)) (hother : IsOther (keyword ++ " (".toList))
    (hbody : ∀ line ∈ body, ∃ content, Holds line content ∧ IsOther content)
    (hlast : Holds last [')']) (h : ModuleLayout lines ms) :
    ModuleLayout (first :: body ++ last :: lines) ms
  | single {line gap content : Text} {m : Text × Text} {lines : List Text}
    {ms : List (Text × Text)} (hline : Holds line ("require ".toList ++ gap ++ content))
    (hgap : Blank.isAllBlank gap = true) (hm : ModuleRequirement content m)
    (h : ModuleLayout lines ms) : ModuleLayout (line :: lines) (m :: ms)
  | requires {first last : Text} {body lines : List Text} {ms ms' : List (Text × Text)}
    (hfirst : Holds first "require (".toList) (hbody : ModuleEntries body ms)
    (hlast : Holds last [')']) (h : ModuleLayout lines ms') :
    ModuleLayout (first :: body ++ last :: lines) (ms ++ ms')

/-! ## What a line says -/

variable {m : Text × Text} {gap : Text}

theorem ModuleRequirement.words_eq (h : ModuleRequirement content m) :
    Blank.words content = [m.1, m.2] := by
  obtain @⟨path, gap, version, hpath, hversion, hne, hgap⟩ := h
  obtain ⟨c, gap, rfl⟩ := List.exists_cons_of_ne_nil hne
  obtain ⟨hc, hgap⟩ := List.forall_mem_cons.mp (List.all_eq_true.mp hgap)
  rw [List.append_assoc, List.cons_append, Blank.words_append_cons hc,
    Blank.words_append_of_isAllBlank (List.all_eq_true.mpr hgap),
    Blank.words_of_not_isBlank hpath.ne_nil hpath.blank,
    Blank.words_of_not_isBlank hversion.ne_nil hversion.blank]
  rfl

/-- A requirement begins with its path, which is no parenthesis. -/
theorem ModuleRequirement.exists_head (h : ModuleRequirement content m) :
    ∃ c rest, content = c :: rest ∧ c ≠ '(' ∧ c ≠ ')' := by
  obtain @⟨path, gap, version, hpath, -, -, -⟩ := h
  obtain ⟨c, rest, rfl⟩ := List.exists_cons_of_ne_nil hpath.ne_nil
  exact ⟨c, rest ++ gap ++ version, rfl, fun h => hpath.opening (congrArg some h),
    fun h => hpath.closing (congrArg some h)⟩

/-- The first word of a requirement is its path. -/
theorem ModuleRequirement.isOther (h : ModuleRequirement content m) : IsOther content := by
  obtain @⟨path, gap, version, hpath, -, hne, hgap⟩ := h
  rintro ⟨rest, hrest⟩
  have hfirst {word : Text} {c : Char} (hword : word.takeWhile (!Blank.isBlank ·) = word)
      (hc : Blank.isBlank c = true) (t : Text) :
      (word ++ c :: t).takeWhile (!Blank.isBlank ·) = word := by
    rw [Blank.takeWhile_append_cons (by simp [hc]), hword]
  obtain ⟨c, gap, rfl⟩ := List.exists_cons_of_ne_nil hne
  have hc := List.all_eq_true.mp hgap c List.mem_cons_self
  have hword : path.takeWhile (!Blank.isBlank ·) = path :=
    List.takeWhile_eq_self_iff.mpr fun x hx => by simp [hpath.blank x hx]
  have hkeyword : "require".toList.takeWhile (!Blank.isBlank ·) = "require".toList := by
    decide +kernel
  refine hpath.keyword ?_
  rw [← hfirst hkeyword (c := ' ') rfl rest, ← hfirst hword hc (gap ++ version)]
  simpa using congrArg (List.takeWhile (!Blank.isBlank ·)) hrest.symm

theorem ModuleLine.of_other (h : IsOther content) : ModuleLine.of false content = .other := by
  unfold ModuleLine.of
  rw [if_neg h.not_isPrefixOf, Search.dropStart?_eq_none.mpr h]
  split <;> rfl

theorem ModuleLine.of_requirement (h : ModuleRequirement content m) :
    ModuleLine.of true content = .requirement [m.1, m.2] := by
  have hother := h.isOther
  have hwords := h.words_eq
  obtain ⟨c, rest, rfl, -, hc⟩ := h.exists_head
  unfold ModuleLine.of
  rw [if_neg (by simp), if_neg hother.not_isPrefixOf, if_neg (by simpa using hc),
    Search.dropStart?_eq_none.mpr hother, hwords]
  rfl

theorem ModuleLine.of_single (hgap : Blank.isAllBlank gap = true)
    (h : ModuleRequirement content m) :
    ModuleLine.of false ("require ".toList ++ gap ++ content) = .requirement [m.1, m.2] := by
  -- what follows the keyword is a blank or the start of a path
  have hopen : ¬"require (".toList.isPrefixOf ("require ".toList ++ (gap ++ content)) = true := by
    intro hopen
    have hopen : "require ".toList ++ ['('] <+: "require ".toList ++ (gap ++ content) :=
      List.isPrefixOf_iff_prefix.mp hopen
    obtain ⟨rest, hrest⟩ := (List.prefix_append_right_inj _).mp hopen
    cases gap with
    | nil =>
      obtain ⟨c, rest', rfl, hc, -⟩ := h.exists_head
      exact hc (List.cons.inj hrest).1.symm
    | cons c gap =>
      rw [← (List.cons.inj hrest).1] at hgap
      cases hgap
  have hwords : Blank.words (gap ++ content) = [m.1, m.2] :=
    (Blank.words_append_of_isAllBlank hgap content).trans h.words_eq
  unfold ModuleLine.of
  rw [List.append_assoc, if_neg (by simp), if_neg hopen, Search.dropStart?_append]
  exact congrArg ModuleLine.requirement hwords

/-! ## What lines add -/

/-- Adds modules with their versions, in this order. -/
def addModules (d : Dependencies) (ms : List (Text × Text)) : Dependencies :=
  ms.foldl (fun d m => d.insert (String.ofList m.1) (some (String.ofList m.2))) d

variable {first last : Text} {body lines : List Text} {ms : List (Text × Text)}

theorem addModuleLines_other (hline : Holds line content) (hother : IsOther content)
    (d : Dependencies) (lines : List Text) :
    addModuleLines false d (line :: lines) = addModuleLines false d lines := by
  rw [addModuleLines, holds_iff.mp hline, ModuleLine.of_other hother]

theorem addModuleLines_remark (hline : Holds line []) (inBlock : Bool) (d : Dependencies)
    (lines : List Text) :
    addModuleLines inBlock d (line :: lines) = addModuleLines inBlock d lines := by
  rw [addModuleLines, holds_iff.mp hline]
  rfl

theorem addModuleLines_requirement {inBlock : Bool} (hline : Holds line content)
    (hof : ModuleLine.of inBlock content = .requirement [m.1, m.2]) (d : Dependencies)
    (lines : List Text) :
    addModuleLines inBlock d (line :: lines) =
      addModuleLines inBlock (addModules d [m]) lines := by
  rw [addModuleLines, holds_iff.mp hline, hof]
  rfl

theorem addModuleLines_others (h : ∀ line ∈ body, ∃ content, Holds line content ∧ IsOther content)
    (d : Dependencies) (lines : List Text) :
    addModuleLines false d (body ++ lines) = addModuleLines false d lines := by
  induction body with
  | nil => rfl
  | cons line body ih =>
    obtain ⟨⟨content, hline, hother⟩, hbody⟩ := List.forall_mem_cons.mp h
    rw [List.cons_append, addModuleLines_other hline hother, ih hbody]

/-- Inside a block nothing but its end leaves it. -/
theorem addModuleLines_entries (h : ModuleEntries body ms) (d : Dependencies) (lines : List Text) :
    addModuleLines true d (body ++ lines) = addModuleLines true (addModules d ms) lines := by
  induction h generalizing d with
  | nil => rfl
  | remark hline _ ih => rw [List.cons_append, addModuleLines_remark hline, ih]
  | entry hline hm _ ih =>
    rw [List.cons_append, addModuleLines_requirement hline (ModuleLine.of_requirement hm), ih]
    rfl

/-- Between directives and blocks the reader is never inside a block. -/
theorem addModuleLines_layout (h : ModuleLayout lines ms) (d : Dependencies) :
    addModuleLines false d lines = addModules d ms := by
  induction h generalizing d with
  | nil => rfl
  | remark hline _ ih => rw [addModuleLines_remark hline, ih]
  | directive hline hother _ ih => rw [addModuleLines_other hline hother, ih]
  | block hfirst hother hbody hlast _ ih =>
    have hclose : IsOther [')'] := by decide
    rw [List.cons_append, addModuleLines_other hfirst hother, addModuleLines_others hbody,
      addModuleLines_other hlast hclose, ih]
  | single hline hgap hm _ ih =>
    rw [addModuleLines_requirement hline (ModuleLine.of_single hgap hm), ih]
    rfl
  | requires hfirst hbody hlast _ ih =>
    rw [List.cons_append, addModuleLines, holds_iff.mp hfirst]
    show addModuleLines true d _ = _
    rw [addModuleLines_entries hbody, addModuleLines, holds_iff.mp hlast]
    show addModuleLines false _ _ = _
    rw [ih, addModules, addModules, addModules, List.foldl_append]

theorem isDistinct_addModules {d : Dependencies} (h : d.IsDistinct) (ms : List (Text × Text)) :
    (addModules d ms).IsDistinct := by
  induction ms generalizing d with
  | nil => exact h
  | cons m ms ih => exact ih (h.insert _ _)

/-- The induction is from the end, since a later version takes the place of an earlier one. -/
theorem mem_addModules {e : String × Option String} :
    e ∈ (addModules .empty ms).entries ↔ ∃ m, IsLast ms m ∧
      e = (String.ofList m.1, some (String.ofList m.2)) := by
  induction ms using List.reverseRecOn with
  | nil =>
    refine iff_of_false (List.not_mem_nil) ?_
    rintro ⟨m, ⟨before, after, heq, -⟩, -⟩
    simp at heq
  | append_singleton ms x ih =>
    have hadd : addModules .empty (ms ++ [x]) = (addModules .empty ms).insert
        (String.ofList x.1) (some (String.ofList x.2)) := List.foldl_append
    rw [hadd, Dependencies.mem_entries_insert (isDistinct_addModules .empty ms), ih]
    simp only [isLast_concat]
    constructor
    · rintro (rfl | ⟨⟨m, hm, rfl⟩, hne⟩)
      · exact ⟨x, .inl rfl, rfl⟩
      · exact ⟨m, .inr ⟨hm, fun heq => hne (congrArg String.ofList heq)⟩, rfl⟩
    · rintro ⟨m, rfl | ⟨hm, hne⟩, rfl⟩
      · exact .inl rfl
      · exact .inr ⟨⟨m, hm, rfl⟩, fun heq => hne (String.ofList_inj.mp heq)⟩

theorem contains_addModules {name : String} :
    (addModules .empty ms).contains name = true ↔ ∃ m ∈ ms, name = String.ofList m.1 := by
  have hstep (d : Dependencies) (m : Text × Text) :
      (d.insert (String.ofList m.1) (some (String.ofList m.2))).contains name = true ↔
        d.contains name = true ∨ name = String.ofList m.1 := Dependencies.contains_insert_iff
  exact (Dependencies.contains_foldl hstep .empty ms).trans (or_iff_right Bool.false_ne_true)

end Manifest

namespace Ecosystem

open Manifest (ModuleEntries ModuleLayout ModuleRequirement)

/-- Of a file in this layout exactly the modules are listed that it requires anywhere, each once and
with the version of its last requirement. -/
theorem dependencies_go_of_layout {v : View} {root : Path} {s : Text} {lines : List Text}
    {ms : List (Text × Text)} (hs : v.readText (root.child "go.mod") = .ok s)
    (hlines : Lines.ConsistsOf s lines) (hlayout : ModuleLayout lines ms) :
    ∃ d, Ecosystem.go.dependencies v root = .ok d ∧ d.IsDistinct ∧
      (∀ name, d.contains name = true ↔ ∃ m ∈ ms, name = String.ofList m.1) ∧
      ∀ e, e ∈ d.entries ↔
        ∃ m, IsLast ms m ∧ e = (String.ofList m.1, some (String.ofList m.2)) := by
  refine ⟨Manifest.addModules .empty ms, ?_, Manifest.isDistinct_addModules .empty ms, ?_, ?_⟩
  · show Manifest.go v root = _
    unfold Manifest.go
    rw [Manifest.text?_eq_some_iff.mpr hs]
    show Except.ok (Manifest.addModuleLines false .empty (Lines.logical s)) = _
    rw [hlines.logical_eq, Manifest.addModuleLines_layout hlayout]
  · exact fun name => Manifest.contains_addModules
  · exact fun e => Manifest.mem_addModules

/-- A module is required twice, the second time in a block, after a block of another directive. -/
theorem dependencies_go_of_layout_retract :
    let text := "module m\nrequire a/b v1 // x\nretract (\n v0\n)\nrequire (\n\ta/b  v2\n)"
    let v : View := ⟨⟨[(["go.mod"], .file text.toUTF8.toList)]⟩, []⟩
    let lines := ["module m", "require a/b v1 // x", "retract (", " v0", ")", "require (",
      "\ta/b  v2", ")"].map String.toList
    let ms := [("a/b".toList, "v1".toList), ("a/b".toList, "v2".toList)]
    Lines.ConsistsOf text.toList lines ∧ ModuleLayout lines ms ∧
      ∃ d, Ecosystem.go.dependencies v ⟨.root, []⟩ = .ok d ∧
        ("a/b", some "v2") ∈ d.entries ∧ d.contains "v0" = false := by
  intro text v lines ms
  have hlines : Lines.ConsistsOf text.toList lines := Lines.logical_eq_iff.mp (by decide +kernel)
  have hfirst : ModuleRequirement ("a/b".toList ++ [' '] ++ "v1".toList) ("a/b".toList, _) :=
    .mk (by decide +kernel) (by decide +kernel) (by decide) rfl
  have hsecond : ModuleRequirement ("a/b".toList ++ [' ', ' '] ++ "v2".toList) ("a/b".toList, _) :=
    .mk (by decide +kernel) (by decide +kernel) (by decide) rfl
  have hentries : ModuleEntries ["\ta/b  v2".toList] [("a/b".toList, "v2".toList)] :=
    .entry (by decide +kernel) hsecond .nil
  have hlayout : ModuleLayout lines ms := by
    refine @ModuleLayout.directive _ "module m".toList _ _ (by decide +kernel)
      (by decide +kernel) ?_
    refine @ModuleLayout.single _ [] _ _ _ _ (by decide +kernel) rfl hfirst ?_
    refine @ModuleLayout.block _ "retract".toList _ [" v0".toList] _ _ (by decide +kernel)
      (by decide +kernel) ?_ (by decide +kernel) ?_
    · exact List.forall_mem_singleton.mpr ⟨"v0".toList, by decide +kernel, by decide +kernel⟩
    · exact @ModuleLayout.requires _ _ ["\ta/b  v2".toList] _ _ _ (by decide +kernel) hentries
        (by decide +kernel) .nil
  have hs : v.readText (Path.child ⟨.root, []⟩ "go.mod") = .ok text.toList := by
    decide +kernel
  obtain ⟨d, hd, -, hcontains, hmem⟩ := dependencies_go_of_layout hs hlines hlayout
  refine ⟨hlines, hlayout, d, hd, ?_, ?_⟩
  · exact (hmem _).mpr ⟨_, ⟨[("a/b".toList, "v1".toList)], [], rfl, fun _ h => nomatch h⟩, rfl⟩
  · refine Bool.eq_false_iff.mpr fun h => ?_
    obtain ⟨m, hm, heq⟩ := (hcontains "v0").mp h
    have hpath : m.1 = "a/b".toList := by
      rcases List.mem_pair.mp hm with rfl | rfl <;> rfl
    rw [hpath] at heq
    exact absurd heq (by decide)

end Ecosystem

end Rulebook
