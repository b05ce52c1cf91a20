import Rulebook.Proofs.Manifest.Collected
import Rulebook.Proofs.Manifest.Listed
import Rulebook.Proofs.Manifest.Parsed
import Rulebook.Proofs.Text.Logical

/-!
# Required packages

What the lines of `requirements.txt` ask for, said line by line: up to the blanks around, a line is
empty, a comment, an option, or a requirement that begins with the name of a package. A project
depends on a package just if one of these names has the form of the name that is asked for
(`Project.hasDependency_requirements`).
-/

namespace Rulebook

namespace Manifest

/-! ## Lines -/

/-- The name of a package, which begins and ends with a letter or a digit. -/
structure IsPackageName (name : Text) : Prop where
  chars : ∀ c ∈ name, isPackageChar c = true
  head : ∃ c ∈ name.head?, Word.isLetterOrDigit c = true
  last : ∃ c ∈ name.getLast?, Word.isLetterOrDigit c = true

/-- What a line holds, and the package that it names. -/
inductive RequirementLine : Text → Option Text → Prop where
  | empty : RequirementLine [] none
  | comment (s : Text) : RequirementLine ('#' :: s) none
  | option (s : Text) : RequirementLine ('-' :: s) none
  /-- Extras, versions, markers, a location or a comment can follow, anything that does not go on
  with the name. -/
  | package {name rest : Text} (hname : IsPackageName name)
    (hrest : ∀ c ∈ rest.head?, isPackageChar c = false) : RequirementLine (name ++ rest) (some name)

/-- The line, up to the blanks around it, names that package or none. -/
def Requires (line : Text) (name : Option Text) : Prop :=
  ∃ content, Blank.Surrounds content line ∧ RequirementLine content name

/-- The package that a line is read as asking for. -/
def requiredName? (line : Text) : Option Text := (requirementOfLine? line).bind requirementName?

variable {line content name rest s : Text} {name? : Option Text} {d : Dependencies}

theorem takeWhile_comment {lead : Text} (hlead : Blank.isAllBlank lead = true) (s : Text) :
    (lead ++ s).takeWhile (· ≠ '#') = lead ++ s.takeWhile (· ≠ '#') := by
  refine List.takeWhile_append_of_pos fun c hc => decide_eq_true ?_
  rintro rfl
  cases List.all_eq_true.mp hlead _ hc

theorem requiredName?_of_trim_eq_nil (h : Blank.trim (line.takeWhile (· ≠ '#')) = []) :
    requiredName? line = none := by
  unfold requiredName? requirementOfLine?
  rw [h]
  rfl

theorem requiredName?_option (h : Blank.trim (line.takeWhile (· ≠ '#')) = '-' :: s) :
    requiredName? line = none := by
  unfold requiredName? requirementOfLine?
  rw [h]
  rfl

theorem trim_name_append {lead : Text} (hlead : Blank.isAllBlank lead = true)
    (hname : IsPackageName name) (s : Text) :
    Blank.trim (lead ++ (name ++ s)) = name ++ Blank.trimEnd s := by
  obtain ⟨c, hc, -⟩ := hname.head
  obtain ⟨tail, rfl⟩ := List.head?_eq_some_iff.mp hc
  obtain ⟨hcchar, htail⟩ := List.forall_mem_cons.mp hname.chars
  rw [List.cons_append, Blank.trim_append_cons hlead (not_isBlank_of_isPackageChar hcchar)]
  exact congrArg (c :: ·) (Blank.dropEndWhile_append_of_last
    (fun d hd => not_isBlank_of_isPackageChar (htail d (List.mem_of_getLast? hd))) s)

/-- The name is read as far as it goes. -/
theorem requirementName?_append (hname : IsPackageName name)
    (hrest : ∀ c ∈ rest.head?, isPackageChar c = false) :
    requirementName? (name ++ rest) = some name := by
  have htrim : Blank.trim ([] ++ (name ++ rest)) = name ++ Blank.trimEnd rest :=
    trim_name_append rfl hname rest
  have hstop : (Blank.trimEnd rest).takeWhile isPackageChar = [] :=
    Blank.takeWhile_of_head fun c hc =>
      hrest c (Blank.head?_of_prefix (Blank.prefix_dropEndWhile _ rest) hc)
  unfold requirementName?
  rw [← List.nil_append (name ++ rest), htrim]
  obtain ⟨c, hc, hfirst⟩ := hname.head
  obtain ⟨tail, rfl⟩ := List.head?_eq_some_iff.mp hc
  obtain ⟨-, htail⟩ := List.forall_mem_cons.mp hname.chars
  rw [List.cons_append]
  dsimp only
  rw [if_pos hfirst, List.takeWhile_append_of_pos htail, hstop, List.append_nil]

theorem requirementOfLine?_of_trim (hname : IsPackageName name)
    (h : Blank.trim (line.takeWhile (· ≠ '#')) = name ++ s) :
    requirementOfLine? line = some (name ++ s) := by
  obtain ⟨c, hc, hfirst⟩ := hname.head
  obtain ⟨tail, rfl⟩ := List.head?_eq_some_iff.mp hc
  unfold requirementOfLine?
  rw [h]
  split
  next hnil => cases hnil
  next hoption =>
    rw [(List.cons.inj hoption).1] at hfirst
    cases hfirst
  next => rfl

/-- Each line is read as what it holds. -/
theorem requiredName?_eq (h : Requires line name?) : requiredName? line = name? := by
  obtain ⟨content, ⟨lead, trail, hlead, htrail, rfl⟩, h⟩ := h
  rw [List.append_assoc]
  cases h with
  | empty =>
    apply requiredName?_of_trim_eq_nil
    have hblank : Blank.isAllBlank (lead ++ trail.takeWhile (· ≠ '#')) = true := by
      refine List.all_eq_true.mpr (List.forall_mem_append.mpr ⟨List.all_eq_true.mp hlead, ?_⟩)
      exact fun c hc => List.all_eq_true.mp htrail c (List.takeWhile_subset _ hc)
    rw [takeWhile_comment hlead]
    exact Blank.trim_of_isAllBlank hblank
  | comment s =>
    apply requiredName?_of_trim_eq_nil
    rw [takeWhile_comment hlead]
    exact (congrArg Blank.trim (List.append_nil lead)).trans (Blank.trim_of_isAllBlank hlead)
  | option s =>
    refine requiredName?_option (s := Blank.trimEnd ((s ++ trail).takeWhile (· ≠ '#'))) ?_
    rw [takeWhile_comment hlead]
    exact Blank.trim_append_cons hlead rfl _
  | @package name rest hname hrest =>
    have hnohash : ∀ c ∈ name, decide (c ≠ '#') = true := fun c hc => decide_eq_true (by
      rintro rfl
      cases hname.chars _ hc)
    have htrim : Blank.trim ((lead ++ (name ++ rest ++ trail)).takeWhile (· ≠ '#')) =
        name ++ Blank.trimEnd ((rest ++ trail).takeWhile (· ≠ '#')) := by
      rw [takeWhile_comment hlead, List.append_assoc, List.takeWhile_append_of_pos hnohash,
        trim_name_append hlead hname]
    -- what follows the name begins as before, if the comment leaves anything of it
    have hnext : ∀ c ∈ (rest ++ trail).head?, isPackageChar c = false := fun c hc => by
      cases rest with
      | nil =>
        have hblank := List.all_eq_true.mp htrail c (List.mem_of_head? hc)
        exact Bool.eq_false_iff.mpr fun hchar => by
          rw [not_isBlank_of_isPackageChar hchar] at hblank
          cases hblank
      | cons d rest => exact hrest c hc
    unfold requiredName?
    rw [requirementOfLine?_of_trim hname htrim]
    refine requirementName?_append hname fun c hc => hnext c ?_
    exact Blank.head?_of_prefix (List.takeWhile_prefix _)
      (Blank.head?_of_prefix (Blank.prefix_dropEndWhile _ _) hc)

/-! ## Files -/

theorem contains_addRequirement {key : String} (d : Dependencies) (requirement : Text) :
    (addRequirement d requirement).contains key = true ↔ d.contains key = true ∨
      ∃ name, requirementName? requirement = some name ∧
        key = Ecosystem.pip.normalName (String.ofList name) := by
  unfold addRequirement
  cases requirementName? requirement with
  | none => simp
  | some name => simp [or_comm]

theorem map_requiredName? {lines : List Text} {names : List (Option Text)}
    (h : List.Forall₂ Requires lines names) : lines.map requiredName? = names := by
  induction h with
  | nil => rfl
  | cons hline _ ih => rw [List.map_cons, requiredName?_eq hline, ih]

/-- A file lists the forms of the names in its lines. -/
theorem contains_addRequirementLines {lines : List Text} {names : List (Option Text)} {key : String}
    (hlines : Lines.ConsistsOf s lines) (hnames : List.Forall₂ Requires lines names) :
    (addRequirementLines .empty s).contains key = true ↔
      ∃ name, some name ∈ names ∧ key = Ecosystem.pip.normalName (String.ofList name) := by
  rw [addRequirementLines, hlines.logical_eq, Dependencies.contains_foldl contains_addRequirement,
    ← map_requiredName? hnames]
  refine (or_iff_right Bool.false_ne_true).trans ?_
  simp only [List.mem_filterMap, List.mem_map, requiredName?, Option.bind_eq_some_iff]
  constructor
  · rintro ⟨r, ⟨line, hline, hr⟩, name, hname, hkey⟩
    exact ⟨name, ⟨line, hline, r, hr, hname⟩, hkey⟩
  · rintro ⟨name, ⟨line, hline, r, hr, hname⟩, hkey⟩
    exact ⟨r, ⟨line, hline, hr⟩, name, hname, hkey⟩

theorem pip_of_requirements {v : View} {root : Path}
    (hs : v.readText (root.child "requirements.txt") = .ok s)
    (hproject : IsAbsent v (root.child "pyproject.toml"))
    (hpipfile : IsAbsent v (root.child "Pipfile")) :
    pip .standard v root = .ok (addRequirementLines .empty s) := by
  unfold pip
  rw [text?_eq_some_iff.mpr hs]
  show (parsed? v _ _ >>= _) = _
  rw [parsed?_eq_none_iff.mpr hproject]
  show (parsed? v _ _ >>= _) = _
  rw [parsed?_eq_none_iff.mpr hpipfile]
  rfl

end Manifest

/-- The normal form of a name of `pip` is its folded form. -/
theorem Ecosystem.normalName_pip_eq_iff {n : String} {name : Text} :
    Ecosystem.pip.normalName n = Ecosystem.pip.normalName (String.ofList name) ↔
      ∃ form, Naming.IsFolded n.toList form ∧ Naming.IsFolded name form := by
  simp only [Naming.isFolded_iff, exists_eq_left', normalName, naming, String.toList_ofList,
    String.ofList_inj]
  exact eq_comm

namespace Project

open Manifest (IsAbsent Requires)

/-- Of a file whose lines are empty, comments, options and requirements, exactly the packages that
the requirements name are found, in every spelling of one form. -/
theorem hasDependency_requirements (p : Project) (v : View) {f : Findings} {s : Text}
    {lines : List Text} {names : List (Option Text)} (hf : f.dependencies.lookup .pip = none)
    (hs : v.readText (p.root.child "requirements.txt") = .ok s)
    (hproject : IsAbsent v (p.root.child "pyproject.toml"))
    (hpipfile : IsAbsent v (p.root.child "Pipfile")) (hlines : Lines.ConsistsOf s lines)
    (hnames : List.Forall₂ Requires lines names) (n : String) :
    ∃ found, (p.hasDependency v .pip n f).1 = .ok found ∧
      (found = true ↔ ∃ name form, some name ∈ names ∧
        Naming.IsFolded n.toList form ∧ Naming.IsFolded name form) := by
  have hpip : Ecosystem.pip.dependencies v p.root = .ok (Manifest.addRequirementLines .empty s) :=
    Manifest.pip_of_requirements hs hproject hpipfile
  refine ⟨(Manifest.addRequirementLines .empty s).contains (Ecosystem.pip.normalName n), ?_, ?_⟩
  · rw [hasDependency_eq, dependencies_of_not_found p hf, hpip]
    rfl
  · rw [Manifest.contains_addRequirementLines hlines hnames]
    simp only [Ecosystem.normalName_pip_eq_iff, exists_and_left]

/-- A comment, an option after blanks, and a requirement with extras, a version and a comment. -/
theorem hasDependency_requirements_zope :
    let v : View := ⟨⟨[(["requirements.txt"],
      .file "# web\n  -r x\nZope_.Event[x]>=2 # y".toUTF8.toList)]⟩, []⟩
    let p : Project := ⟨⟨.root, []⟩, []⟩
    let lines := ["# web".toList, "  -r x".toList, "Zope_.Event[x]>=2 # y".toList]
    let names := [none, none, some "Zope_.Event".toList]
    Lines.ConsistsOf "# web\n  -r x\nZope_.Event[x]>=2 # y".toList lines ∧
      List.Forall₂ Requires lines names ∧
      (p.hasDependency v .pip "ZOPE-event" .empty).1 = .ok true ∧
      (p.hasDependency v .pip "web" .empty).1 = .ok false := by
  intro v p lines names
  have hlines : Lines.ConsistsOf "# web\n  -r x\nZope_.Event[x]>=2 # y".toList lines :=
    Lines.logical_eq_iff.mp (by decide +kernel)
  have hname : Manifest.IsPackageName "Zope_.Event".toList :=
    ⟨List.all_eq_true.mp (by decide +kernel), ⟨'Z', rfl, rfl⟩, ⟨'t', rfl, rfl⟩⟩
  have hnames : List.Forall₂ Requires lines names :=
    .cons ⟨"# web".toList, ⟨[], [], rfl, rfl, rfl⟩, .comment " web".toList⟩ <|
    .cons ⟨"-r x".toList, ⟨[' ', ' '], [], rfl, rfl, rfl⟩, .option "r x".toList⟩ <|
    .cons ⟨"Zope_.Event[x]>=2 # y".toList, ⟨[], [], rfl, rfl, rfl⟩,
      @Manifest.RequirementLine.package _ "[x]>=2 # y".toList hname fun c hc =>
        Option.some.inj hc ▸ rfl⟩ .nil
  have hs : v.readText (p.root.child "requirements.txt") =
      .ok "# web\n  -r x\nZope_.Event[x]>=2 # y".toList := by decide +kernel
  have hfound := hasDependency_requirements p v (f := .empty) rfl hs ⟨_, by rfl⟩ ⟨_, by rfl⟩
    hlines hnames
  refine ⟨hlines, hnames, ?_, ?_⟩
  · obtain ⟨found, hanswer, hiff⟩ := hfound "ZOPE-event"
    rw [hanswer, hiff.mpr ⟨"Zope_.Event".toList, "zope-event".toList, by simp [names],
      Naming.isFolded_iff.mpr (by decide +kernel), Naming.isFolded_iff.mpr (by decide +kernel)⟩]
  · obtain ⟨found, hanswer, hiff⟩ := hfound "web"
    have hother :
        Naming.folded.normal "web".toList ≠ Naming.folded.normal "Zope_.Event".toList := by
      decide +kernel
    have hno : found = false := Bool.eq_false_iff.mpr fun h => by
      obtain ⟨name, form, hname, hweb, hform⟩ := hiff.mp h
      obtain rfl : "Zope_.Event".toList = name := by simpa [names, eq_comm] using hname
      exact hother ((Naming.isFolded_iff.mp hweb).trans (Naming.isFolded_iff.mp hform).symm)
    rw [hanswer, hno]

end Project

end Rulebook
