import Rulebook.Manifest.Reader
import Rulebook.Proofs.Manifest.Normal
import Rulebook.Proofs.Project.History

/-!
# Listed names

Readers of manifests come by the names of packages in many ways: as keys of tables, at the start of
requirements, as words, in quotes or as the text of elements. All of them list normal forms only,
whatever is read from JSON, TOML, YAML or XML (`Manifest.isNormal_of_dependenciesBy`), so what is
listed is found when it is asked for, at any time of a project (`Situation.listed_names_found`).
-/

namespace Rulebook

open Condition (Failure)

/-! ## Listings -/

/-- All names in the listing are in the normal form of the ecosystem. -/
def Dependencies.IsNormal (e : Ecosystem) (d : Dependencies) : Prop :=
  ∀ name, d.contains name = true → e.normalName name = name

namespace Dependencies

variable {e : Ecosystem} {d : Dependencies} {name : String}

theorem IsNormal.empty (e : Ecosystem) : Dependencies.empty.IsNormal e := fun _ h => nomatch h

theorem IsNormal.insert (h : d.IsNormal e) (hname : e.normalName name = name)
    (version : Option String) : (d.insert name version).IsNormal e := by
  intro other hother
  rw [contains_insert, Bool.or_eq_true, decide_eq_true_eq] at hother
  rcases hother with rfl | hother
  · exact hname
  · exact h other hother

theorem IsNormal.insert_normalName (h : d.IsNormal e) (name : String) (version : Option String) :
    (d.insert (e.normalName name) version).IsNormal e :=
  h.insert (e.normalName_normalName name) version

theorem IsNormal.erase (h : d.IsNormal e) (name : String) : (d.erase name).IsNormal e := by
  intro other hother
  obtain ⟨entry, hentry, heq⟩ := List.mem_map.mp (contains_iff.mp hother)
  exact h other (contains_iff.mpr (List.mem_map.mpr ⟨entry, (List.mem_filter.mp hentry).1, heq⟩))

theorem IsNormal.foldl {f : Dependencies → α → Dependencies} {l : List α} (h : d.IsNormal e)
    (hf : ∀ d, d.IsNormal e → ∀ a ∈ l, (f d a).IsNormal e) : (l.foldl f d).IsNormal e :=
  List.foldlRecOn l f h hf

end Dependencies

namespace Manifest

variable {ps : Parsers} {e : Ecosystem} {d d' : Dependencies} {v : View} {root : Path} {s : Text}

/-! ## Tables and requirements -/

theorem isNormal_addTable (h : d.IsNormal e) (table : Value) : (addTable e d table).IsNormal e := by
  cases table with
  | map es => exact h.foldl fun d hd entry _ => hd.insert_normalName entry.1.text _
  | _ => exact h

theorem isNormal_addTables (h : d.IsNormal e) (tables : List Value) :
    (addTables e d tables).IsNormal e :=
  h.foldl fun _ hd table _ => isNormal_addTable hd table

theorem ofFault_eq_ok_iff {x : Except Fault α} {a : α} : ofFault x = .ok a ↔ x = .ok a := by
  cases x <;> simp [ofFault, Except.mapError]

theorem isNormal_mergeTables (h : d.IsNormal e) {tables : List Value}
    (hd : mergeTables e d tables = .ok d') : d'.IsNormal e := by
  unfold mergeTables at hd
  split at hd <;> cases hd
  exact isNormal_addTables h tables

/-- Where each step that succeeds keeps the listing normal, so do all steps together. -/
theorem isNormal_foldlM {f : Dependencies → α → Except Fault Dependencies}
    (hf : ∀ d a d', d.IsNormal e → f d a = .ok d' → d'.IsNormal e) (h : d.IsNormal e) {l : List α}
    (hd : l.foldlM f d = .ok d') : d'.IsNormal e := by
  induction l generalizing d with
  | nil =>
    cases hd
    exact h
  | cons a l ih =>
    obtain ⟨next, hnext, hd⟩ := bind_eq_ok_iff.mp hd
    exact ih (hf d a next h hnext) hd

theorem isNormal_mergeSections (h : d.IsNormal e) {names : List String} {sections : List Value}
    (hd : mergeSections e names d sections = .ok d') : d'.IsNormal e := by
  refine isNormal_foldlM (fun d part d' h hd => ?_) h hd
  cases part with
  | map es => exact isNormal_mergeTables h hd
  | _ =>
    cases hd
    exact h

theorem isNormal_addRequirement (h : d.IsNormal .pip) (requirement : Text) :
    (addRequirement d requirement).IsNormal .pip := by
  unfold addRequirement
  split
  · exact h.insert_normalName _ _
  · exact h

theorem isNormal_addRequirements (h : d.IsNormal .pip) {requirements : Value}
    (hd : addRequirements d requirements = .ok d') : d'.IsNormal .pip := by
  obtain ⟨items, -, hd⟩ := bind_eq_ok_iff.mp hd
  split at hd <;> cases hd
  exact h.foldl fun _ hd item _ => isNormal_addRequirement hd item.text.toList

theorem isNormal_addProject (h : d.IsNormal .pip) {es : Entries}
    (hd : addProject d es = .ok d') : d'.IsNormal .pip := by
  obtain ⟨main, -, hd⟩ := bind_eq_ok_iff.mp hd
  obtain ⟨deps, hdeps, hd⟩ := bind_eq_ok_iff.mp hd
  obtain ⟨optional, -, hd⟩ := bind_eq_ok_iff.mp hd
  obtain ⟨groups, -, hd⟩ := bind_eq_ok_iff.mp hd
  exact isNormal_foldlM (fun _ _ _ h hd => isNormal_addRequirements h hd)
    (isNormal_addRequirements h hdeps) hd

theorem isNormal_addPoetry (h : d.IsNormal .pip) {es : Entries}
    (hd : addPoetry d es = .ok d') : d'.IsNormal .pip := by
  obtain ⟨poetry, -, hd⟩ := bind_eq_ok_iff.mp hd
  obtain ⟨main, -, hd⟩ := bind_eq_ok_iff.mp hd
  obtain ⟨dev, -, hd⟩ := bind_eq_ok_iff.mp hd
  obtain ⟨deps, hdeps, hd⟩ := bind_eq_ok_iff.mp hd
  obtain ⟨group, -, hd⟩ := bind_eq_ok_iff.mp hd
  obtain ⟨groups, -, hd⟩ := bind_eq_ok_iff.mp hd
  obtain ⟨all, hall, hd⟩ := bind_eq_ok_iff.mp hd
  cases hd
  exact (isNormal_mergeSections (isNormal_mergeTables h hdeps) hall).erase "python"

theorem isNormal_pip (hd : pip ps v root = .ok d) : d.IsNormal .pip := by
  obtain ⟨lines, -, hd⟩ := bind_eq_ok_iff.mp hd
  obtain ⟨project, -, hd⟩ := bind_eq_ok_iff.mp hd
  have hlines : (addRequirementLines .empty (lines.getD [])).IsNormal .pip :=
    (Dependencies.IsNormal.empty .pip).foldl fun _ hd line _ => isNormal_addRequirement hd line
  have hrest {deps : Dependencies} {names : List String} (h : deps.IsNormal .pip) (hd : (do
      let es ← parsed? v (root.child "Pipfile") (tomlTable ps (root.child "Pipfile"))
      ofFault (mergeTables .pip deps (fields (es.getD []) names))) = Except.ok d) :
      d.IsNormal .pip := by
    obtain ⟨es, -, hd⟩ := bind_eq_ok_iff.mp hd
    exact isNormal_mergeTables h (ofFault_eq_ok_iff.mp hd)
  cases project with
  | none => exact hrest hlines hd
  | some es =>
    obtain ⟨deps, hdeps, hd⟩ := bind_eq_ok_iff.mp hd
    obtain ⟨main, hmain, hpoetry⟩ := bind_eq_ok_iff.mp (ofFault_eq_ok_iff.mp hdeps)
    exact hrest (isNormal_addPoetry (isNormal_addProject hlines hmain) hpoetry) hd

theorem isNormal_addCrates (h : d.IsNormal .cargo) {es : Entries}
    (hd : addCrates d es = .ok d') : d'.IsNormal .cargo := by
  obtain ⟨shared, -, hd⟩ := bind_eq_ok_iff.mp hd
  obtain ⟨deps, hdeps, hd⟩ := bind_eq_ok_iff.mp hd
  obtain ⟨platforms, -, hd⟩ := bind_eq_ok_iff.mp hd
  exact isNormal_mergeSections (isNormal_mergeTables h hdeps) hd

/-! ## Words and mentions -/

theorem not_isBlank_of_mem_words {word : Text} (h : word ∈ Blank.words s) :
    ∀ c ∈ word, Blank.isBlank c = false :=
  Blank.of_mem_splitWhere (List.mem_filter.mp h).1

theorem requirement_eq_words {inBlock : Bool} {line : Text} {words : List Text}
    (h : ModuleLine.of inBlock line = .requirement words) : ∃ s, words = Blank.words s := by
  unfold ModuleLine.of at h
  split at h
  · cases h
  split at h
  · cases h
  split at h
  · cases h
  split at h
  next rest _ => exact ⟨rest, (ModuleLine.requirement.inj h).symm⟩
  next =>
    split at h
    · exact ⟨line, (ModuleLine.requirement.inj h).symm⟩
    · cases h

theorem isNormal_addModuleLines (h : d.IsNormal .go) (inBlock : Bool) (lines : List Text) :
    (addModuleLines inBlock d lines).IsNormal .go := by
  induction lines generalizing inBlock d with
  | nil => exact h
  | cons line lines ih =>
    unfold addModuleLines
    split
    next => exact ih h true
    next => exact ih h false
    next path version words heq =>
      obtain ⟨s, hs⟩ := requirement_eq_words heq
      have hpath : path ∈ Blank.words s := hs ▸ List.mem_cons_self
      refine ih (h.insert (Ecosystem.normalName_of_isTrimmed rfl ?_) _) inBlock
      exact Blank.isTrimmed_of_not_isBlank (not_isBlank_of_mem_words hpath)
    next => exact ih h inBlock

theorem not_isBlank_of_isPackageChar {c : Char} (h : isPackageChar c = true) :
    Blank.isBlank c = false := by
  have hrange (first last : Char) : (decide (first ≤ c) && decide (c ≤ last)) = true ↔
      first.toNat ≤ c.toNat ∧ c.toNat ≤ last.toNat := by
    rw [Bool.and_eq_true, decide_eq_true_eq, decide_eq_true_eq]
    rfl
  have hvisible : 0x21 ≤ c.toNat ∧ c.toNat ≤ 0x7E := by
    simp only [isPackageChar, Word.isLetterOrDigit, Word.isLetter, Bool.or_eq_true, hrange,
      beq_iff_eq, Char.reduceToNat] at h
    rcases h with ((h | rfl) | rfl) | rfl
    · omega
    all_goals decide
  rw [Bool.eq_false_iff]
  intro hblank
  simp only [Blank.isBlank, Bool.or_eq_true, Bool.and_eq_true, decide_eq_true_eq,
    beq_iff_eq] at hblank
  omega

theorem isTrimmed_of_isPackageChar (h : ∀ c ∈ s, isPackageChar c = true) : Blank.IsTrimmed s :=
  Blank.isTrimmed_of_not_isBlank fun c hc => not_isBlank_of_isPackageChar (h c hc)

theorem of_mem_takeWhile {p : Char → Bool} : ∀ c ∈ s.takeWhile p, p c = true :=
  List.all_eq_true.mp List.all_takeWhile

/-- A reader that gives up where `p` holds succeeds only where it does not. -/
theorem unless_eq_some_iff {p : Prop} [Decidable p] {k : β → Option α} {x : Option α} {a : α} :
    (if p then none >>= k else x) = some a ↔ ¬p ∧ x = some a := by
  split <;> simp [*]

theorem of_untilQuote? {p : Char → Bool} {text rest : Text}
    (h : untilQuote? p s = some (text, rest)) : ∀ c ∈ text, p c = true := by
  unfold untilQuote? at h
  dsimp only at h
  split at h
  next =>
    split at h
    next =>
      cases h
      exact of_mem_takeWhile
    next => cases h
  next => cases h

theorem isPackageChar_of_gem? {name : Text} (h : gem? s = some name) :
    ∀ c ∈ name, isPackageChar c = true := by
  obtain ⟨rest, -, h⟩ := Option.bind_eq_some_iff.mp h
  cases rest with
  | nil => cases h
  | cons blank rest =>
    obtain ⟨-, h⟩ := unless_eq_some_iff.mp h
    split at h
    next =>
      split at h
      next =>
        obtain ⟨⟨text, rest⟩, htext, rfl⟩ := Option.map_eq_some_iff.mp h
        exact of_untilQuote? htext
      next => cases h
    next => cases h

theorem isTrimmed_childText (x : Xml.Element) (name : String) :
    Blank.IsTrimmed (childText x name) := by
  unfold childText
  split
  · exact Blank.isTrimmed_trim _
  · exact Blank.isTrimmed_of_not_isBlank fun _ h => nomatch h

/-- An artifact counts by itself and with its group, so both have to be normal. -/
theorem isTrimmed_joined {group artifact : Text} (hgroup : Blank.IsTrimmed group)
    (hartifact : Blank.IsTrimmed artifact) (hgne : group ≠ []) (hane : artifact ≠ []) :
    Blank.IsTrimmed (group ++ ':' :: artifact) := by
  have h := hgroup.enclose hartifact hgne hane [':']
  rwa [List.append_assoc] at h

theorem isNormal_addArtifact (h : d.IsNormal .maven) (x : Xml.Element) :
    (addArtifact d x).IsNormal .maven := by
  have hgroup := isTrimmed_childText x "groupId"
  have hartifact := isTrimmed_childText x "artifactId"
  unfold addArtifact
  dsimp only
  split
  next => exact h
  next hane =>
    have hd := h.insert (Ecosystem.normalName_of_isTrimmed rfl hartifact)
    split
    next => exact hd _
    next hgne =>
      refine (hd _).insert (Ecosystem.normalName_of_isTrimmed rfl ?_) _
      exact isTrimmed_joined hgroup hartifact (by simpa using hgne) (by simpa using hane)

/-- Both parts of coordinates that are read are names. -/
structure Coordinate.IsNamed (c : Coordinate) : Prop where
  group : ∀ x ∈ c.group, isPackageChar x = true
  artifact : ∀ x ∈ c.artifact, isPackageChar x = true
  group_ne : c.group ≠ []
  artifact_ne : c.artifact ≠ []

theorem Coordinate.isNamed_of_read? {c : Coordinate} {rest : Text}
    (h : Coordinate.read? s = some (c, rest)) : c.IsNamed := by
  unfold Coordinate.read? at h
  cases s with
  | nil => cases h
  | cons quote s =>
    obtain ⟨-, h⟩ := unless_eq_some_iff.mp h
    obtain ⟨hgroup, h⟩ := unless_eq_some_iff.mp h
    obtain ⟨t, -, h⟩ := Option.bind_eq_some_iff.mp h
    obtain ⟨hartifact, h⟩ := unless_eq_some_iff.mp h
    have hnamed (version : Option Text) : Coordinate.IsNamed
        ⟨s.takeWhile isPackageChar, t.takeWhile isPackageChar, version⟩ :=
      ⟨of_mem_takeWhile, of_mem_takeWhile, by simpa using hgroup, by simpa using hartifact⟩
    split at h
    next =>
      obtain ⟨⟨version, rest⟩, -, h⟩ := Option.bind_eq_some_iff.mp h
      cases h
      exact hnamed _
    next =>
      split at h
      next =>
        cases h
        exact hnamed none
      next => cases h
    next => cases h

/-- What occurs in a text was read somewhere. -/
theorem exists_read?_of_mem_occurrences {read? : Text → Option (α × Text)} {a : α}
    (h : a ∈ Search.occurrences read? s) : ∃ t rest, read? t = some (a, rest) := by
  unfold Search.occurrences at h
  generalize (0 : Nat) = covered at h
  fun_induction Search.occurrencesFrom read? covered s with
  | case1 => cases h
  | case2 c s covered ih => exact ih h
  | case3 c s found rest hread ih =>
    rcases List.mem_cons.mp h with rfl | h
    · exact ⟨c :: s, rest, hread⟩
    · exact ih h
  | case4 c s hread ih => exact ih h

theorem isNormal_addCoordinate (h : d.IsNormal .gradle) {c : Coordinate} (hc : c.IsNamed) :
    (addCoordinate d c).IsNormal .gradle := by
  have hgroup := isTrimmed_of_isPackageChar hc.group
  have hartifact := isTrimmed_of_isPackageChar hc.artifact
  refine (h.insert (Ecosystem.normalName_of_isTrimmed rfl hartifact) _).insert
    (Ecosystem.normalName_of_isTrimmed rfl ?_) _
  exact isTrimmed_joined hgroup hartifact hc.group_ne hc.artifact_ne

/-! ## Readers -/

/-- Whatever the files hold and whatever is read from them, a reader that succeeds lists normal
forms. -/
theorem isNormal_of_dependenciesBy (h : e.dependenciesBy ps v root = .ok d) : d.IsNormal e := by
  have hempty := Dependencies.IsNormal.empty
  cases e with
  | npm | composer | pub =>
    obtain ⟨es, -, h⟩ := bind_eq_ok_iff.mp h
    exact isNormal_mergeTables (hempty _) (ofFault_eq_ok_iff.mp h)
  | pip => exact isNormal_pip h
  | cargo =>
    obtain ⟨es, -, h⟩ := bind_eq_ok_iff.mp h
    exact isNormal_addCrates (hempty .cargo) (ofFault_eq_ok_iff.mp h)
  | go =>
    obtain ⟨s, -, h⟩ := bind_eq_ok_iff.mp h
    cases h
    exact isNormal_addModuleLines (hempty .go) _ _
  | gem =>
    obtain ⟨s, -, h⟩ := bind_eq_ok_iff.mp h
    cases h
    refine (hempty .gem).foldl fun d hd name hname => ?_
    obtain ⟨line, -, hline⟩ := List.mem_filterMap.mp hname
    have htrim := isTrimmed_of_isPackageChar (isPackageChar_of_gem? hline)
    exact hd.insert (Ecosystem.normalName_of_isTrimmed rfl htrim) none
  | maven =>
    obtain ⟨x, -, h⟩ := bind_eq_ok_iff.mp h
    cases x with
    | none =>
      cases h
      exact hempty .maven
    | some x =>
      cases h
      exact (hempty .maven).foldl fun d hd y _ => isNormal_addArtifact hd y
  | gradle =>
    obtain ⟨first, -, h⟩ := bind_eq_ok_iff.mp h
    obtain ⟨second, -, h⟩ := bind_eq_ok_iff.mp h
    cases h
    refine (hempty .gradle).foldl fun d hd c hc => isNormal_addCoordinate hd ?_
    rcases List.mem_append.mp hc with hc | hc
    all_goals
      obtain ⟨t, rest, hread⟩ := exists_read?_of_mem_occurrences hc
      exact Coordinate.isNamed_of_read? hread
  | nuget =>
    obtain ⟨files, -, h⟩ := bind_eq_ok_iff.mp h
    obtain ⟨texts, -, h⟩ := bind_eq_ok_iff.mp h
    cases h
    exact (hempty .nuget).foldl fun d hd s _ => hd.foldl fun d hd name _ =>
      hd.insert_normalName _ none

end Manifest

/-! ## Names asked for -/

namespace Project

variable {v : View} {f : Findings}

theorem dependencies_of_not_found {e : Ecosystem} (p : Project)
    (hf : f.dependencies.lookup e = none) :
    (p.dependencies v e f).1 = e.dependencies v p.root := by
  unfold dependencies Inquiry.remember
  dsimp only
  rw [hf]
  cases e.dependencies v p.root <;> rfl

/-- A package is there if its normal form is listed. -/
theorem hasDependency_eq (p : Project) (v : View) (e : Ecosystem) (name : String) (f : Findings) :
    (p.hasDependency v e name f).1 =
      (p.dependencies v e f).1.map fun d => d.contains (e.normalName name) := by
  show (Inquiry.bind (p.dependencies v e) _ f).1 = _
  unfold Inquiry.bind
  rcases p.dependencies v e f with ⟨_ | _, _⟩ <;> rfl

end Project

namespace Situation

variable {p : Project} {e : Ecosystem} {d : Dependencies}

theorem reply_hasDependency (s : Situation) (e : Ecosystem) (name : String) :
    s.reply p (.ask (.hasDependency e name)) =
      (s.reply p (.ask (.dependencies e))).map fun d => d.contains (e.normalName name) :=
  p.hasDependency_eq s.view e name s.findings

/-- The listing of a project is that of some files, which need not be there any more. -/
theorem isNormal_of_reply {v : View} {h : List Event}
    (hd : ((start v).after p h).reply p (.ask (.dependencies e)) = .ok d) : d.IsNormal e := by
  have hfresh := (reply_eq (consistent_after_start v h) (.ask (.dependencies e))).symm.trans hd
  exact Manifest.isNormal_of_dependenciesBy ((Finding.fresh_dependencies e).symm.trans hfresh)

/-- Insertion and lookup agree on names. Each reader lists a package under the normal form of its
name, whatever functions read JSON, TOML, YAML and XML. After any history of a project, a name is
found just if its normal form is listed, so all that is listed is found, and names of one normal
form have one answer. -/
theorem listed_names_found (p : Project) (v : View) (h : List Event) (e : Ecosystem) :
    let s := (start v).after p h
    (∀ ps w root d, e.dependenciesBy ps w root = .ok d →
      ∀ name, d.contains name = true → e.normalName name = name) ∧
    (∀ name, s.reply p (.ask (.hasDependency e name)) =
      (s.reply p (.ask (.dependencies e))).map fun d => d.contains (e.normalName name)) ∧
    (∀ d, s.reply p (.ask (.dependencies e)) = .ok d →
      ∀ name, d.contains name = true → s.reply p (.ask (.hasDependency e name)) = .ok true) ∧
    ∀ n m, e.normalName n = e.normalName m →
      s.reply p (.ask (.hasDependency e n)) = s.reply p (.ask (.hasDependency e m)) := by
  intro s
  refine ⟨fun ps w root d hd => Manifest.isNormal_of_dependenciesBy hd,
    reply_hasDependency s e, fun d hd name hname => ?_, fun n m hnm => ?_⟩
  · have hnormal := isNormal_of_reply hd name hname
    rw [reply_hasDependency, hd, Except.map, hnormal, hname]
  · rw [reply_hasDependency, reply_hasDependency, hnm]

/-- A requirement is listed in small letters, and found however it is written. -/
theorem listed_names_found_requirement :
    let v : View := ⟨⟨[(["requirements.txt"], .file "Zope_.Event".toUTF8.toList)]⟩, []⟩
    let p : Project := ⟨⟨.root, []⟩, []⟩
    (start v).reply p (.ask (.dependencies .pip)) = .ok ⟨[("zope-event", none)]⟩ ∧
      (start v).reply p (.ask (.hasDependency .pip "zope-event")) = .ok true ∧
      (start v).reply p (.ask (.hasDependency .pip " ZOPE-event")) =
        (start v).reply p (.ask (.hasDependency .pip "zope.event")) := by
  intro v p
  obtain ⟨-, -, hlisted, hsame⟩ := listed_names_found p v [] .pip
  have hd : (start v).reply p (.ask (.dependencies .pip)) = .ok ⟨[("zope-event", none)]⟩ := by
    decide +kernel
  exact ⟨hd, hlisted _ hd "zope-event" (by decide),
    hsame " ZOPE-event" "zope.event" (by decide +kernel)⟩

end Situation

end Rulebook
