import Rulebook.Proofs.Include.Arrival

/-!
# Resolutions with an outcome

Whatever keeps a target from being read becomes an error of the resolution, at any level, with one
exception: a path with a null character is refused before any file is looked up, by a fault of
another kind. So a resolution has an outcome just if it does not come to such a path
(`Include.resolve_outcome_iff`).
-/

namespace Rulebook.Include

/-- A resolution tries to read the target of the directive: it arrives there, the target lies within
the limit and is not being expanded. -/
structure Tries (read : Path → Except File.ReadError Text) (limit : Nat) (file base : Path)
    (content : Text) (address : List Nat) (s : Spot) : Prop where
  arrives : Arrives read limit [file] base (Directive.find (Frontmatter.body content)) address s
  level_le : s.level ≤ limit
  not_mem : s.target ∉ s.files [file]

namespace Error

/-- The classes of errors that a resolution can carry. -/
def classNames : List String :=
  ["CircularIncludeError", "MaxIncludeDepthError", "IncludeNotFoundError", "IncludeReadError"]

theorem className_mem (e : Error) : e.className ∈ classNames := by
  unfold className
  split <;> simp [classNames]

end Error

section Outcome

variable {read : Path → Except File.ReadError Text} {limit depth : Nat} {file base : Path}
  {outer : List Path} {content : Text} {address : List Nat} {s : Spot} {c : Cause} {e : Error}
  {why : File.ReadError}

theorem StoppedBy.eq_ofRead (h : StoppedBy read limit depth outer s c)
    (hmem : s.target ∉ s.files outer) (hlevel : s.level ≤ depth) (hr : read s.target = .error why) :
    c = Error.ofRead why := by
  cases h with
  | circular hin => exact absurd hin hmem
  | tooDeep _ hdeep => exact absurd hdeep (Nat.not_lt_of_le hlevel)
  | unread _ _ hr' => rw [Except.error.inj (hr.symm.trans hr')]

/-- A target that is tried and cannot be read ends the resolution. -/
theorem Tries.error_of_read (h : Tries read limit file base content address s)
    (hr : read s.target = .error why) :
    ∃ e, (resolution read limit file base content).error = some e ∧
      e.cause = Error.ofRead why ∧ e.target = s.target := by
  have hstops : Stops read limit [file] s := .inr (.inr fun text ht => nomatch hr.symm.trans ht)
  obtain ⟨e, he, hblames, -⟩ := (firstStop_iff.mpr ⟨h.arrives, hstops⟩).resolution
  exact ⟨e, he, hblames.cause.eq_ofRead h.not_mem h.level_le hr, hblames.target⟩

/-- Where the error is that a target is no path, this target was tried. -/
theorem exists_tries_of_unreadable (he : (resolution read limit file base content).error = some e)
    (hcause : e.cause = .unreadable why) :
    ∃ address s, Tries read limit file base content address s ∧ read s.target = .error why := by
  obtain ⟨address, s, hfirst, hblames, -⟩ := exists_firstStop he
  obtain ⟨hlevel, hmem, hr⟩ := (hcause ▸ hblames.cause).of_unreadable
  exact ⟨address, s, ⟨(firstStop_iff.mp hfirst).1, hlevel, hmem⟩, hr⟩

end Outcome

/-- A resolution has an outcome just if no target that it tries to read has a null character in its
path; otherwise that is the fault. The outcome is a success or carries an error of one of the four
classes and no text. Every other way in which a target that is tried cannot be read is such an
error. -/
theorem resolve_outcome_iff (v : View) (limit : Nat) (document base : Path) (content : Text) :
    ((∃ r, resolve v.readText limit (v.absolute document) (v.absolute base) content = .ok r) ↔
      ¬∃ address s,
        Tries v.readText limit (v.absolute document) (v.absolute base) content address s ∧
        FileTree.hasNull s.target = true) ∧
    (∀ f, resolve v.readText limit (v.absolute document) (v.absolute base) content = .error f →
      f = .badValue .nullInPath) ∧
    (∀ r, resolve v.readText limit (v.absolute document) (v.absolute base) content = .ok r →
      r.error = none ∨
        ∃ e, r.error = some e ∧ e.className ∈ Error.classNames ∧ r.content = [] ∧ r.included = []) ∧
    ∀ address s why,
      Tries v.readText limit (v.absolute document) (v.absolute base) content address s →
      v.readText s.target = .error why → FileTree.hasNull s.target = false →
      ∃ r e, resolve v.readText limit (v.absolute document) (v.absolute base) content = .ok r ∧
        r.error = some e ∧ e.cause = Error.ofRead why ∧ e.target = s.target := by
  refine ⟨?_, fun f hf => ?_, fun r hr => ?_, fun address s why htries hr hnull => ?_⟩
  · rcases resolve_cases v.readText limit (v.absolute document) (v.absolute base) content with
      ⟨hcause, hok⟩ | ⟨e, he, hcause, herror⟩
    · refine iff_of_true ⟨_, hok⟩ ?_
      rintro ⟨address, s, htries, hnull⟩
      obtain ⟨e, he, he', -⟩ := htries.error_of_read (View.readText_eq_nullInPath_iff.mpr hnull)
      exact hcause e he he'
    · refine iff_of_false (fun ⟨r, hr⟩ => nomatch herror.symm.trans hr) (not_not_intro ?_)
      obtain ⟨address, s, htries, hr⟩ := exists_tries_of_unreadable he hcause
      exact ⟨address, s, htries, View.readText_eq_nullInPath_iff.mp hr⟩
  · rcases resolve_cases v.readText limit (v.absolute document) (v.absolute base) content with
      ⟨-, hok⟩ | ⟨-, -, -, herror⟩
    · cases hok.symm.trans hf
    · exact (Except.error.inj (herror.symm.trans hf)).symm
  · obtain rfl := eq_resolution_of_resolve hr
    cases he :
      (resolution v.readText limit (v.absolute document) (v.absolute base) content).error with
    | none => exact .inl rfl
    | some e => exact .inr ⟨e, rfl, e.className_mem, content_of_error he, included_of_error he⟩
  · obtain ⟨e, he, hcause, htarget⟩ := htries.error_of_read hr
    refine ⟨_, e, ?_, he, hcause, htarget⟩
    rcases resolve_cases v.readText limit (v.absolute document) (v.absolute base) content with
      ⟨-, hok⟩ | ⟨e', he', hcause', -⟩
    · exact hok
    · -- only a null character in the path makes the cause this one
      obtain rfl : e = e' := Option.some.inj (he.symm.trans he')
      rcases Error.ofRead_cases why with h | h
      · cases h.symm.trans (hcause.symm.trans hcause')
      · rw [Cause.unreadable.inj (h.symm.trans (hcause.symm.trans hcause')),
          View.readText_eq_nullInPath_iff, hnull] at hr
        cases hr

/-- A null character in the path of a directive is not reported as an error of the include. -/
theorem not_forall_resolve_outcome :
    ¬∀ (v : View) (limit : Nat) (document base : Path) (content : Text),
      ∃ r, resolve v.readText limit (v.absolute document) (v.absolute base) content = .ok r := by
  intro h
  obtain ⟨r, hr⟩ := h ⟨⟨[(["p"], .directory)]⟩, ["p"]⟩ 10 (.ofText "doc.md") (.ofText ".")
    "@include a\x00b.md\n".toList
  have hfault : (resolve (View.readText ⟨⟨[(["p"], .directory)]⟩, ["p"]⟩) 10
      (View.absolute ⟨⟨[(["p"], .directory)]⟩, ["p"]⟩ (.ofText "doc.md"))
      (View.absolute ⟨⟨[(["p"], .directory)]⟩, ["p"]⟩ (.ofText "."))
      "@include a\x00b.md\n".toList).toOption.isNone = true := by
    decide +kernel
  rw [hr] at hfault
  cases hfault

end Rulebook.Include
