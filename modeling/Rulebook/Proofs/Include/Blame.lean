import Mathlib.Data.List.Chain
import Mathlib.Data.List.Nodup
import Rulebook.Proofs.File.Reading
import Rulebook.Proofs.Include.Failure

/-!
# What an error says

A resolution that fails blames the first directive of the tree, depth-first, that cannot be replaced
(`FirstStop`), and the cause that it gives is the case there (`IsTrueOf`): the files being expanded
lead from one to the next, so a chain of them is a real cycle, and no directive on the way lies too
deep, so the one at fault is just one level too deep. What counts as unreadable may be absent
(`not_forall_unreadable_present`).
-/

namespace Rulebook.Include

theorem lt_of_prefix_of_ne {a b : List Nat} (h : a <+: b) (hne : a ≠ b) : a < b := by
  obtain ⟨rest, rfl⟩ := h
  induction a with
  | nil =>
    cases rest with
    | nil => exact absurd rfl hne
    | cons i rest => exact List.nil_lt_cons i rest
  | cons i a ih =>
    rw [List.cons_append] at hne ⊢
    exact List.cons_lt_cons_iff.mpr (.inr ⟨rfl, ih fun h => hne (congrArg (i :: ·) h)⟩)

section Above

variable {read : Path → Except File.ReadError Text} {directory : Path} {ds : List Directive}
  {address : List Nat} {s : Spot} {outer : List Path}

/-- The directives above the one at `address`, with what holds of them. -/
def OnTheWay (read : Path → Except File.ReadError Text) (directory : Path) (ds : List Directive)
    (address : List Nat) (holds : Spot → Prop) : Prop :=
  ∀ b t, Stands read directory ds b t → b <+: address → b ≠ address → holds t

/-- One target further in, what holds on the way holds of the first target, and below it. -/
theorem OnTheWay.inside {i : Nat} {d : Directive} {text : Text} {holds : Spot → Prop}
    (h : OnTheWay read directory ds (i :: address) holds) (hd : ds[i]? = some d)
    (hr : read (d.targetFrom directory) = .ok text) (hne : address ≠ []) :
    holds ⟨[], directory, d⟩ ∧
      OnTheWay read (d.targetFrom directory).parent (Directive.find (Frontmatter.body text)) address
        fun t => holds (t.below (d.targetFrom directory)) := by
  constructor
  · refine h [i] _ (.here hd) (List.cons_prefix_cons.mpr ⟨rfl, List.nil_prefix⟩) fun heq => ?_
    exact hne (List.cons.inj heq).2.symm
  · intro b t ht hb hb'
    refine h (i :: b) _ (.inside hd hr ht) (List.cons_prefix_cons.mpr ⟨rfl, hb⟩) fun heq => ?_
    exact hb' (List.cons.inj heq).2

/-- Where no directive on the way leads back, the files that are being expanded are different. -/
theorem Stands.nodup_files (h : Stands read directory ds address s) (houter : outer.Nodup)
    (hway : OnTheWay read directory ds address fun t => t.target ∉ t.files outer) :
    (s.files outer).Nodup := by
  induction h generalizing outer with
  | here => exact houter
  | inside hd hr hs ih =>
    obtain ⟨hfirst, hrest⟩ := hway.inside hd hr hs.ne_nil
    rw [Spot.files_below]
    refine ih (List.nodup_cons.mpr ⟨hfirst, houter⟩) fun b t ht hb hb' => ?_
    have hout : t.target ∉ (t.below _).files outer := hrest b t ht hb hb'
    rwa [Spot.files_below] at hout

/-- Where all directives on the way lie within a limit, the next one is at most one level deeper. -/
theorem Stands.level_le {depth : Nat} (h : Stands read directory ds address s)
    (hway : OnTheWay read directory ds address fun t => t.level ≤ depth) : s.level ≤ depth + 1 := by
  induction h generalizing depth with
  | here => exact Nat.le_add_left 1 depth
  | inside hd hr hs ih =>
    obtain ⟨hfirst, hrest⟩ := hway.inside hd hr hs.ne_nil
    rw [Spot.level_below]
    cases depth with
    | zero => exact absurd hfirst (by simp [Spot.level])
    | succ depth =>
      refine Nat.succ_le_succ (ih fun b t ht hb hb' => ?_)
      have hle : (t.below _).level ≤ depth + 1 := hrest b t ht hb hb'
      rw [Spot.level_below] at hle
      exact Nat.le_of_succ_le_succ hle

/-- The targets above a directive have been read. -/
theorem Stands.read_above (h : Stands read directory ds address s) :
    ∀ p ∈ s.above, ∃ text, read p = .ok text := by
  induction h with
  | here => exact fun _ hp => nomatch hp
  | inside hd hr _ ih =>
    intro p hp
    rcases List.mem_append.mp hp with hp | hp
    · exact ih p hp
    · exact ⟨_, List.mem_singleton.mp hp ▸ hr⟩

/-- The body of `p` is being expanded at `address`, and holds a directive with the target `q`. -/
def Includes (read : Path → Except File.ReadError Text) (directory : Path) (ds : List Directive)
    (address : List Nat) (document p q : Path) : Prop :=
  ∃ b t, b <+: address ∧ Stands read directory ds b t ∧ (t.files [document]).head? = some p ∧
    t.target = q

/-- The files that are being expanded at a directive lead from one to the next and to its target. -/
theorem Stands.isChain_files (h : Stands read directory ds address s) (document : Path) :
    (s.target :: s.files [document]).IsChain fun q p =>
      Includes read directory ds address document p q := by
  induction h generalizing document with
  | @here directory ds i d hd =>
    refine List.isChain_cons_cons.mpr ⟨?_, .singleton document⟩
    exact ⟨[i], ⟨[], directory, d⟩, List.prefix_refl _, .here hd, rfl, rfl⟩
  | @inside directory ds i d text address s hd hr hs ih =>
    -- the way that starts in the first target, and before it the step from the document to there
    have hsplit : (s.below (d.targetFrom directory)).files [document] =
        s.files [d.targetFrom directory] ++ [document] := by
      rw [Spot.files_below, Spot.files, Spot.files, List.append_assoc, List.singleton_append]
    show (s.target :: (s.below _).files [document]).IsChain _
    rw [hsplit, ← List.cons_append]
    refine List.isChain_append.mpr ⟨(ih (d.targetFrom directory)).imp ?_, .singleton document, ?_⟩
    · rintro q p ⟨b, t, hb, ht, hp, hq⟩
      refine ⟨i :: b, t.below (d.targetFrom directory), List.cons_prefix_cons.mpr ⟨rfl, hb⟩,
        .inside hd hr ht, ?_, hq⟩
      rw [Spot.files_below]
      cases habove : t.above with
      | nil => simpa [Spot.files, habove] using hp
      | cons inner more => simpa [Spot.files, habove] using hp
    · intro q hq p hp
      obtain rfl : document = p := Option.some.inj hp
      have hlast : (s.target :: s.files [d.targetFrom directory]).getLast? =
          some (d.targetFrom directory) := by
        simp [Spot.files, List.getLast?_cons]
      rw [hlast] at hq
      exact ⟨[i], ⟨[], directory, d⟩, List.cons_prefix_cons.mpr ⟨rfl, List.nil_prefix⟩, .here hd,
        rfl, Option.some.inj hq⟩

end Above

/-! ## The first directive that stops an expansion -/

/-- Depth-first, `s` is the first directive of the tree that cannot be replaced. -/
structure FirstStop (read : Path → Except File.ReadError Text) (depth : Nat) (outer : List Path)
    (directory : Path) (ds : List Directive) (address : List Nat) (s : Spot) : Prop where
  stands : Stands read directory ds address s
  stops : Stops read depth outer s
  first : ∀ b t, Stands read directory ds b t → b < address → ¬Stops read depth outer t

namespace FirstStop

variable {read : Path → Except File.ReadError Text} {depth : Nat} {outer : List Path}
  {document directory : Path} {ds : List Directive} {address : List Nat} {s : Spot}

theorem onTheWay (h : FirstStop read depth outer directory ds address s) :
    OnTheWay read directory ds address fun t => ¬Stops read depth outer t :=
  fun b t ht hb hne => h.first b t ht (lt_of_prefix_of_ne hb hne)

theorem nodup_files (h : FirstStop read depth outer directory ds address s) (houter : outer.Nodup) :
    (s.files outer).Nodup :=
  h.stands.nodup_files houter fun b t ht hb hne hmem => h.onTheWay b t ht hb hne (.inl hmem)

theorem level_le (h : FirstStop read depth outer directory ds address s) : s.level ≤ depth + 1 :=
  h.stands.level_le fun b t ht hb hne =>
    Nat.le_of_not_lt fun hlt => h.onTheWay b t ht hb hne (.inr (.inl hlt))

end FirstStop

/-- A way that leads from `target` back to it, each file including the next. -/
structure IsCycle (includes : Path → Path → Prop) (target : Path) (chain : List Path) : Prop where
  two_le : 2 ≤ chain.length
  head : chain.head? = some target
  last : chain.getLast? = some target
  nodup : chain.dropLast.Nodup
  includes : chain.IsChain includes

theorem takeWhile_concat_prefix_of_mem {target : Path} {files : List Path} (h : target ∈ files) :
    files.takeWhile (· ≠ target) ++ [target] <+: files := by
  induction files with
  | nil => cases h
  | cons file files ih =>
    by_cases heq : file = target
    · subst heq
      simp
    · have hmem : target ∈ files := (List.mem_cons.mp h).resolve_left fun h => heq h.symm
      rw [List.takeWhile_cons_of_pos (by simpa using heq), List.cons_append, List.cons_prefix_cons]
      exact ⟨rfl, ih hmem⟩

/-- The files that are being expanded, from the target on and back to it. -/
theorem isCycle_of_mem {includes : Path → Path → Prop} {target : Path} {files : List Path}
    (hmem : target ∈ files) (hnodup : files.Nodup)
    (hchain : (target :: files).IsChain fun q p => includes p q) :
    IsCycle includes target
      (target :: (files.takeWhile (· ≠ target)).reverse ++ [target]) where
  two_le := by simp
  head := rfl
  last := by rw [List.getLast?_concat]
  nodup := by
    rw [List.dropLast_concat, List.nodup_cons, List.nodup_reverse, List.mem_reverse]
    refine ⟨fun h => ?_, hnodup.sublist (List.takeWhile_sublist _)⟩
    simpa using List.all_eq_true.mp List.all_takeWhile _ h
  includes := by
    have hback := hchain.prefix
      (List.cons_prefix_cons.mpr ⟨rfl, takeWhile_concat_prefix_of_mem hmem⟩)
    rw [← List.isChain_reverse] at hback
    simpa using hback

/-! ## Resolutions that fail -/

section Resolution

variable {read : Path → Except File.ReadError Text} {limit : Nat} {file base : Path}
  {content : Text}
  {e : Error}

theorem content_of_error (h : (resolution read limit file base content).error = some e) :
    (resolution read limit file base content).content = [] := by
  unfold resolution at h ⊢
  dsimp only at h ⊢
  split at h
  · cases h
  next hf =>
    rw [if_neg hf]
    split at h
    · cases h
    · rfl

theorem included_of_error {r : Resolution} (h : r.error = some e) : r.included = [] := by
  unfold Resolution.included
  rw [h]
  rfl

/-- A resolution that fails has come to the first directive that cannot be replaced. -/
theorem exists_firstStop (h : (resolution read limit file base content).error = some e) :
    ∃ address s,
      FirstStop read limit [file] base (Directive.find (Frontmatter.body content)) address s ∧
      Blames read limit limit [file] s e ∧
      ∃ done, EndBefore read base (Directive.find (Frontmatter.body content)) address done ∧
        (resolution read limit file base content).spliced =
          done.map fun x => (x.2.written, x.2.target) := by
  obtain ⟨address, hcame, hends⟩ := exists_walksTo read limit limit
    ⟨file, [], base⟩ (Directive.find (Frontmatter.body content))
  have hresult : (visit (opened read limit limit ⟨file, [], base⟩)
      (Directive.find (Frontmatter.body content))).result = .error e :=
    resolution_error_eq_some_iff.mp h
  rw [hresult] at hends
  obtain ⟨s, hs, hblames⟩ := hends
  obtain ⟨done, hdone, hreplaced⟩ := hcame.ended
  refine ⟨address, s, ⟨hs, hblames.cause.stops, hcame.passed⟩, hblames, done, hdone, ?_⟩
  rw [← hreplaced]
  exact congrArg splicedIn (steps_resolution content)

/-- A resolution that succeeds has come to the end, past every directive. -/
theorem not_stops_of_error_eq_none {address : List Nat} {s : Spot}
    (h : (resolution read limit file base content).error = none)
    (hs : Stands read base (Directive.find (Frontmatter.body content)) address s) :
    ¬Stops read limit [file] s := by
  obtain ⟨last, hcame, hends⟩ := exists_walksTo read limit limit
    ⟨file, [], base⟩ (Directive.find (Frontmatter.body content))
  have hresult : (visit (opened read limit limit ⟨file, [], base⟩)
      (Directive.find (Frontmatter.body content))).result = .ok () :=
    resolution_error_eq_none_iff.mp h
  rw [hresult] at hends
  obtain rfl : last = [(Directive.find (Frontmatter.body content)).length] := hends
  exact hcame.passed address s hs (hs.before_end lexicographic_lt)

end Resolution

/-- What the cause of an error says is true of the directive at fault. Only where there is no entry
of that name does a target count as not found: one whose path leads through a file, or has a name
that is too long, counts as unreadable. -/
def IsTrueOf (v : View) (limit : Nat) (document base : Path) (ds : List Directive)
    (address : List Nat) (s : Spot) : Cause → Prop
  | .circular chain => s.target ∈ s.files [document] ∧
      IsCycle (Includes v.readText base ds address document) s.target chain
  | .tooDeep k => k = limit ∧ s.level = limit + 1 ∧ s.target ∉ s.files [document]
  | .notFound => s.level ≤ limit ∧ s.target ∉ s.files [document] ∧ v.present s.target = .ok false
  | .unreadable why => s.level ≤ limit ∧ s.target ∉ s.files [document] ∧
      v.readText s.target = .error why ∧
      (v.present s.target = .ok true ∨
        why = .refused ⟨.notADirectory, s.target⟩ ∧ v.present s.target = .ok false ∨
        why = .refused ⟨.nameTooLong, s.target⟩ ∧
          v.present s.target = .error ⟨.nameTooLong, s.target⟩)

section Truth

variable {v : View} {limit : Nat} {document base : Path} {ds : List Directive} {address : List Nat}
  {s : Spot} {why : File.ReadError}

theorem isTrueOf_ofRead (hr : v.readText s.target = .error why) (hnull : why ≠ .nullInPath)
    (hlevel : s.level ≤ limit) (hfiles : s.target ∉ s.files [document]) :
    IsTrueOf v limit document base ds address s (Error.ofRead why) := by
  have hpresent := View.present_of_readText_error hr
  cases why with
  | nullInPath => exact absurd rfl hnull
  | undecodable e => exact ⟨hlevel, hfiles, hr, .inl hpresent⟩
  | refused e =>
    obtain ⟨obstacle, path⟩ := e
    obtain rfl : path = s.target := View.path_of_readText_error hr
    cases obstacle with
    | notFound => exact ⟨hlevel, hfiles, hpresent⟩
    | isADirectory => exact ⟨hlevel, hfiles, hr, .inl hpresent⟩
    | notADirectory => exact ⟨hlevel, hfiles, hr, .inr (.inl ⟨rfl, hpresent⟩)⟩
    | nameTooLong => exact ⟨hlevel, hfiles, hr, .inr (.inr ⟨rfl, hpresent⟩)⟩

theorem isTrueOf_of_stoppedBy {c : Cause}
    (h : FirstStop v.readText limit [document] base ds address s)
    (hc : StoppedBy v.readText limit limit [document] s c)
    (hnull : c ≠ .unreadable .nullInPath) : IsTrueOf v limit document base ds address s c := by
  cases hc with
  | circular hmem =>
    refine ⟨hmem, isCycle_of_mem hmem (h.nodup_files ?_) (h.stands.isChain_files document)⟩
    exact List.nodup_singleton document
  | tooDeep hfiles hlevel => exact ⟨rfl, Nat.le_antisymm h.level_le hlevel, hfiles⟩
  | unread hfiles hlevel hr =>
    refine isTrueOf_ofRead hr ?_ hlevel hfiles
    rintro rfl
    exact hnull rfl

end Truth

/-- A resolution that fails has come to the first directive of the tree, depth-first, that cannot be
replaced, and its error says of that directive what is true. Nothing of the result is kept; the
directives replaced are those that end before. Only a target that is no path at all is a fault.
Where a resolution succeeds, no directive of the tree stops it. -/
theorem resolve_fails_at_first_stop (v : View) (limit : Nat) (document base : Path)
    (content : Text) :
    (∀ r e, resolve v.readText limit (v.absolute document) (v.absolute base) content = .ok r →
      r.error = some e →
      r.content = [] ∧ r.included = [] ∧
      ∃ address s,
        FirstStop v.readText limit [v.absolute document] (v.absolute base)
          (Directive.find (Frontmatter.body content)) address s ∧
        e.written = s.written ∧ e.target = s.target ∧
        (s.files [v.absolute document]).head? = some e.source ∧
        IsTrueOf v limit (v.absolute document) (v.absolute base)
          (Directive.find (Frontmatter.body content)) address s e.cause ∧
        ∃ done, EndBefore v.readText (v.absolute base) (Directive.find (Frontmatter.body content))
            address done ∧
          r.spliced = done.map fun x => (x.2.written, x.2.target)) ∧
    (∀ f, resolve v.readText limit (v.absolute document) (v.absolute base) content = .error f →
      f = .badValue .nullInPath ∧
      ∃ address s,
        FirstStop v.readText limit [v.absolute document] (v.absolute base)
          (Directive.find (Frontmatter.body content)) address s ∧
        s.level ≤ limit ∧ s.target ∉ s.files [v.absolute document] ∧
        v.readText s.target = .error .nullInPath) ∧
    ∀ r, resolve v.readText limit (v.absolute document) (v.absolute base) content = .ok r →
      r.error = none →
      ∀ address s, Stands v.readText (v.absolute base)
          (Directive.find (Frontmatter.body content)) address s →
        ¬Stops v.readText limit [v.absolute document] s := by
  rcases resolve_cases v.readText limit (v.absolute document) (v.absolute base) content with
    ⟨hcause, hok⟩ | ⟨e, he, hcause, herror⟩
  · refine ⟨fun r e hr he => ?_, fun f hf => (nomatch hok.symm.trans hf), fun r hr he => ?_⟩
    · obtain rfl := Except.ok.inj (hok.symm.trans hr)
      obtain ⟨address, s, hfirst, hblames, hdone⟩ := exists_firstStop he
      exact ⟨content_of_error he, included_of_error he, address, s, hfirst, hblames.written,
        hblames.target, hblames.source, isTrueOf_of_stoppedBy hfirst hblames.cause (hcause e he),
        hdone⟩
    · obtain rfl := Except.ok.inj (hok.symm.trans hr)
      exact fun address s => not_stops_of_error_eq_none he
  · refine ⟨fun r e hr => (nomatch herror.symm.trans hr), fun f hf => ?_,
      fun r hr => (nomatch herror.symm.trans hr)⟩
    obtain rfl := Except.error.inj (herror.symm.trans hf)
    obtain ⟨address, s, hfirst, hblames, -⟩ := exists_firstStop he
    exact ⟨rfl, address, s, hfirst, (hcause ▸ hblames.cause).of_unreadable⟩

theorem resolve_fails_at_first_stop_back_to_document :
    let bytes (s : String) := s.toList.map fun c => UInt8.ofNat c.toNat
    let v : View := ⟨⟨[(["a.md"], .file (bytes "A\n")),
      (["b.md"], .file (bytes "@include a.md\n@include doc.md\n"))]⟩, []⟩
    let document := Path.ofText "doc.md"
    let content := "@include a.md\n@include b.md\n".toList
    ∃ r e, resolve v.readText 3 (v.absolute document) (v.absolute document.parent) content = .ok r ∧
      r.error = some e ∧
      e.chain? = some [⟨.root, ["doc.md"]⟩, ⟨.root, ["b.md"]⟩, ⟨.root, ["doc.md"]⟩] ∧
      r.spliced.map Prod.fst = ["a.md", "a.md"] ∧ r.content = [] ∧ r.included = [] ∧
      ∃ address s,
        FirstStop v.readText 3 [v.absolute document] (v.absolute document.parent)
          (Directive.find (Frontmatter.body content)) address s ∧
        e.target = s.target ∧
        IsTrueOf v 3 (v.absolute document) (v.absolute document.parent)
          (Directive.find (Frontmatter.body content)) address s e.cause := by
  intro bytes v document content
  have hfacts : (resolve v.readText 3 (v.absolute document) (v.absolute document.parent)
      content).toOption.map (fun r => (r.error.map Error.chain?, r.spliced.map Prod.fst)) =
        some (some (some [⟨.root, ["doc.md"]⟩, ⟨.root, ["b.md"]⟩, ⟨.root, ["doc.md"]⟩]),
          ["a.md", "a.md"]) := by
    decide +kernel
  obtain ⟨r, hr, hrfacts⟩ := exists_of_map_toOption hfacts
  obtain ⟨hchain, hspliced⟩ := Prod.mk.inj hrfacts
  obtain ⟨e, he, hechain⟩ := Option.map_eq_some_iff.mp hchain
  obtain ⟨hcontent, hincluded, address, s, hfirst, -, htarget, -, htrue, -⟩ :=
    (resolve_fails_at_first_stop v 3 document document.parent content).1 r e hr he
  exact ⟨r, e, hr, he, hechain, hspliced, hcontent, hincluded, address, s, hfirst, htarget, htrue⟩

/-- A target below a file counts as unreadable, though there is no such file. -/
theorem not_forall_unreadable_present :
    ¬∀ (v : View) (limit : Nat) (document base : Path) (content : Text) (r : Resolution) (e : Error)
        (why : File.ReadError),
      resolve v.readText limit (v.absolute document) (v.absolute base) content = .ok r →
      r.error = some e → e.cause = .unreadable why → v.present e.target = .ok true := by
  intro h
  let v : View := ⟨⟨[(["a.md"], .file [65, 10])]⟩, []⟩
  let target : Path := ⟨.root, ["a.md", "x.md"]⟩
  have hfacts : (resolve v.readText 1 (v.absolute (.ofText "doc.md")) (v.absolute (.ofText "."))
      "@include a.md/x.md\n".toList).toOption.map
        (fun r => r.error.map fun e => (e.cause, e.target)) =
        some (some (.unreadable (.refused ⟨.notADirectory, target⟩), target)) := by
    decide +kernel
  obtain ⟨r, hr, hrfacts⟩ := exists_of_map_toOption hfacts
  obtain ⟨e, he, hefacts⟩ := Option.map_eq_some_iff.mp hrfacts
  obtain ⟨hcause, htarget⟩ := Prod.mk.inj hefacts
  have hpresent := h v 1 (.ofText "doc.md") (.ofText ".") _ r e _ hr he hcause
  have habsent : v.present target = .ok false := by decide +kernel
  rw [htarget, habsent] at hpresent
  cases hpresent

end Rulebook.Include
