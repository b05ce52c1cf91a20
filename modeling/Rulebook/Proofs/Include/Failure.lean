import Rulebook.Proofs.Include.Address

/-!
# Where an expansion stops

A directive stops an expansion when its target is being expanded already, when it lies too deep, or
when its target cannot be read (`Stops`); the reasons are tried in this order (`StoppedBy`). The
ways in which a walk can go are told once (`visit_induction`). Every walk through directives comes
to the first one of the tree that stops it, and says so in its error, or to their end
(`exists_walksTo`).
-/

namespace Rulebook.Include

theorem Error.ofRead_cases (why : File.ReadError) :
    ofRead why = .notFound ∨ ofRead why = .unreadable why := by
  unfold ofRead
  split
  · exact .inl rfl
  · exact .inr rfl

section Stops

variable (read : Path → Except File.ReadError Text)

/-- A directive that cannot be replaced: its target is being expanded already, it lies deeper than
`depth`, or its target cannot be read. -/
def Stops (depth : Nat) (outer : List Path) (s : Spot) : Prop :=
  s.target ∈ s.files outer ∨ depth < s.level ∨ ∀ text, read s.target ≠ .ok text

/-- Why a directive cannot be replaced, the first of the reasons that hold. -/
inductive StoppedBy (limit depth : Nat) (outer : List Path) (s : Spot) : Cause → Prop where
  | circular : s.target ∈ s.files outer → StoppedBy limit depth outer s
      (.circular (s.target :: ((s.files outer).takeWhile (· ≠ s.target)).reverse ++ [s.target]))
  | tooDeep : s.target ∉ s.files outer → depth < s.level →
      StoppedBy limit depth outer s (.tooDeep limit)
  | unread {why : File.ReadError} : s.target ∉ s.files outer → s.level ≤ depth →
      read s.target = .error why → StoppedBy limit depth outer s (Error.ofRead why)

/-- The error says of the directive which one it is and why it cannot be replaced. -/
structure Blames (limit depth : Nat) (outer : List Path) (s : Spot) (e : Error) : Prop where
  written : e.written = s.written
  target : e.target = s.target
  source : (s.files outer).head? = some e.source
  cause : StoppedBy read limit depth outer s e.cause

variable {read} {limit depth : Nat} {outer : List Path} {s : Spot} {e : Error} {c : Cause}

theorem StoppedBy.stops (h : StoppedBy read limit depth outer s c) : Stops read depth outer s := by
  cases h with
  | circular hc => exact .inl hc
  | tooDeep _ hl => exact .inr (.inl hl)
  | unread _ _ hr => exact .inr (.inr fun text ht => nomatch hr.symm.trans ht)

theorem StoppedBy.of_tooDeep {k : Nat} (h : StoppedBy read limit depth outer s (.tooDeep k)) :
    k = limit ∧ s.target ∉ s.files outer ∧ depth < s.level := by
  generalize hc : Cause.tooDeep k = c at h
  cases h with
  | circular => cases hc
  | tooDeep hfiles hlevel => exact ⟨Cause.tooDeep.inj hc, hfiles, hlevel⟩
  | @unread why =>
    rcases Error.ofRead_cases why with h | h <;> cases hc.trans h

theorem StoppedBy.of_unreadable {why : File.ReadError}
    (h : StoppedBy read limit depth outer s (.unreadable why)) :
    s.level ≤ depth ∧ s.target ∉ s.files outer ∧ read s.target = .error why := by
  generalize hc : Cause.unreadable why = c at h
  cases h with
  | circular => cases hc
  | tooDeep => cases hc
  | @unread why' hfiles hlevel hr =>
    rcases Error.ofRead_cases why' with h | h
    · cases hc.trans h
    · exact ⟨hlevel, hfiles, Cause.unreadable.inj (hc.trans h) ▸ hr⟩

/-- Below a target there is one level less. -/
theorem stops_enter (n : Nesting) (target : Path) :
    (fun s : Spot => Stops read (depth + 1) n.files (s.below target)) =
      Stops read depth (n.enter target).files := by
  funext s
  unfold Stops
  rw [Spot.files_below, Spot.level_below, Nat.add_lt_add_iff_right]
  rfl

theorem StoppedBy.below {target : Path} (h : StoppedBy read limit depth (target :: outer) s c) :
    StoppedBy read limit (depth + 1) outer (s.below target) c := by
  have hfiles := Spot.files_below target s outer
  have hlevel := Spot.level_below target s
  cases h with
  | circular hc =>
    rw [← hfiles] at hc ⊢
    exact .circular hc
  | tooDeep hc hl => exact .tooDeep (hfiles ▸ hc) (by omega)
  | unread hc hl hr => exact .unread (hfiles ▸ hc) (by omega) hr

theorem Blames.below {target : Path} (h : Blames read limit depth (target :: outer) s e) :
    Blames read limit (depth + 1) outer (s.below target) e where
  written := h.written
  target := h.target
  source := Spot.files_below target s outer ▸ h.source
  cause := h.cause.below

end Stops

/-! ## Walks -/

section Walk

variable {read : Path → Except File.ReadError Text} {limit depth : Nat} {n : Nesting}
  {d : Directive} {ds : List Directive}

/-- A walk either gets to the end of its directives, or stops at the first one that cannot be
replaced, with its error. -/
def EndsAt (read : Path → Except File.ReadError Text) (limit depth : Nat) (n : Nesting)
    (ds : List Directive) (address : List Nat) : Except Error Unit → Prop
  | .ok () => address = [ds.length]
  | .error e => ∃ s, Stands read n.directory ds address s ∧ Blames read limit depth n.files s e

theorem EndsAt.later {x : Except Error Unit} {address : List Nat}
    (h : EndsAt read limit depth n ds address x) :
    EndsAt read limit depth n (d :: ds) (later address) x := by
  cases x with
  | ok a =>
    obtain rfl : address = [ds.length] := h
    rfl
  | error e =>
    obtain ⟨s, hs, hblames⟩ := h
    exact ⟨s, stands_cons_iff.mpr (.inr (.inr ⟨address, rfl, hs⟩)), hblames⟩

/-- A walk with what it came to. -/
def WalksTo (read : Path → Except File.ReadError Text) (limit depth : Nat) (n : Nesting)
    (ds : List Directive) (x : Traced Unit) (address : List Nat) : Prop :=
  CameTo read n.directory ds (Stops read depth n.files) address (splicedIn x.steps) ∧
    EndsAt read limit depth n ds address x.result

variable (read limit) in
/-- A walk is through no directives at all, or its first directive cannot be replaced, or it stops
inside the target of that, or it comes past it. -/
theorem visit_induction {motive : Nat → Nesting → List Directive → Traced Unit → Prop}
    (nil : ∀ depth n, motive depth n [] (pure ()))
    (fail : ∀ depth n d ds c, StoppedBy read limit depth n.files ⟨[], n.directory, d⟩ c →
      motive depth n (d :: ds) (.fail (fault n d c)))
    (inside : ∀ depth n d ds text inner e, read (target n d) = .ok text → target n d ∉ n.files →
      motive depth (n.enter (target n d)) (Directive.find (Frontmatter.body text)) inner →
      inner.result = .error e →
      motive (depth + 1) n (d :: ds) ⟨.entered (target n d) :: inner.steps, .error e⟩)
    (past : ∀ depth n d ds text inner rest, read (target n d) = .ok text → target n d ∉ n.files →
      motive depth (n.enter (target n d)) (Directive.find (Frontmatter.body text)) inner →
      inner.result = .ok () → motive (depth + 1) n ds rest →
      motive (depth + 1) n (d :: ds)
        ⟨.entered (target n d) :: inner.steps ++ [.spliced (String.ofList d.path) (target n d)] ++
          rest.steps, rest.result⟩)
    (depth : Nat) (n : Nesting) (ds : List Directive) :
    motive depth n ds (visit (opened read limit depth n) ds) := by
  -- a target is walked one level less deep, the directives after it at the same depth
  induction depth generalizing n ds with
  | zero =>
    cases ds with
    | nil => exact nil 0 n
    | cons d ds =>
      have hran := ran_opened read limit 0 n d
      rw [visit_cons, hran]
      by_cases hc : target n d ∈ n.files
      · simp only [hc, ↓reduceIte]
        exact fail _ _ _ _ _ (.circular hc)
      · simp only [hc, ↓reduceIte]
        exact fail _ _ _ _ _ (.tooDeep hc (Nat.succ_pos 0))
  | succ depth ihd =>
    induction ds with
    | nil => exact nil (depth + 1) n
    | cons d ds ih =>
      have hran := ran_opened read limit (depth + 1) n d
      rw [visit_cons, hran]
      by_cases hc : target n d ∈ n.files
      · simp only [hc, ↓reduceIte]
        exact fail _ _ _ _ _ (.circular hc)
      cases hr : read (target n d) with
      | error why =>
        simp only [hc, ↓reduceIte, hr]
        exact fail _ _ _ _ _ (.unread hc (Nat.le_add_left 1 depth) hr)
      | ok text =>
        simp only [hc, ↓reduceIte, hr]
        have hinner := ihd (n.enter (target n d)) (Directive.find (Frontmatter.body text))
        cases hx : (visit (opened read limit depth (n.enter (target n d)))
            (Directive.find (Frontmatter.body text))).result with
        | error e =>
          rw [framed_of_error hx, Traced.bind_of_error rfl]
          exact inside _ _ _ _ _ _ _ hr hc hinner hx
        | ok a =>
          rw [framed_of_ok hx, Traced.bind_of_ok rfl]
          exact past _ _ _ _ _ _ _ hr hc hinner hx ih

/-- A directive within the limit whose target can be read and is not being expanded. -/
theorem not_stops_of_read {text : Text} (hr : read (target n d) = .ok text)
    (hc : target n d ∉ n.files) : ¬Stops read (depth + 1) n.files ⟨[], n.directory, d⟩ := by
  rintro (hmem | hlevel | hread)
  · exact hc hmem
  · exact absurd hlevel (by simp [Spot.level])
  · exact hread text hr

/-- A first directive that cannot be replaced. -/
theorem walksTo_fail {c : Cause} (hc : StoppedBy read limit depth n.files ⟨[], n.directory, d⟩ c) :
    WalksTo read limit depth n (d :: ds) (.fail (fault n d c)) [0] :=
  ⟨.first, ⟨[], n.directory, d⟩, .here rfl, rfl, rfl, rfl, hc⟩

/-- A first directive whose target is entered, in whose body the walk stops. -/
theorem WalksTo.inside {text : Text} {inner : Traced Unit} {address : List Nat} {e : Error}
    (hr : read (target n d) = .ok text) (hc : target n d ∉ n.files)
    (h : WalksTo read limit depth (n.enter (target n d))
      (Directive.find (Frontmatter.body text)) inner address)
    (he : inner.result = .error e) :
    WalksTo read limit (depth + 1) n (d :: ds) ⟨.entered (target n d) :: inner.steps, .error e⟩
      (0 :: address) := by
  obtain ⟨hcame, hends⟩ := h
  rw [he] at hends
  obtain ⟨s, hs, hblames⟩ := hends
  refine ⟨.inside hr (not_stops_of_read hr hc) ?_, s.below (target n d), .inside rfl hr hs,
    hblames.below⟩
  rw [stops_enter]
  exact hcame

/-- A first directive that is replaced. -/
theorem WalksTo.past {text : Text} {inner after : Traced Unit} {address rest : List Nat}
    (hr : read (target n d) = .ok text) (hc : target n d ∉ n.files)
    (h : WalksTo read limit depth (n.enter (target n d))
      (Directive.find (Frontmatter.body text)) inner address)
    (hok : inner.result = .ok ()) (hafter : WalksTo read limit (depth + 1) n ds after rest) :
    WalksTo read limit (depth + 1) n (d :: ds)
      ⟨.entered (target n d) :: inner.steps ++ [.spliced (String.ofList d.path) (target n d)] ++
        after.steps, after.result⟩ (later rest) := by
  obtain ⟨hcame, hends⟩ := h
  rw [hok] at hends
  obtain rfl : address = _ := hends
  rw [← stops_enter] at hcame
  have hpast := hcame.past hr (not_stops_of_read hr hc) hafter.1
  refine ⟨?_, hafter.2.later⟩
  rw [splicedIn_append, splicedIn_append, List.append_assoc]
  exact hpast

variable (read limit) in
/-- Every walk goes through its tree depth-first, up to the first directive that stops it. -/
theorem exists_walksTo (depth : Nat) (n : Nesting) (ds : List Directive) :
    ∃ address, WalksTo read limit depth n ds (visit (opened read limit depth n) ds) address := by
  induction depth, n, ds using visit_induction read limit with
  | nil => exact ⟨[0], .first, rfl⟩
  | fail _ _ _ _ _ hc => exact ⟨[0], walksTo_fail hc⟩
  | inside _ _ _ _ _ _ _ hr hc hinner he =>
    obtain ⟨_, hinner⟩ := hinner
    exact ⟨_, hinner.inside hr hc he⟩
  | past _ _ _ _ _ _ _ hr hc hinner hok hafter =>
    obtain ⟨_, hinner⟩ := hinner
    obtain ⟨_, hafter⟩ := hafter
    exact ⟨_, hinner.past hr hc hok hafter⟩

end Walk

end Rulebook.Include
