import Rulebook.Proofs.Include.Blame

/-!
# Arriving at a directive

A walk arrives at a directive of the tree if no directive before it stops the walk (`Arrives`). By
then it has entered the targets of the directives before this one, each before those inside it
(`BegunBefore`), and no other file. If the directive stops the walk, that is all; if not, its own
target is the next file (`FirstStop.resolution`, `Arrives.entered`).
-/

namespace Rulebook.Include

/-- Depth-first, nothing before the directive `s` of the tree stops a walk. -/
structure Arrives (read : Path → Except File.ReadError Text) (depth : Nat) (outer : List Path)
    (directory : Path) (ds : List Directive) (address : List Nat) (s : Spot) : Prop where
  stands : Stands read directory ds address s
  passed : ∀ b t, Stands read directory ds b t → b < address → ¬Stops read depth outer t

/-- The directives of a tree before an address, each before those inside it. -/
abbrev BegunBefore (read : Path → Except File.ReadError Text) (directory : Path)
    (ds : List Directive) (address : List Nat) (begun : List (List Nat × Spot)) : Prop :=
  Enumerates (· < ·) (· < ·) read directory ds address begun

def targets (begun : List (List Nat × Spot)) : List Path := begun.map fun x => x.2.target

section Tree

variable {read : Path → Except File.ReadError Text} {directory : Path} {d : Directive}
  {ds : List Directive} {address b : List Nat} {s t : Spot} {text : Text} {depth : Nat}
  {outer : List Path} {begun within after : List (List Nat × Spot)}

theorem Stands.unique (hs : Stands read directory ds address s)
    (ht : Stands read directory ds address t) : s = t := by
  induction hs generalizing t with
  | here hd =>
    cases ht with
    | here hd' => rw [Option.some.inj (hd.symm.trans hd')]
    | inside _ _ ht => exact absurd rfl ht.ne_nil
  | inside hd hr hs ih =>
    cases ht with
    | here => exact absurd rfl hs.ne_nil
    | inside hd' hr' ht =>
      obtain rfl := Option.some.inj (hd.symm.trans hd')
      obtain rfl := Except.ok.inj (hr.symm.trans hr')
      rw [ih ht]

theorem firstStop_iff : FirstStop read depth outer directory ds address s ↔
    Arrives read depth outer directory ds address s ∧ Stops read depth outer s :=
  ⟨fun h => ⟨⟨h.stands, h.first⟩, h.stops⟩, fun ⟨h, hstops⟩ => ⟨h.stands, hstops, h.passed⟩⟩

/-- Two places that a walk stops at are the same. -/
theorem FirstStop.unique (hs : FirstStop read depth outer directory ds address s)
    (ht : FirstStop read depth outer directory ds b t) : address = b ∧ s = t := by
  have heq : address = b := by
    rcases lt_trichotomy address b with hlt | heq | hlt
    · exact absurd hs.stops (ht.first _ _ hs.stands hlt)
    · exact heq
    · exact absurd ht.stops (hs.first _ _ ht.stands hlt)
  subst heq
  exact ⟨rfl, hs.stands.unique ht.stands⟩

/-! ## Directives before an address -/

/-- Nothing comes before the first directive. -/
theorem BegunBefore.first : BegunBefore read directory ds [0] [] where
  ordered := .nil
  mem_iff _ _ := ⟨fun h => (nomatch h), fun h => absurd h.2 h.1.not_lt_first⟩

/-- What comes before an address inside the first directive. -/
theorem BegunBefore.inside (hr : read (d.targetFrom directory) = .ok text)
    (h : BegunBefore read (d.targetFrom directory).parent (Directive.find (Frontmatter.body text))
      address begun) (haddress : address ≠ []) :
    BegunBefore read directory (d :: ds) (0 :: address)
      (([0], ⟨[], directory, d⟩) :: begun.map (inFirst (d.targetFrom directory))) where
  ordered := by
    refine List.pairwise_cons.mpr ⟨fun y hy => ?_, h.pairwise_inFirst lexicographic_lt _⟩
    obtain ⟨x, hx, rfl⟩ := List.mem_map.mp hy
    exact lexicographic_lt.zero_cons.mpr (nil_lt (h.ne_nil_of_mem hx))
  mem_iff b s := by
    have hfirst : Stands read directory (d :: ds) [0] ⟨[], directory, d⟩ := .here rfl
    rw [List.mem_cons, h.mem_inFirst_iff lexicographic_lt hr]
    constructor
    · rintro (heq | ⟨-, hs⟩)
      · cases heq
        exact ⟨hfirst, lexicographic_lt.zero_cons.mpr (nil_lt haddress)⟩
      · exact hs
    · intro hs
      by_cases hb : b = [0]
      · subst hb
        exact .inl (Prod.ext rfl (hs.1.unique hfirst))
      · exact .inr ⟨hb, hs⟩

/-- What comes before an address past the first directive. -/
theorem BegunBefore.past (hr : read (d.targetFrom directory) = .ok text)
    (h : BegunBefore read (d.targetFrom directory).parent (Directive.find (Frontmatter.body text))
      [(Directive.find (Frontmatter.body text)).length] within)
    (hafter : BegunBefore read directory ds address after) (haddress : address ≠ []) :
    BegunBefore read directory (d :: ds) (later address)
      (([0], ⟨[], directory, d⟩) :: within.map (inFirst (d.targetFrom directory)) ++
        after.map fun x => (later x.1, x.2)) := by
  have hwithin : BegunBefore read directory (d :: ds) _ _ := h.inside hr (List.cons_ne_nil _ _)
  exact Enumerates.past lexicographic_lt lexicographic_lt hr h hafter haddress
    (fun x => List.mem_cons) hwithin.ordered

/-- A directive comes right after those before it. -/
theorem BegunBefore.exists_append (h : BegunBefore read directory ds address begun)
    (hs : Stands read directory ds b s) (hlt : b < address) :
    ∃ before rest, begun = before ++ (b, s) :: rest ∧ BegunBefore read directory ds b before := by
  obtain ⟨before, rest, rfl⟩ := List.append_of_mem ((h.mem_iff b s).mpr ⟨hs, hlt⟩)
  obtain ⟨hbefore, hrest, hbetween⟩ := List.pairwise_append.mp h.ordered
  refine ⟨before, rest, rfl, hbefore, fun c t => ?_⟩
  constructor
  · intro hmem
    exact ⟨((h.mem_iff c t).mp (List.mem_append_left _ hmem)).1,
      hbetween _ hmem _ List.mem_cons_self⟩
  · rintro ⟨ht, hcb⟩
    rcases List.mem_append.mp ((h.mem_iff c t).mpr ⟨ht, lt_trans hcb hlt⟩) with hmem | hmem
    · exact hmem
    · rcases List.mem_cons.mp hmem with heq | hmem
      · cases heq
        exact absurd hcb (lt_irrefl b)
      · exact absurd hcb (lt_asymm ((List.pairwise_cons.mp hrest).1 _ hmem))

end Tree

/-! ## Files entered -/

section Walk

variable {read : Path → Except File.ReadError Text} {limit : Nat}

/-- The walk has entered the targets of the directives before the address, in this order. -/
def Entered (read : Path → Except File.ReadError Text) (directory : Path) (ds : List Directive)
    (address : List Nat) (files : List Path) : Prop :=
  ∃ begun, BegunBefore read directory ds address begun ∧ files = targets begun

theorem targets_append (begun begun' : List (List Nat × Spot)) :
    targets (begun ++ begun') = targets begun ++ targets begun' := List.map_append

theorem targets_inFirst (target : Path) (begun : List (List Nat × Spot)) :
    targets (begun.map (inFirst target)) = targets begun := by
  unfold targets
  rw [List.map_map]
  rfl

theorem targets_later (begun : List (List Nat × Spot)) :
    targets (begun.map fun x => (later x.1, x.2)) = targets begun := by
  unfold targets
  rw [List.map_map]
  rfl

variable (read limit) in
/-- Every walk has entered the targets of what comes before the place it has come to. -/
theorem exists_walksTo_entered (depth : Nat) (n : Nesting) (ds : List Directive) :
    ∃ address, WalksTo read limit depth n ds (visit (opened read limit depth n) ds) address ∧
      Entered read n.directory ds address
        (enteredIn (visit (opened read limit depth n) ds).steps) := by
  induction depth, n, ds using visit_induction read limit with
  | nil => exact ⟨[0], ⟨.first, rfl⟩, [], .first, rfl⟩
  | fail _ _ _ _ _ hc => exact ⟨[0], walksTo_fail hc, [], .first, rfl⟩
  | inside _ n d _ _ inner _ hr hc hinner he =>
    obtain ⟨address, hwalks, begun, hbegun, hentered⟩ := hinner
    refine ⟨_, hwalks.inside hr hc he, _, hbegun.inside hr hwalks.1.ne_nil, ?_⟩
    show target n d :: enteredIn inner.steps = target n d :: targets (begun.map _)
    rw [hentered, targets_inFirst]
  | past _ n d _ _ inner after hr hc hinner hok hafter =>
    obtain ⟨address, hwalks, begun, hbegun, hentered⟩ := hinner
    obtain ⟨rest, hrest, begunAfter, hbegunAfter, henteredAfter⟩ := hafter
    obtain rfl : address = [_] := by
      have hends := hwalks.2
      rwa [hok] at hends
    refine ⟨_, hwalks.past hr hc hok hrest, _, hbegun.past hr hbegunAfter hrest.1.ne_nil, ?_⟩
    calc enteredIn (.entered (target n d) :: inner.steps ++
          [.spliced (String.ofList d.path) (target n d)] ++ after.steps)
        = target n d :: (enteredIn inner.steps ++ []) ++ enteredIn after.steps := by
          rw [enteredIn_append, enteredIn_append]
          rfl
      _ = target n d :: targets begun ++ targets begunAfter := by
          rw [List.append_nil, hentered, henteredAfter]
      _ = targets (_ :: begun.map _ ++ begunAfter.map _) := by
          rw [targets_append, ← targets_inFirst (target n d) begun, ← targets_later begunAfter]
          rfl

end Walk

section Resolution

variable {read : Path → Except File.ReadError Text} {limit : Nat} {file base : Path}
  {content : Text}
  {address : List Nat} {s : Spot}

variable (read limit file base content) in
/-- A resolution comes to the end of the tree, or to the first directive that cannot be replaced. -/
theorem exists_last : ∃ last,
    Entered read base (Directive.find (Frontmatter.body content)) last
      (enteredIn (resolution read limit file base content).steps) ∧
    ((resolution read limit file base content).error = none ∧
        last = [(Directive.find (Frontmatter.body content)).length] ∨
      ∃ e t, (resolution read limit file base content).error = some e ∧
        FirstStop read limit [file] base (Directive.find (Frontmatter.body content)) last t ∧
        Blames read limit limit [file] t e) := by
  obtain ⟨last, ⟨hcame, hends⟩, hentered⟩ := exists_walksTo_entered read limit limit
    ⟨file, [], base⟩ (Directive.find (Frontmatter.body content))
  refine ⟨last, by rw [steps_resolution]; exact hentered, ?_⟩
  cases he : (resolution read limit file base content).error with
  | none =>
    have hresult := resolution_error_eq_none_iff.mp he
    unfold walk at hresult
    rw [hresult] at hends
    exact .inl ⟨rfl, hends⟩
  | some e =>
    have hresult := resolution_error_eq_some_iff.mp he
    unfold walk at hresult
    rw [hresult] at hends
    obtain ⟨t, ht, hblames⟩ := hends
    exact .inr ⟨e, t, rfl, ⟨ht, hblames.cause.stops, hcame.passed⟩, hblames⟩

/-- A resolution that arrives at a directive that cannot be replaced fails there, before its target
is entered. -/
theorem FirstStop.resolution
    (h : FirstStop read limit [file] base (Directive.find (Frontmatter.body content)) address s) :
    ∃ e, (resolution read limit file base content).error = some e ∧
      Blames read limit limit [file] s e ∧
      Entered read base (Directive.find (Frontmatter.body content)) address
        (enteredIn (resolution read limit file base content).steps) := by
  obtain ⟨last, hentered, ⟨he, -⟩ | ⟨e, t, he, ht, hblames⟩⟩ :=
    exists_last read limit file base content
  · exact absurd h.stops (not_stops_of_error_eq_none he h.stands)
  · obtain ⟨rfl, rfl⟩ := h.unique ht
    exact ⟨e, he, hblames, hentered⟩

/-- A resolution that arrives at any other directive enters its target next. -/
theorem Arrives.entered
    (h : Arrives read limit [file] base (Directive.find (Frontmatter.body content)) address s)
    (hgo : ¬Stops read limit [file] s) :
    ∃ before rest,
      BegunBefore read base (Directive.find (Frontmatter.body content)) address before ∧
      enteredIn (resolution read limit file base content).steps =
        targets before ++ s.target :: rest := by
  obtain ⟨last, ⟨begun, hbegun, hentered⟩, hlast⟩ := exists_last read limit file base content
  have hlt : address < last := by
    rcases hlast with ⟨-, rfl⟩ | ⟨e, t, -, ht, -⟩
    · exact h.stands.before_end lexicographic_lt
    · rcases lt_trichotomy address last with hlt | rfl | hlt
      · exact hlt
      · exact absurd ht.stops (h.stands.unique ht.stands ▸ hgo)
      · exact absurd ht.stops (h.passed _ _ ht.stands hlt)
  obtain ⟨before, rest, rfl, hbefore⟩ := hbegun.exists_append h.stands hlt
  refine ⟨before, targets rest, hbefore, ?_⟩
  rw [hentered, targets_append]
  rfl

end Resolution

end Rulebook.Include
