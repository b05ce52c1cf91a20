import Rulebook.Proofs.Include.Tree

/-!
# Addresses in the include tree

A directive of the include tree has an address: the places of the directives above it among those of
their bodies, outermost first, and then its own. Addresses in lexicographic order are the tree
depth-first, each directive before those inside it. `Enumerates` lists the directives that come
before an address, for any two orders that compare addresses place by place (`Lexicographic`).
`CameTo` says how far a depth-first walk has got: nothing before the address stops it, and what it
has replaced are the directives that end before.
-/

namespace Rulebook.Include

/-! ## Order of addresses -/

/-- `a` comes before `b` and `b` is not inside it. -/
def Precedes (a b : List Nat) : Prop := a < b ∧ ¬a <+: b

/-- Depth-first, a walk is done with `a` before it is done with `b`: `a` is inside `b`, or comes
before it. -/
def EndsBefore (a b : List Nat) : Prop := (b <+: a ∧ b ≠ a) ∨ Precedes a b

/-- Addresses are compared at the first place where they differ. -/
def Lexicographic (r : List Nat → List Nat → Prop) : Prop :=
  ∀ i a j b, r (i :: a) (j :: b) ↔ i < j ∨ i = j ∧ r a b

theorem lexicographic_lt : Lexicographic (· < ·) := fun _ _ _ _ => List.cons_lt_cons_iff

theorem lexicographic_precedes : Lexicographic Precedes := by
  intro i a j b
  unfold Precedes
  rw [List.cons_lt_cons_iff, List.cons_prefix_cons]
  constructor
  · rintro ⟨h | ⟨rfl, h⟩, hp⟩
    · exact .inl h
    · exact .inr ⟨rfl, h, fun hab => hp ⟨rfl, hab⟩⟩
  · rintro (h | ⟨rfl, h, hp⟩)
    · exact ⟨.inl h, fun hij => absurd hij.1 (Nat.ne_of_lt h)⟩
    · exact ⟨.inr ⟨rfl, h⟩, fun hij => hp hij.2⟩

theorem lexicographic_endsBefore : Lexicographic EndsBefore := by
  intro i a j b
  unfold EndsBefore
  rw [lexicographic_precedes, List.cons_prefix_cons]
  constructor
  · rintro (⟨⟨rfl, hp⟩, hne⟩ | h | ⟨rfl, h⟩)
    · exact .inr ⟨rfl, .inl ⟨hp, fun hab => hne (hab ▸ rfl)⟩⟩
    · exact .inl h
    · exact .inr ⟨rfl, .inr h⟩
  · rintro (h | ⟨rfl, ⟨hp, hne⟩ | h⟩)
    · exact .inr (.inl h)
    · exact .inl ⟨⟨rfl, hp⟩, fun hab => hne (List.cons.inj hab).2⟩
    · exact .inr (.inr ⟨rfl, h⟩)

/-- The address with one more directive before the outermost one. -/
def later : List Nat → List Nat
  | [] => []
  | i :: address => (i + 1) :: address

section Order

variable {a b : List Nat} {r : List Nat → List Nat → Prop}

theorem not_nil_precedes : ¬Precedes [] a := fun h => h.2 List.nil_prefix

theorem endsBefore_nil (h : a ≠ []) : EndsBefore a [] := .inl ⟨List.nil_prefix, h.symm⟩

theorem nil_lt (h : a ≠ []) : [] < a := by
  obtain ⟨i, a, rfl⟩ := List.exists_cons_of_ne_nil h
  exact List.nil_lt_cons i a

namespace Lexicographic

theorem zero_cons (h : Lexicographic r) : r (0 :: a) (0 :: b) ↔ r a b := by
  rw [h, or_iff_right (Nat.lt_irrefl 0), and_iff_right rfl]

theorem later_later (h : Lexicographic r) (ha : a ≠ []) (hb : b ≠ []) :
    r (later a) (later b) ↔ r a b := by
  obtain ⟨i, a, rfl⟩ := List.exists_cons_of_ne_nil ha
  obtain ⟨j, b, rfl⟩ := List.exists_cons_of_ne_nil hb
  rw [later, later, h, h, Nat.add_lt_add_iff_right, Nat.add_right_cancel_iff]

theorem zero_later (h : Lexicographic r) (a : List Nat) (hb : b ≠ []) : r (0 :: a) (later b) := by
  obtain ⟨j, b, rfl⟩ := List.exists_cons_of_ne_nil hb
  exact (h _ _ _ _).mpr (.inl (Nat.succ_pos j))

theorem not_later_zero (h : Lexicographic r) (ha : a ≠ []) : ¬r (later a) (0 :: b) := by
  obtain ⟨i, a, rfl⟩ := List.exists_cons_of_ne_nil ha
  exact fun hlt => by simpa using (h _ _ _ _).mp hlt

end Lexicographic

end Order

/-! ## Directives of the tree -/

/-- A directive of the tree, with the targets above it, innermost first, and the directory that it
is read from. -/
structure Spot where
  above : List Path
  directory : Path
  directive : Directive

namespace Spot

def written (s : Spot) : String := String.ofList s.directive.path

def target (s : Spot) : Path := s.directive.targetFrom s.directory

/-- How many directives lead to the target. -/
def level (s : Spot) : Nat := s.above.length + 1

/-- The files that are being expanded at the directive, innermost first; `outer` are those in which
the tree stands. -/
def files (s : Spot) (outer : List Path) : List Path := s.above ++ outer

/-- The directive in the tree of a text that includes `outer`. -/
def below (outer : Path) (s : Spot) : Spot := ⟨s.above ++ [outer], s.directory, s.directive⟩

theorem files_below (target : Path) (s : Spot) (outer : List Path) :
    (s.below target).files outer = s.files (target :: outer) :=
  List.append_assoc s.above [target] outer

theorem level_below (target : Path) (s : Spot) : (s.below target).level = s.level + 1 := by
  rw [level, below, List.length_append, List.length_singleton]
  rfl

end Spot

section Tree

variable (read : Path → Except File.ReadError Text)

/-- The tree of the directives `ds`, read from `directory`, has the directive `s` at the address. -/
inductive Stands : Path → List Directive → List Nat → Spot → Prop where
  | here {directory : Path} {ds : List Directive} {i : Nat} {d : Directive} :
      ds[i]? = some d → Stands directory ds [i] ⟨[], directory, d⟩
  | inside {directory : Path} {ds : List Directive} {i : Nat} {d : Directive} {text : Text}
      {address : List Nat} {s : Spot} :
      ds[i]? = some d → read (d.targetFrom directory) = .ok text →
      Stands (d.targetFrom directory).parent (Directive.find (Frontmatter.body text)) address s →
      Stands directory ds (i :: address) (s.below (d.targetFrom directory))

variable {read} {directory : Path} {d : Directive} {ds : List Directive} {address : List Nat}
  {s : Spot}

theorem Stands.exists_cons (h : Stands read directory ds address s) :
    ∃ i rest, address = i :: rest ∧ i < ds.length := by
  cases h with
  | here hd => exact ⟨_, [], rfl, (List.getElem?_eq_some_iff.mp hd).1⟩
  | inside hd => exact ⟨_, _, rfl, (List.getElem?_eq_some_iff.mp hd).1⟩

theorem stands_cons_iff : Stands read directory (d :: ds) address s ↔
    (address = [0] ∧ s = ⟨[], directory, d⟩) ∨
    (∃ text rest t, address = 0 :: rest ∧ read (d.targetFrom directory) = .ok text ∧
      Stands read (d.targetFrom directory).parent (Directive.find (Frontmatter.body text)) rest t ∧
      s = t.below (d.targetFrom directory)) ∨
    ∃ rest, address = later rest ∧ Stands read directory ds rest s := by
  constructor
  · intro h
    cases h with
    | @here _ _ i _ hd =>
      cases i with
      | zero =>
        obtain rfl := Option.some.inj hd
        exact .inl ⟨rfl, rfl⟩
      | succ i => exact .inr (.inr ⟨[i], rfl, .here hd⟩)
    | @inside _ _ i d' text rest t hd hr ht =>
      cases i with
      | zero =>
        obtain rfl := Option.some.inj hd
        exact .inr (.inl ⟨text, rest, t, rfl, hr, ht, rfl⟩)
      | succ i => exact .inr (.inr ⟨i :: rest, rfl, .inside hd hr ht⟩)
  · rintro (⟨rfl, rfl⟩ | ⟨text, rest, t, rfl, hr, ht, rfl⟩ | ⟨rest, rfl, h⟩)
    · exact .here rfl
    · exact .inside rfl hr ht
    · cases h with
      | here hd => exact .here hd
      | inside hd hr ht => exact .inside hd hr ht

end Tree

section Stands

variable {read : Path → Except File.ReadError Text} {directory : Path} {ds : List Directive}
  {b : List Nat} {s : Spot} {r : List Nat → List Nat → Prop}

theorem Stands.not_lt_first (h : Stands read directory ds b s) : ¬b < [0] := by
  obtain ⟨i, rest, rfl, -⟩ := h.exists_cons
  rw [List.cons_lt_cons_iff]
  rintro (hi | ⟨-, hrest⟩)
  · exact Nat.not_lt_zero i hi
  · exact List.not_lt_nil rest hrest

/-- A directive comes before the place behind the last one. -/
theorem Stands.before_end (h : Stands read directory ds b s) (hr : Lexicographic r) :
    r b [ds.length] := by
  obtain ⟨i, rest, rfl, hi⟩ := h.exists_cons
  exact (hr _ _ _ _).mpr (.inl hi)

theorem Stands.ne_nil (h : Stands read directory ds b s) : b ≠ [] := by
  obtain ⟨i, rest, rfl, -⟩ := h.exists_cons
  exact List.cons_ne_nil i rest

end Stands

/-! ## Enumerations -/

/-- The directives of a tree that come before an address, as `reaches` has it, in the order
`before`. -/
structure Enumerates (before reaches : List Nat → List Nat → Prop)
    (read : Path → Except File.ReadError Text) (directory : Path) (ds : List Directive)
    (address : List Nat) (spots : List (List Nat × Spot)) : Prop where
  ordered : spots.Pairwise fun x y => before x.1 y.1
  mem_iff : ∀ b s, (b, s) ∈ spots ↔ Stands read directory ds b s ∧ reaches b address

/-- A directive in the body of `target`, seen from where that is the first target. -/
def inFirst (target : Path) (x : List Nat × Spot) : List Nat × Spot :=
  (0 :: x.1, x.2.below target)

namespace Enumerates

variable {before reaches : List Nat → List Nat → Prop} {read : Path → Except File.ReadError Text}
  {directory : Path} {d : Directive} {ds : List Directive} {address b : List Nat} {s : Spot}
  {text : Text} {spots within after first : List (List Nat × Spot)} {x : List Nat × Spot}

theorem ne_nil_of_mem (h : Enumerates before reaches read directory ds address spots)
    (hx : x ∈ spots) : x.1 ≠ [] :=
  ((h.mem_iff x.1 x.2).mp hx).1.ne_nil

theorem pairwise_inFirst (h : Enumerates before reaches read directory ds address spots)
    (hbefore : Lexicographic before) (target : Path) :
    (spots.map (inFirst target)).Pairwise fun x y => before x.1 y.1 :=
  List.pairwise_map.mpr (h.ordered.imp hbefore.zero_cons.mpr)

/-- Inside the first target stand the directives before an address there, but for the first
directive itself. -/
theorem mem_inFirst_iff
    (h : Enumerates before reaches read (d.targetFrom directory).parent
      (Directive.find (Frontmatter.body text)) address spots)
    (hreaches : Lexicographic reaches) (hr : read (d.targetFrom directory) = .ok text) :
    (b, s) ∈ spots.map (inFirst (d.targetFrom directory)) ↔
      b ≠ [0] ∧ Stands read directory (d :: ds) b s ∧ reaches b (0 :: address) := by
  rw [List.mem_map, stands_cons_iff]
  constructor
  · rintro ⟨⟨rest, t⟩, hmem, heq⟩
    cases heq
    obtain ⟨ht, hlt⟩ := (h.mem_iff rest t).mp hmem
    exact ⟨fun heq => ht.ne_nil (List.cons.inj heq).2,
      .inr (.inl ⟨text, rest, t, rfl, hr, ht, rfl⟩), hreaches.zero_cons.mpr hlt⟩
  · rintro ⟨hne, ⟨rfl, -⟩ | ⟨text', rest, t, rfl, hr', ht, rfl⟩ | ⟨rest, rfl, ht⟩, hlt⟩
    · exact absurd rfl hne
    · obtain rfl : text = text' := Except.ok.inj (hr.symm.trans hr')
      exact ⟨(rest, t), (h.mem_iff rest t).mpr ⟨ht, hreaches.zero_cons.mp hlt⟩, rfl⟩
    · exact absurd hlt (hreaches.not_later_zero ht.ne_nil)

/-- Past the first directive stand that directive and those inside it, however they are ordered, and
then those before an address behind it. -/
theorem past (hbefore : Lexicographic before) (hreaches : Lexicographic reaches)
    (hr : read (d.targetFrom directory) = .ok text)
    (h : Enumerates before reaches read (d.targetFrom directory).parent
      (Directive.find (Frontmatter.body text)) [(Directive.find (Frontmatter.body text)).length]
      within)
    (hafter : Enumerates before reaches read directory ds address after) (haddress : address ≠ [])
    (hmem : ∀ x, x ∈ first ↔
      x = ([0], ⟨[], directory, d⟩) ∨ x ∈ within.map (inFirst (d.targetFrom directory)))
    (hordered : first.Pairwise fun x y => before x.1 y.1) :
    Enumerates before reaches read directory (d :: ds) (later address)
      (first ++ after.map fun x => (later x.1, x.2)) where
  ordered := by
    have hzero : ∀ x ∈ first, ∃ a, x.1 = 0 :: a := fun x hx => by
      rcases (hmem x).mp hx with rfl | hx
      · exact ⟨[], rfl⟩
      · obtain ⟨x, -, rfl⟩ := List.mem_map.mp hx
        exact ⟨x.1, rfl⟩
    refine List.pairwise_append.mpr ⟨hordered, List.pairwise_map.mpr ?_, fun x hx y hy => ?_⟩
    · refine hafter.ordered.imp_of_mem fun hx hy hxy => ?_
      exact (hbefore.later_later (hafter.ne_nil_of_mem hx) (hafter.ne_nil_of_mem hy)).mpr hxy
    · obtain ⟨a, ha⟩ := hzero x hx
      obtain ⟨y, hy', rfl⟩ := List.mem_map.mp hy
      rw [ha]
      exact hbefore.zero_later a (hafter.ne_nil_of_mem hy')
  mem_iff b s := by
    rw [List.mem_append, hmem, List.mem_map, List.mem_map, stands_cons_iff]
    constructor
    · rintro ((heq | ⟨⟨rest, t⟩, hmem, heq⟩) | ⟨⟨rest, t⟩, hmem, heq⟩)
      · cases heq
        exact ⟨.inl ⟨rfl, rfl⟩, hreaches.zero_later [] haddress⟩
      · cases heq
        obtain ⟨ht, -⟩ := (h.mem_iff rest t).mp hmem
        exact ⟨.inr (.inl ⟨text, rest, t, rfl, hr, ht, rfl⟩), hreaches.zero_later rest haddress⟩
      · cases heq
        obtain ⟨ht, hlt⟩ := (hafter.mem_iff rest t).mp hmem
        exact ⟨.inr (.inr ⟨rest, rfl, ht⟩), (hreaches.later_later ht.ne_nil haddress).mpr hlt⟩
    · rintro ⟨⟨rfl, rfl⟩ | ⟨text', rest, t, rfl, hr', ht, rfl⟩ | ⟨rest, rfl, ht⟩, hlt⟩
      · exact .inl (.inl rfl)
      · obtain rfl : text = text' := Except.ok.inj (hr.symm.trans hr')
        exact .inl (.inr ⟨(rest, t), (h.mem_iff rest t).mpr ⟨ht, ht.before_end hreaches⟩, rfl⟩)
      · have hrest := (hreaches.later_later ht.ne_nil haddress).mp hlt
        exact .inr ⟨(rest, s), (hafter.mem_iff rest s).mpr ⟨ht, hrest⟩, rfl⟩

end Enumerates

/-! ## How far a walk has got -/

/-- The directives of a tree that end before an address, in the order in which they end. -/
abbrev EndBefore (read : Path → Except File.ReadError Text) (directory : Path)
    (ds : List Directive) (address : List Nat) (done : List (List Nat × Spot)) : Prop :=
  Enumerates EndsBefore Precedes read directory ds address done

/-- A walk through a tree has come to `address` with `replaced` done, and nothing that `stops` a
walk comes before. -/
structure CameTo (read : Path → Except File.ReadError Text) (directory : Path) (ds : List Directive)
    (stops : Spot → Prop) (address : List Nat) (replaced : List (String × Path)) : Prop where
  ne_nil : address ≠ []
  passed : ∀ b s, Stands read directory ds b s → b < address → ¬stops s
  ended : ∃ done, EndBefore read directory ds address done ∧
    replaced = done.map fun x => (x.2.written, x.2.target)

section CameTo

variable {read : Path → Except File.ReadError Text} {directory : Path} {d : Directive}
  {ds : List Directive} {stops : Spot → Prop} {address b : List Nat} {s : Spot} {text : Text}
  {replaced within after : List (String × Path)} {done doneAfter : List (List Nat × Spot)}

/-- What ends before an address inside the first directive. -/
theorem EndBefore.inside (hr : read (d.targetFrom directory) = .ok text)
    (h : EndBefore read (d.targetFrom directory).parent (Directive.find (Frontmatter.body text))
      address done) :
    EndBefore read directory (d :: ds) (0 :: address)
      (done.map (inFirst (d.targetFrom directory))) where
  ordered := h.pairwise_inFirst lexicographic_endsBefore _
  mem_iff b s := by
    rw [h.mem_inFirst_iff lexicographic_precedes hr]
    refine and_iff_right_of_imp ?_
    rintro ⟨-, hlt⟩ rfl
    exact not_nil_precedes (lexicographic_precedes.zero_cons.mp hlt)

/-- What ends before an address past the first directive. -/
theorem EndBefore.past (hr : read (d.targetFrom directory) = .ok text)
    (h : EndBefore read (d.targetFrom directory).parent (Directive.find (Frontmatter.body text))
      [(Directive.find (Frontmatter.body text)).length] done)
    (hafter : EndBefore read directory ds address doneAfter) (haddress : address ≠ []) :
    EndBefore read directory (d :: ds) (later address)
      (done.map (inFirst (d.targetFrom directory)) ++ [([0], ⟨[], directory, d⟩)] ++
        doneAfter.map fun x => (later x.1, x.2)) := by
  refine Enumerates.past lexicographic_endsBefore lexicographic_precedes hr h hafter haddress
    (fun x => ?_) (List.pairwise_append.mpr ⟨?_, List.pairwise_singleton _ _, ?_⟩)
  · rw [List.mem_append, List.mem_singleton, or_comm]
  · exact h.pairwise_inFirst lexicographic_endsBefore _
  · intro x hx y hy
    obtain ⟨z, hz, rfl⟩ := List.mem_map.mp hx
    obtain rfl := List.mem_singleton.mp hy
    exact lexicographic_endsBefore.zero_cons.mpr (endsBefore_nil (h.ne_nil_of_mem hz))

/-- Nothing comes before the first directive. -/
theorem CameTo.first : CameTo read directory ds stops [0] [] where
  ne_nil := List.cons_ne_nil _ _
  passed _ _ h hlt := absurd hlt h.not_lt_first
  ended := by
    refine ⟨[], ⟨.nil, fun b s => ⟨fun h => (nomatch h), fun h => ?_⟩⟩, rfl⟩
    exact absurd h.2.1 h.1.not_lt_first

/-- A walk goes on in the body of the first target. -/
theorem CameTo.inside (hr : read (d.targetFrom directory) = .ok text)
    (hd : ¬stops ⟨[], directory, d⟩)
    (h : CameTo read (d.targetFrom directory).parent (Directive.find (Frontmatter.body text))
      (fun s => stops (s.below (d.targetFrom directory))) address replaced) :
    CameTo read directory (d :: ds) stops (0 :: address) replaced where
  ne_nil := List.cons_ne_nil _ _
  passed b s hs hlt := by
    rcases stands_cons_iff.mp hs with ⟨rfl, rfl⟩ | ⟨text', rest, t, rfl, hr', ht, rfl⟩ |
      ⟨rest, rfl, ht⟩
    · exact hd
    · obtain rfl : text = text' := Except.ok.inj (hr.symm.trans hr')
      rcases List.cons_lt_cons_iff.mp hlt with h0 | ⟨-, hrest⟩
      · exact absurd h0 (Nat.lt_irrefl 0)
      · exact h.passed rest t ht hrest
    · exact absurd hlt (lexicographic_lt.not_later_zero ht.ne_nil)
  ended := by
    obtain ⟨done, hdone, rfl⟩ := h.ended
    exact ⟨_, hdone.inside hr, by rw [List.map_map]; rfl⟩

/-- A walk that is done with the first directive goes on behind it. -/
theorem CameTo.past (hr : read (d.targetFrom directory) = .ok text)
    (hd : ¬stops ⟨[], directory, d⟩)
    (h : CameTo read (d.targetFrom directory).parent (Directive.find (Frontmatter.body text))
      (fun s => stops (s.below (d.targetFrom directory)))
      [(Directive.find (Frontmatter.body text)).length] within)
    (hafter : CameTo read directory ds stops address after) :
    CameTo read directory (d :: ds) stops (later address)
      (within ++ (String.ofList d.path, d.targetFrom directory) :: after) where
  ne_nil := by
    obtain ⟨i, rest, rfl⟩ := List.exists_cons_of_ne_nil hafter.ne_nil
    exact List.cons_ne_nil _ _
  passed b s hs hlt := by
    rcases stands_cons_iff.mp hs with ⟨rfl, rfl⟩ | ⟨text', rest, t, rfl, hr', ht, rfl⟩ |
      ⟨rest, rfl, ht⟩
    · exact hd
    · obtain rfl : text = text' := Except.ok.inj (hr.symm.trans hr')
      exact h.passed rest t ht (ht.before_end lexicographic_lt)
    · exact hafter.passed rest s ht ((lexicographic_lt.later_later ht.ne_nil hafter.ne_nil).mp hlt)
  ended := by
    obtain ⟨done, hdone, rfl⟩ := h.ended
    obtain ⟨doneAfter, hdoneAfter, rfl⟩ := hafter.ended
    refine ⟨_, hdone.past hr hdoneAfter hafter.ne_nil, ?_⟩
    rw [List.map_append, List.map_append, List.map_map, List.map_map, List.append_assoc]
    rfl

end CameTo

end Rulebook.Include
