import Mathlib.Data.Set.Card
import Rulebook.Proofs.Include.Blame
import Rulebook.Proofs.Include.Replacement

/-!
# The depth limit

The limit only ever stops an expansion: one that does not fail for it is the same with every higher
limit (`expand_eq_of_le`). Nor is it needed to come to an end. The files above a directive are
pairwise different and can all be read, so no directive lies deeper than there are such files, and
all limits above their number give one and the same resolution (`resolve_eq_of_limit_le`).
-/

namespace Rulebook

/-! ## Files beside a document -/

namespace View

variable {v : View} {document p : Path}

/-- The normal paths, other than that of the document, that lead to a file with text. -/
def otherTexts (v : View) (document : Path) : Set Path :=
  {p | (∃ q, v.absolute q = p) ∧ p ≠ v.absolute document ∧ v.HasText p}

theorem mem_otherTexts_iff :
    p ∈ v.otherTexts document ↔ p.IsNormal ∧ p ≠ v.absolute document ∧ v.HasText p := by
  refine and_congr_left' ⟨?_, fun hp => ⟨p, hp.absolute_eq v.directory⟩⟩
  rintro ⟨q, rfl⟩
  exact v.isNormal_absolute q

/-- The two absolute paths that go through the same names. -/
def fromRoot (l : Location) : List Path := [⟨.root, l⟩, ⟨.doubleRoot, l⟩]

theorem otherTexts_subset (v : View) (document : Path) :
    v.otherTexts document ⊆ {p | p ∈ (v.tree.entries.map (·.1)).flatMap fromRoot} := by
  intro p hp
  obtain ⟨hnormal, -, htext⟩ := mem_otherTexts_iff.mp hp
  obtain ⟨s, hs⟩ := hasText_iff.mp htext
  refine List.mem_flatMap.mpr ⟨p.parts, mem_entries_of_readText hnormal hs, ?_⟩
  have habsolute := hnormal.isAbsolute
  obtain ⟨origin, parts⟩ := p
  cases origin with
  | here => cases habsolute
  | root => exact List.mem_cons_self
  | doubleRoot => exact List.mem_cons_of_mem _ List.mem_cons_self

theorem finite_otherTexts (v : View) (document : Path) : (v.otherTexts document).Finite :=
  (List.finite_toSet _).subset (v.otherTexts_subset document)

theorem ncard_otherTexts_le (v : View) (document : Path) :
    (v.otherTexts document).ncard ≤ 2 * v.tree.entries.length := by
  have hlength (ls : List Location) : (ls.flatMap fromRoot).length = 2 * ls.length := by
    simp [fromRoot, Nat.mul_comm]
  calc (v.otherTexts document).ncard
      ≤ (((v.tree.entries.map (·.1)).flatMap fromRoot).toFinset : Set Path).ncard := by
        refine Set.ncard_le_ncard (fun p hp => ?_) (Finset.finite_toSet _)
        exact Finset.mem_coe.mpr (List.mem_toFinset.mpr (v.otherTexts_subset document hp))
    _ = ((v.tree.entries.map (·.1)).flatMap fromRoot).toFinset.card := Set.ncard_coe_finset _
    _ ≤ ((v.tree.entries.map (·.1)).flatMap fromRoot).length := List.toFinset_card_le _
    _ = 2 * v.tree.entries.length := by rw [hlength, List.length_map]

/-- Pairwise different paths are at most as many as all together. -/
theorem length_le_ncard_otherTexts {files : List Path} (hnodup : files.Nodup)
    (h : ∀ p ∈ files, p ∈ v.otherTexts document) :
    files.length ≤ (v.otherTexts document).ncard := by
  have hsubset : (files.toFinset : Set Path) ⊆ v.otherTexts document := fun p hp =>
    h p (List.mem_toFinset.mp (Finset.mem_coe.mp hp))
  calc files.length
      = files.toFinset.card := (List.toFinset_card_of_nodup hnodup).symm
    _ = (files.toFinset : Set Path).ncard := (Set.ncard_coe_finset files.toFinset).symm
    _ ≤ (v.otherTexts document).ncard := Set.ncard_le_ncard hsubset (v.finite_otherTexts document)

end View

namespace Include

/-! ## Runs that agree -/

namespace Traced

variable {α β : Type}

/-- What holds of a run only if it holds of the parts that it goes through. -/
structure IsInherited (Q : {α : Type} → Traced α → Prop) : Prop where
  first {α β : Type} {x : Traced α} {f : α → Traced β} : Q (x >>= f) → Q x
  rest {α β : Type} {x : Traced α} {f : α → Traced β} {a : α} :
    Q (x >>= f) → x.result = .ok a → Q (f a)

/-- Runs that go on alike from a value that comes out. -/
theorem bind_congr_of_ok {x : Traced α} {f g : α → Traced β}
    (h : ∀ a, x.result = .ok a → f a = g a) : x >>= f = x >>= g := by
  cases hx : x.result with
  | error e => rw [bind_of_error hx, bind_of_error hx]
  | ok a => rw [bind_of_ok hx, bind_of_ok hx, h a hx]

end Traced

theorem splice_eq_of_isInherited {Q : {α : Type} → Traced α → Prop} (hQ : Traced.IsInherited Q)
    {expansion expansion' : Directive → Traced Text} {body : Text}
    (heq : ∀ d, Q (expansion d) → expansion' d = expansion d) {offset : Nat} {ds : List Directive}
    (h : Q (splice expansion body offset ds)) :
    splice expansion' body offset ds = splice expansion body offset ds := by
  induction ds generalizing offset with
  | nil => rfl
  | cons d ds ih =>
    -- the `do` blocks written out, so that `hQ` applies to their parts
    show (expansion' d >>= fun inner => splice expansion' body d.stop ds >>= fun rest =>
      pure ((body.take d.start).drop offset ++ inner ++ rest)) = expansion d >>= fun inner =>
        splice expansion body d.stop ds >>= fun rest =>
          pure ((body.take d.start).drop offset ++ inner ++ rest)
    have h : Q (expansion d >>= fun inner => splice expansion body d.stop ds >>= fun rest =>
      pure ((body.take d.start).drop offset ++ inner ++ rest)) := h
    rw [heq d (hQ.first h)]
    refine Traced.bind_congr_of_ok fun inner hinner => ?_
    have hrest := hQ.rest h hinner
    rw [ih (hQ.first hrest)]

/-- What holds at a directive whose target is entered holds of the expansion of the target. -/
theorem Traced.IsInherited.of_opened {Q : {α : Type} → Traced α → Prop} (hQ : IsInherited Q)
    {read : Path → Except File.ReadError Text} {limit depth : Nat} {n : Nesting} {d : Directive}
    {text : Text} (h : Q (opened read limit (depth + 1) n d)) (hc : target n d ∉ n.files)
    (hr : read (target n d) = .ok text) :
    Q (expand read limit depth (n.enter (target n d)) (Frontmatter.body text)) := by
  rw [opened_of_ok hc hr] at h
  exact hQ.first (hQ.rest (a := ()) h rfl)

/-! ## Higher limits -/

/-- Not ended by a directive that lies too deep. -/
def Traced.IsWithinLimit {α : Type} (x : Traced α) : Prop :=
  ∀ e k, x.result = .error e → e.cause ≠ .tooDeep k

theorem Traced.isInherited_isWithinLimit : IsInherited IsWithinLimit where
  first h e k hx := h e k (by rw [bind_of_error hx])
  rest h hx := by
    rw [bind_of_ok hx] at h
    exact h

section Expand

variable {read : Path → Except File.ReadError Text} {limit limit' depth depth' : Nat} {n : Nesting}
  {d : Directive} {body : Text}

/-- A directive that may lie deeper gives the same if the expansion of its target does. -/
theorem opened_succ_eq
    (ih : ∀ n body, (expand read limit depth n body).IsWithinLimit →
      expand read limit' depth' n body = expand read limit depth n body)
    (h : (opened read limit (depth + 1) n d).IsWithinLimit) :
    opened read limit' (depth' + 1) n d = opened read limit (depth + 1) n d := by
  by_cases hc : target n d ∈ n.files
  · rw [opened_of_mem hc, opened_of_mem hc]
  cases hr : read (target n d) with
  | error why => rw [opened_of_error hc hr, opened_of_error hc hr]
  | ok text =>
    rw [opened_of_ok hc hr, opened_of_ok hc hr,
      ih _ _ (Traced.isInherited_isWithinLimit.of_opened h hc hr)]

/-- An expansion that does not fail for its limit is the same with every higher one. -/
theorem expand_eq_of_le (h : (expand read limit depth n body).IsWithinLimit)
    (hle : depth ≤ depth') :
    expand read limit' depth' n body = expand read limit depth n body := by
  induction depth generalizing depth' n body with
  | zero =>
    -- at depth zero every directive fails, and only those that lead back fail within the limit
    rw [expand_eq] at h ⊢
    rw [expand_eq]
    refine splice_eq_of_isInherited Traced.isInherited_isWithinLimit (fun d hd => ?_) h
    by_cases hc : target n d ∈ n.files
    · rw [opened_of_mem hc, opened_of_mem hc]
    · rw [opened_zero hc] at hd
      exact absurd rfl (hd _ limit rfl)
  | succ depth ih =>
    obtain ⟨depth', rfl⟩ : ∃ k, depth' = k + 1 := ⟨depth' - 1, by omega⟩
    rw [expand_eq] at h ⊢
    rw [expand_eq]
    refine splice_eq_of_isInherited Traced.isInherited_isWithinLimit (fun d hd => ?_) h
    exact opened_succ_eq (fun n body hn => ih hn (Nat.le_of_succ_le_succ hle)) hd

end Expand

namespace Resolution

/-- Failed because a directive lies too deep. -/
def ExceedsDepth (r : Resolution) : Prop := ∃ e k, r.error = some e ∧ e.cause = .tooDeep k

end Resolution

section Resolution

variable {read : Path → Except File.ReadError Text} {limit limit' : Nat} {file base : Path}
  {content : Text}

theorem resolution_eq_of_le (hle : limit ≤ limit')
    (h : ¬(resolution read limit file base content).ExceedsDepth) :
    resolution read limit' file base content = resolution read limit file base content := by
  have hwithin :
      (expand read limit limit ⟨file, [], base⟩ (Frontmatter.body content)).IsWithinLimit := by
    intro e k he hk
    refine h ⟨e, k, resolution_error_eq_some_iff.mpr ?_, hk⟩
    rw [walk, ← ran_expand, Traced.ran_error_iff, he]
  unfold resolution
  dsimp only
  rw [expand_eq_of_le hwithin hle]

theorem resolve_eq_of_le (hle : limit ≤ limit')
    (h : ∀ r, resolve read limit file base content = .ok r → ¬r.ExceedsDepth) :
    resolve read limit' file base content = resolve read limit file base content := by
  have hwithin : ¬(resolution read limit file base content).ExceedsDepth := by
    rcases resolve_cases read limit file base content with ⟨-, hok⟩ | ⟨e, he, hcause, -⟩
    · exact h _ hok
    · rintro ⟨e', k, he', hcause'⟩
      obtain rfl : e = e' := Option.some.inj (he.symm.trans he')
      cases hcause.symm.trans hcause'
  unfold resolve
  rw [resolution_eq_of_le hle hwithin]

end Resolution

/-! ## How deep directives can lie -/

section Depth

variable {v : View} {document base : Path} {ds : List Directive} {address : List Nat} {s : Spot}

theorem Stands.isNormal_above (hbase : base.IsNormal)
    (h : Stands v.readText base ds address s) : ∀ p ∈ s.above, p.IsNormal := by
  induction h with
  | here => exact fun _ hp => nomatch hp
  | @inside directory _ _ d _ _ _ _ _ _ ih =>
    have htarget : (d.targetFrom directory).IsNormal := Path.isNormal_absolute hbase.isAbsolute _
    intro p hp
    rcases List.mem_append.mp hp with hp | hp
    · exact ih htarget.parent p hp
    · exact List.mem_singleton.mp hp ▸ htarget

/-- Where no directive on the way leads back, a directive lies at most one level deeper than there
are files with text beside the document. -/
theorem Stands.level_le_ncard (h : Stands v.readText (v.absolute base) ds address s)
    (hway : OnTheWay v.readText (v.absolute base) ds address fun t =>
      t.target ∉ t.files [v.absolute document]) :
    s.level ≤ (v.otherTexts document).ncard + 1 := by
  have hnodup : (s.above ++ [v.absolute document]).Nodup :=
    h.nodup_files (List.nodup_singleton _) hway
  obtain ⟨habove, -, hdisjoint⟩ := List.nodup_append.mp hnodup
  refine Nat.succ_le_succ (View.length_le_ncard_otherTexts habove fun p hp => ?_)
  exact View.mem_otherTexts_iff.mpr ⟨h.isNormal_above (v.isNormal_absolute base) p hp,
    hdisjoint p hp _ (List.mem_singleton_self _), View.hasText_iff.mpr (h.read_above p hp)⟩

/-- A resolution comes to no directive that lies deeper than its limit, if that is large enough. -/
theorem not_exceedsDepth {limit : Nat} {content : Text}
    (hlimit : (v.otherTexts document).ncard + 1 ≤ limit) :
    ¬(resolution v.readText limit (v.absolute document) (v.absolute base)
      content).ExceedsDepth := by
  rintro ⟨e, k, he, hcause⟩
  obtain ⟨address, s, hfirst, hblames, -⟩ := exists_firstStop he
  have hlevel : s.level ≤ (v.otherTexts document).ncard + 1 :=
    hfirst.stands.level_le_ncard fun b t ht hb hne hmem => hfirst.onTheWay b t ht hb hne (.inl hmem)
  obtain ⟨-, -, hdeep⟩ := (hcause ▸ hblames.cause).of_tooDeep
  omega

end Depth

/-- A resolution that does not fail for its limit is the same with every higher one. A directive
above which none leads back lies at most one level deeper than there are files with text beside the
document; with no smaller limit a resolution never fails for it, and all these are the same. -/
theorem resolve_eq_of_limit_le (v : View) (document base : Path) (content : Text) :
    (∀ limit limit', limit ≤ limit' →
      (∀ r, resolve v.readText limit (v.absolute document) (v.absolute base) content = .ok r →
        ¬r.ExceedsDepth) →
      resolve v.readText limit' (v.absolute document) (v.absolute base) content =
        resolve v.readText limit (v.absolute document) (v.absolute base) content) ∧
    (v.otherTexts document).Finite ∧
    (∀ address s, Stands v.readText (v.absolute base) (Directive.find (Frontmatter.body content))
        address s →
      OnTheWay v.readText (v.absolute base) (Directive.find (Frontmatter.body content)) address
        (fun t => t.target ∉ t.files [v.absolute document]) →
      s.level ≤ (v.otherTexts document).ncard + 1) ∧
    ∀ limit, (v.otherTexts document).ncard + 1 ≤ limit →
      (∀ r, resolve v.readText limit (v.absolute document) (v.absolute base) content = .ok r →
        ¬r.ExceedsDepth) ∧
      resolve v.readText limit (v.absolute document) (v.absolute base) content =
        resolve v.readText ((v.otherTexts document).ncard + 1) (v.absolute document)
          (v.absolute base) content := by
  have hwithin : ∀ limit, (v.otherTexts document).ncard + 1 ≤ limit →
      ∀ r, resolve v.readText limit (v.absolute document) (v.absolute base) content = .ok r →
        ¬r.ExceedsDepth := by
    intro limit hlimit r hr
    obtain rfl := eq_resolution_of_resolve hr
    exact not_exceedsDepth hlimit
  refine ⟨fun limit limit' => resolve_eq_of_le, v.finite_otherTexts document,
    fun address s => Stands.level_le_ncard, fun limit hlimit => ⟨hwithin limit hlimit, ?_⟩⟩
  exact resolve_eq_of_le hlimit (hwithin _ (Nat.le_refl _))

theorem resolve_eq_of_limit_le_cycle :
    let bytes (s : String) := s.toList.map fun c => UInt8.ofNat c.toNat
    let v : View := ⟨⟨[(["a.md"], .file (bytes "@include a.md\n"))]⟩, []⟩
    let document := Path.ofText "doc.md"
    let content := "@include a.md\n".toList
    ∃ r e, resolve v.readText 3 (v.absolute document) (v.absolute document.parent) content = .ok r ∧
      r.error = some e ∧ e.chain? = some [⟨.root, ["a.md"]⟩, ⟨.root, ["a.md"]⟩] ∧
      (v.otherTexts document).ncard + 1 ≤ 3 ∧ ¬r.ExceedsDepth ∧
      resolve v.readText 7 (v.absolute document) (v.absolute document.parent) content = .ok r := by
  intro bytes v document content
  have hfacts : (resolve v.readText 3 (v.absolute document) (v.absolute document.parent)
      content).toOption.map (fun r => r.error.map Error.chain?) =
        some (some (some [⟨.root, ["a.md"]⟩, ⟨.root, ["a.md"]⟩])) := by
    decide +kernel
  obtain ⟨r, hr, hrfacts⟩ := exists_of_map_toOption hfacts
  obtain ⟨e, he, hchain⟩ := Option.map_eq_some_iff.mp hrfacts
  have hcard : (v.otherTexts document).ncard + 1 ≤ 3 :=
    Nat.succ_le_succ (v.ncard_otherTexts_le document)
  obtain ⟨hmono, -, -, henough⟩ := resolve_eq_of_limit_le v document document.parent content
  have hwithin := (henough 3 hcard).1
  refine ⟨r, e, hr, he, hchain, hcard, hwithin r hr, ?_⟩
  rw [hmono 3 7 (by decide) hwithin, hr]

end Include

end Rulebook
